import BfMultiplayer.SaveFile

/-!
# What loading leaves behind

The constructor of the server loads the save file into a fresh value. A missing
file gives the default, and a file of the right shape gives what it stores. A
file that is no JSON is only logged: the shared save stays unset. JSON that is
converted with a loss, such as a fraction or a number beyond an `int`, gives
other progress than it stores, and any other JSON ends the constructor with an
exception.
-/

namespace BfMultiplayer.LoadOutcomes

open ByteBuffer Packets ServerState JsonValue SaveFile

/-- The shared save holds some bytes. -/
structure SharedIs (shared : List UInt8) (data : ServerSaveData) : Prop where
  /-- Their number is recorded. -/
  size : data.sharedSaveSize = shared.length
  /-- They are in the array. -/
  bytes : firstBytes data.sharedSave data.sharedSaveSize = shared

/-- Empty progress and the default shared save. -/
structure DefaultState (shared : List UInt8) (data : ServerSaveData) : Prop
    extends SharedIs shared data where
  /-- The panels are in their first state. -/
  jumpFlipState : data.jumpFlipState = false
  /-- Nothing is counted. -/
  numCollectedGoalItems : data.numCollectedGoalItems = 0
  /-- No shine is listed. -/
  collectedGoalItems : data.collectedGoalItems = []
  /-- No island was changed. -/
  islandToScenarioMap : data.islandToScenarioMap = ∅
  /-- No toad is unlocked. -/
  unlockedToads : data.unlockedToads = []
  /-- No shard is listed. -/
  collectedShards : data.collectedShards = []

/-- The pair that an object holds under two keys. -/
def pairOf (islandKey scenarioKey : String) (json : Json) : GoalItemCollectData :=
  ⟨(json.member islandKey).numberOf, (json.member scenarioKey).numberOf⟩

/-- The name and the scenario that an object holds. -/
def islandOf (json : Json) : CString × ℤ :=
  ((json.member "name").bytesOf, (json.member "scenarioID").numberOf)

/-- A pair of values under two keys that convert to an `int`. -/
def PairReadable (islandKey scenarioKey : String) (json : Json) : Prop :=
  json.HasMember islandKey ∧ (json.member islandKey).IsNumber ∧
    json.HasMember scenarioKey ∧ (json.member scenarioKey).IsNumber

/-- A name with a value that converts to an `int`. -/
def IslandReadable (json : Json) : Prop :=
  json.HasMember "scenarioID" ∧ (json.member "scenarioID").IsNumber ∧
    json.HasMember "name" ∧ (json.member "name").IsString

/-- A JSON value that the conversions of `load` accept. -/
structure Readable (json : Json) : Prop where
  /-- It has keys. -/
  members : json.HasMembers
  /-- The panels are a boolean. -/
  jumpFlipState : (json.member "jumpFlipState").IsBool
  /-- The counter converts to an `int`. -/
  numCollectedGoalItems : (json.member "numCollectedGoalItems").IsNumber
  /-- What is visited for the shines are pairs. -/
  goalItems : ∀ item ∈ (json.member "goalItems").elements,
    PairReadable "islandID" "scenarioID" item
  /-- What is visited for the islands has names and scenarios. -/
  islands : ∀ island ∈ (json.member "islands").elements, IslandReadable island
  /-- What is visited for the toads converts to an `int`. -/
  unlockedToads : ∀ toad ∈ (json.member "unlockedToads").elements, toad.IsNumber
  /-- What is visited for the shards are pairs. -/
  collectedShards : ∀ shard ∈ (json.member "collectedShards").elements,
    PairReadable "zoneID" "shardID" shard

/-- A pair of integers under two keys. -/
def PairShaped (islandKey scenarioKey : String) (json : Json) : Prop :=
  (json.member islandKey).IsInteger ∧ (json.member scenarioKey).IsInteger

/-- An island with its scenario. -/
def IslandShaped (json : Json) : Prop :=
  (json.member "name").IsString ∧ (json.member "scenarioID").IsInteger

/-- A list of elements of a shape. -/
def ListShaped (shape : Json → Prop) (json : Json) : Prop :=
  json.IsList ∧ ∀ element ∈ json.elements, shape element

/-- A JSON value of the shape of a save file. -/
structure WellShaped (json : Json) : Prop where
  /-- The panels are a boolean. -/
  jumpFlipState : (json.member "jumpFlipState").IsBool
  /-- The counter is an `int`. -/
  numCollectedGoalItems : (json.member "numCollectedGoalItems").IsInteger
  /-- The shines are pairs. -/
  goalItems : ListShaped (PairShaped "islandID" "scenarioID") (json.member "goalItems")
  /-- The islands have names and scenarios. -/
  islands : ListShaped IslandShaped (json.member "islands")
  /-- The toads are numbers. -/
  unlockedToads : ListShaped Json.IsInteger (json.member "unlockedToads")
  /-- The shards are pairs. -/
  collectedShards : ListShaped (PairShaped "zoneID" "shardID") (json.member "collectedShards")

/-- A JSON value that is taken for empty progress. -/
structure ReadsEmpty (json : Json) : Prop where
  /-- The panels are in their first state. -/
  jumpFlipState : json.member "jumpFlipState" = .bool false
  /-- The counter is taken for zero. -/
  numCollectedGoalItems : (json.member "numCollectedGoalItems").ReadsZero
  /-- Nothing is visited for the shines. -/
  goalItems : (json.member "goalItems").elements = []
  /-- Nothing is visited for the islands. -/
  islands : (json.member "islands").elements = []
  /-- Nothing is visited for the toads. -/
  unlockedToads : (json.member "unlockedToads").elements = []
  /-- Nothing is visited for the shards. -/
  collectedShards : (json.member "collectedShards").elements = []

/-- An object stores a pair of `int`s under two keys. -/
def PairStored (islandKey scenarioKey : String) (json : Json) (pair : GoalItemCollectData) : Prop :=
  (json.member islandKey).Denotes pair.islandID ∧ (json.member scenarioKey).Denotes pair.scenarioID

/-- An object stores a name and an `int`. -/
def IslandStored (json : Json) (island : CString × ℤ) : Prop :=
  json.member "name" = .str island.1 ∧ (json.member "scenarioID").Denotes island.2

/-- Islands put into a map, the last one of a name for good. -/
def scenarioMapOf (islands : List (CString × ℤ)) : ScenarioMap :=
  islands.foldl (fun map island => map.insert island.1 island.2) ∅

/-- The progress that a JSON value stores, with the bytes of the shared save. -/
structure StoredState (json : Json) (shared : List UInt8) (data : ServerSaveData) : Prop
    extends SharedIs shared data where
  /-- The panels. -/
  jumpFlipState : json.member "jumpFlipState" = .bool data.jumpFlipState
  /-- The counter. -/
  numCollectedGoalItems : (json.member "numCollectedGoalItems").Denotes data.numCollectedGoalItems
  /-- The shines. -/
  collectedGoalItems : (json.member "goalItems").Stores (PairStored "islandID" "scenarioID")
    data.collectedGoalItems
  /-- The islands. -/
  islandToScenarioMap : ∃ islands, (json.member "islands").Stores IslandStored islands ∧
    data.islandToScenarioMap = scenarioMapOf islands
  /-- The toads. -/
  unlockedToads : (json.member "unlockedToads").Stores Json.Denotes data.unlockedToads
  /-- The shards. -/
  collectedShards : (json.member "collectedShards").Stores (PairStored "zoneID" "shardID")
    data.collectedShards

/-- Loading into a fresh value returns, with the stored state or the default. -/
def LoadsUsable (library : JsonLibrary) (files : SaveFiles) (memory : Buffer sharedSaveCapacity)
    (shared default : List UInt8) : Prop :=
  ∃ written loaded, load library files (.fresh memory) = .ok (written, loaded) ∧
    ((∃ text json, files.saveData = some text ∧ library.parse text = .ok json ∧
      StoredState json shared loaded) ∨ DefaultState default loaded)

/-- The contents of the files on which loading does so. -/
def Loadable (library : JsonLibrary) (files : SaveFiles) (game default : List UInt8) : Prop :=
  match files.saveData with
  | none => True
  | some text =>
    match library.parse text with
    | .ok json => WellShaped json ∨ ReadsEmpty json ∧ game = default
    | .error .parseError => default = []
    | .error .outOfRange => False

/-- The island of an object is put into a map. -/
def addIsland (map : ScenarioMap) (json : Json) : ScenarioMap :=
  map.insert (islandOf json).1 (islandOf json).2

/-- A pair is read by its shape. -/
theorem readPair_reads (islandKey scenarioKey : String) :
    ReadsAs (readPair islandKey scenarioKey) (PairReadable islandKey scenarioKey)
      (pairOf islandKey scenarioKey) :=
  (at_reads islandKey).bind ((getInt_reads.comp (Json.member islandKey)).bind
    ((at_reads scenarioKey).bind (getInt_reads.comp (Json.member scenarioKey)).bind_pure))

/-- An island is read by its shape. -/
theorem readIsland_reads (map : ScenarioMap) :
    ReadsAs (readIsland map) IslandReadable (addIsland map) :=
  (at_reads "scenarioID").bind ((getInt_reads.comp (Json.member "scenarioID")).bind
    ((at_reads "name").bind (getString_reads.comp (Json.member "name")).bind_pure))

/-- What the reads of `load` make of a JSON value that they accept. -/
def readInto (data : ServerSaveData) (json : Json) : ServerSaveData :=
  { data with
    jumpFlipState := (json.member "jumpFlipState").boolOf
    numCollectedGoalItems := (json.member "numCollectedGoalItems").numberOf
    collectedGoalItems := data.collectedGoalItems ++
      (json.member "goalItems").elements.map (pairOf "islandID" "scenarioID")
    islandToScenarioMap :=
      (json.member "islands").elements.foldl addIsland data.islandToScenarioMap
    unlockedToads := data.unlockedToads ++
      (json.member "unlockedToads").elements.map Json.numberOf
    collectedShards := data.collectedShards ++
      (json.member "collectedShards").elements.map (pairOf "zoneID" "shardID") }

/-- They accept this shape and no other. -/
theorem readJson_reads (data : ServerSaveData) :
    ReadsAs (fun json => readJson json data) Readable (readInto data) := by
  have hpairs : ∀ key islandKey scenarioKey, ReadsAs
      (fun json : Json => (json.member key).elements.mapM (readPair islandKey scenarioKey))
      (fun json => ∀ item ∈ (json.member key).elements, PairReadable islandKey scenarioKey item)
      (fun json => (json.member key).elements.map (pairOf islandKey scenarioKey)) :=
    fun key islandKey scenarioKey =>
      (readPair_reads islandKey scenarioKey).mapM.comp fun json : Json => (json.member key).elements
  have hislands := (ReadsAs.foldlM readIsland_reads data.islandToScenarioMap).comp
    fun json : Json => (json.member "islands").elements
  have htoads := getInt_reads.mapM.comp fun json : Json => (json.member "unlockedToads").elements
  have hreads : ReadsAs (fun json => readJson json data) _ (readInto data) :=
    (index_reads "jumpFlipState").bind ((getBool_reads.comp (Json.member "jumpFlipState")).bind
      ((index_reads "numCollectedGoalItems").bind
        ((getInt_reads.comp (Json.member "numCollectedGoalItems")).bind
          ((index_reads "goalItems").bind ((hpairs "goalItems" "islandID" "scenarioID").bind
            ((index_reads "islands").bind (hislands.bind
              ((index_reads "unlockedToads").bind (htoads.bind
                ((index_reads "collectedShards").bind
                  (hpairs "collectedShards" "zoneID" "shardID").bind_pure))))))))))
  refine hreads.of_iff fun json => ⟨?_, ?_⟩
  · rintro ⟨hmembers, hflip, -, hcount, -, hgoal, -, hisland, -, htoad, -, hshard⟩
    exact ⟨hmembers, hflip, hcount, hgoal, hisland, htoad, hshard⟩
  · intro h
    exact ⟨h.members, h.jumpFlipState, h.members, h.numCollectedGoalItems, h.members, h.goalItems,
      h.members, h.islands, h.members, h.unlockedToads, h.members, h.collectedShards⟩

/-- A value under a key that is not null is there. -/
theorem hasMember_of_ne_null {key : String} {json : Json} (h : json.member key ≠ .null) :
    json.HasMember key := by
  cases json with
  | obj fields =>
    rw [Json.member] at h
    rw [Json.HasMember, Option.isSome_iff_ne_none]
    intro hnone
    rw [hnone] at h
    exact h rfl
  | _ => exact absurd rfl h

/-- A number is not null. -/
theorem member_of_isInteger {key : String} {json : Json} (h : (json.member key).IsInteger) :
    json.HasMember key ∧ (json.member key).IsNumber := by
  refine ⟨hasMember_of_ne_null ?_, h.isNumber⟩
  intro hnull
  rw [hnull] at h
  exact h

/-- Only null and objects have a boolean under a key. -/
theorem hasMembers_of_isBool {key : String} {json : Json} (h : (json.member key).IsBool) :
    json.HasMembers := by
  cases json with
  | obj fields => trivial
  | _ => exact h.elim

/-- The shape of a save file is accepted. -/
theorem WellShaped.readable {json : Json} (h : WellShaped json) : Readable json := by
  have hpair : ∀ {islandKey scenarioKey : String} {item : Json},
      PairShaped islandKey scenarioKey item → PairReadable islandKey scenarioKey item := by
    intro islandKey scenarioKey item hitem
    obtain ⟨hisland, hscenario⟩ := hitem
    obtain ⟨hfirst, hfirstNumber⟩ := member_of_isInteger hisland
    obtain ⟨hsecond, hsecondNumber⟩ := member_of_isInteger hscenario
    exact ⟨hfirst, hfirstNumber, hsecond, hsecondNumber⟩
  refine ⟨hasMembers_of_isBool h.jumpFlipState, h.jumpFlipState, h.numCollectedGoalItems.isNumber,
    fun item hitem => hpair (h.goalItems.2 item hitem), ?_,
    fun toad htoad => (h.unlockedToads.2 toad htoad).isNumber,
    fun shard hshard => hpair (h.collectedShards.2 shard hshard)⟩
  intro island hisland
  obtain ⟨hname, hscenario⟩ := h.islands.2 island hisland
  obtain ⟨hmember, hnumber⟩ := member_of_isInteger hscenario
  refine ⟨hmember, hnumber, hasMember_of_ne_null ?_, hname⟩
  intro hnull
  rw [hnull] at hname
  exact hname

/-- Empty progress is accepted. -/
theorem ReadsEmpty.readable {json : Json} (h : ReadsEmpty json) : Readable json := by
  have hflip : (json.member "jumpFlipState").IsBool := by
    rw [h.jumpFlipState]
    trivial
  have hnone : ∀ {key : String} {P : Json → Prop}, (json.member key).elements = [] →
      ∀ element ∈ (json.member key).elements, P element := by
    intro key P hempty element helement
    rw [hempty] at helement
    exact absurd helement List.not_mem_nil
  exact ⟨hasMembers_of_isBool hflip, hflip, ((readsZero_iff _).mp h.numCollectedGoalItems).1,
    hnone h.goalItems, hnone h.islands, hnone h.unlockedToads, hnone h.collectedShards⟩

/-- A boolean is the one that is read. -/
theorem eq_bool_iff (json : Json) (b : Bool) : json = .bool b ↔ json.IsBool ∧ json.boolOf = b := by
  cases json with
  | bool value =>
    rw [Json.bool.injEq]
    exact (and_iff_right trivial).symm
  | _ => exact iff_of_false (fun h => nomatch h) And.left

/-- A pair is stored when it is one of integers, and it is the one that is read. -/
theorem pairStored_iff (islandKey scenarioKey : String) (json : Json) (pair : GoalItemCollectData) :
    PairStored islandKey scenarioKey json pair ↔
      PairShaped islandKey scenarioKey json ∧ pairOf islandKey scenarioKey json = pair := by
  rw [PairStored, PairShaped, denotes_iff, denotes_iff, pairOf]
  constructor
  · rintro ⟨⟨hisland, hfirst⟩, hscenario, hsecond⟩
    exact ⟨⟨hisland, hscenario⟩, by rw [hfirst, hsecond]⟩
  · rintro ⟨⟨hisland, hscenario⟩, rfl⟩
    exact ⟨⟨hisland, rfl⟩, hscenario, rfl⟩

/-- An island is stored when it has a name and an integer, and it is the one that is read. -/
theorem islandStored_iff (json : Json) (island : CString × ℤ) :
    IslandStored json island ↔ IslandShaped json ∧ islandOf json = island := by
  have hname : ∀ name : Json, name = .str island.1 ↔ name.IsString ∧ name.bytesOf = island.1 := by
    intro name
    cases name with
    | str bytes =>
      rw [Json.str.injEq]
      exact (and_iff_right trivial).symm
    | _ => exact iff_of_false (fun h => nomatch h) And.left
  rw [IslandStored, IslandShaped, hname, denotes_iff, islandOf]
  constructor
  · rintro ⟨⟨hstring, hbytes⟩, hscenario, hnumber⟩
    exact ⟨⟨hstring, hscenario⟩, by rw [hbytes, hnumber]⟩
  · rintro ⟨⟨hstring, hscenario⟩, rfl⟩
    exact ⟨⟨hstring, rfl⟩, hscenario, rfl⟩

/-- The islands that are visited, put into a map. -/
theorem foldl_addIsland (elements : List Json) :
    elements.foldl addIsland ∅ = scenarioMapOf (elements.map islandOf) := by
  rw [scenarioMapOf, List.foldl_map]
  rfl

/-- Any island makes the map a non-empty one. -/
theorem foldl_addIsland_eq_empty {elements : List Json} (h : elements.foldl addIsland ∅ = ∅) :
    elements = [] := by
  rcases List.eq_nil_or_concat elements with hnil | ⟨before, last, rfl⟩
  · exact hnil
  · rw [List.concat_eq_append, List.foldl_append, List.foldl_cons, List.foldl_nil, addIsland] at h
    exact absurd h Std.ExtTreeMap.insert_ne_empty

/-- What is read into an empty value is what the JSON value stores exactly when that has the
shape of a save file. -/
theorem storedState_iff {game : List UInt8} {size : ℕ} {memory shared : Buffer sharedSaveCapacity}
    {json : Json} (hshared : SharedIs game (withShared (readInto (.fresh memory) json) size shared)) :
    StoredState json game (withShared (readInto (.fresh memory) json) size shared) ↔
      WellShaped json := by
  constructor
  · intro h
    obtain ⟨islands, hislands, -⟩ := h.islandToScenarioMap
    exact ⟨((eq_bool_iff _ _).mp h.jumpFlipState).1,
      ((denotes_iff _ _).mp h.numCollectedGoalItems).1,
      ((stores_iff (pairStored_iff _ _) _ _).mp h.collectedGoalItems).1,
      ((stores_iff islandStored_iff _ _).mp hislands).1,
      ((stores_iff denotes_iff _ _).mp h.unlockedToads).1,
      ((stores_iff (pairStored_iff _ _) _ _).mp h.collectedShards).1⟩
  · intro h
    exact ⟨hshared, (eq_bool_iff _ _).mpr ⟨h.jumpFlipState, rfl⟩,
      (denotes_iff _ _).mpr ⟨h.numCollectedGoalItems, rfl⟩,
      (stores_iff (pairStored_iff _ _) _ _).mpr ⟨h.goalItems, rfl⟩,
      ⟨_, (stores_iff islandStored_iff _ _).mpr ⟨h.islands, rfl⟩, foldl_addIsland _⟩,
      (stores_iff denotes_iff _ _).mpr ⟨h.unlockedToads, rfl⟩,
      (stores_iff (pairStored_iff _ _) _ _).mpr ⟨h.collectedShards, rfl⟩⟩

/-- It is the default exactly when the JSON value is taken for empty progress and the two shared
saves are one. -/
theorem defaultState_iff {game default : List UInt8} {size : ℕ}
    {memory shared : Buffer sharedSaveCapacity} {json : Json} (hreadable : Readable json)
    (hshared : SharedIs game (withShared (readInto (.fresh memory) json) size shared)) :
    DefaultState default (withShared (readInto (.fresh memory) json) size shared) ↔
      ReadsEmpty json ∧ game = default := by
  constructor
  · intro h
    have hislands : (json.member "islands").elements = [] :=
      foldl_addIsland_eq_empty h.islandToScenarioMap
    refine ⟨⟨(eq_bool_iff _ _).mpr ⟨hreadable.jumpFlipState, h.jumpFlipState⟩,
      (readsZero_iff _).mpr ⟨hreadable.numCollectedGoalItems, h.numCollectedGoalItems⟩,
      List.map_eq_nil_iff.mp h.collectedGoalItems, hislands,
      List.map_eq_nil_iff.mp h.unlockedToads, List.map_eq_nil_iff.mp h.collectedShards⟩, ?_⟩
    exact hshared.bytes.symm.trans h.bytes
  · rintro ⟨hempty, rfl⟩
    have hnone : ∀ {α : Type} (f : Json → α) {key : String}, (json.member key).elements = [] →
        (json.member key).elements.map f = [] :=
      fun f _ hkey => List.map_eq_nil_iff.mpr hkey
    refine ⟨hshared, ((eq_bool_iff _ _).mp hempty.jumpFlipState).2,
      ((readsZero_iff _).mp hempty.numCollectedGoalItems).2, hnone _ hempty.goalItems, ?_,
      hnone _ hempty.unlockedToads, hnone _ hempty.collectedShards⟩
    calc (json.member "islands").elements.foldl addIsland ∅
        = [].foldl addIsland ∅ := by rw [hempty.islands]
      _ = ∅ := rfl

/-- The default shared save in a fresh value. -/
theorem loadSharedDefault_fresh {files : SaveFiles} {default : List UInt8}
    (memory : Buffer sharedSaveCapacity) (hdefault : files.gameDataDefault = some default)
    (hfits : default.length ≤ sharedSaveCapacity) :
    ∃ shared, firstBytes shared default.length = default ∧
      loadSharedDefault files (.fresh memory) =
        .ok (withShared (.fresh memory) default.length shared) := by
  obtain ⟨shared, hbytes, hload⟩ := loadShared_some hfits (.fresh memory)
  rw [← hdefault] at hload
  exact ⟨shared, hbytes, hload⟩

/-- Without a save file the default is loaded and saved. -/
theorem load_missing {library : JsonLibrary} {files : SaveFiles} {default : List UInt8}
    (memory : Buffer sharedSaveCapacity) (hmissing : files.saveData = none)
    (hdefault : files.gameDataDefault = some default)
    (hfits : default.length ≤ sharedSaveCapacity)
    (hdump : (library.dump (toJson (.fresh memory))).isSome) :
    ∃ written loaded, load library files (.fresh memory) = .ok (written, loaded) ∧
      DefaultState default loaded := by
  obtain ⟨shared, hbytes, hshared⟩ := loadSharedDefault_fresh memory hdefault hfits
  obtain ⟨text, htext⟩ := Option.isSome_iff_exists.mp hdump
  have htextOf : library.dump (toJson (withShared (.fresh memory) default.length shared)) =
      some text := htext
  have hsave : ∃ written,
      save library files (withShared (.fresh memory) default.length shared) = some written := by
    rw [save, htextOf, Option.bind_some]
    exact ⟨_, if_pos hfits⟩
  obtain ⟨written, hwritten⟩ := hsave
  refine ⟨written, withShared (.fresh memory) default.length shared, ?_, ?_⟩
  · simp only [load, hmissing, hshared, ok_bind, hwritten]
    rfl
  · exact ⟨⟨rfl, hbytes⟩, rfl, rfl, rfl, rfl, rfl, rfl⟩

/-- A save file with JSON that the conversions accept gives what they read. -/
theorem load_readable {library : JsonLibrary} {files : SaveFiles} {default game : List UInt8}
    {text : CString} {json : Json} (memory : Buffer sharedSaveCapacity)
    (htext : files.saveData = some text) (hparse : library.parse text = .ok json)
    (hreadable : Readable json) (hdefault : files.gameDataDefault = some default)
    (hdefaultFits : default.length ≤ sharedSaveCapacity)
    (hgame : files.gameData = some game) (hgameFits : game.length ≤ sharedSaveCapacity) :
    ∃ saved, SharedIs game (withShared (readInto (.fresh memory) json) game.length saved) ∧
      load library files (.fresh memory) =
        .ok (files, withShared (readInto (.fresh memory) json) game.length saved) := by
  obtain ⟨shared, -, hdefaultLoad⟩ := loadSharedDefault_fresh memory hdefault hdefaultFits
  have hreset : reset files (.fresh memory) =
      .ok (withShared (.fresh memory) default.length shared) := hdefaultLoad
  have hread :=
    (readJson_reads (withShared (.fresh memory) default.length shared)).ok json hreadable
  obtain ⟨saved, hbytes, hgameLoad⟩ :=
    loadShared_some hgameFits (readInto (withShared (.fresh memory) default.length shared) json)
  refine ⟨saved, ⟨rfl, hbytes⟩, ?_⟩
  simp only [load, htext, hparse, hreset, ok_bind, hread, Except.mapError, hgame, hgameLoad]
  rfl

/-- JSON that a conversion does not accept ends in an exception. -/
theorem load_misshaped {library : JsonLibrary} {files : SaveFiles} {default : List UInt8}
    {text : CString} {json : Json} (memory : Buffer sharedSaveCapacity)
    (htext : files.saveData = some text) (hparse : library.parse text = .ok json)
    (hreadable : ¬Readable json) (hdefault : files.gameDataDefault = some default)
    (hfits : default.length ≤ sharedSaveCapacity) :
    ∃ error, load library files (.fresh memory) = .error error := by
  obtain ⟨shared, -, hdefaultLoad⟩ := loadSharedDefault_fresh memory hdefault hfits
  have hreset : reset files (.fresh memory) =
      .ok (withShared (.fresh memory) default.length shared) := hdefaultLoad
  obtain ⟨error, herror⟩ :=
    (readJson_reads (withShared (.fresh memory) default.length shared)).fails json hreadable
  refine ⟨.json error, ?_⟩
  simp only [load, htext, hparse, hreset, ok_bind, herror, Except.mapError]
  rfl

/-- A save file that is no JSON leaves the fresh value, which is the default
only if the default shared save is empty. -/
theorem load_unparsed {library : JsonLibrary} {files : SaveFiles} {default game : List UInt8}
    {text : CString} (memory : Buffer sharedSaveCapacity) (htext : files.saveData = some text)
    (hparse : library.parse text = .error .parseError) :
    LoadsUsable library files memory game default ↔ default = [] := by
  have hload : load library files (.fresh memory) = .ok (files, .fresh memory) := by
    simp only [load, htext, hparse]
  constructor
  · intro h
    obtain ⟨written, loaded, hloaded, hstate⟩ := h
    rw [hload, Except.ok.injEq, Prod.mk.injEq] at hloaded
    rcases hstate with ⟨other, json, hother, hjson, -⟩ | hstate
    · rw [htext, Option.some.injEq] at hother
      rw [← hother, hparse] at hjson
      cases hjson
    · have hsize := hstate.size
      rw [← hloaded.2] at hsize
      exact List.eq_nil_of_length_eq_zero hsize.symm
  · intro hempty
    rw [hempty]
    exact ⟨files, .fresh memory, hload, Or.inr ⟨⟨rfl, rfl⟩, rfl, rfl, rfl, rfl, rfl, rfl⟩⟩

/-- An exception leaves no usable state. -/
theorem not_usable_of_error {library : JsonLibrary} {files : SaveFiles} {game default : List UInt8}
    {memory : Buffer sharedSaveCapacity} {error : LoadError}
    (h : load library files (.fresh memory) = .error error) :
    ¬LoadsUsable library files memory game default := by
  intro husable
  obtain ⟨written, loaded, hloaded, -⟩ := husable
  rw [h] at hloaded
  cases hloaded

/-- Loading a save file that is JSON returns with the stored state or the default one exactly
when it has the shape of a save file, or is taken for empty progress next to the default shared
save. -/
theorem load_parsed {library : JsonLibrary} {files : SaveFiles} {default game : List UInt8}
    {text : CString} {json : Json} (memory : Buffer sharedSaveCapacity)
    (htext : files.saveData = some text) (hparse : library.parse text = .ok json)
    (hdefault : files.gameDataDefault = some default)
    (hdefaultFits : default.length ≤ sharedSaveCapacity)
    (hgame : files.gameData = some game) (hgameFits : game.length ≤ sharedSaveCapacity) :
    LoadsUsable library files memory game default ↔
      WellShaped json ∨ ReadsEmpty json ∧ game = default := by
  by_cases hreadable : Readable json
  · obtain ⟨saved, hshared, hload⟩ :=
      load_readable memory htext hparse hreadable hdefault hdefaultFits hgame hgameFits
    rw [← storedState_iff hshared, ← defaultState_iff hreadable hshared]
    constructor
    · rintro ⟨written, loaded, hloaded, hstate⟩
      rw [hload, Except.ok.injEq, Prod.mk.injEq] at hloaded
      rw [hloaded.2]
      rcases hstate with ⟨other, value, hother, hvalue, hstored⟩ | hdefaultState
      · rw [htext, Option.some.injEq] at hother
        rw [← hother, hparse, Except.ok.injEq] at hvalue
        rw [hvalue]
        exact Or.inl hstored
      · exact Or.inr hdefaultState
    · intro hstate
      refine ⟨files, _, hload, ?_⟩
      rcases hstate with hstored | hdefaultState
      · exact Or.inl ⟨text, json, htext, hparse, hstored⟩
      · exact Or.inr hdefaultState
  · obtain ⟨error, herror⟩ := load_misshaped memory htext hparse hreadable hdefault hdefaultFits
    refine iff_of_false (not_usable_of_error herror) ?_
    rintro (hshape | ⟨hempty, -⟩)
    · exact hreadable hshape.readable
    · exact hreadable hempty.readable

/-- Loading into a fresh value returns with the stored state or the default
state exactly when the save file is missing, is JSON of the right shape, is
taken for empty progress next to the default shared save, or is no JSON while
the default shared save is empty. -/
theorem load_usable_iff (library : JsonLibrary) (files : SaveFiles) (default game : List UInt8)
    (memory : Buffer sharedSaveCapacity) (hdefault : files.gameDataDefault = some default)
    (hdefaultFits : default.length ≤ sharedSaveCapacity) (hgame : files.gameData = some game)
    (hgameFits : game.length ≤ sharedSaveCapacity)
    (hdump : (library.dump (toJson (.fresh memory))).isSome) :
    LoadsUsable library files memory game default ↔ Loadable library files game default := by
  cases htext : files.saveData with
  | none =>
    obtain ⟨written, loaded, hload, hstate⟩ :=
      load_missing memory htext hdefault hdefaultFits hdump
    have hloadable : Loadable library files game default := by simp only [Loadable, htext]
    exact iff_of_true ⟨written, loaded, hload, Or.inr hstate⟩ hloadable
  | some text =>
    cases hparse : library.parse text with
    | ok json =>
      have hloadable : Loadable library files game default ↔
          WellShaped json ∨ ReadsEmpty json ∧ game = default := by
        simp only [Loadable, htext, hparse]
      rw [hloadable]
      exact load_parsed memory htext hparse hdefault hdefaultFits hgame hgameFits
    | error e =>
      cases e with
      | parseError =>
        have hloadable : Loadable library files game default ↔ default = [] := by
          simp only [Loadable, htext, hparse]
        rw [hloadable]
        exact load_unparsed memory htext hparse
      | outOfRange =>
        have hloadable : ¬Loadable library files game default := by
          simp only [Loadable, htext, hparse, not_false_eq_true]
        have hload : load library files (.fresh memory) = .error .parse := by
          simp only [load, htext, hparse]
        exact iff_of_false (not_usable_of_error hload) hloadable

/-- Every JSON value that `save` builds has the right shape. -/
theorem wellShaped_toJson {data : ServerSaveData} (hrange : InRange data) :
    WellShaped (toJson data) := by
  have hpair : ∀ {islandKey scenarioKey : String} {item : GoalItemCollectData},
      islandKey ≠ scenarioKey → IsInt item.islandID ∧ IsInt item.scenarioID →
      PairShaped islandKey scenarioKey
        (.object [(islandKey, .int item.islandID), (scenarioKey, .int item.scenarioID)]) := by
    intro islandKey scenarioKey item hne hitem
    obtain ⟨⟨-, hfirst⟩, -, hsecond⟩ :=
      member_object_pair hne (.int item.islandID) (.int item.scenarioID)
    rw [PairShaped, hfirst, hsecond]
    exact hitem
  have hisland : ∀ {island : CString × ℤ}, IsInt island.2 → IslandShaped (islandJson island) := by
    intro island hint
    have hne : ("name" : String) ≠ "scenarioID" := by decide
    obtain ⟨⟨-, hname⟩, -, hscenario⟩ := member_object_pair hne (.str island.1) (.int island.2)
    rw [IslandShaped, islandJson, hname, hscenario]
    exact ⟨trivial, hint⟩
  obtain ⟨hflip, hcount, hgoals, hislands, htoads, hshards⟩ := member_toJson data
  refine ⟨?_, ?_, ?_, ?_, ?_, ?_⟩
  · rw [hflip]
    trivial
  · rw [hcount]
    exact hrange.numCollectedGoalItems
  · rw [hgoals]
    refine ⟨trivial, fun item hitem => ?_⟩
    obtain ⟨shine, hshine, rfl⟩ := List.mem_map.mp hitem
    exact hpair (by decide) (hrange.collectedGoalItems shine hshine)
  · rw [hislands]
    refine ⟨trivial, fun item hitem => ?_⟩
    obtain ⟨island, hmem, rfl⟩ := List.mem_map.mp hitem
    exact hisland (hrange.islandToScenarioMap island hmem)
  · rw [htoads]
    exact ⟨trivial, fun toad htoad => absurd htoad List.not_mem_nil⟩
  · rw [hshards]
    refine ⟨trivial, fun item hitem => ?_⟩
    obtain ⟨shard, hshard, rfl⟩ := List.mem_map.mp hitem
    exact hpair (by decide) (hrange.collectedShards shard hshard)

/-- The file that `save` writes for some progress is loaded. -/
theorem load_usable_saved :
    LoadsUsable (progressLibrary []) ⟨some progressText, some [7], some [1, 2, 3]⟩
      (Buffer.zero sharedSaveCapacity) [7] [1, 2, 3] := by
  have hloadable : Loadable (progressLibrary []) ⟨some progressText, some [7], some [1, 2, 3]⟩
      [7] [1, 2, 3] := by
    simp only [Loadable, progressLibrary, if_true]
    exact Or.inl (wellShaped_toJson (progressWith_inRange []))
  exact (load_usable_iff (progressLibrary []) ⟨some progressText, some [7], some [1, 2, 3]⟩
    [1, 2, 3] [7] (Buffer.zero sharedSaveCapacity) rfl (by decide) rfl (by decide) rfl).mpr hloadable

/-- The JSON library on the texts of an empty file and of an empty array. -/
def emptyArrayLibrary : JsonLibrary where
  dump _ := some progressText
  parse text := if text = [91, 93] then .ok (.arr []) else .error .parseError

/-- An empty save file is no JSON: the shared save stays unset. An empty array
is JSON of the wrong shape: an exception escapes. -/
theorem broken_files_are_not_loaded :
    ¬LoadsUsable emptyArrayLibrary ⟨some [], some [7], some [1, 2, 3]⟩
        (Buffer.zero sharedSaveCapacity) [7] [1, 2, 3] ∧
      ¬LoadsUsable emptyArrayLibrary ⟨some [91, 93], some [7], some [1, 2, 3]⟩
        (Buffer.zero sharedSaveCapacity) [7] [1, 2, 3] := by
  constructor
  · intro h
    have hempty := (load_unparsed _ rfl rfl).mp h
    cases hempty
  · have hparse : emptyArrayLibrary.parse [91, 93] = .ok (.arr []) := rfl
    have hdefault : (⟨some [91, 93], some [7], some [1, 2, 3]⟩ : SaveFiles).gameDataDefault =
        some [1, 2, 3] := rfl
    have hreadable : ¬Readable (.arr []) := fun hshaped => hshaped.members
    obtain ⟨error, herror⟩ := load_misshaped (Buffer.zero sharedSaveCapacity) rfl hparse hreadable
      hdefault (by decide)
    exact not_usable_of_error herror

end BfMultiplayer.LoadOutcomes

import BfMultiplayer.ServerState
import BfMultiplayer.JsonValue

/-!
# Save file and shared save of the server

`ServerSaveData::save` writes the progress as JSON and the shared save as
bytes, and `load` reads both back. The JSON library and the file system are
parameters. The loop over the unlocked toads appends to the array of islands,
which is already stored, so the toads never reach the file; every other field
comes back.
-/

namespace BfMultiplayer.SaveFile

open ByteBuffer Packets ServerState JsonValue

/-- The files the save data lives in; `none` is a file that does not exist. -/
structure SaveFiles where
  /-- `SaveData.json`. -/
  saveData : Option CString
  /-- `GameData.bin`. -/
  gameData : Option (List UInt8)
  /-- `GameDataDefault.bin`. -/
  gameDataDefault : Option (List UInt8)

/-- The exceptions that `json::parse` throws. -/
inductive ParseError where
  /-- `parse_error`: the text is no JSON. -/
  | parseError
  /-- `out_of_range`: a number of the text is too large for any JSON number. -/
  | outOfRange

/-- The two functions used of the JSON library. A dump fails on a string that
is no UTF-8. -/
structure JsonLibrary where
  /-- `json::dump`. -/
  dump : Json → Option CString
  /-- `json::parse`. -/
  parse : CString → Except ParseError Json

/-- How `load` can go wrong. -/
inductive LoadError where
  /-- A read of a JSON value. -/
  | json (error : JsonError)
  /-- The exception of the parser that is not caught. -/
  | parse
  /-- A null `FILE*` is used. -/
  | noFile
  /-- The copy leaves `sharedSave`. -/
  | overflow

/-- The JSON value of a shine. -/
def goalItemJson (goalItem : GoalItemCollectData) : Json :=
  .object [("islandID", .int goalItem.islandID), ("scenarioID", .int goalItem.scenarioID)]

/-- The JSON value of an island. -/
def islandJson (island : CString × ℤ) : Json :=
  .object [("name", .str island.1), ("scenarioID", .int island.2)]

/-- The JSON value of a shard. -/
def shardJson (shard : GoalItemCollectData) : Json :=
  .object [("zoneID", .int shard.islandID), ("shardID", .int shard.scenarioID)]

/-- The loop of `save` over the unlocked toads, on the arrays `islands` and
`toads`: each toad is pushed to the first one. -/
def toadLoop (unlockedToads : List ℤ) (arrays : List Json × List Json) : List Json × List Json :=
  unlockedToads.foldl (fun arrays toad => (arrays.1 ++ [.int toad], arrays.2)) arrays

/-- The JSON value that `save` builds. -/
def toJson (data : ServerSaveData) : Json :=
  let goalItems := data.collectedGoalItems.map goalItemJson
  let islands := data.islandToScenarioMap.toList.map islandJson
  let toads := (toadLoop data.unlockedToads (islands, [])).2
  let shards := data.collectedShards.map shardJson
  .object [("jumpFlipState", .bool data.jumpFlipState),
    ("numCollectedGoalItems", .int data.numCollectedGoalItems),
    ("goalItems", .arr goalItems),
    ("islands", .arr islands),
    ("unlockedToads", .arr toads),
    ("collectedShards", .arr shards)]

/-- `ServerSaveData::save`; undefined when the dump throws or the shared save
is read past its end. -/
def save (library : JsonLibrary) (files : SaveFiles) (data : ServerSaveData) : Option SaveFiles :=
  (library.dump (toJson data)).bind fun text =>
    if data.sharedSaveSize ≤ sharedSaveCapacity then
      some { files with
        saveData := some text
        gameData := some (firstBytes data.sharedSave data.sharedSaveSize) }
    else none

/-- Read a file into the shared save. -/
def loadShared (file : Option (List UInt8)) (data : ServerSaveData) :
    Except LoadError ServerSaveData :=
  match file with
  | none => .error .noFile
  | some bytes =>
    match memcpy data.sharedSave 0 (ofBytes bytes) 0 bytes.length with
    | none => .error .overflow
    | some sharedSave => .ok { data with sharedSaveSize := bytes.length, sharedSave := sharedSave }

/-- `ServerSaveData::loadSharedDefault`. -/
def loadSharedDefault (files : SaveFiles) (data : ServerSaveData) :
    Except LoadError ServerSaveData :=
  loadShared files.gameDataDefault data

/-- `ServerSaveData::reset`. -/
def reset (files : SaveFiles) (data : ServerSaveData) : Except LoadError ServerSaveData :=
  loadSharedDefault files { data with
    jumpFlipState := false
    numCollectedGoalItems := 0
    collectedGoalItems := []
    islandToScenarioMap := ∅
    unlockedToads := []
    collectedShards := [] }

/-- One entry of the two lists of pairs, under its two keys. -/
def readPair (islandKey scenarioKey : String) (json : Json) :
    Except JsonError GoalItemCollectData := do
  let islandID ← (← json.at islandKey).getInt
  let scenarioID ← (← json.at scenarioKey).getInt
  return ⟨islandID, scenarioID⟩

/-- One entry of the islands. The right side of the assignment comes first. -/
def readIsland (map : ScenarioMap) (json : Json) : Except JsonError ScenarioMap := do
  let scenarioID ← (← json.at "scenarioID").getInt
  let name ← (← json.at "name").getString
  return map.insert name scenarioID

/-- The part of `load` between the reset and the shared save. -/
def readJson (json : Json) (data : ServerSaveData) : Except JsonError ServerSaveData := do
  let jumpFlipState ← (← json.index "jumpFlipState").getBool
  let numCollectedGoalItems ← (← json.index "numCollectedGoalItems").getInt
  let goalItems ← json.index "goalItems"
  let collectedGoalItems ← goalItems.elements.mapM (readPair "islandID" "scenarioID")
  let islands ← json.index "islands"
  let islandToScenarioMap ← islands.elements.foldlM readIsland data.islandToScenarioMap
  let toads ← json.index "unlockedToads"
  let unlockedToads ← toads.elements.mapM Json.getInt
  let shards ← json.index "collectedShards"
  let collectedShards ← shards.elements.mapM (readPair "zoneID" "shardID")
  return { data with
    jumpFlipState := jumpFlipState
    numCollectedGoalItems := numCollectedGoalItems
    collectedGoalItems := data.collectedGoalItems ++ collectedGoalItems
    islandToScenarioMap := islandToScenarioMap
    unlockedToads := data.unlockedToads ++ unlockedToads
    collectedShards := data.collectedShards ++ collectedShards }

/-- `ServerSaveData::load`. A missing save file is created from the default,
and a save file that is no JSON leaves the data as it is. -/
def load (library : JsonLibrary) (files : SaveFiles) (data : ServerSaveData) :
    Except LoadError (SaveFiles × ServerSaveData) :=
  match files.saveData with
  | none => do
    let data ← loadSharedDefault files data
    match save library files data with
    | some files => return (files, data)
    | none => .error (.json .typeError)
  | some text =>
    match library.parse text with
    | .error .parseError => .ok (files, data)
    | .error .outOfRange => .error .parse
    | .ok json => do
      let data ← reset files data
      let data ← (readJson json data).mapError .json
      let data ← loadShared files.gameData data
      return (files, data)

/-- The same progress and the same shared save, byte for byte. -/
structure SameSave (a b : ServerSaveData) : Prop where
  /-- Counter. -/
  numCollectedGoalItems : a.numCollectedGoalItems = b.numCollectedGoalItems
  /-- Shines. -/
  collectedGoalItems : a.collectedGoalItems = b.collectedGoalItems
  /-- Shards. -/
  collectedShards : a.collectedShards = b.collectedShards
  /-- Islands. -/
  islandToScenarioMap : a.islandToScenarioMap = b.islandToScenarioMap
  /-- Toads. -/
  unlockedToads : a.unlockedToads = b.unlockedToads
  /-- Jump panels. -/
  jumpFlipState : a.jumpFlipState = b.jumpFlipState
  /-- Size of the shared save. -/
  sharedSaveSize : a.sharedSaveSize = b.sharedSaveSize
  /-- Its bytes. -/
  sharedSave : firstBytes a.sharedSave a.sharedSaveSize = firstBytes b.sharedSave b.sharedSaveSize

/-- The ranges that the types of the fields guarantee, and a shared save no
larger than its array. -/
structure InRange (data : ServerSaveData) : Prop where
  /-- The counter is an `int`. -/
  numCollectedGoalItems : IsInt data.numCollectedGoalItems
  /-- So are the numbers of the shines. -/
  collectedGoalItems : ∀ item ∈ data.collectedGoalItems,
    IsInt item.islandID ∧ IsInt item.scenarioID
  /-- Those of the shards. -/
  collectedShards : ∀ item ∈ data.collectedShards, IsInt item.islandID ∧ IsInt item.scenarioID
  /-- The scenarios. -/
  islandToScenarioMap : ∀ pair ∈ data.islandToScenarioMap.toList, IsInt pair.2
  /-- The shared save fits. -/
  sharedSaveSize : data.sharedSaveSize ≤ sharedSaveCapacity

/-- Saving and then loading into a fresh value gives the value back. -/
def RoundTrips (library : JsonLibrary) (files : SaveFiles) (memory : Buffer sharedSaveCapacity)
    (data : ServerSaveData) : Prop :=
  ∃ written loaded, save library files data = some written ∧
    load library written (.fresh memory) = .ok (written, loaded) ∧ SameSave loaded data

/-- The toads of the save file stay the empty array. -/
theorem toadLoop_toads (unlockedToads : List ℤ) (arrays : List Json × List Json) :
    (toadLoop unlockedToads arrays).2 = arrays.2 := by
  induction unlockedToads generalizing arrays with
  | nil => rfl
  | cons toad unlockedToads ih => exact ih _

/-- What `save` writes under each key. -/
theorem member_toJson (data : ServerSaveData) :
    (toJson data).member "jumpFlipState" = .bool data.jumpFlipState ∧
      (toJson data).member "numCollectedGoalItems" = .int data.numCollectedGoalItems ∧
      (toJson data).member "goalItems" = .arr (data.collectedGoalItems.map goalItemJson) ∧
      (toJson data).member "islands" =
        .arr (data.islandToScenarioMap.toList.map islandJson) ∧
      (toJson data).member "unlockedToads" = .arr [] ∧
      (toJson data).member "collectedShards" = .arr (data.collectedShards.map shardJson) := by
  refine ⟨?_, ?_, ?_, ?_, ?_, ?_⟩
  · exact (member_object (by simp [lookup])).2
  · exact (member_object (by simp [lookup])).2
  · exact (member_object (by simp [lookup])).2
  · exact (member_object (by simp [lookup])).2
  · exact (member_object (by simp [lookup, toadLoop_toads])).2
  · exact (member_object (by simp [lookup])).2

/-- A pair written under two different keys is read back. -/
theorem readPair_object {islandKey scenarioKey : String} (hne : islandKey ≠ scenarioKey)
    {item : GoalItemCollectData} (hitem : IsInt item.islandID ∧ IsInt item.scenarioID) :
    readPair islandKey scenarioKey
      (.object [(islandKey, .int item.islandID), (scenarioKey, .int item.scenarioID)]) =
        .ok item := by
  have hfirst : (Json.object [(islandKey, .int item.islandID),
      (scenarioKey, .int item.scenarioID)]).at islandKey = .ok (.int item.islandID) :=
    at_object (by simp [lookup, hne.symm])
  have hsecond : (Json.object [(islandKey, .int item.islandID),
      (scenarioKey, .int item.scenarioID)]).at scenarioKey = .ok (.int item.scenarioID) :=
    at_object (by simp [lookup])
  rw [readPair, hfirst, hsecond, ok_bind, getInt_int hitem.1, ok_bind, ok_bind,
    getInt_int hitem.2, ok_bind]
  rfl

/-- An island is read back. -/
theorem readIsland_object {island : CString × ℤ} (hisland : IsInt island.2) (map : ScenarioMap) :
    readIsland map (islandJson island) = .ok (map.insert island.1 island.2) := by
  have hname : (islandJson island).at "name" = .ok (.str island.1) :=
    at_object (by simp [lookup])
  have hscenario : (islandJson island).at "scenarioID" = .ok (.int island.2) :=
    at_object (by simp [lookup])
  rw [readIsland, hname, hscenario, ok_bind, getInt_int hisland, ok_bind, ok_bind,
    getString_str, ok_bind]
  rfl

/-- What the written JSON gives back: every field but the toads. -/
theorem readJson_toJson {data base : ServerSaveData} (hrange : InRange data)
    (hgoalItems : base.collectedGoalItems = []) (hislands : base.islandToScenarioMap = ∅)
    (htoads : base.unlockedToads = []) (hshards : base.collectedShards = []) :
    readJson (toJson data) base = .ok { data with
      unlockedToads := []
      sharedSaveSize := base.sharedSaveSize
      sharedSave := base.sharedSave } := by
  have hgoal : (data.collectedGoalItems.map goalItemJson).mapM (readPair "islandID" "scenarioID") =
      .ok (data.collectedGoalItems.map id) :=
    read_elements fun item hitem =>
      readPair_object (by decide) (hrange.collectedGoalItems item hitem)
  have hshard : (data.collectedShards.map shardJson).mapM (readPair "zoneID" "shardID") =
      .ok (data.collectedShards.map id) :=
    read_elements fun item hitem =>
      readPair_object (by decide) (hrange.collectedShards item hitem)
  have hisland : (data.islandToScenarioMap.toList.map islandJson).foldlM readIsland ∅ =
      .ok (data.islandToScenarioMap.toList.foldl
        (fun map pair => map.insert pair.1 pair.2) ∅) :=
    fold_elements (fun pair hpair map =>
      readIsland_object (hrange.islandToScenarioMap pair hpair) map) ∅
  rw [List.map_id] at hgoal hshard
  rw [foldl_insert_toList] at hisland
  simp only [readJson, toJson, index_object, toadLoop_toads, List.reverse_cons, List.reverse_nil,
    List.nil_append, List.cons_append]
  simp [lookup, getInt_int hrange.numCollectedGoalItems, hgoal, hshard, hisland, hgoalItems,
    hislands, htoads, hshards]

/-- The value with another shared save. -/
def withShared (data : ServerSaveData) (size : ℕ) (sharedSave : Buffer sharedSaveCapacity) :
    ServerSaveData :=
  { data with sharedSaveSize := size, sharedSave := sharedSave }

/-- Reading a file changes the shared save alone, which stays in its array. -/
theorem loadShared_ok {file : Option (List UInt8)} {data loaded : ServerSaveData}
    (h : loadShared file data = .ok loaded) :
    ∃ size shared, size ≤ sharedSaveCapacity ∧ loaded = withShared data size shared := by
  unfold loadShared at h
  cases file with
  | none => cases h
  | some bytes =>
    dsimp only at h
    cases hcopy : memcpy data.sharedSave 0 (ofBytes bytes) 0 bytes.length with
    | none =>
      rw [hcopy] at h
      cases h
    | some shared =>
      rw [hcopy] at h
      cases h
      have hbounds := memcpy_bounds hcopy
      exact ⟨bytes.length, shared, by omega, rfl⟩

/-- A file that fits the array becomes the shared save. -/
theorem loadShared_some {bytes : List UInt8} (h : bytes.length ≤ sharedSaveCapacity)
    (data : ServerSaveData) :
    ∃ sharedSave, firstBytes sharedSave bytes.length = bytes ∧
      loadShared (some bytes) data = .ok (withShared data bytes.length sharedSave) := by
  have hcopy : memcpy data.sharedSave 0 (ofBytes bytes) 0 bytes.length =
      some (blit data.sharedSave 0 (ofBytes bytes) 0 bytes.length) :=
    memcpy_eq_some (by omega) (by omega)
  refine ⟨blit data.sharedSave 0 (ofBytes bytes) 0 bytes.length, ?_, ?_⟩
  · rw [(firstBytes_eq_iff h le_rfl).mpr (memcpy_inside hcopy), firstBytes_ofBytes]
  · simp only [loadShared, hcopy, withShared]

/-- What saving and loading gives back: the value without its toads. -/
theorem load_after_save (library : JsonLibrary) (files : SaveFiles) {bytes : List UInt8}
    (memory : Buffer sharedSaveCapacity) {data : ServerSaveData} (hrange : InRange data)
    (hdefault : files.gameDataDefault = some bytes) (hbytes : bytes.length ≤ sharedSaveCapacity)
    (hcodec : (library.dump (toJson data)).map library.parse = some (.ok (toJson data))) :
    ∃ written loaded, save library files data = some written ∧
      load library written (.fresh memory) = .ok (written, loaded) ∧
        SameSave loaded { data with unlockedToads := [] } := by
  obtain ⟨text, htext, hparse⟩ := Option.map_eq_some_iff.mp hcodec
  have hlength := length_firstBytes data.sharedSave hrange.sharedSaveSize
  have hsave : ∃ written, save library files data = some written ∧
      written.saveData = some text ∧
      written.gameData = some (firstBytes data.sharedSave data.sharedSaveSize) ∧
      written.gameDataDefault = some bytes := by
    rw [save, htext, Option.bind_some, if_pos hrange.sharedSaveSize]
    exact ⟨_, rfl, rfl, rfl, hdefault⟩
  obtain ⟨written, hwritten, htextOf, hgameData, hdefaultOf⟩ := hsave
  -- reset, then the JSON fields, then the shared save
  obtain ⟨default, -, hreset⟩ := loadShared_some hbytes (.fresh memory)
  have hjson : readJson (toJson data) (withShared (.fresh memory) bytes.length default) =
      .ok (withShared { data with unlockedToads := [] } bytes.length default) :=
    readJson_toJson hrange rfl rfl rfl rfl
  have hfits : (firstBytes data.sharedSave data.sharedSaveSize).length ≤ sharedSaveCapacity := by
    rw [hlength]
    exact hrange.sharedSaveSize
  obtain ⟨shared, hbytesOf, hshared⟩ := loadShared_some hfits
    (withShared { data with unlockedToads := [] } bytes.length default)
  rw [hlength] at hbytesOf hshared
  refine ⟨written, withShared { data with unlockedToads := [] } data.sharedSaveSize shared,
    hwritten, ?_, ⟨rfl, rfl, rfl, rfl, rfl, rfl, rfl, hbytesOf⟩⟩
  have hresetOf : reset written (.fresh memory) =
      .ok (withShared (.fresh memory) bytes.length default) := by
    rw [reset, loadSharedDefault, hdefaultOf]
    exact hreset
  simp only [load, htextOf, hparse, hresetOf, ok_bind, hjson, Except.mapError, hgameData, hshared]
  rfl

/-- Saving and loading gives back the value exactly when no toad is unlocked,
for a JSON library that reads back the value it wrote. -/
theorem save_load_round_trips (library : JsonLibrary) (files : SaveFiles) (bytes : List UInt8)
    (memory : Buffer sharedSaveCapacity) (data : ServerSaveData) (hrange : InRange data)
    (hdefault : files.gameDataDefault = some bytes) (hbytes : bytes.length ≤ sharedSaveCapacity)
    (hcodec : (library.dump (toJson data)).map library.parse = some (.ok (toJson data))) :
    RoundTrips library files memory data ↔ data.unlockedToads = [] := by
  obtain ⟨written, loaded, hsave, hload, hsame⟩ :=
    load_after_save library files memory hrange hdefault hbytes hcodec
  constructor
  · intro hround
    obtain ⟨written', loaded', hsave', hload', hsame'⟩ := hround
    rw [hsave, Option.some.injEq] at hsave'
    rw [← hsave', hload, Except.ok.injEq, Prod.mk.injEq] at hload'
    rw [← hload'.2] at hsame'
    exact hsame'.unlockedToads.symm.trans hsame.unlockedToads
  · intro htoads
    refine ⟨written, loaded, hsave, hload, ?_⟩
    obtain ⟨hcount, hgoal, hshards, hislands, htoads', hflip, hsize, hbytesOf⟩ := hsame
    exact ⟨hcount, hgoal, hshards, hislands, htoads'.trans htoads.symm, hflip, hsize, hbytesOf⟩

/-- Progress with a shine and a shard, an empty shared save and given toads. -/
def progressWith (toads : List ℤ) : ServerSaveData :=
  { ServerSaveData.fresh (Buffer.zero sharedSaveCapacity) with
    jumpFlipState := true
    numCollectedGoalItems := 1
    collectedGoalItems := [⟨1, 2⟩]
    collectedShards := [⟨3, 4⟩]
    unlockedToads := toads }

/-- What the file holds for this progress. -/
def progressText : CString :=
  ("\x7b\"collectedShards\":[\x7b\"shardID\":4,\"zoneID\":3\x7d]," ++
    "\"goalItems\":[\x7b\"islandID\":1,\"scenarioID\":2\x7d],\"islands\":[]," ++
    "\"jumpFlipState\":true,\"numCollectedGoalItems\":1," ++
    "\"unlockedToads\":[]\x7d").toUTF8.toList

/-- The JSON library on this text and its value. -/
def progressLibrary (toads : List ℤ) : JsonLibrary where
  dump _ := some progressText
  parse text := if text = progressText then .ok (toJson (progressWith toads)) else .error .parseError

/-- It reads back the value it wrote. -/
theorem progressLibrary_codec (toads : List ℤ) :
    ((progressLibrary toads).dump (toJson (progressWith toads))).map
      (progressLibrary toads).parse = some (.ok (toJson (progressWith toads))) := by
  simp only [progressLibrary, Option.map_some, if_true]

/-- A short default save next to no other file. -/
def freshFiles : SaveFiles := ⟨none, none, some [1, 2, 3]⟩

/-- The progress is in range. -/
theorem progressWith_inRange (toads : List ℤ) : InRange (progressWith toads) := by
  refine ⟨by simp only [progressWith]; decide, ?_, ?_, ?_, Nat.zero_le _⟩
  · intro item hitem
    rw [List.mem_singleton.mp hitem]
    decide
  · intro item hitem
    rw [List.mem_singleton.mp hitem]
    decide
  · intro pair hpair
    rw [show (progressWith toads).islandToScenarioMap.toList = [] from rfl] at hpair
    exact absurd hpair List.not_mem_nil

/-- Without a toad this progress comes back. -/
theorem save_load_round_trips_without_toads :
    RoundTrips (progressLibrary []) freshFiles (Buffer.zero sharedSaveCapacity)
      (progressWith []) :=
  (save_load_round_trips (progressLibrary []) freshFiles [1, 2, 3] (Buffer.zero sharedSaveCapacity)
    (progressWith []) (progressWith_inRange []) rfl (by decide)
    (progressLibrary_codec [])).mpr rfl

/-- With a toad it does not: the file holds the same text. -/
theorem unlocked_toad_is_lost :
    ¬RoundTrips (progressLibrary [5]) freshFiles (Buffer.zero sharedSaveCapacity)
      (progressWith [5]) := by
  intro hround
  obtain ⟨written', loaded', hsave', hload', hsame'⟩ := hround
  obtain ⟨written, loaded, hsave, hload, hsame⟩ :=
    load_after_save (progressLibrary [5]) freshFiles (Buffer.zero sharedSaveCapacity)
      (progressWith_inRange [5]) rfl (by decide) (progressLibrary_codec [5])
  rw [hsave, Option.some.injEq] at hsave'
  rw [← hsave', hload, Except.ok.injEq, Prod.mk.injEq] at hload'
  rw [← hload'.2] at hsame'
  have htoads := hsame.unlockedToads.symm.trans hsame'.unlockedToads
  cases htoads

end BfMultiplayer.SaveFile

import BfMultiplayer.ProgressRules
import BfMultiplayer.SaveFile
import Mathlib.Logic.Equiv.List

/-!
# Save files across restarts

What `load` finds in the files that an earlier `save` wrote: the same progress
up to the toads. The JSON library is taken with its documented behaviour: it
writes every value whose strings are UTF-8, throws on others, and reads back
what it wrote.
-/

namespace BfMultiplayer.SaveRestarts

open ByteBuffer Packets ServerState JsonValue SaveFile ProgressRules

/-- Bytes that encode some characters. -/
def Utf8 (bytes : CString) : Prop := bytes.toByteArray.IsValidUTF8

instance (bytes : CString) : Decidable (Utf8 bytes) :=
  inferInstanceAs (Decidable bytes.toByteArray.IsValidUTF8)

/-- Every island has a name that a JSON text can hold. -/
def NamesUtf8 (data : ServerSaveData) : Prop :=
  ∀ island ∈ data.islandToScenarioMap.toList, Utf8 island.1

instance (data : ServerSaveData) : Decidable (NamesUtf8 data) :=
  inferInstanceAs (Decidable (∀ island ∈ _, Utf8 _))

/-- The JSON library on the values that `save` builds. -/
structure Lawful (library : JsonLibrary) : Prop where
  /-- Strings that are UTF-8 can be written. -/
  dump : ∀ data, NamesUtf8 data → (library.dump (toJson data)).isSome
  /-- What was written is read back. -/
  parse : ∀ data text, InRange data → library.dump (toJson data) = some text →
    library.parse text = .ok (toJson data)

/-- The save file holds some progress. -/
structure Holds (library : JsonLibrary) (files : SaveFiles) (data : ServerSaveData) : Prop where
  /-- The progress is in range. -/
  inRange : InRange data
  /-- The file is what `save` writes for it. -/
  text : ∃ text, library.dump (toJson data) = some text ∧ files.saveData = some text

/-- The integers of a packet that `save` writes are `int`s, as they cross the
wire. -/
def WireInts : ServerBound → Prop
  | .goalItemInfo report => IsInt report.islandID ∧ IsInt report.shineID
  | .scenarioUpdate data => IsInt data.scenario
  | .miscMapSync (.shardCollect zoneID shardID) => IsInt zoneID ∧ IsInt shardID
  | _ => True

instance : ∀ packet, Decidable (WireInts packet)
  | .goalItemInfo _ => inferInstanceAs (Decidable (_ ∧ _))
  | .scenarioUpdate data => inferInstanceAs (Decidable (IsInt data.scenario))
  | .miscMapSync (.shardCollect _ _) => inferInstanceAs (Decidable (_ ∧ _))
  | .miscMapSync (.toadUnlock _) => inferInstanceAs (Decidable True)
  | .miscMapSync (.killActorByObjId _) => inferInstanceAs (Decidable True)
  | .miscMapSync (.darkBowserHealth _) => inferInstanceAs (Decidable True)
  | .miscMapSync (.other _) => inferInstanceAs (Decidable True)
  | .hello _ => inferInstanceAs (Decidable True)
  | .log _ _ => inferInstanceAs (Decidable True)
  | .singleModeSceneEnter _ => inferInstanceAs (Decidable True)
  | .puppetPose _ => inferInstanceAs (Decidable True)
  | .action _ => inferInstanceAs (Decidable True)
  | .playerFigureChange _ => inferInstanceAs (Decidable True)
  | .phaseUnlock _ => inferInstanceAs (Decidable True)
  | .disasterModeControllerInternalUpdate _ => inferInstanceAs (Decidable True)
  | .jumpFlip _ => inferInstanceAs (Decidable True)
  | .saveDataChunk _ => inferInstanceAs (Decidable True)

/-- The value with another shared save that fits is in range as well. -/
theorem inRange_withShared {data : ServerSaveData} (h : InRange data) {size : ℕ}
    (hsize : size ≤ sharedSaveCapacity) (shared : Buffer sharedSaveCapacity) :
    InRange (withShared data size shared) :=
  ⟨h.numCollectedGoalItems, h.collectedGoalItems, h.collectedShards, h.islandToScenarioMap, hsize⟩

/-- Nothing is out of range in a fresh value. -/
theorem inRange_fresh (memory : Buffer sharedSaveCapacity) : InRange (.fresh memory) := by
  have hzero : IsInt 0 := by decide
  refine ⟨hzero, ?_, ?_, ?_, Nat.zero_le _⟩
  · exact fun item hitem => absurd hitem List.not_mem_nil
  · exact fun item hitem => absurd hitem List.not_mem_nil
  · exact fun island hisland => absurd hisland List.not_mem_nil

/-- An island of a map with one more scenario is that one or an old one. -/
theorem mem_toList_insert {map : ScenarioMap} {name : CString} {scenario : ℤ}
    {island : CString × ℤ} (h : island ∈ (map.insert name scenario).toList) :
    island = (name, scenario) ∨ island ∈ map.toList := by
  obtain ⟨key, value⟩ := island
  rw [Std.ExtTreeMap.mem_toList_iff_getElem?_eq_some, Std.ExtTreeMap.getElem?_insert] at h
  split at h
  · rename_i hcmp
    rw [Option.some.injEq] at h
    left
    rw [Std.LawfulEqCmp.eq_of_compare hcmp, h]
  · exact Or.inr (Std.ExtTreeMap.mem_toList_iff_getElem?_eq_some.mpr h)

/-- A handled packet keeps the progress in range, as long as the counter is. -/
theorem inRange_step {before after : ServerSaveData} {packet : ServerBound}
    {saved : List ServerSaveData} (h : InRange before)
    (hstep : ProgressStep before packet after saved) (hwire : WireInts packet)
    (hcounter : IsInt after.numCollectedGoalItems) : InRange after := by
  have happend : ∀ {items : List GoalItemCollectData} {item : GoalItemCollectData},
      (∀ a ∈ items, IsInt a.islandID ∧ IsInt a.scenarioID) →
      IsInt item.islandID ∧ IsInt item.scenarioID →
      ∀ a ∈ items ++ [item], IsInt a.islandID ∧ IsInt a.scenarioID := by
    intro items item hitems hitem a ha
    rcases List.mem_append.mp ha with ha | ha
    · exact hitems a ha
    · rw [List.mem_singleton.mp ha]
      exact hitem
  cases hstep with
  | same _ => exact h
  | flipped data state =>
    exact ⟨h.numCollectedGoalItems, h.collectedGoalItems, h.collectedShards,
      h.islandToScenarioMap, h.sharedSaveSize⟩
  | island data =>
    refine ⟨h.numCollectedGoalItems, h.collectedGoalItems, h.collectedShards, ?_,
      h.sharedSaveSize⟩
    intro island hisland
    rcases mem_toList_insert hisland with rfl | hold
    · exact hwire
    · exact h.islandToScenarioMap island hold
  | repeated _ => exact h
  | reported _ hafter =>
    rw [hafter] at hcounter ⊢
    exact ⟨hcounter, happend h.collectedGoalItems hwire, h.collectedShards,
      h.islandToScenarioMap, h.sharedSaveSize⟩
  | known _ => exact h
  | toad _ hafter =>
    rw [hafter]
    exact ⟨h.numCollectedGoalItems, h.collectedGoalItems, h.collectedShards,
      h.islandToScenarioMap, h.sharedSaveSize⟩
  | shard hafter =>
    rw [hafter]
    exact ⟨h.numCollectedGoalItems, h.collectedGoalItems, happend h.collectedShards hwire,
      h.islandToScenarioMap, h.sharedSaveSize⟩
  | committed hsize hafter =>
    rw [hafter]
    exact inRange_withShared h hsize _

section Files

variable {library : JsonLibrary} {files written : SaveFiles} {data loaded saved : ServerSaveData}

/-- A completed save leaves the saved value in the file. -/
theorem holds_of_save (hsave : save library files data = some written) (hrange : InRange data) :
    Holds library written data ∧ written.gameDataDefault = files.gameDataDefault := by
  unfold save at hsave
  rw [Option.bind_eq_some_iff] at hsave
  obtain ⟨text, htext, hrest⟩ := hsave
  rw [if_pos hrange.sharedSaveSize, Option.some.injEq] at hrest
  rw [← hrest]
  exact ⟨⟨hrange, text, htext, rfl⟩, rfl⟩

/-- A save completes when the names are UTF-8. -/
theorem save_isSome (hlibrary : Lawful library) (hrange : InRange data) (hnames : NamesUtf8 data)
    (files : SaveFiles) : ∃ written, save library files data = some written := by
  obtain ⟨text, htext⟩ := Option.isSome_iff_exists.mp (hlibrary.dump data hnames)
  rw [save, htext, Option.bind_some, if_pos hrange.sharedSaveSize]
  exact ⟨_, rfl⟩

/-- The first start loads the default shared save and saves it without progress. -/
theorem load_first {memory : Buffer sharedSaveCapacity} (hmissing : files.saveData = none)
    (hload : load library files (.fresh memory) = .ok (written, loaded)) :
    ∃ size shared, size ≤ sharedSaveCapacity ∧
      loaded = withShared (.fresh memory) size shared ∧ save library files loaded = some written := by
  simp only [load, hmissing] at hload
  cases hshared : loadSharedDefault files (.fresh memory) with
  | error e =>
    rw [hshared] at hload
    cases hload
  | ok data =>
    rw [hshared, ok_bind] at hload
    obtain ⟨size, shared, hsize, hdata⟩ := loadShared_ok hshared
    cases hsave : save library files data with
    | none =>
      rw [hsave] at hload
      cases hload
    | some files' =>
      rw [hsave] at hload
      cases hload
      exact ⟨size, shared, hsize, hdata, hsave⟩

/-- A later start loads what the file holds, without its toads. -/
theorem load_again (hlibrary : Lawful library) {memory : Buffer sharedSaveCapacity}
    (hholds : Holds library files saved)
    (hload : load library files (.fresh memory) = .ok (written, loaded)) :
    written = files ∧ ∃ size shared, size ≤ sharedSaveCapacity ∧
      loaded = withShared { saved with unlockedToads := [] } size shared := by
  obtain ⟨text, hdump, htext⟩ := hholds.text
  have hparse := hlibrary.parse saved text hholds.inRange hdump
  simp only [load, htext, hparse] at hload
  cases hreset : reset files (.fresh memory) with
  | error e =>
    rw [hreset] at hload
    cases hload
  | ok base =>
    obtain ⟨size, shared, -, hbase⟩ := loadShared_ok hreset
    have hread : readJson (toJson saved) base =
        .ok (withShared { saved with unlockedToads := [] } size shared) := by
      rw [hbase]
      exact readJson_toJson hholds.inRange rfl rfl rfl rfl
    rw [hreset, ok_bind, hread, Except.mapError, ok_bind] at hload
    cases hgame : loadShared files.gameData
        (withShared { saved with unlockedToads := [] } size shared) with
    | error e =>
      rw [hgame] at hload
      cases hload
    | ok data =>
      rw [hgame, ok_bind] at hload
      cases hload
      obtain ⟨gameSize, game, hsize, hdata⟩ := loadShared_ok hgame
      exact ⟨rfl, gameSize, game, hsize, hdata⟩

end Files

/-- What a save file says, field by field. -/
structure SavedFields where
  /-- Jump panels. -/
  jumpFlipState : Bool
  /-- Counter. -/
  numCollectedGoalItems : ℤ
  /-- Shines. -/
  goalItems : List GoalItemCollectData
  /-- Islands with their scenarios. -/
  islands : List (CString × ℤ)
  /-- Shards. -/
  collectedShards : List GoalItemCollectData
  deriving DecidableEq

instance : Encodable GoalItemCollectData :=
  Encodable.ofLeftInjection (fun item => (item.islandID, item.scenarioID))
    (fun pair => some ⟨pair.1, pair.2⟩) fun _ => rfl

instance encodableByte : Encodable UInt8 :=
  Encodable.ofLeftInjection UInt8.toNat (fun n => some (UInt8.ofNat n)) fun _ =>
    congrArg some UInt8.ofNat_toNat

instance : Encodable SavedFields :=
  Encodable.ofLeftInjection
    (fun fields => (fields.jumpFlipState, fields.numCollectedGoalItems, fields.goalItems,
      fields.islands, fields.collectedShards))
    (fun (flip, count, items, islands, shards) => some ⟨flip, count, items, islands, shards⟩)
    fun _ => rfl

/-- The integer that a value is. -/
def intOf : Json → ℤ
  | .int value => value
  | _ => 0

/-- The fields of a JSON value. -/
def fieldsOf (json : Json) : SavedFields where
  jumpFlipState := (json.member "jumpFlipState").boolOf
  numCollectedGoalItems := intOf (json.member "numCollectedGoalItems")
  goalItems := (json.member "goalItems").elements.map fun item =>
    ⟨intOf (item.member "islandID"), intOf (item.member "scenarioID")⟩
  islands := (json.member "islands").elements.map fun island =>
    ((island.member "name").bytesOf, intOf (island.member "scenarioID"))
  collectedShards := (json.member "collectedShards").elements.map fun shard =>
    ⟨intOf (shard.member "zoneID"), intOf (shard.member "shardID")⟩

/-- The JSON value of some fields. -/
def jsonOf (fields : SavedFields) : Json :=
  .object [("jumpFlipState", .bool fields.jumpFlipState),
    ("numCollectedGoalItems", .int fields.numCollectedGoalItems),
    ("goalItems", .arr (fields.goalItems.map goalItemJson)),
    ("islands", .arr (fields.islands.map islandJson)), ("unlockedToads", .arr []),
    ("collectedShards", .arr (fields.collectedShards.map shardJson))]

/-- The fields that `save` writes. -/
def savedFields (data : ServerSaveData) : SavedFields where
  jumpFlipState := data.jumpFlipState
  numCollectedGoalItems := data.numCollectedGoalItems
  goalItems := data.collectedGoalItems
  islands := data.islandToScenarioMap.toList
  collectedShards := data.collectedShards

/-- Its JSON value is that of these fields. -/
theorem jsonOf_savedFields (data : ServerSaveData) : jsonOf (savedFields data) = toJson data := by
  rw [toJson, toadLoop_toads]
  rfl

/-- They can be told from it. -/
theorem fieldsOf_toJson (data : ServerSaveData) : fieldsOf (toJson data) = savedFields data := by
  have hpairs : ∀ (islandKey scenarioKey : String), islandKey ≠ scenarioKey →
      ∀ items : List GoalItemCollectData,
        (items.map fun item => Json.object [(islandKey, .int item.islandID),
          (scenarioKey, .int item.scenarioID)]).map (fun json =>
            (⟨intOf (json.member islandKey), intOf (json.member scenarioKey)⟩ :
              GoalItemCollectData)) = items := by
    intro islandKey scenarioKey hne items
    rw [List.map_map, List.map_congr_left, List.map_id]
    intro item _
    obtain ⟨⟨-, hfirst⟩, -, hsecond⟩ :=
      member_object_pair hne (.int item.islandID) (.int item.scenarioID)
    rw [Function.comp_apply, hfirst, hsecond]
    rfl
  have hislands : ∀ islands : List (CString × ℤ),
      (islands.map islandJson).map (fun json =>
        ((json.member "name").bytesOf, intOf (json.member "scenarioID"))) = islands := by
    intro islands
    rw [List.map_map, List.map_congr_left, List.map_id]
    intro island _
    have hne : ("name" : String) ≠ "scenarioID" := by decide
    obtain ⟨⟨-, hname⟩, -, hscenario⟩ := member_object_pair hne (.str island.1) (.int island.2)
    rw [Function.comp_apply, islandJson, hname, hscenario]
    rfl
  obtain ⟨hflip, hcount, hgoals, hmap, -, hshards⟩ := member_toJson data
  rw [fieldsOf, hflip, hcount, hgoals, hmap, hshards]
  simp only [elements_arr]
  rw [hislands]
  exact congrArg₂ (fun items shards : List GoalItemCollectData =>
    (⟨data.jumpFlipState, data.numCollectedGoalItems, items, data.islandToScenarioMap.toList,
      shards⟩ : SavedFields))
    (hpairs "islandID" "scenarioID" (by decide) data.collectedGoalItems)
    (hpairs "zoneID" "shardID" (by decide) data.collectedShards)

/-- Progress with some shines and nothing else. -/
def shineFields (items : List GoalItemCollectData) : SavedFields :=
  ⟨false, items.length, items, [], []⟩

/-- The text of a save file without toads, islands and shards, given what its
array of shines holds and their number. -/
def shineText (items count : String) : CString :=
  ("\x7b\"collectedShards\":[],\"goalItems\":[" ++ items ++ "],\"islands\":[]," ++
    "\"jumpFlipState\":false,\"numCollectedGoalItems\":" ++ count ++
    ",\"unlockedToads\":[]\x7d").toUTF8.data.toList

/-- Some progress with its text. -/
def savedTexts : List (SavedFields × CString) :=
  [(shineFields [], shineText "" "0"),
    (shineFields [⟨1, 1⟩], shineText "\x7b\"islandID\":1,\"scenarioID\":1\x7d" "1"),
    (shineFields [⟨1, 2⟩], shineText "\x7b\"islandID\":1,\"scenarioID\":2\x7d" "1")]

/-- A number in a text that is no JSON. -/
def unary (n : ℕ) : CString := 35 :: List.replicate n 0

/-- The text of some fields: the real one where it is known. -/
def textOf (fields : SavedFields) : CString :=
  match savedTexts.find? fun entry => entry.1 = fields with
  | some entry => entry.2
  | none => unary (Encodable.encode fields)

/-- The fields of a text. -/
def fieldsOfText (text : CString) : Option SavedFields :=
  match savedTexts.find? fun entry => entry.2 = text with
  | some entry => some entry.1
  | none => Encodable.decode text.tail.length

/-- A library that dumps the known values as the real one does, and reads back
all others from texts of its own. -/
def tableLibrary : JsonLibrary where
  dump json :=
    let fields := fieldsOf json
    if ∀ island ∈ fields.islands, Utf8 island.1 then some (textOf fields) else none
  parse text :=
    match fieldsOfText text with
    | some fields => .ok (jsonOf fields)
    | none => .error .parseError

/-- Different fields have different texts. -/
theorem fieldsOfText_textOf (fields : SavedFields) : fieldsOfText (textOf fields) = some fields := by
  have hknown : ∀ a ∈ savedTexts, ∀ b ∈ savedTexts, a.2 = b.2 → a.1 = b.1 := by decide
  have hjson : ∀ a ∈ savedTexts, a.2.head? = some 123 := by decide
  unfold fieldsOfText textOf
  cases hfind : savedTexts.find? fun entry => entry.1 = fields with
  | some entry =>
    have hentry := List.mem_of_find?_eq_some hfind
    have hfields : entry.1 = fields := by simpa using List.find?_some hfind
    cases hback : savedTexts.find? fun other => other.2 = entry.2 with
    | some other =>
      have htext : other.2 = entry.2 := by simpa using List.find?_some hback
      simp only [hknown other (List.mem_of_find?_eq_some hback) entry hentry htext, hfields]
    | none =>
      have hmissing := List.find?_eq_none.mp hback entry hentry
      exact absurd (decide_eq_true rfl) hmissing
  | none =>
    have hback : savedTexts.find? (fun other => other.2 = unary (Encodable.encode fields)) =
        none := by
      refine List.find?_eq_none.mpr fun other hother htext => ?_
      have hhead := hjson other hother
      rw [of_decide_eq_true htext] at hhead
      cases hhead
    simp only [hback]
    rw [unary, List.tail_cons, List.length_replicate, Encodable.encodek]

/-- The library behaves as documented. -/
theorem tableLibrary_lawful : Lawful tableLibrary := by
  constructor
  · intro data hnames
    have hutf8 : ∀ island ∈ (fieldsOf (toJson data)).islands, Utf8 island.1 := by
      rw [fieldsOf_toJson]
      exact hnames
    simp only [tableLibrary, if_pos hutf8, Option.isSome_some]
  · intro data text _ hdump
    simp only [tableLibrary, fieldsOf_toJson] at hdump
    split at hdump
    · rw [← Option.some.inj hdump]
      simp only [tableLibrary, fieldsOfText_textOf, jsonOf_savedFields]
    · cases hdump

end BfMultiplayer.SaveRestarts

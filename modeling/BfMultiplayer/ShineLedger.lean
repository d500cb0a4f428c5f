import BfMultiplayer.GuardedRuns
import BfMultiplayer.SaveRestarts
import BfMultiplayer.ShineAnnouncements

/-!
# Each shine is counted and announced once

The server with its save files, over reports, other packets, resets and
restarts. A report is saved after it was sent around, so that a save which
throws, on an island name that is no UTF-8, ends the server with the shine
counted nowhere. A replay thread fills its packet before it sends it, so that
the counter in it can be overtaken. In the runs without either, the list of
shines is the list of first reports since the last reset, the counter is its
length, and each of its shines was announced at most once.
-/

namespace BfMultiplayer.ShineLedger

open ByteBuffer Packets ServerState ServerHandlers EventLoopRules ClientLinks JsonValue SaveFile
  ProgressRules GuardedRuns SaveRestarts ShineAnnouncements

/-- The server process with its files, and what was reported since the last
reset. -/
structure ShineServer where
  /-- The server. -/
  server : Server
  /-- Whether its process runs. -/
  alive : Bool
  /-- The save files. -/
  files : SaveFiles
  /-- Packets that replay threads have filled and not yet sent, with the
  places of the records they are for. -/
  filled : List (ℕ × ClientBound)
  /-- Different shines in the order of their first reports. -/
  reported : List GoalItemCollectData
  /-- Shines that were announced. -/
  announced : List GoalItemCollectData
  /-- What the last step sent. -/
  sent : List Effect

/-- What can happen next. -/
inductive ShineAction where
  /-- The process ends, if it runs, and is started again. The array of the
  shared save holds arbitrary bytes. -/
  | restart (memory : Buffer sharedSaveCapacity)
  /-- An event of the ENet host. -/
  | event (event : ENetEvent)
  /-- The console command. -/
  | resetsave
  /-- A replay thread fills the packet of a shine. -/
  | fill (ptr : ℕ) (index : ℕ)
  /-- A replay thread sends a packet it has filled. -/
  | send (index : ℕ)

/-- The shines reported after one more packet. -/
def addReport (reported : List GoalItemCollectData) : ServerBound → List GoalItemCollectData
  | .goalItemInfo report =>
    if ⟨report.islandID, report.shineID⟩ ∈ reported then reported
    else reported ++ [⟨report.islandID, report.shineID⟩]
  | _ => reported

/-- The shines reported after an event. -/
def ShineServer.reportedAfter (sys : ShineServer) (event : ENetEvent) : List GoalItemCollectData :=
  match handled sys.server event with
  | some (_, packet) => addReport sys.reported packet
  | none => sys.reported

section System

variable (library : JsonLibrary)

/-- Some values are saved. A save that throws ends the process and its threads. -/
def ShineServer.write (sys : ShineServer) (values : List ServerSaveData) : ShineServer :=
  match values.foldlM (save library) sys.files with
  | some files => { sys with files := files }
  | none => { sys with alive := false, filled := [] }

/-- The constructor of the server loads the save file. -/
def startServer (sys : ShineServer) (memory : Buffer sharedSaveCapacity) : Option ShineServer :=
  match load library sys.files (.fresh memory) with
  | .ok (files, data) => some { sys with
      server := Server.fresh data
      alive := true
      files := files
      filled := []
      sent := [] }
  | .error _ => none

/-- The event loop handles an event, and the values it saves are written. -/
def serviceEvent (sys : ShineServer) (event : ENetEvent) (t : Server) (effects : List Effect) :
    ShineServer :=
  ShineServer.write library
    { sys with
      server := t
      reported := sys.reportedAfter event
      announced := sys.announced ++ announcedShines effects
      sent := effects }
    (savedValues effects)

/-- `resetsave`, given the progress after the reset. -/
def resetProgress (sys : ShineServer) (data : ServerSaveData) : ShineServer :=
  ShineServer.write library
    { sys with
      server := { sys.server with mSaveData := data }
      reported := []
      announced := []
      sent := [] }
    [data]

/-- What a replay thread sends with a filled packet. -/
def sendFilled (s : Server) (entry : ℕ × ClientBound) : List Effect :=
  match nodeAt s entry.1 with
  | some node => s.sendPacket node.client entry.2
  | none => []

/-- The step function. An event whose numbers are no `int`s cannot arrive, and
nothing is said of a counter that overflows. -/
def shineStep (sys : ShineServer) : ShineAction → Option ShineServer
  | .restart memory => startServer library sys memory
  | .event event =>
    if sys.alive = true ∧ ∀ taken ∈ handled sys.server event, WireInts taken.2 then
      (exeService sys.server event).bind fun result =>
        if IsInt result.1.mSaveData.numCollectedGoalItems then
          some (serviceEvent library sys event result.1 result.2)
        else none
    else none
  | .resetsave =>
    if sys.alive = true then
      match reset sys.files sys.server.mSaveData with
      | .ok data => some (resetProgress library sys data)
      | .error _ => none
    else none
  | .fill ptr index =>
    if sys.alive = true then
      (sys.server.mSaveData.collectedGoalItems[index]?).map fun shine =>
        { sys with
          filled := sys.filled ++
            [(ptr, replayGoalItem sys.server.mSaveData.numCollectedGoalItems shine)]
          sent := [] }
    else none
  | .send index => (sys.filled[index]?).map fun entry =>
    { sys with filled := sys.filled.eraseIdx index, sent := sendFilled sys.server entry }

end System

/-- Before the first start: there is no save file, only the default shared save. -/
def ShineServer.off (gameDataDefault : Option (List UInt8)) (memory : Buffer sharedSaveCapacity) :
    ShineServer where
  server := Server.fresh (.fresh memory)
  alive := false
  files := ⟨none, none, gameDataDefault⟩
  filled := []
  reported := []
  announced := []
  sent := []

/-- Each shine is listed, counted and announced at most once. -/
structure ShineServer.CountedOnce (sys : ShineServer) : Prop where
  /-- No pair is listed twice. -/
  nodup : sys.server.mSaveData.collectedGoalItems.Nodup
  /-- The counter is the length of the list. -/
  count : sys.server.mSaveData.numCollectedGoalItems =
    sys.server.mSaveData.collectedGoalItems.length
  /-- The list is what was reported since the reset. -/
  reported : sys.server.mSaveData.collectedGoalItems = sys.reported
  /-- No shine is announced twice. -/
  announced : sys.announced.Nodup
  /-- Only reported shines are announced. -/
  announced_reported : ∀ shine ∈ sys.announced, shine ∈ sys.reported

/-- The announcements that a step should make: of a shine that is reported for
the first time, to everybody but the reporter. -/
def dueAnnouncements (sys : ShineServer) : ShineAction → List (Option ENetPeer × ToC_GoalItemInfo)
  | .event event =>
    match handled sys.server event with
    | some (node, .goalItemInfo report) =>
      if ⟨report.islandID, report.shineID⟩ ∈ sys.reported then []
      else announcedTo sys.server node report (sys.reported.length + 1)
    | _ => []
  | _ => []

/-- A step makes these announcements and no others, and every packet it sends
about shines carries the number of shines reported since the reset. -/
def SendsRight (library : JsonLibrary) (sys : ShineServer) (action : ShineAction) : Prop :=
  ∀ next, shineStep library sys action = some next →
    announcements next.sent = dueAnnouncements sys action ∧
      ∀ sent ∈ shineSends next.sent, sent.2.numCollectedGoalItems = next.reported.length

/-- A report of a shine that is not listed. -/
def tellsNewShine (data : ServerSaveData) : ServerBound → Bool
  | .goalItemInfo report => !data.isGoalItemAlreadyCollected report.islandID report.shineID
  | _ => false

/-- No replay thread is between filling and sending a packet. -/
def ShineServer.NothingFilled (sys : ShineServer) : Prop := sys.filled.isEmpty = true

instance (sys : ShineServer) : Decidable sys.NothingFilled :=
  inferInstanceAs (Decidable (_ = true))

/-- The condition on a step: the counter changes only while no replay packet is
filled and not yet sent, and a new shine is reported only while every island
has a name in UTF-8. -/
def CountsSafely (sys : ShineServer) : ShineAction → Prop
  | .event event => ∀ taken ∈ handled sys.server event,
    tellsNewShine sys.server.mSaveData taken.2 = true →
      sys.NothingFilled ∧ NamesUtf8 sys.server.mSaveData
  | .resetsave => sys.NothingFilled
  | _ => True

instance (sys : ShineServer) : ∀ action, Decidable (CountsSafely sys action)
  | .event _ => inferInstanceAs (Decidable (∀ taken ∈ handled _ _, _))
  | .resetsave => inferInstanceAs (Decidable sys.NothingFilled)
  | .restart _ => inferInstanceAs (Decidable True)
  | .fill _ _ => inferInstanceAs (Decidable True)
  | .send _ => inferInstanceAs (Decidable True)

/-- The files hold the reported shines, or nothing before the first start. -/
def StoresReported (library : JsonLibrary) (files : SaveFiles)
    (reported : List GoalItemCollectData) : Prop :=
  (files.saveData = none ∧ reported = []) ∨
    ∃ saved, Holds library files saved ∧ saved.collectedGoalItems = reported ∧
      saved.numCollectedGoalItems = reported.length

/-- What holds in every state. -/
structure LedgerInv (library : JsonLibrary) (sys : ShineServer) : Prop
    extends sys.CountedOnce where
  /-- The progress is in range. -/
  inRange : InRange sys.server.mSaveData
  /-- Filled packets are up to date. -/
  filled : ∀ entry ∈ sys.filled, ∃ shine, entry.2 = replayGoalItem sys.reported.length shine
  /-- So are the files. -/
  stored : StoresReported library sys.files sys.reported

/-- The list of shines after a handled packet is that of first reports. -/
theorem collected_step {before after : ServerSaveData} {packet : ServerBound}
    {saved : List ServerSaveData} (h : ProgressStep before packet after saved)
    (hnodup : before.collectedGoalItems.Nodup)
    (hcount : before.numCollectedGoalItems = before.collectedGoalItems.length) :
    after.collectedGoalItems = addReport before.collectedGoalItems packet ∧
      after.collectedGoalItems.Nodup ∧
      after.numCollectedGoalItems = after.collectedGoalItems.length := by
  cases h with
  | same hquiet =>
    have hkept : addReport before.collectedGoalItems packet = before.collectedGoalItems := by
      cases packet with
      | goalItemInfo report => cases hquiet
      | _ => rfl
    exact ⟨hkept.symm, hnodup, hcount⟩
  | flipped data state => exact ⟨rfl, hnodup, hcount⟩
  | island data => exact ⟨rfl, hnodup, hcount⟩
  | repeated hknown => exact ⟨(if_pos hknown).symm, hnodup, hcount⟩
  | reported hnew hafter =>
    rw [hafter]
    refine ⟨(if_neg hnew).symm, ?_, ?_⟩
    · rw [List.nodup_append]
      refine ⟨hnodup, List.nodup_singleton _, fun a ha b hb hab => ?_⟩
      rw [List.mem_singleton.mp hb] at hab
      exact hnew (hab ▸ ha)
    · simp only [hcount, List.length_append, List.length_singleton]
      omega
  | known _ => exact ⟨rfl, hnodup, hcount⟩
  | toad _ hafter =>
    rw [hafter]
    exact ⟨rfl, hnodup, hcount⟩
  | shard hafter =>
    rw [hafter]
    exact ⟨rfl, hnodup, hcount⟩
  | committed _ hafter =>
    rw [hafter]
    exact ⟨rfl, hnodup, hcount⟩

/-- The search of the report handler misses a shine that is not listed. -/
theorem tellsNewShine_of_notMem {data : ServerSaveData} {report : ToS_GoalItemInfo}
    (h : ⟨report.islandID, report.shineID⟩ ∉ data.collectedGoalItems) :
    tellsNewShine data (.goalItemInfo report) = true := by
  rw [tellsNewShine, Bool.not_eq_true', Bool.eq_false_iff]
  exact fun hfound => h ((isGoalItemAlreadyCollected_iff data _ _).mp hfound)

/-- A report changes no island. -/
theorem islands_of_report {before after : ServerSaveData} {report : ToS_GoalItemInfo}
    {saved : List ServerSaveData} (h : ProgressStep before (.goalItemInfo report) after saved) :
    after.islandToScenarioMap = before.islandToScenarioMap := by
  cases h with
  | same hquiet => cases hquiet
  | repeated _ => rfl
  | reported _ hafter => rw [hafter]

/-- A packet that adds a shine reports it for the first time. -/
theorem addReport_cases (reported : List GoalItemCollectData) (packet : ServerBound) :
    addReport reported packet = reported ∨
      ∃ report, packet = .goalItemInfo report ∧ ⟨report.islandID, report.shineID⟩ ∉ reported ∧
        addReport reported packet = reported ++ [⟨report.islandID, report.shineID⟩] := by
  cases packet with
  | goalItemInfo report =>
    by_cases hknown : (⟨report.islandID, report.shineID⟩ : GoalItemCollectData) ∈ reported
    · exact Or.inl (if_pos hknown)
    · exact Or.inr ⟨report, rfl, hknown, if_neg hknown⟩
  | _ => exact Or.inl rfl

/-- Reported shines stay reported. -/
theorem mem_addReport {reported : List GoalItemCollectData} {shine : GoalItemCollectData}
    (h : shine ∈ reported) (packet : ServerBound) : shine ∈ addReport reported packet := by
  rcases addReport_cases reported packet with hsame | ⟨report, -, -, hadded⟩
  · rwa [hsame]
  · rw [hadded]
    exact List.mem_append_left _ h

/-- A handled packet saves nothing or the value it leaves. -/
theorem saved_cases {before after : ServerSaveData} {packet : ServerBound}
    {saved : List ServerSaveData} (h : ProgressStep before packet after saved) :
    (saved = [] ∧ ∀ report, packet ≠ .goalItemInfo report) ∨ saved = [after] := by
  cases h with
  | same hquiet =>
    refine Or.inl ⟨rfl, fun report he => ?_⟩
    rw [he] at hquiet
    cases hquiet
  | flipped data state => exact Or.inl ⟨rfl, fun report he => nomatch he⟩
  | island data => exact Or.inl ⟨rfl, fun report he => nomatch he⟩
  | known _ => exact Or.inl ⟨rfl, fun report he => nomatch he⟩
  | repeated _ => exact Or.inr rfl
  | reported _ _ => exact Or.inr rfl
  | toad _ _ => exact Or.inr rfl
  | shard _ => exact Or.inr rfl
  | committed _ _ => exact Or.inr rfl

section Steps

variable {library : JsonLibrary} {sys : ShineServer}

/-- A save that throws changes neither the progress nor the files. -/
theorem LedgerInv.write (hlibrary : Lawful library) (hcounted : sys.CountedOnce)
    (hrange : InRange sys.server.mSaveData)
    (hfilled : ∀ entry ∈ sys.filled, ∃ shine, entry.2 = replayGoalItem sys.reported.length shine)
    {values : List ServerSaveData}
    (hvalues : (values = [] ∧ StoresReported library sys.files sys.reported) ∨
      (values = [sys.server.mSaveData] ∧
        (NamesUtf8 sys.server.mSaveData ∨ StoresReported library sys.files sys.reported))) :
    LedgerInv library (sys.write library values) := by
  obtain ⟨hnodup, hcount, hreported, hannounced, hmem⟩ := hcounted
  rcases hvalues with ⟨rfl, hstored⟩ | ⟨rfl, hstored⟩
  · exact ⟨⟨hnodup, hcount, hreported, hannounced, hmem⟩, hrange, hfilled, hstored⟩
  · have hfold : [sys.server.mSaveData].foldlM (save library) sys.files =
        save library sys.files sys.server.mSaveData := by
      rw [List.foldlM_cons]
      exact bind_pure _
    rw [ShineServer.write, hfold]
    cases hsave : save library sys.files sys.server.mSaveData with
    | some written =>
      refine ⟨⟨hnodup, hcount, hreported, hannounced, hmem⟩, hrange, hfilled, Or.inr ?_⟩
      refine ⟨sys.server.mSaveData, (holds_of_save hsave hrange).1, hreported, ?_⟩
      rw [hcount, hreported]
    | none =>
      refine ⟨⟨hnodup, hcount, hreported, hannounced, hmem⟩, hrange, ?_, ?_⟩
      · exact fun entry hentry => absurd hentry List.not_mem_nil
      · rcases hstored with hnames | hstored
        · obtain ⟨written, hwritten⟩ := save_isSome hlibrary hrange hnames sys.files
          rw [hwritten] at hsave
          cases hsave
        · exact hstored

/-- Reported shines stay reported over an event. -/
theorem mem_reportedAfter {shine : GoalItemCollectData} (h : shine ∈ sys.reported)
    (event : ENetEvent) : shine ∈ sys.reportedAfter event := by
  unfold ShineServer.reportedAfter
  split
  · exact mem_addReport h _
  · exact h

/-- A report sends and announces what it should. -/
theorem report_sends (hinv : LedgerInv library sys) {node : ClientNode} {report : ToS_GoalItemInfo}
    {t : Server} {effects : List Effect} {now : ℕ}
    (h : handlePacket sys.server node (.goalItemInfo report) now = some (t, effects)) :
    (announcements effects =
      if ⟨report.islandID, report.shineID⟩ ∈ sys.reported then []
      else announcedTo sys.server node report (sys.reported.length + 1)) ∧
    (∀ sent ∈ shineSends effects,
      sent.2.numCollectedGoalItems = (addReport sys.reported (.goalItemInfo report)).length) ∧
    ∀ shine ∈ announcedShines effects,
      shine ∉ sys.reported ∧ shine ∈ addReport sys.reported (.goalItemInfo report) := by
  obtain ⟨hcollected, -, hcount⟩ := collected_step (handlePacket_progress h) hinv.nodup hinv.count
  rw [hinv.reported] at hcollected
  have hbefore : sys.server.mSaveData.numCollectedGoalItems = sys.reported.length := by
    rw [hinv.count, hinv.reported]
  have hresult : handleGoalItemInfo sys.server node report = (t, effects) := Option.some.inj h
  refine ⟨?_, fun sent hsent => ?_, fun shine hshine => ?_⟩
  · have hannounced := report_announcements sys.server node report
    rw [hresult, hinv.reported, hbefore] at hannounced
    exact hannounced
  · have hcounters := report_counters sys.server node report
    rw [hresult] at hcounters
    rw [hcounters sent hsent, hcount, hcollected]
  · have hnew : shine = ⟨report.islandID, report.shineID⟩ ∧
        shine ∉ sys.server.mSaveData.collectedGoalItems := by
      apply mem_announcedShines_report
      rw [hresult]
      exact hshine
    obtain ⟨rfl, hnew⟩ := hnew
    rw [hinv.reported] at hnew
    rw [addReport, if_neg hnew]
    exact ⟨hnew, List.mem_append_right _ (List.mem_singleton_self _)⟩

/-- What an event sends about shines, and which of them it announces. -/
theorem event_sends (hinv : LedgerInv library sys) {event : ENetEvent} {t : Server}
    {effects : List Effect} (hservice : exeService sys.server event = some (t, effects)) :
    announcements effects = dueAnnouncements sys (.event event) ∧
      (∀ sent ∈ shineSends effects,
        sent.2.numCollectedGoalItems = (sys.reportedAfter event).length) ∧
      ∀ shine ∈ announcedShines effects,
        shine ∉ sys.reported ∧ shine ∈ sys.reportedAfter event := by
  -- an event that sends no shine packet
  have hnone : shineSends effects = [] → dueAnnouncements sys (.event event) = [] →
      announcements effects = dueAnnouncements sys (.event event) ∧
        (∀ sent ∈ shineSends effects,
          sent.2.numCollectedGoalItems = (sys.reportedAfter event).length) ∧
        ∀ shine ∈ announcedShines effects,
          shine ∉ sys.reported ∧ shine ∈ sys.reportedAfter event := by
    intro hsends hdue
    have hannounced : announcements effects = [] := by rw [announcements, hsends, List.filter_nil]
    have hshines : announcedShines effects = [] := by
      rw [announcedShines, hannounced, List.filterMap_nil, List.dedup_nil]
    rw [hannounced, hdue, hsends, hshines]
    exact ⟨rfl, fun sent hsent => absurd hsent List.not_mem_nil,
      fun shine hshine => absurd hshine List.not_mem_nil⟩
  rcases exeService_cases hservice with ⟨hunhandled, -, heffects⟩ | ⟨node, packet, now, htaken, h⟩
  · refine hnone (shineSends_of_unhandled heffects) ?_
    rw [dueAnnouncements, hunhandled]
  · by_cases hreport : ∃ report, packet = .goalItemInfo report
    · obtain ⟨report, rfl⟩ := hreport
      rw [dueAnnouncements, ShineServer.reportedAfter, htaken]
      exact report_sends hinv h
    · have hother : ∀ report, packet ≠ .goalItemInfo report :=
        fun report he => hreport ⟨report, he⟩
      refine hnone (shineSends_of_other h hother) ?_
      rw [dueAnnouncements, htaken]
      cases packet with
      | goalItemInfo report => exact absurd rfl (hother report)
      | _ => rfl

/-- The condition on an event that adds a shine. -/
theorem addReport_safe (hinv : LedgerInv library sys) {event : ENetEvent} {node : ClientNode}
    {packet : ServerBound} {after : ServerSaveData} {saved : List ServerSaveData}
    (hguard : CountsSafely sys (.event event))
    (htaken : handled sys.server event = some (node, packet))
    (hstep : ProgressStep sys.server.mSaveData packet after saved) :
    addReport sys.reported packet = sys.reported ∨ (sys.filled = [] ∧ NamesUtf8 after) := by
  rcases addReport_cases sys.reported packet with hsame | ⟨report, rfl, hnew, -⟩
  · exact Or.inl hsame
  · rw [← hinv.reported] at hnew
    obtain ⟨hfilled, hnames⟩ := hguard _ (Option.mem_def.mpr htaken) (tellsNewShine_of_notMem hnew)
    rw [NamesUtf8, ← islands_of_report hstep] at hnames
    exact Or.inr ⟨List.isEmpty_iff.mp hfilled, hnames⟩

/-- An event that neither meets a filled packet with a new shine nor fails to
save one keeps the invariant. -/
theorem event_inv (hlibrary : Lawful library) (hinv : LedgerInv library sys) {event : ENetEvent}
    (hguard : CountsSafely sys (.event event))
    (hwire : ∀ taken ∈ handled sys.server event, WireInts taken.2) {t : Server}
    {effects : List Effect} (hservice : exeService sys.server event = some (t, effects))
    (hcounter : IsInt t.mSaveData.numCollectedGoalItems) :
    LedgerInv library (serviceEvent library sys event t effects) := by
  obtain ⟨-, -, hannounced⟩ := event_sends hinv hservice
  have hnodup : (sys.announced ++ announcedShines effects).Nodup := by
    refine List.nodup_append.mpr ⟨hinv.announced, List.nodup_dedup _, fun a ha b hb hab => ?_⟩
    exact (hannounced b hb).1 (hab ▸ hinv.announced_reported a ha)
  have hshines : ∀ shine ∈ sys.announced ++ announcedShines effects,
      shine ∈ sys.reportedAfter event := by
    intro shine hshine
    rcases List.mem_append.mp hshine with hold | hnew
    · exact mem_reportedAfter (hinv.announced_reported shine hold) event
    · exact (hannounced shine hnew).2
  unfold serviceEvent
  rcases exeService_progress hservice with ⟨hnone, hdata, hsaved⟩ | ⟨node, packet, htaken, hstep⟩
  · have hreported : sys.reportedAfter event = sys.reported := by
      rw [ShineServer.reportedAfter, hnone]
    rw [hreported] at hshines ⊢
    have hfilled := hinv.filled
    have hstored := hinv.stored
    obtain ⟨⟨hlist, hcount, hcollected, -, -⟩, hrange, -, -⟩ := hinv
    rw [← hdata] at hlist hcount hcollected hrange
    apply LedgerInv.write hlibrary
    · exact ⟨hlist, hcount, hcollected, hnodup, hshines⟩
    · exact hrange
    · exact hfilled
    · exact Or.inl ⟨hsaved, hstored⟩
  · have hreported : sys.reportedAfter event = addReport sys.reported packet := by
      rw [ShineServer.reportedAfter, htaken]
    rw [hreported] at hshines ⊢
    obtain ⟨hcollected, hcollectedNodup, hcount⟩ := collected_step hstep hinv.nodup hinv.count
    rw [hinv.reported] at hcollected
    have hadded := addReport_safe hinv hguard htaken hstep
    apply LedgerInv.write hlibrary
    · exact ⟨hcollectedNodup, hcount, hcollected, hnodup, hshines⟩
    · exact inRange_step hinv.inRange hstep (hwire _ (Option.mem_def.mpr htaken)) hcounter
    · rcases hadded with hsame | ⟨hfilled, -⟩
      · simp only [hsame]
        exact hinv.filled
      · simp only [hfilled]
        exact fun entry hentry => absurd hentry List.not_mem_nil
    · rcases saved_cases hstep with ⟨hsaved, hother⟩ | hsaved
      · refine Or.inl ⟨hsaved, ?_⟩
        rcases addReport_cases sys.reported packet with hsame | ⟨report, hreport, -, -⟩
        · simp only [hsame]
          exact hinv.stored
        · exact absurd hreport (hother report)
      · refine Or.inr ⟨hsaved, ?_⟩
        rcases hadded with hsame | ⟨-, hnames⟩
        · simp only [hsame]
          exact Or.inr hinv.stored
        · exact Or.inl hnames

/-- A restart finds the shines that were saved. -/
theorem startServer_inv (hlibrary : Lawful library) (hinv : LedgerInv library sys)
    {memory : Buffer sharedSaveCapacity} {next : ShineServer}
    (hstart : startServer library sys memory = some next) : LedgerInv library next := by
  unfold startServer at hstart
  cases hload : load library sys.files (.fresh memory) with
  | error e =>
    rw [hload] at hstart
    cases hstart
  | ok result =>
    obtain ⟨files, data⟩ := result
    rw [hload] at hstart
    cases hstart
    have hnodup : sys.reported.Nodup := hinv.reported ▸ hinv.nodup
    have hnone : ∀ entry ∈ ([] : List (ℕ × ClientBound)),
        ∃ shine, entry.2 = replayGoalItem sys.reported.length shine :=
      fun entry hentry => absurd hentry List.not_mem_nil
    rcases hinv.stored with ⟨hmissing, hempty⟩ | ⟨saved, hholds, hlist, hcount⟩
    · obtain ⟨size, shared, hsize, hdata, hsave⟩ := load_first hmissing hload
      have hrange : InRange data := by
        rw [hdata]
        exact inRange_withShared (inRange_fresh memory) hsize shared
      have hlist : data.collectedGoalItems = [] := by rw [hdata, withShared, ServerSaveData.fresh]
      have hcount : data.numCollectedGoalItems = 0 := by rw [hdata, withShared, ServerSaveData.fresh]
      have hstored : StoresReported library files sys.reported := by
        refine Or.inr ⟨data, (holds_of_save hsave hrange).1, ?_, ?_⟩
        · rw [hlist, hempty]
        · rw [hcount, hempty]
          rfl
      refine ⟨⟨?_, ?_, ?_, hinv.announced, hinv.announced_reported⟩, hrange, hnone, hstored⟩
      · exact hlist ▸ List.nodup_nil
      · exact hcount.trans (congrArg (fun list => (List.length list : ℤ)) hlist).symm
      · exact hlist.trans hempty.symm
    · obtain ⟨rfl, size, shared, hsize, hdata⟩ := load_again hlibrary hholds hload
      have hrange : InRange data := by
        obtain ⟨hnum, hitems, hshards, hislands, -⟩ := hholds.inRange
        rw [hdata]
        exact ⟨hnum, hitems, hshards, hislands, hsize⟩
      have hloaded : data.collectedGoalItems = sys.reported := by rw [hdata, ← hlist, withShared]
      have hnumber : data.numCollectedGoalItems = sys.reported.length := by
        rw [hdata, ← hcount, withShared]
      refine ⟨⟨?_, ?_, hloaded, hinv.announced, hinv.announced_reported⟩, hrange, hnone,
        Or.inr ⟨saved, hholds, hlist, hcount⟩⟩
      · exact hloaded ▸ hnodup
      · exact hnumber.trans (congrArg (fun list => (List.length list : ℤ)) hloaded).symm

/-- A reset while nothing is filled starts again from nothing. -/
theorem resetProgress_inv (hlibrary : Lawful library) (hempty : sys.NothingFilled)
    {data : ServerSaveData} (hreset : reset sys.files sys.server.mSaveData = .ok data) :
    LedgerInv library (resetProgress library sys data) := by
  obtain ⟨size, shared, hsize, hdata⟩ := loadShared_ok hreset
  have hlist : data.collectedGoalItems = [] := by rw [hdata, withShared]
  have hcount : data.numCollectedGoalItems = 0 := by rw [hdata, withShared]
  have hislands : data.islandToScenarioMap = ∅ := by rw [hdata, withShared]
  have hnames : NamesUtf8 data := by
    intro island hisland
    rw [hislands] at hisland
    exact absurd hisland List.not_mem_nil
  have hrange : InRange data := by
    obtain ⟨hnum, hitems, hshards, hmap, -⟩ := inRange_fresh sys.server.mSaveData.sharedSave
    rw [hdata]
    exact ⟨hnum, hitems, hshards, hmap, hsize⟩
  have hlength : data.numCollectedGoalItems = data.collectedGoalItems.length := by
    rw [hlist, hcount]
    rfl
  apply LedgerInv.write hlibrary
  · exact ⟨hlist ▸ List.nodup_nil, hlength, hlist, List.nodup_nil, fun shine hshine => hshine⟩
  · exact hrange
  · intro entry hentry
    rw [List.isEmpty_iff.mp hempty] at hentry
    exact absurd hentry List.not_mem_nil
  · exact Or.inr ⟨rfl, Or.inl hnames⟩

/-- A step that meets the condition keeps the invariant. -/
theorem shineStep_inv (hlibrary : Lawful library) {next : ShineServer} {action : ShineAction}
    (hinv : LedgerInv library sys) (hguard : CountsSafely sys action)
    (hstep : shineStep library sys action = some next) : LedgerInv library next := by
  cases action with
  | restart memory => exact startServer_inv hlibrary hinv hstep
  | event event =>
    simp only [shineStep] at hstep
    split at hstep
    · rename_i hcan
      obtain ⟨⟨t, effects⟩, hservice, hnext⟩ := Option.bind_eq_some_iff.mp hstep
      split at hnext
      · rename_i hcounter
        cases hnext
        exact event_inv hlibrary hinv hguard hcan.2 hservice hcounter
      · cases hnext
    · cases hstep
  | resetsave =>
    simp only [shineStep] at hstep
    split at hstep
    · cases hreset : reset sys.files sys.server.mSaveData with
      | ok data =>
        rw [hreset] at hstep
        cases hstep
        exact resetProgress_inv hlibrary hguard hreset
      | error e =>
        rw [hreset] at hstep
        cases hstep
    · cases hstep
  | fill ptr index =>
    simp only [shineStep] at hstep
    split at hstep
    · obtain ⟨shine, -, rfl⟩ := Option.map_eq_some_iff.mp hstep
      obtain ⟨⟨hnodup, hcount, hreported, hannounced, hmem⟩, hrange, hfilled, hstored⟩ := hinv
      refine ⟨⟨hnodup, hcount, hreported, hannounced, hmem⟩, hrange, ?_, hstored⟩
      intro entry hentry
      rcases List.mem_append.mp hentry with hold | hnew
      · exact hfilled entry hold
      · rw [List.mem_singleton.mp hnew]
        refine ⟨shine, ?_⟩
        rw [hcount, hreported]
    · cases hstep
  | send index =>
    obtain ⟨entry, -, rfl⟩ := Option.map_eq_some_iff.mp hstep
    obtain ⟨⟨hnodup, hcount, hreported, hannounced, hmem⟩, hrange, hfilled, hstored⟩ := hinv
    refine ⟨⟨hnodup, hcount, hreported, hannounced, hmem⟩, hrange, ?_, hstored⟩
    exact fun other hother => hfilled other (List.mem_of_mem_eraseIdx hother)

/-- Writing files sends nothing and forgets no report. -/
theorem ShineServer.write_sent (sys : ShineServer) (values : List ServerSaveData) :
    (sys.write library values).sent = sys.sent ∧
      (sys.write library values).reported = sys.reported := by
  unfold ShineServer.write
  split <;> exact ⟨rfl, rfl⟩

/-- What a replay thread sends carries the counter it was filled with, and
announces nothing. -/
theorem mem_shineSends_sendFilled {s : Server} {ptr : ℕ} {count : ℤ} {shine : GoalItemCollectData}
    {sent : Option ENetPeer × ToC_GoalItemInfo}
    (h : sent ∈ shineSends (sendFilled s (ptr, replayGoalItem count shine))) :
    sent.2.numCollectedGoalItems = count ∧ sent.2.isCollectNewShine = false := by
  unfold sendFilled at h
  dsimp only at h
  split at h
  · rw [mem_shineSends_toClient h]
    exact ⟨rfl, rfl⟩
  · cases h

/-- In a state that satisfies the invariant every step sends what it should. -/
theorem sendsRight (hinv : LedgerInv library sys) (action : ShineAction) :
    SendsRight library sys action := by
  intro next hstep
  -- a step that sends nothing
  have hquiet : next.sent = [] → dueAnnouncements sys action = [] →
      announcements next.sent = dueAnnouncements sys action ∧
        ∀ sent ∈ shineSends next.sent,
          sent.2.numCollectedGoalItems = next.reported.length := by
    intro hsent hdue
    rw [hsent, hdue]
    exact ⟨rfl, fun sent h => absurd h List.not_mem_nil⟩
  cases action with
  | restart memory =>
    simp only [shineStep, startServer] at hstep
    split at hstep
    · cases hstep
      exact hquiet rfl rfl
    · cases hstep
  | event event =>
    simp only [shineStep] at hstep
    split at hstep
    · obtain ⟨⟨t, effects⟩, hservice, hnext⟩ := Option.bind_eq_some_iff.mp hstep
      split at hnext
      · cases hnext
        obtain ⟨hannounced, hcounters, -⟩ := event_sends hinv hservice
        unfold serviceEvent
        rw [(ShineServer.write_sent _ _).1, (ShineServer.write_sent _ _).2]
        exact ⟨hannounced, hcounters⟩
      · cases hnext
    · cases hstep
  | resetsave =>
    simp only [shineStep] at hstep
    split at hstep
    · split at hstep
      · cases hstep
        exact hquiet (ShineServer.write_sent _ _).1 rfl
      · cases hstep
    · cases hstep
  | fill ptr index =>
    simp only [shineStep] at hstep
    split at hstep
    · obtain ⟨shine, -, rfl⟩ := Option.map_eq_some_iff.mp hstep
      exact hquiet rfl rfl
    · cases hstep
  | send index =>
    obtain ⟨⟨ptr, packet⟩, hentry, rfl⟩ := Option.map_eq_some_iff.mp hstep
    obtain ⟨shine, hpacket⟩ := hinv.filled (ptr, packet) (List.mem_of_getElem? hentry)
    simp only at hpacket
    rw [hpacket]
    constructor
    · refine List.filter_eq_nil_iff.mpr fun sent hsent => ?_
      rw [(mem_shineSends_sendFilled hsent).2]
      exact Bool.false_ne_true
    · exact fun sent hsent => (mem_shineSends_sendFilled hsent).1

end Steps

/-- Before the first start nothing is reported and nothing is saved. -/
theorem off_inv (library : JsonLibrary) (gameDataDefault : Option (List UInt8))
    (memory : Buffer sharedSaveCapacity) : LedgerInv library (.off gameDataDefault memory) := by
  refine ⟨⟨List.nodup_nil, rfl, rfl, List.nodup_nil, fun shine hshine => hshine⟩,
    inRange_fresh memory, ?_, Or.inl ⟨rfl, rfl⟩⟩
  exact fun entry hentry => absurd hentry List.not_mem_nil

/-- From the first start on, each shine is listed, counted and announced once
between two resets, over reports, other packets, resets and restarts, and every
packet carries the right counter: in the runs whose counter changes only while
no replay packet is filled and not yet sent, and whose new shines are reported
only while every island has a name in UTF-8. -/
theorem shines_counted_once (library : JsonLibrary) (hlibrary : Lawful library)
    (gameDataDefault : Option (List UInt8)) (memory : Buffer sharedSaveCapacity)
    (actions : List ShineAction)
    (hguard : Along CountsSafely (shineStep library) (.off gameDataDefault memory) actions) :
    Throughout ShineServer.CountedOnce (shineStep library) (.off gameDataDefault memory) actions ∧
      Along (SendsRight library) (shineStep library) (.off gameDataDefault memory) actions := by
  have hstart := off_inv library gameDataDefault memory
  have hkeeps : ∀ sys action next, LedgerInv library sys → CountsSafely sys action →
      shineStep library sys action = some next → LedgerInv library next :=
    fun sys action next hinv hsafe hstep => shineStep_inv hlibrary hinv hsafe hstep
  refine ⟨⟨?_, fun next hrun => ?_⟩, ?_⟩
  · exact along_of_invariant hkeeps (fun sys action hinv _ => hinv.toCountedOnce) hstart hguard
  · exact (run_invariant hkeeps hstart hguard hrun).toCountedOnce
  · exact along_of_invariant hkeeps (fun sys action hinv _ => sendsRight hinv action) hstart hguard

/-- A start of the process. -/
def restarted : ShineAction := .restart (Buffer.zero sharedSaveCapacity)

/-- A client connects and greets. -/
def joining (slot : ℕ) : List ShineAction :=
  [.event (.connect (peerAt slot) slot), .event (greetingOf slot)]

/-- A packet of a client. -/
def packetOf (slot : ℕ) (packet : ServerBound) : ShineAction :=
  .event (.receive (peerAt slot) packet 0)

/-- A client reports a shine. -/
def reporting (slot : ℕ) (islandID shineID : ℤ) : ShineAction :=
  packetOf slot (.goalItemInfo ⟨islandID, shineID⟩)

/-- A machine with a default shared save and no save file. -/
def offServer : ShineServer := .off (some [1, 2, 3]) (Buffer.zero sharedSaveCapacity)

/-- Reports of one shine by two clients, before and after a restart, a replay
between them, and a reset with another report after it. -/
def countedRun : List ShineAction :=
  restarted :: joining 1 ++ joining 2 ++ [reporting 1 1 1, reporting 2 1 1, .fill 1 0, .send 0,
    restarted] ++ joining 1 ++ [reporting 1 1 1, .resetsave, reporting 1 1 2]

set_option maxRecDepth 10000 in
/-- This run counts right. -/
theorem shines_counted_once_run :
    Throughout ShineServer.CountedOnce (shineStep tableLibrary) offServer countedRun ∧
      Along (SendsRight tableLibrary) (shineStep tableLibrary) offServer countedRun :=
  shines_counted_once tableLibrary tableLibrary_lawful (some [1, 2, 3])
    (Buffer.zero sharedSaveCapacity) countedRun (by decide +kernel)

/-- A packet of the last step has another counter than it should. -/
def ShineServer.miscounts (sys : ShineServer) : Bool :=
  (shineSends sys.sent).any fun sent => sent.2.numCollectedGoalItems != sys.reported.length

/-- Such a step does not send what it should. -/
theorem not_sendsRight {library : JsonLibrary} {start : ShineServer} {actions : List ShineAction}
    {action : ShineAction}
    (h : ∃ sys, run (shineStep library) start actions = some sys ∧
      (shineStep library sys action).any ShineServer.miscounts = true) :
    ¬Along (SendsRight library) (shineStep library) start (actions ++ [action]) := by
  intro hright
  obtain ⟨sys, hrun, hmiscounts⟩ := h
  cases hstep : shineStep library sys action with
  | none =>
    rw [hstep] at hmiscounts
    cases hmiscounts
  | some next =>
    rw [hstep, Option.any_some, ShineServer.miscounts, List.any_eq_true] at hmiscounts
    obtain ⟨sent, hsent, hcounter⟩ := hmiscounts
    have hright := (along_last hright hrun next hstep).2 sent hsent
    rw [hright, bne_self_eq_false] at hcounter
    cases hcounter

/-- A replay packet is filled, another shine is reported, and then the packet
is sent. -/
def overtakenRun : List ShineAction :=
  restarted :: joining 1 ++ joining 2 ++ [reporting 1 1 1,
    packetOf 2 (.singleModeSceneEnter ⟨0⟩), .fill 2 0, reporting 1 1 2]

/-- An island is named by a byte that is no UTF-8, so that the save of the next
shine throws. After a restart another shine is reported. -/
def crashedRun : List ShineAction :=
  restarted :: joining 1 ++ [packetOf 1 (.scenarioUpdate ⟨[255], 1, some true⟩), reporting 1 1 1,
    restarted] ++ joining 1 ++ joining 2

set_option maxRecDepth 10000 in
/-- The replay packet carries the old counter, and the packet after the restart
does not count the shine that was never saved. -/
theorem shines_are_miscounted :
    ¬Along (SendsRight tableLibrary) (shineStep tableLibrary) offServer
        (overtakenRun ++ [.send 0]) ∧
      ¬Along (SendsRight tableLibrary) (shineStep tableLibrary) offServer
        (crashedRun ++ [reporting 1 1 2]) :=
  ⟨not_sendsRight (run_reaches (by decide +kernel)),
    not_sendsRight (run_reaches (by decide +kernel))⟩

end BfMultiplayer.ShineLedger

import BfMultiplayer.ClientLinks
import BfMultiplayer.ClientProgress
import BfMultiplayer.GuardedRuns
import BfMultiplayer.ListFacts

/-!
# Agreement on the shine counter

A report of a shine is answered to everybody with the server's counter, so the
last answer a client handles leaves it with the current value. The replay for
a client that enters the scene sends the counter as well, but from a thread of
its own, which may have read it long before: when the last packet of a replay
is stale, the client keeps the stale value. As long as the last packet of the
last running replay of a client carries the current counter, all counters are
equal whenever nothing is in flight and no replay is running.
-/

namespace BfMultiplayer.ShineCounter

open Packets ServerState ServerHandlers Mailbox ClientLinks ClientProgress GuardedRuns ListFacts

/-- The shine information a packet carries. -/
def goalItemInfo? : ClientBound → Option ToC_GoalItemInfo
  | .goalItemInfo packet => some packet
  | _ => none

/-- A replay thread in its loop over the shines. -/
structure Replay where
  /-- The client it was started for. -/
  ptr : ℕ
  /-- The shines it has not come to. -/
  remaining : List GoalItemCollectData
  /-- Counter and shine of the packet it has filled and not yet sent. -/
  pending : Option (ℤ × GoalItemCollectData)

/-- Whether a replay is still going to send something. -/
def Replay.active (r : Replay) : Bool := !r.remaining.isEmpty || r.pending.isSome

/-- The server, the clients by the places of their records, and the threads. -/
structure ShineSystem (γ : Type) where
  /-- The server. -/
  server : Server
  /-- The game of each client, and the packets in flight to it. -/
  games : ℕ → Receiver γ ToC_GoalItemInfo
  /-- The reports of each client in flight to the server. -/
  reports : ℕ → List ToS_GoalItemInfo
  /-- The running replays. -/
  replays : List Replay

/-- A step of the system. -/
inductive ShineAction where
  /-- A client collects a shine and reports it. -/
  | collect (ptr : ℕ) (islandID shineID : ℤ)
  /-- The server handles a client's oldest report. -/
  | serve (ptr : ℕ)
  /-- The replay of a client's scene entry starts its loop over the shines. -/
  | startReplay (ptr : ℕ)
  /-- A replay fills the packet of its next shine. -/
  | readCounter (k : ℕ)
  /-- A replay sends the packet it has filled. -/
  | sendReplay (k : ℕ)
  /-- A replay with nothing left to send ends. -/
  | endReplay (k : ℕ)
  /-- A client handles the oldest packet in flight to it. -/
  | deliver (ptr : ℕ)

section System

variable {γ : Type} (game : SingleModeGame γ)

/-- The server handles one report of a client. -/
def serveReport (sys : ShineSystem γ) (node : ClientNode) (report : ToS_GoalItemInfo)
    (rest : List ToS_GoalItemInfo) : ShineSystem γ :=
  let result := handleGoalItemInfo sys.server node report
  { sys with
    server := result.1
    games := postAll result.1 goalItemInfo? sys.games result.2
    reports := Function.update sys.reports node.ptr rest }

/-- A replay sends its packet to its client. -/
def sendPending (sys : ShineSystem γ) (k : ℕ) (r : Replay) (pending : ℤ × GoalItemCollectData) :
    ShineSystem γ :=
  let effects :=
    match nodeAt sys.server r.ptr with
    | some node => sys.server.sendPacket node.client (replayGoalItem pending.1 pending.2)
    | none => []
  { sys with
    games := postAll sys.server goalItemInfo? sys.games effects
    replays := sys.replays.set k { r with pending := none } }

/-- The step function. -/
def shineStep (sys : ShineSystem γ) : ShineAction → Option (ShineSystem γ)
  | .collect ptr islandID shineID => some { sys with
      games := Function.update sys.games ptr
        ((sys.games ptr).act fun g => game.collectGoalItem g islandID shineID)
      reports := Function.update sys.reports ptr (sys.reports ptr ++ [⟨islandID, shineID⟩]) }
  | .serve ptr =>
    match nodeAt sys.server ptr, sys.reports ptr with
    | some node, report :: rest => some (serveReport sys node report rest)
    | _, _ => none
  | .startReplay ptr => some { sys with
      replays := sys.replays ++ [⟨ptr, sys.server.mSaveData.collectedGoalItems, none⟩] }
  | .readCounter k =>
    match sys.replays[k]? with
    | some ⟨ptr, shine :: rest, none⟩ => some { sys with
        replays := sys.replays.set k
          ⟨ptr, rest, some (sys.server.mSaveData.numCollectedGoalItems, shine)⟩ }
    | _ => none
  | .sendReplay k =>
    match sys.replays[k]? with
    | some r => r.pending.map (sendPending sys k r)
    | none => none
  | .endReplay k =>
    match sys.replays[k]? with
    | some r => if r.active then none else some { sys with replays := sys.replays.eraseIdx k }
    | none => none
  | .deliver ptr => ((sys.games ptr).deliver (handleToC_GoalItemInfo game)).map fun receiver =>
      { sys with games := Function.update sys.games ptr receiver }

/-- Some server, its clients in given states, and nothing in flight. -/
def ShineSystem.start (s : Server) (clients : ℕ → γ) : ShineSystem γ :=
  ⟨s, fun ptr => ⟨clients ptr, []⟩, fun _ => [], []⟩

/-- Nothing is in flight and no replay is running. -/
def ShineSystem.Quiet (sys : ShineSystem γ) : Prop :=
  (∀ node ∈ sys.server.mClients,
    sys.reports node.ptr = [] ∧ (sys.games node.ptr).queue.isEmpty = true) ∧
  sys.replays.isEmpty = true

/-- Every client shows the server's counter. -/
def ShineSystem.Agree (sys : ShineSystem γ) : Prop :=
  ∀ node ∈ sys.server.mClients, (game.progress (sys.games node.ptr).state).mNumGoalItems =
    sys.server.mSaveData.numCollectedGoalItems

instance (sys : ShineSystem γ) : Decidable sys.Quiet := inferInstanceAs (Decidable (_ ∧ _))

instance (sys : ShineSystem γ) : Decidable (sys.Agree game) := List.decidableBAll _ _

/-- A common start: equal counters, and no client has completed a scenario that
the server does not know. -/
def CommonStart (s : Server) (clients : ℕ → γ) : Prop :=
  ∀ node ∈ s.mClients,
    (game.progress (clients node.ptr)).mNumGoalItems = s.mSaveData.numCollectedGoalItems ∧
    ∀ scenario, (game.progress (clients node.ptr)).completed scenario = true →
      ∃ item ∈ s.mSaveData.collectedGoalItems, scenario = zeroBased item.islandID item.scenarioID

/-- A client is still going to be told the counter: it has a report in flight or
a replay that will send to it. -/
def ShineSystem.Expecting (sys : ShineSystem γ) (ptr : ℕ) : Prop :=
  sys.reports ptr ≠ [] ∨ ∃ r ∈ sys.replays, r.ptr = ptr ∧ r.active = true

/-- The condition on a step: the last packet that a client is still going to be
sent, when a replay sends it, carries the server's counter. -/
def FreshAtEnd (sys : ShineSystem γ) : ShineAction → Prop
  | .sendReplay k => ∀ r ∈ sys.replays[k]?, ∀ pending ∈ r.pending, r.remaining.isEmpty = true →
      sys.reports r.ptr = [] →
      (∀ other ∈ sys.replays.eraseIdx k, other.ptr = r.ptr → other.active = false) →
      pending.1 = sys.server.mSaveData.numCollectedGoalItems
  | _ => True

instance (sys : ShineSystem γ) : ∀ action, Decidable (FreshAtEnd sys action)
  | .sendReplay _ => Option.decidableForallMem _
  | .collect _ _ _ => inferInstanceAs (Decidable True)
  | .serve _ => inferInstanceAs (Decidable True)
  | .startReplay _ => inferInstanceAs (Decidable True)
  | .readCounter _ => inferInstanceAs (Decidable True)
  | .endReplay _ => inferInstanceAs (Decidable True)
  | .deliver _ => inferInstanceAs (Decidable True)

/-- What holds between two steps. -/
structure ShineInv (sys : ShineSystem γ) : Prop where
  /-- The clients of the server. -/
  linked : Linked sys.server
  /-- A client that is not going to be told the counter settles at it. -/
  counted : ∀ node ∈ sys.server.mClients, ¬sys.Expecting node.ptr →
    (game.progress ((sys.games node.ptr).settled (handleToC_GoalItemInfo game))).mNumGoalItems =
      sys.server.mSaveData.numCollectedGoalItems
  /-- A scenario a client settles with is known to the server or reported. -/
  known : ∀ node ∈ sys.server.mClients, ∀ scenario,
    (game.progress ((sys.games node.ptr).settled (handleToC_GoalItemInfo game))).completed
      scenario = true →
    (∃ item ∈ sys.server.mSaveData.collectedGoalItems,
      scenario = zeroBased item.islandID item.scenarioID) ∨
    ∃ report ∈ sys.reports node.ptr, scenario = zeroBased report.islandID report.shineID

variable {game}

/-- Serving a report leaves the clients and the peers. -/
theorem serveReport_clients (sys : ShineSystem γ) (client : ClientNode) (report : ToS_GoalItemInfo)
    (rest : List ToS_GoalItemInfo) :
    (serveReport sys client report rest).server.mClients = sys.server.mClients ∧
      (serveReport sys client report rest).server.peers = sys.server.peers := by
  rw [serveReport, handleGoalItemInfo_server]
  exact ⟨rfl, rfl⟩

/-- The server then knows the reported shine as well. -/
theorem serveReport_collected (sys : ShineSystem γ) (client : ClientNode)
    (report : ToS_GoalItemInfo) (rest : List ToS_GoalItemInfo) (item : GoalItemCollectData) :
    item ∈ (serveReport sys client report rest).server.mSaveData.collectedGoalItems ↔
      item ∈ sys.server.mSaveData.collectedGoalItems ∨
        item = ⟨report.islandID, report.shineID⟩ := by
  rw [serveReport, handleGoalItemInfo_server, List.mem_append]
  by_cases hknown : (⟨report.islandID, report.shineID⟩ : GoalItemCollectData) ∈
      sys.server.mSaveData.collectedGoalItems
  · rw [if_pos hknown]
    refine ⟨fun h => Or.inl (h.resolve_right List.not_mem_nil), fun h => Or.inl ?_⟩
    rcases h with h | h
    · exact h
    · rw [h]
      exact hknown
  · rw [if_neg hknown, List.mem_singleton]

/-- Every client is sent one packet for a report, with the new counter; it
announces the shine to the others when it is new. -/
theorem serveReport_settled {sys : ShineSystem γ} {client node : ClientNode}
    {report : ToS_GoalItemInfo} (hlinked : Linked sys.server) (hclient : client ∈ sys.server.mClients)
    (hnode : node ∈ sys.server.mClients) (rest : List ToS_GoalItemInfo) :
    ∃ packet,
      ((serveReport sys client report rest).games node.ptr).settled (handleToC_GoalItemInfo game) =
        handleToC_GoalItemInfo game
          ((sys.games node.ptr).settled (handleToC_GoalItemInfo game)) packet ∧
      packet.numCollectedGoalItems =
        (serveReport sys client report rest).server.mSaveData.numCollectedGoalItems ∧
      (packet.isCollectNewShine = true → node.ptr ≠ client.ptr ∧
        ⟨report.islandID, report.shineID⟩ ∉ sys.server.mSaveData.collectedGoalItems ∧
        packet.islandID = some report.islandID ∧ packet.shineID = some report.shineID) := by
  obtain ⟨hclients, hpeers⟩ := serveReport_clients sys client report rest
  obtain ⟨packet, hsent, hcount, hnew, hids⟩ :=
    hlinked.handleGoalItemInfo_sent hclient hnode report
  refine ⟨packet, ?_, hcount, fun hflag => ?_⟩
  · have hserved := hlinked.congr hclients hpeers
    rw [← hclients] at hnode
    simp only [serveReport] at hserved hnode ⊢
    rw [hserved.postAll_ptr hnode, hsent]
    exact settled_post _ [packet]
  · obtain ⟨hptr, hunknown⟩ := hnew.mp hflag
    exact ⟨hptr, hunknown, hids hflag⟩

/-- After a report, a scenario that a client settles with is known to the server
or reported. -/
theorem known_serve {sys : ShineSystem γ} {client : ClientNode} {report : ToS_GoalItemInfo}
    {rest : List ToS_GoalItemInfo} (hreports : sys.reports client.ptr = report :: rest) {ptr : ℕ}
    {scenario : ℤ × ℤ}
    (h : (∃ item ∈ sys.server.mSaveData.collectedGoalItems,
        scenario = zeroBased item.islandID item.scenarioID) ∨
      ∃ other ∈ sys.reports ptr, scenario = zeroBased other.islandID other.shineID) :
    (∃ item ∈ (serveReport sys client report rest).server.mSaveData.collectedGoalItems,
        scenario = zeroBased item.islandID item.scenarioID) ∨
      ∃ other ∈ (serveReport sys client report rest).reports ptr,
        scenario = zeroBased other.islandID other.shineID := by
  have hcollected := serveReport_collected sys client report rest
  rcases h with hitem | hreport
  · obtain ⟨item, hmem, hscenario⟩ := hitem
    exact Or.inl ⟨item, (hcollected item).mpr (Or.inl hmem), hscenario⟩
  · obtain ⟨other, hmem, hscenario⟩ := hreport
    by_cases he : other = report
    · rw [hscenario, he]
      exact Or.inl ⟨_, (hcollected _).mpr (Or.inr rfl), rfl⟩
    · exact Or.inr ⟨other, mem_update_tail_of_ne hreports hmem he, hscenario⟩

/-- A report served keeps the invariant. -/
theorem shineInv_serve (hgame : game.Lawful) {sys : ShineSystem γ} {client : ClientNode}
    {report : ToS_GoalItemInfo} {rest : List ToS_GoalItemInfo} (hinv : ShineInv game sys)
    (hclient : client ∈ sys.server.mClients) (hreports : sys.reports client.ptr = report :: rest) :
    ShineInv game (serveReport sys client report rest) := by
  obtain ⟨hclients, hpeers⟩ := serveReport_clients sys client report rest
  refine ⟨hinv.linked.congr hclients hpeers, fun node hnode hquiet => ?_,
    fun node hnode scenario hdone => ?_⟩
  · rw [hclients] at hnode
    obtain ⟨packet, hsettled, hcount, hannounce⟩ :=
      serveReport_settled hinv.linked hclient hnode rest
    rw [hsettled, counter_handle hgame, hcount]
    intro hflag
    obtain ⟨hptr, hunknown, hisland, hshine⟩ := hannounce hflag
    refine ⟨_, _, hisland, hshine, ?_⟩
    rw [Bool.eq_false_iff]
    intro hdone
    -- the client would know a shine that nobody has reported
    rcases hinv.known node hnode _ hdone with hitem | hreport
    · obtain ⟨item, hmem, hscenario⟩ := hitem
      obtain ⟨hisl, hshi⟩ := zeroBased_inj hscenario
      rw [hisl, hshi] at hunknown
      exact hunknown hmem
    · obtain ⟨other, hmem, -⟩ := hreport
      refine hquiet (Or.inl ?_)
      simp only [serveReport, Function.update_of_ne hptr]
      exact List.ne_nil_of_mem hmem
  · rw [hclients] at hnode
    obtain ⟨packet, hsettled, -, hannounce⟩ :=
      serveReport_settled hinv.linked hclient hnode rest
    rw [hsettled, completed_handle hgame] at hdone
    rcases hdone with hdone | hnew
    · exact known_serve hreports (hinv.known node hnode scenario hdone)
    · obtain ⟨hflag, island, shine, hisland, hshine, hscenario⟩ := hnew
      obtain ⟨-, -, hisland', hshine'⟩ := hannounce hflag
      rw [hisland', Option.some.injEq] at hisland
      rw [hshine', Option.some.injEq] at hshine
      rw [hscenario, ← hisland, ← hshine]
      exact Or.inl ⟨_, (serveReport_collected sys client report rest _).mpr (Or.inr rfl), rfl⟩

/-- A step that leaves the server, the reports and what clients settle at, and
lets no client stop expecting a packet, keeps the invariant. -/
theorem shineInv_of_same {sys sys' : ShineSystem γ} (hinv : ShineInv game sys)
    (hserver : sys'.server = sys.server) (hreports : sys'.reports = sys.reports)
    (hsettled : ∀ ptr, (sys'.games ptr).settled (handleToC_GoalItemInfo game) =
      (sys.games ptr).settled (handleToC_GoalItemInfo game))
    (hexpecting : ∀ ptr, sys.Expecting ptr → sys'.Expecting ptr) : ShineInv game sys' := by
  obtain ⟨hlinked, hcounted, hknown⟩ := hinv
  rw [← hserver] at hlinked hcounted hknown
  refine ⟨hlinked, fun node hnode hquiet => ?_, fun node hnode scenario hdone => ?_⟩
  · rw [hsettled]
    exact hcounted node hnode fun h => hquiet (hexpecting _ h)
  · rw [hsettled] at hdone
    rw [hreports]
    exact hknown node hnode scenario hdone

/-- A collected scenario is the only new one that a client settles with. -/
theorem completed_collect (hgame : game.Lawful) {client : Receiver γ ToC_GoalItemInfo}
    {islandID shineID : ℤ} {scenario : ℤ × ℤ}
    (h : (game.progress ((client.act fun g => game.collectGoalItem g islandID shineID).settled
      (handleToC_GoalItemInfo game))).completed scenario = true) :
    (game.progress (client.settled (handleToC_GoalItemInfo game))).completed scenario = true ∨
      scenario = zeroBased islandID shineID := by
  refine settled_act_rel (R := fun g g' => ∀ scenario, (game.progress g).completed scenario = true →
    (game.progress g').completed scenario = true ∨ scenario = zeroBased islandID shineID)
    client ?_ ?_ scenario h
  · intro scenario h
    rw [hgame.collectGoalItem, completed_completeScenario] at h
    exact h
  · -- a packet in flight completes the same with and without it
    intro g g' packet hrel scenario h
    rw [completed_handle hgame] at h ⊢
    rcases h with h | h
    · rcases hrel scenario h with h | h
      · exact Or.inl (Or.inl h)
      · exact Or.inr h
    · exact Or.inl (Or.inr h)

/-- A shine collected by a client keeps the invariant. -/
theorem shineInv_collect (hgame : game.Lawful) {sys sys' : ShineSystem γ} {ptr : ℕ}
    {islandID shineID : ℤ} (hinv : ShineInv game sys)
    (hstep : shineStep game sys (.collect ptr islandID shineID) = some sys') :
    ShineInv game sys' := by
  cases hstep
  refine ⟨hinv.linked, fun node hnode hquiet => ?_, fun node hnode scenario hdone => ?_⟩
  · by_cases hptr : node.ptr = ptr
    · refine absurd (Or.inl ?_) hquiet
      simp only [hptr, Function.update_self]
      exact List.append_ne_nil_of_right_ne_nil _ (List.cons_ne_nil _ _)
    · have hold : ¬sys.Expecting node.ptr := by
        intro h
        apply hquiet
        unfold ShineSystem.Expecting at h ⊢
        simp only [Function.update_of_ne hptr]
        exact h
      simp only [Function.update_of_ne hptr]
      exact hinv.counted node hnode hold
  · have hreports : ∀ report, report ∈ Function.update sys.reports ptr
        (sys.reports ptr ++ [⟨islandID, shineID⟩]) node.ptr ↔
          report ∈ sys.reports node.ptr ∨ node.ptr = ptr ∧ report = ⟨islandID, shineID⟩ :=
      fun report => mem_update_append
    have hknown : (game.progress ((sys.games node.ptr).settled
        (handleToC_GoalItemInfo game))).completed scenario = true ∨
          node.ptr = ptr ∧ scenario = zeroBased islandID shineID := by
      by_cases hptr : node.ptr = ptr
      · simp only [hptr, Function.update_self] at hdone
        rw [hptr]
        exact (completed_collect hgame hdone).imp_right fun hnew => ⟨rfl, hnew⟩
      · simp only [Function.update_of_ne hptr] at hdone
        exact Or.inl hdone
    rcases hknown with hold | ⟨hptr, hnew⟩
    · refine (hinv.known node hnode scenario hold).imp_right fun hreport => ?_
      obtain ⟨report, hmem, hscenario⟩ := hreport
      exact ⟨report, (hreports report).mpr (Or.inl hmem), hscenario⟩
    · exact Or.inr ⟨_, (hreports _).mpr (Or.inr ⟨hptr, rfl⟩), hnew⟩

/-- The client of a replay is sent its packet, the others nothing. -/
theorem sendPending_games {sys : ShineSystem γ} (hlinked : Linked sys.server) (k : ℕ) (r : Replay)
    (pending : ℤ × GoalItemCollectData) {node : ClientNode} (hnode : node ∈ sys.server.mClients) :
    (sendPending sys k r pending).games node.ptr =
      (sys.games node.ptr).post (if node.ptr = r.ptr then
        [⟨Uid.zero, pending.1, false, some pending.2.islandID, some pending.2.scenarioID⟩]
        else []) := by
  simp only [sendPending]
  rw [hlinked.postAll_ptr hnode]
  cases hat : nodeAt sys.server r.ptr with
  | none =>
    have hptr : node.ptr ≠ r.ptr := by
      intro h
      rw [← h, hlinked.nodeAt_ptr hnode] at hat
      cases hat
    rw [if_neg hptr]
    rfl
  | some target =>
    obtain ⟨htarget, hptr⟩ := nodeAt_mem hat
    dsimp only
    rw [hlinked.sentTo_sendPacket hnode htarget, hptr]
    by_cases h : node.ptr = r.ptr
    · rw [if_pos h, if_pos h]
      rfl
    · rw [if_neg h, if_neg h]
      rfl

/-- A replay packet sent under the condition keeps the invariant. -/
theorem shineInv_send (hgame : game.Lawful) {sys : ShineSystem γ} {k : ℕ} {r : Replay}
    {pending : ℤ × GoalItemCollectData} (hinv : ShineInv game sys)
    (hr : sys.replays[k]? = some r) (hpending : r.pending = some pending)
    (hguard : FreshAtEnd sys (.sendReplay k)) : ShineInv game (sendPending sys k r pending) := by
  refine ⟨hinv.linked, fun node hnode hquiet => ?_, fun node hnode scenario hdone => ?_⟩
  · rw [sendPending_games hinv.linked k r pending hnode, settled_post]
    by_cases hptr : node.ptr = r.ptr
    · rw [if_pos hptr, List.foldl_cons, List.foldl_nil, handleToC_GoalItemInfo_old rfl,
        hgame.setNumGoalItems]
      have hk : k < sys.replays.length := (List.getElem?_eq_some_iff.mp hr).1
      -- nothing else is going to be sent to the client, so the packet is fresh
      refine hguard r hr pending hpending ?_ ?_ ?_
      · cases hrest : r.remaining with
        | nil => rfl
        | cons shine rest =>
          refine absurd (Or.inr ⟨{ r with pending := none }, ?_, hptr.symm, ?_⟩) hquiet
          · exact List.mem_set hk _
          · simp only [Replay.active, hrest]
            rfl
      · by_contra hne
        rw [← hptr] at hne
        exact hquiet (Or.inl hne)
      · intro other hother hsame
        by_contra hactive
        rw [Bool.not_eq_false] at hactive
        exact hquiet (Or.inr ⟨other, mem_set_of_mem_eraseIdx hother, hsame.trans hptr.symm, hactive⟩)
    · rw [if_neg hptr, List.foldl_nil]
      refine hinv.counted node hnode fun h => hquiet ?_
      rcases h with h | h
      · exact Or.inl h
      · obtain ⟨other, hother, hsame, hactive⟩ := h
        have hne : other ≠ r := fun he => hptr (by rw [← hsame, he])
        exact Or.inr ⟨other, mem_set_of_ne hr hother hne, hsame, hactive⟩
  · rw [sendPending_games hinv.linked k r pending hnode, settled_post] at hdone
    by_cases hptr : node.ptr = r.ptr
    · rw [if_pos hptr, List.foldl_cons, List.foldl_nil, completed_handle hgame] at hdone
      rcases hdone with hdone | hnew
      · exact hinv.known node hnode scenario hdone
      · cases hnew.1
    · rw [if_neg hptr, List.foldl_nil] at hdone
      exact hinv.known node hnode scenario hdone

/-- A change of the replays keeps the invariant, if for each that will send there
is one that will send to the same client. -/
theorem shineInv_replays {sys : ShineSystem γ} {replays : List Replay} (hinv : ShineInv game sys)
    (hkeep : ∀ r ∈ sys.replays, r.active = true →
      ∃ r' ∈ replays, r'.ptr = r.ptr ∧ r'.active = true) :
    ShineInv game { sys with replays } := by
  refine shineInv_of_same hinv rfl rfl (fun _ => rfl) fun ptr h => ?_
  refine h.imp_right fun h => ?_
  obtain ⟨r, hr, hptr, hactive⟩ := h
  obtain ⟨r', hr', hsame, hactive'⟩ := hkeep r hr hactive
  exact ⟨r', hr', hsame.trans hptr, hactive'⟩

/-- One step under the condition keeps the invariant. -/
theorem shineInv_step (hgame : game.Lawful) {sys sys' : ShineSystem γ} {action : ShineAction}
    (hinv : ShineInv game sys) (hguard : FreshAtEnd sys action)
    (hstep : shineStep game sys action = some sys') : ShineInv game sys' := by
  cases action with
  | collect ptr islandID shineID => exact shineInv_collect hgame hinv hstep
  | serve ptr =>
    simp only [shineStep] at hstep
    split at hstep
    · rename_i client report rest hclient hreports
      cases hstep
      obtain ⟨hmem, rfl⟩ := nodeAt_mem hclient
      exact shineInv_serve hgame hinv hmem hreports
    · cases hstep
  | startReplay ptr =>
    cases hstep
    exact shineInv_replays hinv fun r hr hactive => ⟨r, List.mem_append_left _ hr, rfl, hactive⟩
  | readCounter k =>
    simp only [shineStep] at hstep
    split at hstep
    · rename_i ptr shine rest hr
      cases hstep
      refine shineInv_replays hinv fun other hother hactive => ?_
      have hk : k < sys.replays.length := (List.getElem?_eq_some_iff.mp hr).1
      by_cases he : other = ⟨ptr, shine :: rest, none⟩
      · -- the replay itself now has a packet to send
        refine ⟨_, List.mem_set hk _, by rw [he], ?_⟩
        simp only [Replay.active, Option.isSome_some, Bool.or_true]
      · exact ⟨other, mem_set_of_ne hr hother he, rfl, hactive⟩
    · cases hstep
  | sendReplay k =>
    simp only [shineStep] at hstep
    split at hstep
    · rename_i r hr
      obtain ⟨pending, hpending, rfl⟩ := Option.map_eq_some_iff.mp hstep
      exact shineInv_send hgame hinv hr hpending hguard
    · cases hstep
  | endReplay k =>
    simp only [shineStep] at hstep
    split at hstep
    · rename_i r hr
      split at hstep
      · cases hstep
      · rename_i hended
        cases hstep
        refine shineInv_replays hinv fun other hother hactive => ?_
        have hne : other ≠ r := fun he => hended (by rw [← he]; exact hactive)
        exact ⟨other, mem_eraseIdx_of_ne hr hother hne, rfl, hactive⟩
    · cases hstep
  | deliver ptr =>
    obtain ⟨receiver, hreceiver, rfl⟩ := Option.map_eq_some_iff.mp hstep
    exact shineInv_of_same hinv rfl rfl (settled_update_deliver hreceiver) fun client h => h

/-- In every run in which the last packet that a replay still sends to a client
carries the current counter, all clients show the server's counter whenever
nothing is in flight and no replay is running. -/
theorem counters_agree (game : SingleModeGame γ) (hgame : game.Lawful) (s : Server)
    (clients : ℕ → γ) (actions : List ShineAction) (sys : ShineSystem γ) (hs : Linked s)
    (hstart : CommonStart game s clients)
    (hguard : Along FreshAtEnd (shineStep game) (.start s clients) actions)
    (hrun : run (shineStep game) (.start s clients) actions = some sys) (hquiet : sys.Quiet) :
    sys.Agree game := by
  have hinit : ShineInv game (.start s clients) :=
    ⟨hs, fun node hnode _ => (hstart node hnode).1,
      fun node hnode scenario hdone => Or.inl ((hstart node hnode).2 scenario hdone)⟩
  have hinv := run_invariant (fun _ _ _ => shineInv_step hgame) hinit hguard hrun
  intro node hnode
  obtain ⟨hclients, hreplays⟩ := hquiet
  obtain ⟨hreports, hqueue⟩ := hclients node hnode
  rw [List.isEmpty_iff] at hreplays hqueue
  have hdone : ¬sys.Expecting node.ptr := by
    intro h
    rcases h with h | h
    · exact h hreports
    · obtain ⟨r, hr, -⟩ := h
      rw [hreplays] at hr
      exact absurd hr List.not_mem_nil
  rw [← settled_of_queue_nil hqueue]
  exact hinv.counted node hnode hdone

end System

/-- Two clients without progress on a server without progress. -/
def twoPlayers : ShineSystem Progress := .start (serverWith [1, 2]) fun _ => Progress.empty

/-- They start in agreement. -/
theorem twoPlayers_commonStart :
    CommonStart (progressGame []) (serverWith [1, 2]) fun _ => Progress.empty :=
  fun _ _ => ⟨rfl, fun _ h => by cases h⟩

/-- Client 1 collects a shine, and client 2 gets it live and by a replay. -/
theorem counters_agree_two :
    ∃ sys, run (shineStep (progressGame [])) twoPlayers
        [.collect 1 1 1, .serve 1, .deliver 1, .deliver 2, .startReplay 2, .readCounter 0,
          .sendReplay 0, .deliver 2, .endReplay 0] = some sys ∧
      sys.server.mSaveData.numCollectedGoalItems = 1 ∧ sys.Agree (progressGame []) := by
  have hrun : ∃ sys, run (shineStep (progressGame [])) twoPlayers
      [.collect 1 1 1, .serve 1, .deliver 1, .deliver 2, .startReplay 2, .readCounter 0,
        .sendReplay 0, .deliver 2, .endReplay 0] = some sys ∧
      sys.server.mSaveData.numCollectedGoalItems = 1 ∧ sys.Quiet := run_reaches (by decide)
  obtain ⟨sys, hsys, hcount, hquiet⟩ := hrun
  have hlinked : Linked (serverWith [1, 2]) := by
    constructor <;> decide
  exact ⟨sys, hsys, hcount, counters_agree (progressGame []) (progressGame_lawful [])
    (serverWith [1, 2]) _ _ sys hlinked twoPlayers_commonStart (by decide) hsys hquiet⟩

/-- A replay for client 2 reads the counter, client 1 collects its second shine,
and the replay sends what it has read: client 2 is told two and then one. -/
theorem stale_replay_diverges :
    ∃ sys, run (shineStep (progressGame [])) twoPlayers
        [.collect 1 1 1, .serve 1, .deliver 1, .deliver 2, .startReplay 2, .readCounter 0,
          .collect 1 1 2, .serve 1, .sendReplay 0, .endReplay 0, .deliver 1, .deliver 2,
          .deliver 2] = some sys ∧
      sys.Quiet ∧ ¬sys.Agree (progressGame []) :=
  run_reaches (by decide)

end BfMultiplayer.ShineCounter

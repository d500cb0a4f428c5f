import BfMultiplayer.ClientLinks
import BfMultiplayer.ClientProgress
import BfMultiplayer.GuardedRuns

/-!
# Agreement on the scenarios of the islands

A client sets the scenario of an island at once and tells the server, which
relays the change to everybody else and stores it. The writer itself is told
nothing. So when two clients change one island at the same time, each ends with
what the other one wanted, and the server with the change it handled last. As
long as the packets on their way to a writer leave it with its own change, all
clients show the server's scenario as soon as nothing is in flight.
-/

namespace BfMultiplayer.IslandScenarios

open Packets ServerState ServerHandlers Mailbox ClientLinks ClientProgress GuardedRuns

/-- The change a packet carries. -/
def scenarioData? : ClientBound → Option ScenarioUpdateData
  | .scenarioUpdate _ data => some data
  | _ => none

/-- The server, and its clients by the places of their records. -/
structure ScenarioSystem (γ : Type) where
  /-- The server. -/
  server : Server
  /-- The game of each client, and the changes in flight to it. -/
  games : ℕ → Receiver γ ScenarioUpdateData
  /-- The changes of each client in flight to the server. -/
  requests : ℕ → List ScenarioUpdateData
  /-- The islands that some client has changed. -/
  changed : List CString

/-- A step of the system. -/
inductive ScenarioAction where
  /-- The game of a client sets the scenario of an island. -/
  | change (ptr : ℕ) (islandName : CString) (scenario : ℤ) (something : Bool)
  /-- The server handles a client's oldest change. -/
  | serve (ptr : ℕ)
  /-- A client handles the oldest change in flight to it. -/
  | deliver (ptr : ℕ)

section System

variable {γ : Type} (game : SingleModeGame γ) (memory : Bool)

/-- `setScenarioIDHook` on the island with an index: set, then send. -/
def setScenarioIDHook (sys : ScenarioSystem γ) (ptr island : ℕ) (islandName : CString)
    (scenario : ℤ) (something : Bool) : ScenarioSystem γ :=
  { sys with
    games := Function.update sys.games ptr
      ((sys.games ptr).act fun g => game.setScenarioID g island scenario something)
    requests := Function.update sys.requests ptr
      (sys.requests ptr ++ [⟨islandName, scenario, some something⟩])
    changed := islandName :: sys.changed }

/-- The server handles one change of a client. -/
def serveChange (sys : ScenarioSystem γ) (node : ClientNode) (request : ScenarioUpdateData)
    (rest : List ScenarioUpdateData) : ScenarioSystem γ :=
  let result := handleScenarioUpdate sys.server node request
  { sys with
    server := result.1
    games := postAll result.1 scenarioData? sys.games result.2
    requests := Function.update sys.requests node.ptr rest }

/-- The step function. The name of an island ends inside its field. -/
def scenarioStep (sys : ScenarioSystem γ) : ScenarioAction → Option (ScenarioSystem γ)
  | .change ptr islandName scenario something =>
    match nodeAt sys.server ptr, game.islandNames.idxOf? islandName with
    | some _, some island =>
      if islandName.length < 128 then
        some (setScenarioIDHook game sys ptr island islandName scenario something)
      else none
    | _, _ => none
  | .serve ptr =>
    match nodeAt sys.server ptr, sys.requests ptr with
    | some node, request :: rest => some (serveChange sys node request rest)
    | _, _ => none
  | .deliver ptr =>
    ((sys.games ptr).deliver (handleToC_ScenarioUpdate game memory)).map fun receiver =>
      { sys with games := Function.update sys.games ptr receiver }

/-- Some server, its clients in given states, and nothing in flight. -/
def ScenarioSystem.start (s : Server) (clients : ℕ → γ) : ScenarioSystem γ :=
  ⟨s, fun ptr => ⟨clients ptr, []⟩, fun _ => [], []⟩

/-- The scenario that a game shows for an island. -/
def scenarioOf (g : γ) (islandName : CString) : Option ℤ :=
  (game.islandNames.idxOf? islandName).bind fun island =>
    ((game.progress g).islands island).map Prod.fst

/-- Nothing is in flight from or to a client. -/
def ScenarioSystem.Quiet (sys : ScenarioSystem γ) : Prop :=
  ∀ node ∈ sys.server.mClients,
    (sys.requests node.ptr).isEmpty = true ∧ (sys.games node.ptr).queue.isEmpty = true

/-- For every changed island the server has a scenario, and all clients show it. -/
def ScenarioSystem.Agree (sys : ScenarioSystem γ) : Prop :=
  ∀ islandName ∈ sys.changed,
    (sys.server.mSaveData.islandToScenarioMap[islandName]?).isSome = true ∧
    ∀ node ∈ sys.server.mClients, scenarioOf game (sys.games node.ptr).state islandName =
      sys.server.mSaveData.islandToScenarioMap[islandName]?

instance (sys : ScenarioSystem γ) : Decidable sys.Quiet := List.decidableBAll _ _

instance (sys : ScenarioSystem γ) : Decidable (sys.Agree game) := List.decidableBAll _ _

/-- A client has a change of an island in flight to the server. -/
def ScenarioSystem.Pending (sys : ScenarioSystem γ) (ptr : ℕ) (islandName : CString) : Prop :=
  ∃ request ∈ sys.requests ptr, request.islandName = islandName

/-- The condition on a step: when the server handles the last change of an
island that a client has in flight, the packets in flight to that client leave
it with its own change. -/
def StillOwn (sys : ScenarioSystem γ) : ScenarioAction → Prop
  | .serve ptr => ∀ request ∈ (sys.requests ptr).head?,
      (∀ later ∈ (sys.requests ptr).tail, later.islandName ≠ request.islandName) →
      scenarioOf game ((sys.games ptr).settled (handleToC_ScenarioUpdate game memory))
        request.islandName = some request.scenario
  | _ => True

instance (sys : ScenarioSystem γ) : ∀ action, Decidable (StillOwn game memory sys action)
  | .serve _ => Option.decidableForallMem _
  | .change _ _ _ _ => inferInstanceAs (Decidable True)
  | .deliver _ => inferInstanceAs (Decidable True)

/-- What holds between two steps, with the islands of which the server has
handled a change. -/
structure ScenarioInv (handled : CString → Prop) (sys : ScenarioSystem γ) : Prop where
  /-- The clients of the server. -/
  linked : Linked sys.server
  /-- A change in flight is one of an island of the scene. -/
  requested : ∀ ptr, ∀ request ∈ sys.requests ptr,
    (game.islandNames.idxOf? request.islandName).isSome = true
  /-- A change is handled or in flight. -/
  changed : ∀ islandName ∈ sys.changed, handled islandName ∨
    ∃ node ∈ sys.server.mClients, sys.Pending node.ptr islandName
  /-- A client without a change of its own in flight settles at the server's
  scenario. -/
  settled : ∀ islandName, handled islandName → ∃ scenario,
    sys.server.mSaveData.islandToScenarioMap[islandName]? = some scenario ∧
    ∀ node ∈ sys.server.mClients, ¬sys.Pending node.ptr islandName →
      scenarioOf game ((sys.games node.ptr).settled (handleToC_ScenarioUpdate game memory))
        islandName = some scenario

variable {game memory}

/-- Setting the scenario of an island shows for it and for no other. -/
theorem scenarioOf_set (hgame : game.Lawful) {islandName : CString} {island : ℕ}
    (hisland : game.islandNames.idxOf? islandName = some island) (g : γ) (scenario : ℤ) (unk : Bool)
    (other : CString) :
    scenarioOf game (game.setScenarioID g island scenario unk) other =
      if islandName = other then some scenario else scenarioOf game g other := by
  rw [scenarioOf, scenarioOf, hgame.setScenarioID]
  by_cases hname : islandName = other
  · rw [if_pos hname, ← hname, hisland, Option.bind_some, Progress.setScenarioID]
    dsimp only
    rw [Function.update_self]
    rfl
  · rw [if_neg hname]
    cases hother : game.islandNames.idxOf? other with
    | none => rfl
    | some j =>
      -- two islands at one index have one name
      have hne : j ≠ island := by
        intro he
        obtain ⟨hlt, hget, -⟩ := List.idxOf?_eq_some_iff.mp hisland
        obtain ⟨hlt', hget', -⟩ := List.idxOf?_eq_some_iff.mp hother
        refine hname (hget.symm.trans (Eq.trans ?_ hget'))
        congr 1
        exact he.symm
      rw [Option.bind_some, Option.bind_some, Progress.setScenarioID]
      dsimp only
      rw [Function.update_of_ne hne]

/-- A change that arrives shows for its island and for no other. -/
theorem scenarioOf_handle (hgame : game.Lawful) {data : ScenarioUpdateData}
    (hknown : (game.islandNames.idxOf? data.islandName).isSome = true) (g : γ) (other : CString) :
    scenarioOf game (handleToC_ScenarioUpdate game memory g data) other =
      if data.islandName = other then some data.scenario else scenarioOf game g other := by
  obtain ⟨island, hisland⟩ := Option.isSome_iff_exists.mp hknown
  rw [handleToC_ScenarioUpdate, hisland]
  exact scenarioOf_set hgame hisland g data.scenario _ other

/-- Whatever arrives, what is shown for an island afterwards depends only on
what was shown for it before. -/
theorem scenarioOf_handle_congr (hgame : game.Lawful) {g g' : γ} {other : CString}
    (h : scenarioOf game g other = scenarioOf game g' other) (data : ScenarioUpdateData) :
    scenarioOf game (handleToC_ScenarioUpdate game memory g data) other =
      scenarioOf game (handleToC_ScenarioUpdate game memory g' data) other := by
  cases hknown : game.islandNames.idxOf? data.islandName with
  | none =>
    simp only [handleToC_ScenarioUpdate, hknown]
    exact h
  | some island =>
    have hsome : (game.islandNames.idxOf? data.islandName).isSome = true := by
      rw [hknown]
      rfl
    rw [scenarioOf_handle hgame hsome, scenarioOf_handle hgame hsome, h]

/-- What the server does with a change: the clients stay, and each but the writer
is sent it. -/
theorem handleScenarioUpdate_spec {s : Server} (hs : Linked s) (client : ClientNode)
    (data : ScenarioUpdateData) :
    let result := handleScenarioUpdate s client data
    result.1.mClients = s.mClients ∧ result.1.peers = s.peers ∧
      ∀ node ∈ s.mClients, (sentTo result.1 node.client.mPeer result.2).filterMap scenarioData? =
        if node.ptr = client.ptr then [] else [data] := by
  refine ⟨rfl, rfl, fun node hnode => ?_⟩
  have hrelay : sentTo (handleScenarioUpdate s client data).1 node.client.mPeer
      (handleScenarioUpdate s client data).2 =
        if node.ptr = client.ptr then [] else [.scenarioUpdate client.client.mUid data] :=
    hs.redistributePacket_sent rfl rfl hnode client _
  rw [hrelay]
  by_cases hptr : node.ptr = client.ptr
  · rw [if_pos hptr, if_pos hptr]
    rfl
  · rw [if_neg hptr, if_neg hptr]
    rfl

/-- A local change keeps the invariant. -/
theorem scenarioInv_change (hgame : game.Lawful) {handled : CString → Prop}
    {sys : ScenarioSystem γ} {node : ClientNode} {island : ℕ} {islandName : CString}
    (hinv : ScenarioInv game memory handled sys) (hnode : node ∈ sys.server.mClients)
    (hisland : game.islandNames.idxOf? islandName = some island) (scenario : ℤ) (something : Bool) :
    ScenarioInv game memory handled
      (setScenarioIDHook game sys node.ptr island islandName scenario something) := by
  -- the changes in flight stay, and there is one more
  have hrequests : ∀ ptr (request : ScenarioUpdateData), request ∈ (setScenarioIDHook game sys
      node.ptr island islandName scenario something).requests ptr ↔ request ∈ sys.requests ptr ∨
        ptr = node.ptr ∧ request = ⟨islandName, scenario, some something⟩ :=
    fun ptr request => mem_update_append
  have hpending : ∀ ptr other, sys.Pending ptr other →
      (setScenarioIDHook game sys node.ptr island islandName scenario something).Pending ptr other := by
    intro ptr other hold
    obtain ⟨request, hrequest, hname⟩ := hold
    exact ⟨request, (hrequests ptr request).mpr (Or.inl hrequest), hname⟩
  have hnew : (setScenarioIDHook game sys node.ptr island islandName scenario something).Pending
      node.ptr islandName := ⟨_, (hrequests node.ptr _).mpr (Or.inr ⟨rfl, rfl⟩), rfl⟩
  refine ⟨hinv.linked, fun ptr request hrequest => ?_, fun other hother => ?_,
    fun other hhandled => ?_⟩
  · rcases (hrequests ptr request).mp hrequest with hold | ⟨-, hsent⟩
    · exact hinv.requested ptr request hold
    · rw [hsent]
      dsimp only
      rw [hisland]
      rfl
  · rcases List.mem_cons.mp hother with hname | hother
    · rw [hname]
      exact Or.inr ⟨node, hnode, hnew⟩
    · refine (hinv.changed other hother).imp_right fun h => ?_
      obtain ⟨owner, howner, hold⟩ := h
      exact ⟨owner, howner, hpending owner.ptr other hold⟩
  · obtain ⟨stored, hstored, hshown⟩ := hinv.settled other hhandled
    refine ⟨stored, hstored, fun client hclient hquiet => ?_⟩
    have hbefore := hshown client hclient fun h => hquiet (hpending client.ptr other h)
    simp only [setScenarioIDHook]
    by_cases hptr : client.ptr = node.ptr
    · -- the writer's own change is of another island
      have hne : islandName ≠ other := by
        intro he
        rw [hptr, ← he] at hquiet
        exact hquiet hnew
      rw [hptr] at hbefore
      rw [hptr, Function.update_self, ← hbefore]
      refine settled_act_rel (R := fun g g' => scenarioOf game g other = scenarioOf game g' other)
        (sys.games node.ptr) ?_ fun g g' data h => scenarioOf_handle_congr hgame h data
      rw [scenarioOf_set hgame hisland, if_neg hne]
    · rw [Function.update_of_ne hptr]
      exact hbefore

/-- A change served leaves those of other islands in flight. -/
theorem pending_serve {sys : ScenarioSystem γ} {client : ClientNode} {request : ScenarioUpdateData}
    {rest : List ScenarioUpdateData} (hrequests : sys.requests client.ptr = request :: rest)
    {ptr : ℕ} {other : CString} (hne : other ≠ request.islandName) (h : sys.Pending ptr other) :
    (serveChange sys client request rest).Pending ptr other := by
  obtain ⟨later, hlater, hname⟩ := h
  have hlaterNe : later ≠ request := fun he => hne (by rw [← hname, he])
  exact ⟨later, mem_update_tail_of_ne hrequests hlater hlaterNe, hname⟩

/-- A change served is stored for its island and for no other. -/
theorem serveChange_stored (sys : ScenarioSystem γ) (client : ClientNode)
    (request : ScenarioUpdateData) (rest : List ScenarioUpdateData) (other : CString) :
    (serveChange sys client request rest).server.mSaveData.islandToScenarioMap[other]? =
      if request.islandName = other then some request.scenario
      else sys.server.mSaveData.islandToScenarioMap[other]? := by
  have hinsert : (serveChange sys client request rest).server.mSaveData.islandToScenarioMap =
      sys.server.mSaveData.islandToScenarioMap.insert request.islandName request.scenario := rfl
  rw [hinsert]
  by_cases hname : request.islandName = other
  · rw [if_pos hname, hname, Std.ExtTreeMap.getElem?_insert_self]
  · rw [if_neg hname, Std.ExtTreeMap.getElem?_insert, if_neg]
    exact fun h => hname (Std.LawfulEqCmp.eq_of_compare h)

/-- A change served shows for its island at all clients but the writer. -/
theorem serveChange_settled (hgame : game.Lawful) {sys : ScenarioSystem γ}
    (hlinked : Linked sys.server) (client : ClientNode) {request : ScenarioUpdateData}
    (hknown : (game.islandNames.idxOf? request.islandName).isSome = true)
    (rest : List ScenarioUpdateData) {node : ClientNode} (hnode : node ∈ sys.server.mClients)
    (other : CString) :
    scenarioOf game (((serveChange sys client request rest).games node.ptr).settled
        (handleToC_ScenarioUpdate game memory)) other =
      if node.ptr ≠ client.ptr ∧ request.islandName = other then some request.scenario
      else scenarioOf game ((sys.games node.ptr).settled (handleToC_ScenarioUpdate game memory))
        other := by
  obtain ⟨hclients, hpeers, hsent⟩ := handleScenarioUpdate_spec hlinked client request
  have hnode' : node ∈ (handleScenarioUpdate sys.server client request).1.mClients := by
    rw [hclients]
    exact hnode
  simp only [serveChange]
  rw [(hlinked.congr hclients hpeers).postAll_ptr hnode', settled_post, hsent node hnode]
  by_cases hptr : node.ptr = client.ptr
  · rw [if_pos hptr, List.foldl_nil, if_neg fun h => h.1 hptr]
  · rw [if_neg hptr, List.foldl_cons, List.foldl_nil, scenarioOf_handle hgame hknown]
    simp only [ne_eq, hptr, not_false_eq_true, true_and]

/-- A change served under the condition keeps the invariant. -/
theorem scenarioInv_serve (hgame : game.Lawful) {handled : CString → Prop}
    {sys : ScenarioSystem γ} {client : ClientNode} {request : ScenarioUpdateData}
    {rest : List ScenarioUpdateData} (hinv : ScenarioInv game memory handled sys)
    (hrequests : sys.requests client.ptr = request :: rest)
    (hguard : StillOwn game memory sys (.serve client.ptr)) :
    ScenarioInv game memory (fun other => handled other ∨ other = request.islandName)
      (serveChange sys client request rest) := by
  obtain ⟨hclients, hpeers, -⟩ := handleScenarioUpdate_spec hinv.linked client request
  have hknown : (game.islandNames.idxOf? request.islandName).isSome = true :=
    hinv.requested client.ptr request (by rw [hrequests]; exact List.mem_cons_self)
  refine ⟨hinv.linked.congr hclients hpeers, fun ptr later hlater => ?_, fun other hother => ?_,
    fun other hhandled => ?_⟩
  · exact hinv.requested ptr later (mem_of_mem_update_tail hrequests hlater)
  · by_cases hname : other = request.islandName
    · exact Or.inl (Or.inr hname)
    · rcases hinv.changed other hother with hold | hpending
      · exact Or.inl (Or.inl hold)
      · obtain ⟨node, hnode, hpending⟩ := hpending
        exact Or.inr ⟨node, hclients ▸ hnode, pending_serve hrequests hname hpending⟩
  · simp only [serveChange_stored]
    by_cases hname : other = request.islandName
    · refine ⟨request.scenario, if_pos hname.symm, fun node hnode hquiet => ?_⟩
      rw [serveChange_settled hgame hinv.linked client hknown rest (hclients ▸ hnode) other]
      by_cases hptr : node.ptr = client.ptr
      · -- the writer is sent nothing, and has nothing else in flight
        rw [if_neg fun h => h.1 hptr, hname, hptr]
        refine hguard request (by rw [hrequests]; rfl) fun later hlater he => hquiet ?_
        rw [hrequests, List.tail_cons] at hlater
        refine ⟨later, ?_, he.trans hname.symm⟩
        simp only [serveChange]
        rw [hptr, Function.update_self]
        exact hlater
      · rw [if_pos ⟨hptr, hname.symm⟩]
    · obtain ⟨stored, hstored, hshown⟩ := hinv.settled other (hhandled.resolve_right hname)
      refine ⟨stored, (if_neg (Ne.symm hname)).trans hstored, fun node hnode hquiet => ?_⟩
      rw [serveChange_settled hgame hinv.linked client hknown rest (hclients ▸ hnode) other,
        if_neg fun h => hname h.2.symm]
      exact hshown node (hclients ▸ hnode) fun h => hquiet (pending_serve hrequests hname h)

/-- One step under the condition keeps the invariant. -/
theorem scenarioInv_step (hgame : game.Lawful) {sys sys' : ScenarioSystem γ}
    {action : ScenarioAction} (hinv : ∃ handled, ScenarioInv game memory handled sys)
    (hguard : StillOwn game memory sys action)
    (hstep : scenarioStep game memory sys action = some sys') :
    ∃ handled, ScenarioInv game memory handled sys' := by
  obtain ⟨handled, hinv⟩ := hinv
  cases action with
  | change ptr islandName scenario something =>
    simp only [scenarioStep] at hstep
    split at hstep
    · rename_i node island hnode hisland
      split at hstep
      · cases hstep
        obtain ⟨hmem, rfl⟩ := nodeAt_mem hnode
        exact ⟨handled, scenarioInv_change hgame hinv hmem hisland scenario something⟩
      · cases hstep
    · cases hstep
  | serve ptr =>
    simp only [scenarioStep] at hstep
    split at hstep
    · rename_i client request rest hclient hrequests
      cases hstep
      obtain ⟨-, rfl⟩ := nodeAt_mem hclient
      exact ⟨_, scenarioInv_serve hgame hinv hrequests hguard⟩
    · cases hstep
  | deliver ptr =>
    obtain ⟨receiver, hreceiver, rfl⟩ := Option.map_eq_some_iff.mp hstep
    refine ⟨handled, hinv.linked, hinv.requested, hinv.changed, fun other hhandled => ?_⟩
    obtain ⟨stored, hstored, hshown⟩ := hinv.settled other hhandled
    refine ⟨stored, hstored, fun node hnode hquiet => ?_⟩
    dsimp only
    rw [settled_update_deliver hreceiver]
    exact hshown node hnode hquiet

/-- In every run in which the packets on their way to a writer leave it with its
last change, all clients show the server's scenario of every changed island
whenever nothing is in flight. -/
theorem scenarios_agree (game : SingleModeGame γ) (hgame : game.Lawful) (memory : Bool)
    (s : Server) (clients : ℕ → γ) (actions : List ScenarioAction) (sys : ScenarioSystem γ)
    (hs : Linked s)
    (hguard : Along (StillOwn game memory) (scenarioStep game memory) (.start s clients) actions)
    (hrun : run (scenarioStep game memory) (.start s clients) actions = some sys)
    (hquiet : sys.Quiet) : sys.Agree game := by
  have hstart : ∃ handled, ScenarioInv game memory handled (.start s clients) :=
    ⟨fun _ => False, hs, fun _ _ h => absurd h List.not_mem_nil,
      fun _ h => absurd h List.not_mem_nil, fun _ h => h.elim⟩
  obtain ⟨handled, hinv⟩ := run_invariant
    (fun _ _ _ hs hstep hnext => scenarioInv_step hgame hs hstep hnext) hstart hguard hrun
  have hidle : ∀ node ∈ sys.server.mClients, ∀ islandName, ¬sys.Pending node.ptr islandName := by
    intro node hnode islandName hpending
    obtain ⟨request, hrequest, -⟩ := hpending
    rw [List.isEmpty_iff.mp (hquiet node hnode).1] at hrequest
    exact absurd hrequest List.not_mem_nil
  intro islandName hchanged
  have hhandled : handled islandName := by
    refine (hinv.changed islandName hchanged).resolve_right fun h => ?_
    obtain ⟨node, hnode, hpending⟩ := h
    exact hidle node hnode islandName hpending
  obtain ⟨scenario, hstored, hshown⟩ := hinv.settled islandName hhandled
  rw [hstored]
  refine ⟨rfl, fun node hnode => ?_⟩
  rw [← settled_of_queue_nil (List.isEmpty_iff.mp (hquiet node hnode).2)]
  exact hshown node hnode (hidle node hnode islandName)

end System

/-- A game with one island. -/
def oneIslandGame : SingleModeGame Progress := progressGame [[97]]

/-- Two clients. -/
theorem twoWriters_linked : Linked (serverWith [1, 2]) := by
  constructor <;> decide

/-- Client 1 changes the island, and client 2 follows. -/
theorem scenarios_agree_two :
    ∃ sys, run (scenarioStep oneIslandGame false) (.start (serverWith [1, 2]) fun _ => .empty)
        [.change 1 [97] 2 true, .serve 1, .deliver 2] = some sys ∧
      scenarioOf oneIslandGame (sys.games 2).state [97] = some 2 ∧ sys.Agree oneIslandGame := by
  have hrun : ∃ sys, run (scenarioStep oneIslandGame false)
      (.start (serverWith [1, 2]) fun _ => .empty)
        [.change 1 [97] 2 true, .serve 1, .deliver 2] = some sys ∧
      scenarioOf oneIslandGame (sys.games 2).state [97] = some 2 ∧ sys.Quiet :=
    run_reaches (by decide)
  obtain ⟨sys, hsys, hshown, hquiet⟩ := hrun
  exact ⟨sys, hsys, hshown, scenarios_agree oneIslandGame (progressGame_lawful _) false
    (serverWith [1, 2]) (fun _ => .empty) _ sys twoWriters_linked (by decide) hsys hquiet⟩

/-- Both clients change the island before they hear of each other. Each is sent
only the change of the other one, and they swap. -/
theorem crossing_changes_swap :
    ∃ sys, run (scenarioStep oneIslandGame false) (.start (serverWith [1, 2]) fun _ => .empty)
        [.change 1 [97] 2 true, .change 2 [97] 3 true, .serve 1, .serve 2, .deliver 1,
          .deliver 2] = some sys ∧
      sys.Quiet ∧ ¬sys.Agree oneIslandGame :=
  run_reaches (by decide)

end BfMultiplayer.IslandScenarios

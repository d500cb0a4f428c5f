import BfMultiplayer.ClientLinks
import BfMultiplayer.GuardedRuns

/-!
# Agreement on the jump panels

A client flips at once and asks for the flipped value. The server flips what
it has, tells the others, and answers the sender only when the outcome is not
what it asked for. So the sender of an unanswered request is left with what it
shows by itself, and that need not be the value it asked for: an older flip of
the server may have reached it after its own. When this does not happen, all
clients show the server's state as soon as nothing is in flight.
-/

namespace BfMultiplayer.JumpFlip

open Packets ServerState ServerHandlers Mailbox ClientLinks GuardedRuns

/-- `handleToC_JumpFlip` on `sJumpFlipPanelState`. -/
def handleToC_JumpFlip (_state : Bool) (flipState : Bool) : Bool := flipState

/-- The flip state a packet carries. -/
def flipState? : ClientBound → Option Bool
  | .jumpFlip _ data => some data.flipState
  | _ => none

/-- The server, and its clients by the places of their records. -/
structure JumpFlipSystem where
  /-- The server. -/
  server : Server
  /-- `sJumpFlipPanelState` of each client, and the packets in flight to it. -/
  panels : ℕ → Receiver Bool Bool
  /-- The requests of each client in flight to the server. -/
  requests : ℕ → List Bool

/-- A step of the system. -/
inductive FlipAction where
  /-- A client flips its panels. -/
  | flip (ptr : ℕ)
  /-- The server handles a client's oldest request at time `now`. -/
  | serve (ptr now : ℕ)
  /-- A client handles the oldest packet in flight to it. -/
  | deliver (ptr : ℕ)

/-- The flip of a client: its state is inverted and the new value requested. -/
def flipPanels (sys : JumpFlipSystem) (ptr : ℕ) : JumpFlipSystem :=
  let flipped := !(sys.panels ptr).state
  { sys with
    panels := Function.update sys.panels ptr ((sys.panels ptr).act fun _ => flipped)
    requests := Function.update sys.requests ptr (sys.requests ptr ++ [flipped]) }

/-- The server handles one request of a client. -/
def serveRequest (sys : JumpFlipSystem) (node : ClientNode) (request : Bool) (rest : List Bool)
    (now : ℕ) : JumpFlipSystem :=
  let result := handleJumpFlip sys.server node ⟨request⟩ now
  { server := result.1
    panels := postAll result.1 flipState? sys.panels result.2
    requests := Function.update sys.requests node.ptr rest }

/-- The step function. A request that the rate limiter would discard is not
served. -/
def jumpFlipStep (sys : JumpFlipSystem) : FlipAction → Option JumpFlipSystem
  | .flip ptr => some (flipPanels sys ptr)
  | .serve ptr now =>
    match nodeAt sys.server ptr, sys.requests ptr with
    | some node, request :: rest =>
      if jumpFlipPasses sys.server now then some (serveRequest sys node request rest now) else none
    | _, _ => none
  | .deliver ptr => ((sys.panels ptr).deliver handleToC_JumpFlip).map fun panel =>
      { sys with panels := Function.update sys.panels ptr panel }

/-- All clients show the server's state and nothing is in flight. -/
def JumpFlipSystem.start (s : Server) : JumpFlipSystem :=
  ⟨s, fun _ => ⟨s.mSaveData.jumpFlipState, []⟩, fun _ => []⟩

/-- Nothing is in flight from or to a client. -/
def JumpFlipSystem.Quiet (sys : JumpFlipSystem) : Prop :=
  ∀ node ∈ sys.server.mClients, sys.requests node.ptr = [] ∧ (sys.panels node.ptr).queue = []

/-- Every client shows the server's state. -/
def JumpFlipSystem.Agree (sys : JumpFlipSystem) : Prop :=
  ∀ node ∈ sys.server.mClients, (sys.panels node.ptr).state = sys.server.mSaveData.jumpFlipState

instance (sys : JumpFlipSystem) : Decidable sys.Quiet := List.decidableBAll _ _

instance (sys : JumpFlipSystem) : Decidable sys.Agree := List.decidableBAll _ _

/-- The condition on a step: when the server is about to flip to just what a
client asked for, and the client has asked for nothing since, the packets in
flight leave the client with the value it asked for. -/
def StillRequested (sys : JumpFlipSystem) : FlipAction → Prop
  | .serve ptr _ => sys.requests ptr = [!sys.server.mSaveData.jumpFlipState] →
      (sys.panels ptr).settled handleToC_JumpFlip = !sys.server.mSaveData.jumpFlipState
  | _ => True

instance (sys : JumpFlipSystem) : ∀ action, Decidable (StillRequested sys action)
  | .serve _ _ => inferInstanceAs (Decidable (_ → _))
  | .flip _ => inferInstanceAs (Decidable True)
  | .deliver _ => inferInstanceAs (Decidable True)

/-- What holds between two steps: a client without a request in flight settles
at the server's state. -/
structure FlipInv (sys : JumpFlipSystem) : Prop where
  /-- The clients of the server. -/
  linked : Linked sys.server
  /-- Their settled states. -/
  settled : ∀ node ∈ sys.server.mClients, sys.requests node.ptr = [] →
    (sys.panels node.ptr).settled handleToC_JumpFlip = sys.server.mSaveData.jumpFlipState

/-- What an accepted request does: the server flips, and each client gets the
new state, its sender only when it asked for the other one. -/
theorem handleJumpFlip_spec {s : Server} {client : ClientNode} {now : ℕ} (hs : Linked s)
    (hclient : client ∈ s.mClients) (hpass : jumpFlipPasses s now = true) (request : Bool) :
    let result := handleJumpFlip s client ⟨request⟩ now
    result.1.mClients = s.mClients ∧ result.1.peers = s.peers ∧
      result.1.mSaveData.jumpFlipState = !s.mSaveData.jumpFlipState ∧
      ∀ node ∈ s.mClients, (sentTo result.1 node.client.mPeer result.2).filterMap flipState? =
        if node.ptr = client.ptr ∧ request = !s.mSaveData.jumpFlipState then []
        else [!s.mSaveData.jumpFlipState] := by
  have hlinked : Linked { s with
      lastFlip := some now
      mSaveData := { s.mSaveData with jumpFlipState := !s.mSaveData.jumpFlipState } } :=
    hs.congr rfl rfl
  simp only [handleJumpFlip, hpass, if_true]
  refine ⟨trivial, trivial, trivial, fun node hnode => ?_⟩
  rw [sentTo_append, hlinked.sentTo_allExcept hnode]
  by_cases hrequest : request = !s.mSaveData.jumpFlipState
  · have hne : ¬(request ≠ !s.mSaveData.jumpFlipState) := fun h => h hrequest
    rw [if_neg hne, sentTo, List.filterMap_nil, List.append_nil]
    by_cases hptr : node.ptr = client.ptr
    · rw [if_pos hptr, if_pos ⟨hptr, hrequest⟩, List.filterMap_nil]
    · have hnot : ¬(node.ptr = client.ptr ∧ request = !s.mSaveData.jumpFlipState) :=
        fun h => hptr h.1
      rw [if_neg hptr, if_neg hnot]
      rfl
  · have hnot : ¬(node.ptr = client.ptr ∧ request = !s.mSaveData.jumpFlipState) :=
      fun h => hrequest h.2
    rw [if_pos hrequest, hlinked.sentTo_sendPacket hnode hclient, if_neg hnot]
    by_cases hptr : node.ptr = client.ptr
    · simp only [if_pos hptr]
      rfl
    · simp only [if_neg hptr]
      rfl

/-- A request served under the condition keeps the invariant. -/
theorem flipInv_serve {sys : JumpFlipSystem} {client : ClientNode} {request : Bool}
    {rest : List Bool} {now : ℕ} (hinv : FlipInv sys) (hclient : client ∈ sys.server.mClients)
    (hrequests : sys.requests client.ptr = request :: rest)
    (hguard : StillRequested sys (.serve client.ptr now))
    (hpass : jumpFlipPasses sys.server now = true) :
    FlipInv (serveRequest sys client request rest now) := by
  obtain ⟨hclients, hpeers, hstate, hsent⟩ :=
    handleJumpFlip_spec hinv.linked hclient hpass request
  have hlinked := hinv.linked.congr hclients hpeers
  refine ⟨hlinked, fun node hnode hquiet => ?_⟩
  have hnode' : node ∈ sys.server.mClients := by
    rw [← hclients]
    exact hnode
  simp only [serveRequest] at hquiet ⊢
  rw [hlinked.postAll_ptr hnode, settled_post, hsent node hnode', hstate]
  by_cases hptr : node.ptr = client.ptr ∧ request = !sys.server.mSaveData.jumpFlipState
  · -- the sender gets no answer, and has no other request in flight
    rw [if_pos hptr, List.foldl_nil]
    obtain ⟨hsame, hvalue⟩ := hptr
    rw [hsame, Function.update_self] at hquiet
    rw [hsame]
    apply hguard
    rw [hrequests, hquiet, hvalue]
  · rw [if_neg hptr]
    rfl

/-- One step under the condition keeps the invariant. -/
theorem flipInv_step {sys sys' : JumpFlipSystem} {action : FlipAction} (hinv : FlipInv sys)
    (hguard : StillRequested sys action) (hstep : jumpFlipStep sys action = some sys') :
    FlipInv sys' := by
  cases action with
  | flip ptr =>
    cases hstep
    refine ⟨hinv.linked, fun node hnode hquiet => ?_⟩
    simp only [flipPanels] at hquiet ⊢
    by_cases hptr : node.ptr = ptr
    · -- the new request is in flight
      rw [hptr, Function.update_self] at hquiet
      exact absurd hquiet (List.append_ne_nil_of_right_ne_nil _ (List.cons_ne_nil _ _))
    · rw [Function.update_of_ne hptr] at hquiet ⊢
      exact hinv.settled node hnode hquiet
  | serve ptr now =>
    simp only [jumpFlipStep] at hstep
    split at hstep
    · rename_i client request rest hclient hrequests
      split at hstep
      · rename_i hpass
        cases hstep
        obtain ⟨hmem, rfl⟩ := nodeAt_mem hclient
        exact flipInv_serve hinv hmem hrequests hguard hpass
      · cases hstep
    · cases hstep
  | deliver ptr =>
    obtain ⟨panel, hpanel, rfl⟩ := Option.map_eq_some_iff.mp hstep
    refine ⟨hinv.linked, fun node hnode hquiet => ?_⟩
    dsimp only
    rw [settled_update_deliver hpanel]
    exact hinv.settled node hnode hquiet

/-- In every run whose unanswered requests meet the condition, all clients show
the server's state whenever nothing is in flight. -/
theorem panels_agree (s : Server) (actions : List FlipAction) (sys : JumpFlipSystem)
    (hs : Linked s) (hguard : Along StillRequested jumpFlipStep (.start s) actions)
    (hrun : run jumpFlipStep (.start s) actions = some sys) (hquiet : sys.Quiet) : sys.Agree := by
  have hstart : FlipInv (.start s) := ⟨hs, fun _ _ _ => rfl⟩
  have hinv := run_invariant (fun _ _ _ => flipInv_step) hstart hguard hrun
  intro node hnode
  obtain ⟨hrequests, hqueue⟩ := hquiet node hnode
  rw [← settled_of_queue_nil hqueue]
  exact hinv.settled node hnode hrequests

/-- Two clients. -/
theorem twoClients_linked : Linked (serverWith [1, 2]) := by
  constructor <;> decide

/-- Client 1 flips, and client 2 follows. -/
theorem panels_agree_two :
    ∃ sys, run jumpFlipStep (.start (serverWith [1, 2]))
        [.flip 1, .serve 1 16000000, .deliver 2] = some sys ∧
      (sys.panels 2).state = true ∧ sys.Agree := by
  have hrun : ∃ sys, run jumpFlipStep (.start (serverWith [1, 2]))
      [.flip 1, .serve 1 16000000, .deliver 2] = some sys ∧
        (sys.panels 2).state = true ∧ sys.Quiet := run_reaches (by decide)
  obtain ⟨sys, hsys, hflipped, hquiet⟩ := hrun
  exact ⟨sys, hsys, hflipped, panels_agree (serverWith [1, 2]) _ sys twoClients_linked (by decide)
    hsys hquiet⟩

/-- Client 2 flips twice. Both flips are on their way to client 1 when it flips
itself. The server ends where client 1 wanted it and does not answer; client 1
then handles the two older flips and shows the opposite. -/
theorem crossing_flip_diverges :
    ∃ sys, run jumpFlipStep (.start (serverWith [1, 2]))
        [.flip 2, .flip 2, .serve 2 16000000, .serve 2 32000000, .flip 1, .serve 1 48000000,
          .deliver 1, .deliver 1, .deliver 2] = some sys ∧
      sys.Quiet ∧ ¬sys.Agree :=
  run_reaches (by decide)

end BfMultiplayer.JumpFlip

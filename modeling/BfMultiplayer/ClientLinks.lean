import BfMultiplayer.EventLoopRules
import BfMultiplayer.Mailbox
import Mathlib.Data.List.Nodup

/-!
# Which packets reach which client

A server whose clients have records at distinct places and distinct connected
peers. On it the three ways of sending reach exactly the clients they name,
each of them once, in the order in which the packets were queued. The links
to the clients are mailboxes of the packets of one kind.
-/

namespace BfMultiplayer.ClientLinks

open ByteBuffer Packets ServerState ServerHandlers EventLoopRules Mailbox

/-- The records are at distinct places and belong to distinct connected peers. -/
structure Linked (s : Server) : Prop where
  /-- Distinct places. -/
  ptrs : (s.mClients.map ClientNode.ptr).Nodup
  /-- Distinct peers. -/
  peers : (s.mClients.map fun node => node.client.mPeer).Nodup
  /-- Each peer is connected. -/
  connected : ∀ node ∈ s.mClients, node.client.mPeer ∈ s.peers

/-- The node at a place. -/
def nodeAt (s : Server) (ptr : ℕ) : Option ClientNode :=
  s.mClients.find? fun node => node.ptr == ptr

/-- Append the packets of one kind that some effects send to each client. -/
def postAll {σ μ : Type*} (s : Server) (decode : ClientBound → Option μ)
    (links : ℕ → Receiver σ μ) (effects : List Effect) (ptr : ℕ) : Receiver σ μ :=
  match nodeAt s ptr with
  | some node => (links ptr).post ((sentTo s node.client.mPeer effects).filterMap decode)
  | none => links ptr

/-- The node at a place is in the table. -/
theorem nodeAt_mem {s : Server} {ptr : ℕ} {node : ClientNode} (h : nodeAt s ptr = some node) :
    node ∈ s.mClients ∧ node.ptr = ptr :=
  ⟨List.mem_of_find?_eq_some h, by simpa using List.find?_some h⟩

/-- Each node is found at its place. -/
theorem Linked.nodeAt_ptr {s : Server} (h : Linked s) {node : ClientNode}
    (hnode : node ∈ s.mClients) : nodeAt s node.ptr = some node := by
  have hsearch : ∀ (nodes : List ClientNode), (nodes.map ClientNode.ptr).Nodup → node ∈ nodes →
      nodes.find? (fun other => other.ptr == node.ptr) = some node := by
    intro nodes
    induction nodes with
    | nil => exact fun _ hmem => absurd hmem List.not_mem_nil
    | cons head nodes ih =>
      intro hnodup hmem
      rw [List.map_cons, List.nodup_cons] at hnodup
      rcases List.mem_cons.mp hmem with rfl | hmem
      · exact List.find?_cons_of_pos (beq_self_eq_true _)
      · have hne : head.ptr ≠ node.ptr := fun he =>
          hnodup.1 (he ▸ List.mem_map_of_mem hmem)
        rw [List.find?_cons_of_neg (by simpa using hne)]
        exact ih hnodup.2 hmem
  exact hsearch s.mClients h.ptrs hnode

/-- Two clients at one place are one. -/
theorem Linked.eq_of_ptr {s : Server} (h : Linked s) {node other : ClientNode}
    (hnode : node ∈ s.mClients) (hother : other ∈ s.mClients) (he : node.ptr = other.ptr) :
    node = other := by
  have hfound := h.nodeAt_ptr hnode
  rw [he, h.nodeAt_ptr hother, Option.some.injEq] at hfound
  exact hfound.symm

/-- Two clients with one peer are one. -/
theorem Linked.eq_of_peer {s : Server} (h : Linked s) {node other : ClientNode}
    (hnode : node ∈ s.mClients) (hother : other ∈ s.mClients)
    (he : node.client.mPeer = other.client.mPeer) : node = other :=
  List.inj_on_of_nodup_map h.peers hnode hother he

/-- A server with the same clients and peers is linked as well. -/
theorem Linked.congr {s t : Server} (h : Linked s) (hclients : t.mClients = s.mClients)
    (hpeers : t.peers = s.peers) : Linked t := by
  refine ⟨?_, ?_, ?_⟩
  · rw [hclients]
    exact h.ptrs
  · rw [hclients]
    exact h.peers
  · rw [hclients, hpeers]
    exact h.connected

/-- The packets to some of the nodes that reach a peer, one per node with it. -/
theorem sentTo_map_send (s : Server) (peer : ENetPeer) (packet : ClientBound) (reliable : Bool)
    (nodes : List ClientNode) :
    sentTo s peer (nodes.map fun node => .send node.client.mPeer packet reliable) =
      (nodes.filter fun node => node.client.mPeer == peer).map fun _ => packet := by
  induction nodes with
  | nil => rfl
  | cons node nodes ih =>
    simp only [sentTo] at ih ⊢
    rw [List.map_cons, List.filterMap_cons, ih, List.filter_cons]
    by_cases hpeer : node.client.mPeer = peer
    · simp only [hpeer, beq_self_eq_true, if_true, List.map_cons]
    · have hbeq : (node.client.mPeer == peer) = false := by simpa using hpeer
      simp only [if_neg hpeer, hbeq, Bool.false_eq_true, if_false]

/-- The client itself is the one node with its peer. -/
theorem Linked.filter_peer {s : Server} (h : Linked s) {node : ClientNode}
    (hnode : node ∈ s.mClients) :
    s.mClients.filter (fun other => other.client.mPeer == node.client.mPeer) = [node] := by
  have hnodup : (s.mClients.filter fun other => other.client.mPeer == node.client.mPeer).Nodup :=
    (List.Nodup.of_map _ h.ptrs).filter _
  have hmem : ∀ other, other ∈ s.mClients.filter
      (fun other => other.client.mPeer == node.client.mPeer) ↔ other ∈ [node] := by
    intro other
    rw [List.mem_filter, beq_iff_eq, List.mem_singleton]
    constructor
    · intro ho
      exact h.eq_of_peer ho.1 hnode ho.2
    · intro he
      rw [he]
      exact ⟨hnode, rfl⟩
  exact List.perm_singleton.mp
    ((List.perm_ext_iff_of_nodup hnodup (List.nodup_singleton node)).mpr hmem)

/-- A packet to all but one reaches each other client once. -/
theorem Linked.sentTo_allExcept {s : Server} (h : Linked s) {node : ClientNode}
    (hnode : node ∈ s.mClients) (except : ℕ) (packet : ClientBound) (reliable : Bool) :
    sentTo s node.client.mPeer (s.sendPacketToAllExcept except packet reliable) =
      if node.ptr = except then [] else [packet] := by
  rw [Server.sendPacketToAllExcept, sentTo_map_send, List.filter_comm, h.filter_peer hnode]
  by_cases he : node.ptr = except
  · rw [if_pos he, List.filter_cons_of_neg (by simpa using he)]
    rfl
  · rw [if_neg he, List.filter_cons_of_pos (by simpa using he)]
    rfl

/-- A packet to one client reaches that client alone. -/
theorem Linked.sentTo_sendPacket {s : Server} (h : Linked s) {node other : ClientNode}
    (hnode : node ∈ s.mClients) (hother : other ∈ s.mClients) (packet : ClientBound)
    (reliable : Bool) :
    sentTo s node.client.mPeer (s.sendPacket other.client packet reliable) =
      if node.ptr = other.ptr then [packet] else [] := by
  have hpeer : other.client.mPeer = node.client.mPeer ↔ node.ptr = other.ptr := by
    constructor
    · intro he
      rw [h.eq_of_peer hother hnode he]
    · intro he
      rw [h.eq_of_ptr hnode hother he]
  rw [Server.sendPacket, if_pos (h.connected other hother)]
  by_cases he : node.ptr = other.ptr
  · simp only [sentTo, List.filterMap_cons, List.filterMap_nil, hpeer, if_pos he]
  · simp only [sentTo, List.filterMap_cons, List.filterMap_nil, hpeer, if_neg he]

/-- What is posted to a client of the table. -/
theorem Linked.postAll_ptr {σ μ : Type*} {s : Server} (h : Linked s) {node : ClientNode}
    (hnode : node ∈ s.mClients) (decode : ClientBound → Option μ) (links : ℕ → Receiver σ μ)
    (effects : List Effect) :
    postAll s decode links effects node.ptr =
      (links node.ptr).post ((sentTo s node.client.mPeer effects).filterMap decode) := by
  rw [postAll, h.nodeAt_ptr hnode]

/-- A redistributed packet reaches every client but its sender, whatever else
the server saves on the way. -/
theorem Linked.redistributePacket_sent {s t : Server} (h : Linked s)
    (hclients : t.mClients = s.mClients) (hpeers : t.peers = s.peers) {node : ClientNode}
    (hnode : node ∈ s.mClients) (client : ClientNode) (packet : ClientBound) :
    sentTo t node.client.mPeer (redistributePacket s client packet).2 =
      if node.ptr = client.ptr then [] else [packet] := by
  have ht := h.congr hclients hpeers
  rw [← hclients] at hnode
  have hsame : (redistributePacket s client packet).2 =
      t.sendPacketToAllExcept client.ptr packet true := by
    rw [redistributePacket, Server.sendPacketToAllExcept, Server.sendPacketToAllExcept, hclients]
  rw [hsame, ht.sentTo_allExcept hnode]

/-- What a report does to the server. -/
theorem handleGoalItemInfo_server (s : Server) (client : ClientNode) (report : ToS_GoalItemInfo) :
    let item : GoalItemCollectData := ⟨report.islandID, report.shineID⟩
    let t := (handleGoalItemInfo s client report).1
    t = { s with mSaveData := { s.mSaveData with
      numCollectedGoalItems := s.mSaveData.numCollectedGoalItems +
        if item ∈ s.mSaveData.collectedGoalItems then 0 else 1
      collectedGoalItems := s.mSaveData.collectedGoalItems ++
        if item ∈ s.mSaveData.collectedGoalItems then [] else [item] } } := by
  have hsearch := isGoalItemAlreadyCollected_iff s.mSaveData report.islandID report.shineID
  by_cases hknown : (⟨report.islandID, report.shineID⟩ : GoalItemCollectData) ∈
      s.mSaveData.collectedGoalItems
  · simp only [handleGoalItemInfo, hsearch.mpr hknown, if_true, if_pos hknown, List.append_nil,
      Int.add_zero]
  · have hnew : s.mSaveData.isGoalItemAlreadyCollected report.islandID report.shineID = false :=
      Bool.eq_false_iff.mpr fun h => hknown (hsearch.mp h)
    simp only [handleGoalItemInfo, hnew, Bool.false_eq_true, if_false, if_neg hknown]

/-- Of the two packets for a report, the sender is sent the one that announces
nothing, and everybody else the other. -/
theorem Linked.sentTo_reportAnswers {s t : Server} (h : Linked s) {client node : ClientNode}
    (hclient : client ∈ s.mClients) (hnode : node ∈ s.mClients) (distPacket : ToC_GoalItemInfo)
    (hclients : t.mClients = s.mClients) (hpeers : t.peers = s.peers) :
    sentTo t node.client.mPeer
      (t.sendPacketToAllExcept client.ptr (.goalItemInfo distPacket) ++
        t.sendPacket client.client (.goalItemInfo { distPacket with isCollectNewShine := false }) ++
        [.save t.mSaveData]) =
      [.goalItemInfo (if node.ptr = client.ptr then { distPacket with isCollectNewShine := false }
        else distPacket)] := by
  have ht := h.congr hclients hpeers
  rw [← hclients] at hnode hclient
  rw [sentTo_append, sentTo_append, ht.sentTo_allExcept hnode, ht.sentTo_sendPacket hnode hclient]
  by_cases hptr : node.ptr = client.ptr
  · simp only [if_pos hptr]
    rfl
  · simp only [if_neg hptr]
    rfl

/-- What a report sends: each client gets one packet with the new counter, which
announces the shine when it is new and the client is not the reporter. -/
theorem Linked.handleGoalItemInfo_sent {s : Server} (h : Linked s) {client node : ClientNode}
    (hclient : client ∈ s.mClients) (hnode : node ∈ s.mClients) (report : ToS_GoalItemInfo) :
    let result := handleGoalItemInfo s client report
    ∃ packet, sentTo result.1 node.client.mPeer result.2 = [.goalItemInfo packet] ∧
      packet.numCollectedGoalItems = result.1.mSaveData.numCollectedGoalItems ∧
      (packet.isCollectNewShine = true ↔ node.ptr ≠ client.ptr ∧
        ⟨report.islandID, report.shineID⟩ ∉ s.mSaveData.collectedGoalItems) ∧
      (packet.isCollectNewShine = true →
        packet.islandID = some report.islandID ∧ packet.shineID = some report.shineID) := by
  have hsearch := isGoalItemAlreadyCollected_iff s.mSaveData report.islandID report.shineID
  by_cases hknown : (⟨report.islandID, report.shineID⟩ : GoalItemCollectData) ∈
      s.mSaveData.collectedGoalItems
  · simp only [handleGoalItemInfo, hsearch.mpr hknown, if_true, Bool.not_true]
    refine ⟨_, by apply h.sentTo_reportAnswers hclient hnode <;> rfl, ?_, ?_, ?_⟩
    · split <;> rfl
    · refine iff_of_false ?_ fun hn => hn.2 hknown
      split <;> exact Bool.false_ne_true
    · intro hflag
      split at hflag <;> cases hflag
  · have hnew : s.mSaveData.isGoalItemAlreadyCollected report.islandID report.shineID = false :=
      Bool.eq_false_iff.mpr fun hs => hknown (hsearch.mp hs)
    simp only [handleGoalItemInfo, hnew, Bool.false_eq_true, if_false, Bool.not_false]
    refine ⟨_, by apply h.sentTo_reportAnswers hclient hnode <;> rfl, ?_, ?_, ?_⟩
    · split <;> rfl
    · by_cases hptr : node.ptr = client.ptr
      · rw [if_pos hptr]
        exact iff_of_false Bool.false_ne_true fun hn => hn.1 hptr
      · rw [if_neg hptr]
        exact iff_of_true rfl ⟨hptr, hknown⟩
    · intro hflag
      by_cases hptr : node.ptr = client.ptr
      · rw [if_pos hptr] at hflag
        cases hflag
      · rw [if_neg hptr]
        exact ⟨rfl, rfl⟩

/-- A server without progress whose clients are those in some peer slots, each
with its record at the place of that number. -/
def serverWith (slots : List ℕ) : Server :=
  { Server.fresh (.fresh (Buffer.zero sharedSaveCapacity)) with
    peers := slots.map peerAt
    mClients := slots.map fun slot => ⟨calcEnetAddressHashCode (peerAt slot).address, slot,
      { mPeer := peerAt slot, mHasGreeting := true, mUid := ⟨UInt64.ofNat slot, 0⟩ }⟩
    lastFlip := some 0 }

end BfMultiplayer.ClientLinks

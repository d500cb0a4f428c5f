import BfMultiplayer.EventLoopRules
import BfMultiplayer.GuardedRuns

/-!
# The owner of an open upload session

A session with a chunk in it belongs to one client record, by address. The
event loop erases records without looking at the session, since
`Client::disconnect` is empty, so the session can outlive its owner; nobody
can then add the chunks it still waits for. As long as no record is erased
while it owns an open session, the owner of an open session is connected, and
a valid chunk is only ever rejected in favour of a connected owner.
-/

namespace BfMultiplayer.SaveSessionOwner

open ByteBuffer Packets ServerState ServerHandlers SaveChunkRules EventLoopRules GuardedRuns

/-- Some chunk of the session has arrived. -/
def SessionOpen (s : Server) : Prop := ∃ i, s.mSaveDataAck i = true

/-- The client behind a record is in the middle of an upload. -/
def UploadInProgress (s : Server) (node : ClientNode) : Prop :=
  SessionOpen s ∧ s.mCurrentSaveDataUploader = some node.ptr

/-- An open session belongs to a record of the table. -/
def OwnerConnected (s : Server) : Prop :=
  SessionOpen s → ∃ node ∈ s.mClients, s.mCurrentSaveDataUploader = some node.ptr

/-- A chunk with index and size in range is stored whichever connected client
it comes from. -/
def AcceptsAnyone (s : Server) : Prop :=
  ∀ node ∈ s.mClients, ∀ (packet : SaveDataChunk) (slot : Fin 8),
    packet.chunkIndex = slot.val → packet.size.toNat ≤ sSaveDataChunkSize →
      acceptedSlot s node.ptr packet = some slot

/-- The records an event erases: those under the hash of a peer that connects
or disconnects. -/
def Erases : ENetEvent → ClientNode → Prop
  | .connect peer _, node => node.hash = calcEnetAddressHashCode peer.address
  | .disconnect peer, node => node.hash = calcEnetAddressHashCode peer.address
  | .receive _ _ _, _ => False

/-- The condition on an event: it erases no record that is in the middle of
an upload. -/
def KeepsUploader (s : Server) (event : ENetEvent) : Prop :=
  ∀ node ∈ s.mClients, Erases event node → ¬UploadInProgress s node

/-- A table that keeps all records but those under one hash, with the session
as it was, keeps the owner connected if that owner is not erased. -/
theorem ownerConnected_of_erased {s t : Server} {hash : ℕ} (hs : OwnerConnected s)
    (hack : t.mSaveDataAck = s.mSaveDataAck)
    (huploader : t.mCurrentSaveDataUploader = s.mCurrentSaveDataUploader)
    (hkeep : ∀ node ∈ s.mClients, node.hash ≠ hash → node ∈ t.mClients)
    (hguard : ∀ node ∈ s.mClients, node.hash = hash → ¬UploadInProgress s node) :
    OwnerConnected t := by
  rintro ⟨i, hi⟩
  rw [hack] at hi
  have hopen : SessionOpen s := ⟨i, hi⟩
  obtain ⟨node, hmem, howner⟩ := hs hopen
  have hne : node.hash ≠ hash := fun he => hguard node hmem he ⟨hopen, howner⟩
  exact ⟨node, hkeep node hmem hne, huploader.trans howner⟩

/-- A chunk keeps the owner connected: it leaves the owner, makes the sender
the owner, or ends the session. -/
theorem ownerConnected_chunk {s t : Server} {node : ClientNode} {packet : SaveDataChunk}
    {effects : List Effect} (hs : OwnerConnected s) (hnode : node ∈ s.mClients)
    (h : handleSaveChunk s node.ptr packet = some (t, effects)) : OwnerConnected t := by
  cases handleSaveChunk_step h with
  | rejected _ =>
    rintro ⟨i, hi⟩
    rw [openSession_ack] at hi
    rw [openSession_of_ack hi]
    exact hs ⟨i, hi⟩
  | stored hslot hstored _ =>
    intro _
    have hclients := hstored.clients
    rw [openSession_clients] at hclients
    have howner := hstored.uploader.trans (acceptedSlot_eq_some hslot).1
    exact ⟨node, by rw [hclients]; exact hnode, howner⟩
  | committed _ _ _ hcommit =>
    rintro ⟨i, hi⟩
    rw [hcommit.ack i] at hi
    cases hi

/-- One event under the condition keeps the owner connected. -/
theorem ownerConnected_step {s t : Server} {event : ENetEvent} (hs : OwnerConnected s)
    (hguard : KeepsUploader s event) (hstep : serviceStep s event = some t) :
    OwnerConnected t := by
  obtain ⟨⟨u, effects⟩, hserve, rfl⟩ := Option.map_eq_some_iff.mp hstep
  cases event with
  | connect peer ptr =>
    cases hserve
    obtain ⟨hack, huploader, -⟩ := onConnect_session s peer ptr
    exact ownerConnected_of_erased hs hack huploader
      (fun node hmem hne => mem_onConnect_of_mem hmem hne) hguard
  | disconnect peer =>
    have he : onDisconnect s peer = (u, effects) := Option.some.inj hserve
    obtain ⟨hack, huploader, -⟩ := onDisconnect_session s peer
    have hkeep : ∀ node ∈ s.mClients, node.hash ≠ calcEnetAddressHashCode peer.address →
        node ∈ (onDisconnect s peer).1.mClients := fun _ => mem_onDisconnect_of_mem
    rw [he] at hack huploader hkeep
    exact ownerConnected_of_erased hs hack huploader hkeep hguard
  | receive peer packet now =>
    rcases onReceive_cases hserve with ⟨rfl, -⟩ | ⟨node, hdispatched, hhandle⟩
    · exact hs
    · have hnode := (find?_mem hdispatched.1).1
      by_cases hchunk : ∃ chunk, packet = .saveDataChunk chunk
      · obtain ⟨chunk, rfl⟩ := hchunk
        exact ownerConnected_chunk hs hnode hhandle
      · have hkeep := handlePacket_keepsSession hhandle fun chunk he => hchunk ⟨chunk, he⟩
        rintro ⟨i, hi⟩
        rw [hkeep.ack] at hi
        obtain ⟨owner, howner, huploader⟩ := hs ⟨i, hi⟩
        obtain ⟨found, hfound, hptr⟩ := hkeep.exists_ptr.mpr ⟨owner, howner, rfl⟩
        exact ⟨found, hfound, by rw [hkeep.uploader, hptr]; exact huploader⟩

/-- When no connected client is in the middle of an upload, no chunk in range
is rejected. -/
theorem acceptsAnyone_of_idle {s : Server} (hs : OwnerConnected s)
    (hidle : ∀ node ∈ s.mClients, ¬UploadInProgress s node) : AcceptsAnyone s := by
  have hempty : ∀ i, s.mSaveDataAck i = false := by
    intro i
    cases hi : s.mSaveDataAck i with
    | false => rfl
    | true =>
      obtain ⟨node, hmem, howner⟩ := hs ⟨i, hi⟩
      exact absurd ⟨⟨i, hi⟩, howner⟩ (hidle node hmem)
  intro node _ packet slot hindex hsize
  exact acceptedSlot_of_owner (openSession_of_empty hempty node.ptr).1 hsize hindex

/-- In every run of the event loop that erases no record in the middle of an
upload, an open session belongs to a connected client, and while no connected
client is in the middle of an upload every connected client's chunks are
taken. -/
theorem session_owner_connected (data : ServerSaveData) (events : List ENetEvent) (s : Server)
    (hguard : Along KeepsUploader serviceStep (Server.fresh data) events)
    (hrun : run serviceStep (Server.fresh data) events = some s) :
    OwnerConnected s ∧
      ((∀ node ∈ s.mClients, ¬UploadInProgress s node) → AcceptsAnyone s) := by
  have hstart : OwnerConnected (Server.fresh data) := by
    rintro ⟨i, hi⟩
    cases hi
  have hs := run_invariant (fun _ _ _ => ownerConnected_step) hstart hguard hrun
  exact ⟨hs, acceptsAnyone_of_idle hs⟩

/-- A client that greets and uploads its first chunk owns the session. -/
theorem session_owner_connected_alone :
    ∃ s, run serviceStep (Server.fresh (.fresh (Buffer.zero sharedSaveCapacity)))
        [.connect (peerAt 1) 1, greetingOf 1,
          .receive (peerAt 1) (.saveDataChunk (fullChunk 0)) 0] = some s ∧
      SessionOpen s ∧ OwnerConnected s := by
  have hrun : (run serviceStep (Server.fresh (.fresh (Buffer.zero sharedSaveCapacity)))
      [.connect (peerAt 1) 1, greetingOf 1,
        .receive (peerAt 1) (.saveDataChunk (fullChunk 0)) 0]).map
          (fun s => s.mSaveDataAck 0) = some true := by decide
  obtain ⟨s, hs, hack⟩ := Option.map_eq_some_iff.mp hrun
  refine ⟨s, hs, ⟨0, hack⟩, (session_owner_connected _ _ s ?_ hs).1⟩
  -- the only event that erases by hash is the connection to the empty table
  refine ⟨fun node hmem => absurd hmem List.not_mem_nil, fun _ _ =>
    ⟨fun _ _ h => False.elim h, fun _ _ => ⟨fun _ _ h => False.elim h, fun _ _ => trivial⟩⟩⟩

/-- Client 1 uploads one chunk and disconnects. The session stays open with an
owner that is in no table, and a valid chunk of client 2, the only one
connected, is rejected. -/
theorem session_outlives_owner :
    ∃ s, run serviceStep (Server.fresh (.fresh (Buffer.zero sharedSaveCapacity)))
        [.connect (peerAt 1) 1, greetingOf 1,
          .receive (peerAt 1) (.saveDataChunk (fullChunk 0)) 0, .disconnect (peerAt 1),
          .connect (peerAt 2) 2, greetingOf 2] = some s ∧
      ¬OwnerConnected s ∧ (∀ node ∈ s.mClients, ¬UploadInProgress s node) ∧
      ¬AcceptsAnyone s := by
  have hrun : (run serviceStep (Server.fresh (.fresh (Buffer.zero sharedSaveCapacity)))
      [.connect (peerAt 1) 1, greetingOf 1,
        .receive (peerAt 1) (.saveDataChunk (fullChunk 0)) 0, .disconnect (peerAt 1),
        .connect (peerAt 2) 2, greetingOf 2]).map
          (fun s => (s.mSaveDataAck 0, s.mCurrentSaveDataUploader,
            s.mClients.map ClientNode.ptr, acceptedSlot s 2 (fullChunk 0))) =
      some (true, some 1, [2], none) := by decide
  obtain ⟨s, hs, he⟩ := Option.map_eq_some_iff.mp hrun
  simp only [Prod.mk.injEq] at he
  obtain ⟨hack, howner, hptrs, hrejected⟩ := he
  have hptr : ∀ node ∈ s.mClients, node.ptr = 2 := by
    intro node hmem
    have hp := List.mem_map_of_mem (f := ClientNode.ptr) hmem
    rw [hptrs, List.mem_singleton] at hp
    exact hp
  have hne : ∀ node ∈ s.mClients, s.mCurrentSaveDataUploader ≠ some node.ptr := by
    intro node hmem
    rw [howner, hptr node hmem]
    decide
  refine ⟨s, hs, fun h => ?_, fun node hmem h => hne node hmem h.2, fun h => ?_⟩
  · obtain ⟨node, hmem, hu⟩ := h ⟨0, hack⟩
    exact hne node hmem hu
  · have hmem : 2 ∈ s.mClients.map ClientNode.ptr := by
      rw [hptrs]
      exact List.mem_singleton_self 2
    obtain ⟨node, hnode, hp⟩ := List.mem_map.mp hmem
    have ha := h node hnode (fullChunk 0) 0 rfl (by decide)
    rw [hp, hrejected] at ha
    cases ha

end BfMultiplayer.SaveSessionOwner

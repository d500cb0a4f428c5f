import BfMultiplayer.EventLoopRules
import BfMultiplayer.GuardedRuns

/-!
# Copies of the chunk handlers stay inside their arrays

The client's work buffer has room for eight full chunks. The server's does
not: eight chunks of `0x2100` bytes are 67584 bytes and its arrays hold 65791,
while the handler only compares a chunk with its own packet. What is missing
is a bound on the last chunk. The event loop stays inside its arrays exactly
as long as every last chunk it stores ends inside the work buffer, and this
also bounds the size of a session at its commit.
-/

namespace BfMultiplayer.SaveBufferBounds

open ByteBuffer Packets ServerState ServerHandlers SaveChunkRules EventLoopRules GuardedRuns

/-- How many bytes of the server's buffers the last chunk can use. -/
def lastChunkCapacity : ℕ := sharedSaveCapacity - sSaveDataChunkSize * 7

/-- The largest size of each chunk that fits the server's buffers. -/
def placeCapacity (i : Fin 8) : ℕ :=
  if i = Fin.last 7 then lastChunkCapacity else sSaveDataChunkSize

/-- An open session is no larger than the places it has filled. -/
def SessionBounded (s : Server) : Prop :=
  ∀ i, s.mSaveDataAck i = true →
    s.mSharedSaveWorkBufferSize ≤ ackedSum s.mSaveDataAck placeCapacity

/-- The condition on an event: a last chunk that the server is going to store
fits what is left of its buffer. -/
def LastChunkFits (s : Server) : ENetEvent → Prop
  | .receive peer (.saveDataChunk chunk) _ =>
    ∀ node, Dispatched s peer (.saveDataChunk chunk) node →
      acceptedSlot s node.ptr chunk = some (Fin.last 7) → chunk.size.toNat ≤ lastChunkCapacity
  | _ => True

/-- The places fill the server's buffers exactly. -/
theorem sum_placeCapacity : ∑ i, placeCapacity i = sharedSaveCapacity := by
  decide

/-- A chunk of at most the packet's size fits its place exactly when it ends
inside the buffer. -/
theorem le_placeCapacity_iff {slot : Fin 8} {n : ℕ} (hn : n ≤ sSaveDataChunkSize) :
    n ≤ placeCapacity slot ↔ sSaveDataChunkSize * slot + n ≤ sharedSaveCapacity := by
  by_cases h7 : slot = Fin.last 7
  · subst h7
    rw [placeCapacity, if_pos rfl, lastChunkCapacity]
    simp only [sSaveDataChunkSize, sharedSaveCapacity, Fin.val_last]
    omega
  · have hv : slot.val ≠ 7 := fun hv => h7 (Fin.ext hv)
    have hs := slot.isLt
    rw [placeCapacity, if_neg h7]
    simp only [sSaveDataChunkSize, sharedSaveCapacity] at *
    omega

/-- A session without flags is bounded, whatever its size field still says. -/
theorem sessionBounded_of_empty {s : Server} (h : ∀ i, s.mSaveDataAck i = false) :
    SessionBounded s := by
  intro i hi
  rw [h i] at hi
  cases hi

/-- The session a chunk finds is bounded, opened or not. -/
theorem openSession_bounded {s : Server} (hs : SessionBounded s) (client : ℕ) :
    (openSession s client).mSharedSaveWorkBufferSize ≤ ackedSum s.mSaveDataAck placeCapacity := by
  by_cases hopen : ∃ i, s.mSaveDataAck i = true
  · obtain ⟨i, hi⟩ := hopen
    rw [openSession_of_ack hi]
    exact hs i hi
  · have hempty : ∀ i, s.mSaveDataAck i = false := by
      intro i
      cases hi : s.mSaveDataAck i with
      | false => rfl
      | true => exact absurd ⟨i, hi⟩ hopen
    have hzero := (openSession_of_empty hempty client).2
    omega

/-- A stored chunk that fits its place leaves the session bounded. -/
theorem stored_bounded {s t : Server} {client : ℕ} {slot : Fin 8} {packet : SaveDataChunk}
    (hs : SessionBounded s) (hplace : packet.size.toNat ≤ placeCapacity slot)
    (hstored : Stored (openSession s client) slot packet t) :
    t.mSharedSaveWorkBufferSize ≤ ackedSum t.mSaveDataAck placeCapacity := by
  have hbefore := openSession_bounded hs client
  have hack := hstored.ack
  have hsize := hstored.size
  rw [openSession_ack] at hack hsize
  rw [hack, ackedSum_update, hsize]
  cases s.mSaveDataAck slot with
  | false =>
    simp only [Bool.false_eq_true, if_false]
    omega
  | true =>
    simp only [if_true, Nat.add_zero]
    exact hbefore

/-- A chunk that was handled inside the buffers leaves the session bounded. -/
theorem sessionBounded_chunk {s t : Server} {client : ℕ} {packet : SaveDataChunk}
    {effects : List Effect} (hs : SessionBounded s)
    (h : handleSaveChunk s client packet = some (t, effects)) : SessionBounded t := by
  cases handleSaveChunk_step h with
  | rejected _ =>
    intro i hi
    rw [openSession_ack] at hi ⊢
    exact openSession_bounded hs client
  | stored hslot hstored _ =>
    have hle := (acceptedSlot_eq_some hslot).2.1
    have hplace := (le_placeCapacity_iff hle).mpr hstored.fits
    exact fun _ _ => stored_bounded hs hplace hstored
  | committed _ _ _ hcommit => exact sessionBounded_of_empty hcommit.ack

/-- One event that stays inside the buffers leaves the session bounded. -/
theorem sessionBounded_step {s t : Server} {event : ENetEvent} (hs : SessionBounded s)
    (hstep : serviceStep s event = some t) : SessionBounded t := by
  obtain ⟨⟨u, effects⟩, hserve, rfl⟩ := Option.map_eq_some_iff.mp hstep
  cases event with
  | connect peer ptr =>
    cases hserve
    obtain ⟨hack, -, hsize⟩ := onConnect_session s peer ptr
    intro i hi
    rw [hack] at hi ⊢
    rw [hsize]
    exact hs i hi
  | disconnect peer =>
    have he : onDisconnect s peer = (u, effects) := Option.some.inj hserve
    obtain ⟨hack, -, hsize⟩ := onDisconnect_session s peer
    rw [he] at hack hsize
    intro i hi
    dsimp only at hack hsize hi ⊢
    rw [hack] at hi ⊢
    rw [hsize]
    exact hs i hi
  | receive peer packet now =>
    rcases onReceive_cases hserve with ⟨rfl, -⟩ | ⟨node, hdispatched, hhandle⟩
    · exact hs
    · by_cases hchunk : ∃ chunk, packet = .saveDataChunk chunk
      · obtain ⟨chunk, rfl⟩ := hchunk
        exact sessionBounded_chunk hs hhandle
      · have hkeep := handlePacket_keepsSession hhandle fun chunk he => hchunk ⟨chunk, he⟩
        intro i hi
        dsimp only at hi ⊢
        rw [hkeep.ack] at hi ⊢
        rw [hkeep.size]
        exact hs i hi

/-- In a bounded session the chunk handler stays inside the buffers exactly
when a last chunk it stores fits. -/
theorem handleSaveChunk_isSome_iff {s : Server} (hs : SessionBounded s) (client : ℕ)
    (packet : SaveDataChunk) :
    (handleSaveChunk s client packet).isSome ↔
      (acceptedSlot s client packet = some (Fin.last 7) → packet.size.toNat ≤ lastChunkCapacity) := by
  constructor
  · intro hsome hslot
    have hle := (acceptedSlot_eq_some hslot).2.1
    obtain ⟨⟨t, effects⟩, h⟩ := Option.isSome_iff_exists.mp hsome
    -- both ways of storing the chunk copied it inside the work buffer
    have hfits : sSaveDataChunkSize * Fin.last 7 + packet.size.toNat ≤ sharedSaveCapacity := by
      cases handleSaveChunk_step h with
      | rejected hnone =>
        rw [hnone] at hslot
        cases hslot
      | stored hsame hstored _ =>
        rw [hslot, Option.some.injEq] at hsame
        subst hsame
        exact hstored.fits
      | committed hsame hstored _ _ =>
        rw [hslot, Option.some.injEq] at hsame
        subst hsame
        exact hstored.fits
    exact (le_placeCapacity_iff hle).mpr hfits
  · intro hlast
    have hplace : ∀ slot, acceptedSlot s client packet = some slot →
        packet.size.toNat ≤ placeCapacity slot := by
      intro slot hslot
      by_cases h7 : slot = Fin.last 7
      · subst h7
        exact hlast hslot
      · rw [placeCapacity, if_neg h7]
        exact (acceptedSlot_eq_some hslot).2.1
    refine handleSaveChunk_isSome (fun slot hslot => ?_) (fun slot t hslot hstored => ?_)
    · exact (le_placeCapacity_iff (acceptedSlot_eq_some hslot).2.1).mp (hplace slot hslot)
    · calc
        t.mSharedSaveWorkBufferSize ≤ ackedSum t.mSaveDataAck placeCapacity :=
          stored_bounded hs (hplace slot hslot) hstored
        _ ≤ ∑ i, placeCapacity i := ackedSum_le _ _
        _ = sharedSaveCapacity := sum_placeCapacity

/-- In a bounded session an event stays inside the buffers exactly under the
condition. -/
theorem serviceStep_isSome_iff {s : Server} (hs : SessionBounded s) (event : ENetEvent) :
    (serviceStep s event).isSome ↔ LastChunkFits s event := by
  rw [serviceStep, Option.isSome_map]
  cases event with
  | connect peer ptr => exact iff_of_true rfl trivial
  | disconnect peer => exact iff_of_true rfl trivial
  | receive peer packet now =>
    by_cases hd : ∃ node, Dispatched s peer packet node
    · obtain ⟨node, hnode⟩ := hd
      rw [exeService, onReceive_of_dispatched hnode]
      by_cases hchunk : ∃ chunk, packet = .saveDataChunk chunk
      · obtain ⟨chunk, rfl⟩ := hchunk
        rw [handlePacket, handleSaveChunk_isSome_iff hs]
        constructor
        · intro h other hother
          have he : node = other := Option.some.inj (hnode.1.symm.trans hother.1)
          rw [← he]
          exact h
        · intro h
          exact h node hnode
      · have hne : ∀ chunk, packet ≠ .saveDataChunk chunk := fun chunk he => hchunk ⟨chunk, he⟩
        have hfits : LastChunkFits s (.receive peer packet now) := by
          cases packet with
          | saveDataChunk chunk => exact absurd rfl (hne chunk)
          | _ => trivial
        exact iff_of_true (handlePacket_isSome s node now hne) hfits
    · obtain ⟨effects, he, -⟩ := onReceive_of_not_dispatched (fun node hn => hd ⟨node, hn⟩) now
      have hfits : LastChunkFits s (.receive peer packet now) := by
        cases packet with
        | saveDataChunk chunk => exact fun node hn => absurd ⟨node, hn⟩ hd
        | _ => trivial
      rw [exeService, he]
      exact iff_of_true rfl hfits

/-- The client's handler stays inside its buffer on every chunk. -/
theorem handle_SaveDataChunk_isSome (st : SaveDataSync) (packet : SaveDataChunk) :
    (handle_SaveDataChunk st packet).isSome := by
  unfold handle_SaveDataChunk
  cases chunkSlot packet with
  | none => rfl
  | some slot =>
    dsimp only
    split
    · rfl
    · have hs := slot.isLt
      rw [Option.isSome_map, memcpy_isSome_iff]
      simp only [sSaveDataChunkSize, cachedSaveCapacity] at *
      omega

/-- A run of the event loop makes only copies inside its arrays exactly when
every last chunk it stores fits the end of the work buffer; a client's handler
never leaves its array. -/
theorem chunk_copies_inside_iff (data : ServerSaveData) (events : List ENetEvent) :
    ((run serviceStep (Server.fresh data) events).isSome ↔
        Along LastChunkFits serviceStep (Server.fresh data) events) ∧
      ∀ (st : SaveDataSync) (packet : SaveDataChunk), (handle_SaveDataChunk st packet).isSome := by
  have hstart : SessionBounded (Server.fresh data) := sessionBounded_of_empty fun _ => rfl
  exact ⟨run_isSome_iff_along (fun _ _ _ => sessionBounded_step)
    (fun _ event hs => serviceStep_isSome_iff hs event) hstart, handle_SaveDataChunk_isSome⟩

/-- A greeted client sends a last chunk of the full size, which passes both
tests of the handler: the copy leaves the work buffer. -/
theorem full_last_chunk_overflows :
    (run serviceStep (Server.fresh (.fresh (Buffer.zero sharedSaveCapacity)))
        [.connect (peerAt 1) 1, greetingOf 1]).isSome = true ∧
      (run serviceStep (Server.fresh (.fresh (Buffer.zero sharedSaveCapacity)))
        [.connect (peerAt 1) 1, greetingOf 1,
          .receive (peerAt 1) (.saveDataChunk (fullChunk 7)) 0]).isSome = false := by
  decide

end BfMultiplayer.SaveBufferBounds

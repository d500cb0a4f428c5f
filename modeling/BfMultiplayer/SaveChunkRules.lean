import BfMultiplayer.ListFacts
import BfMultiplayer.ServerHandlers
import Mathlib.Tactic.NormNum
import Mathlib.Logic.Function.Basic
import Mathlib.Algebra.BigOperators.Fin
import Mathlib.Algebra.Order.BigOperators.Group.Finset

/-!
# Save chunks: the two senders, the two receivers, one step of the server

Both sides cut a save into eight chunks of `0x2100` bytes, the last one
shorter. Here are the upload loops of the server and of a client, the client's
receiver, and what one call of the server's receiver can do: reject the chunk,
store it, or store it and commit the session. Later modules use these three
cases and never unfold the handler.
-/

namespace BfMultiplayer.SaveChunkRules

open ByteBuffer Packets ServerState ServerHandlers ListFacts

/-- Capacity of `sCachedSaveFileWorkBuffer`. -/
def cachedSaveCapacity : ℕ := 65535 + 0x1000

/-- The static variables of `SaveDataSync.cpp` on a client. -/
structure SaveDataSync where
  /-- The downloaded, or last written, save. -/
  sCachedSaveFileWorkBuffer : Buffer cachedSaveCapacity
  /-- Which chunks of the download have arrived. -/
  sCachedSaveFileAck : Fin 8 → Bool
  /-- Size of the save. -/
  sCachedSaveFileSize : ℕ

/-- `resetSaveDataBuffer`: the state before any chunk. -/
def resetSaveDataBuffer : SaveDataSync :=
  ⟨Buffer.zero cachedSaveCapacity, fun _ => false, 0⟩

/-- `handle_SaveDataChunk`; undefined when the copy leaves its arrays. -/
def handle_SaveDataChunk (st : SaveDataSync) (packet : SaveDataChunk) : Option SaveDataSync :=
  match chunkSlot packet with
  | none => some st
  | some slot =>
    if packet.size.toNat > sSaveDataChunkSize then some st
    else
      let size :=
        if st.sCachedSaveFileAck slot = false then st.sCachedSaveFileSize + packet.size.toNat
        else st.sCachedSaveFileSize
      (memcpy st.sCachedSaveFileWorkBuffer (sSaveDataChunkSize * slot) packet.data 0
        packet.size.toNat).map fun buffer =>
          ⟨buffer, Function.update st.sCachedSaveFileAck slot true, size⟩

/-- The index both upload loops start with. -/
def firstChunk : Fin 8 := 0

/-- The size both upload loops write into chunk `i`: a subtraction of 64-bit
sizes cut down to the 16-bit field. -/
def chunkSize (saveSize : ℕ) (i : Fin 8) : UInt16 :=
  if i = 7 then (UInt64.ofNat saveSize - UInt64.ofNat (sSaveDataChunkSize * 7)).toUInt16
  else UInt16.ofNat sSaveDataChunkSize

/-- Chunk `i` as both upload loops build it; undefined when the copy into the
packet leaves the packet or the save. -/
def uploadChunk {cap : ℕ} (save : Buffer cap) (saveSize : ℕ) (i : Fin 8) : Option SaveDataChunk :=
  (memcpy (Buffer.zero sSaveDataChunkSize) 0 save (sSaveDataChunkSize * i)
    (chunkSize saveSize i).toNat).map fun data => ⟨i, chunkSize saveSize i, data⟩

/-- `Client::uploadSaveThread`: the eight chunks of the shared save. -/
def uploadSaveThread (data : ServerSaveData) (i : Fin 8) : Option SaveDataChunk :=
  uploadChunk data.sharedSave data.sharedSaveSize i

/-- One pass of `SaveDataUploadThread::threadFunc` over a save that does not
change meanwhile. -/
def threadFunc (st : SaveDataSync) (i : Fin 8) : Option SaveDataChunk :=
  uploadChunk st.sCachedSaveFileWorkBuffer st.sCachedSaveFileSize i

/-- The slot a chunk is stored in by the server, `none` for a chunk that is
rejected: the sender does not own the session, the index or the size is out of
range. -/
def acceptedSlot (s : Server) (client : ℕ) (packet : SaveDataChunk) : Option (Fin 8) :=
  if (openSession s client).mCurrentSaveDataUploader = some client ∧
      packet.size.toNat ≤ sSaveDataChunkSize then chunkSlot packet
  else none

/-- The sum of a quantity over the chunks whose flag is set. -/
def ackedSum (ack : Fin 8 → Bool) (f : Fin 8 → ℕ) : ℕ := ∑ i, if ack i then f i else 0

/-- What storing a chunk does to the server. -/
structure Stored (s : Server) (slot : Fin 8) (packet : SaveDataChunk) (t : Server) : Prop where
  /-- The chunk is copied to its place. -/
  copied : memcpy s.mSharedSaveWorkBuffer (sSaveDataChunkSize * slot) packet.data 0
    packet.size.toNat = some t.mSharedSaveWorkBuffer
  /-- Its flag is set. -/
  ack : t.mSaveDataAck = Function.update s.mSaveDataAck slot true
  /-- Its size counts on a first arrival. -/
  size : t.mSharedSaveWorkBufferSize =
    s.mSharedSaveWorkBufferSize + if s.mSaveDataAck slot then 0 else packet.size.toNat
  /-- The session keeps its owner. -/
  uploader : t.mCurrentSaveDataUploader = s.mCurrentSaveDataUploader
  /-- The stored progress is not touched. -/
  saveData : t.mSaveData = s.mSaveData
  /-- Nor is the client table. -/
  clients : t.mClients = s.mClients
  /-- Nor are the peers. -/
  peers : t.peers = s.peers

/-- What a commit does to the server. -/
structure Committed (s t : Server) : Prop where
  /-- The work buffer is copied into the shared save. -/
  copied : memcpy s.mSaveData.sharedSave 0 s.mSharedSaveWorkBuffer 0
    s.mSharedSaveWorkBufferSize = some t.mSaveData.sharedSave
  /-- The recorded size is that of the session. -/
  size : t.mSaveData.sharedSaveSize = s.mSharedSaveWorkBufferSize
  /-- Nothing else of the stored progress is touched. -/
  progress : t.mSaveData = { s.mSaveData with
    sharedSaveSize := t.mSaveData.sharedSaveSize
    sharedSave := t.mSaveData.sharedSave }
  /-- No flag stays set. -/
  ack : ∀ i, t.mSaveDataAck i = false
  /-- The work buffer keeps its bytes. -/
  workBuffer : t.mSharedSaveWorkBuffer = s.mSharedSaveWorkBuffer
  /-- The client table is not touched. -/
  clients : t.mClients = s.mClients
  /-- Nor are the peers. -/
  peers : t.peers = s.peers

/-- The three things one call of `handleSaveChunk` can do. -/
inductive ChunkStep (s : Server) (client : ℕ) (packet : SaveDataChunk) :
    Server → List Effect → Prop where
  /-- The chunk is dropped; an empty session still passes to the sender. -/
  | rejected (h : acceptedSlot s client packet = none) :
      ChunkStep s client packet (openSession s client) []
  /-- The chunk is stored and the session stays open. -/
  | stored {slot : Fin 8} {t : Server} (h : acceptedSlot s client packet = some slot)
      (hstored : Stored (openSession s client) slot packet t) (hfull : sessionFull t = false) :
      ChunkStep s client packet t []
  /-- The chunk completes the session, which is committed. -/
  | committed {slot : Fin 8} {t u : Server} (h : acceptedSlot s client packet = some slot)
      (hstored : Stored (openSession s client) slot packet t) (hfull : sessionFull t = true)
      (hcommitted : Committed t u) :
      ChunkStep s client packet u [.save u.mSaveData]

/-- A session is empty when no flag is set. -/
theorem sessionEmpty_iff (s : Server) : sessionEmpty s = true ↔ ∀ i, s.mSaveDataAck i = false := by
  simp [sessionEmpty]

/-- A session is full when every flag is set. -/
theorem sessionFull_iff (s : Server) : sessionFull s = true ↔ ∀ i, s.mSaveDataAck i = true := by
  simp [sessionFull]

@[simp] theorem openSession_ack (s : Server) (client : ℕ) :
    (openSession s client).mSaveDataAck = s.mSaveDataAck := by
  unfold openSession
  split <;> rfl

@[simp] theorem openSession_workBuffer (s : Server) (client : ℕ) :
    (openSession s client).mSharedSaveWorkBuffer = s.mSharedSaveWorkBuffer := by
  unfold openSession
  split <;> rfl

@[simp] theorem openSession_saveData (s : Server) (client : ℕ) :
    (openSession s client).mSaveData = s.mSaveData := by
  unfold openSession
  split <;> rfl

@[simp] theorem openSession_clients (s : Server) (client : ℕ) :
    (openSession s client).mClients = s.mClients := by
  unfold openSession
  split <;> rfl

@[simp] theorem openSession_peers (s : Server) (client : ℕ) :
    (openSession s client).peers = s.peers := by
  unfold openSession
  split <;> rfl

/-- An empty session passes to whoever sends the next chunk, at size zero. -/
theorem openSession_of_empty {s : Server} (h : ∀ i, s.mSaveDataAck i = false) (client : ℕ) :
    (openSession s client).mCurrentSaveDataUploader = some client ∧
      (openSession s client).mSharedSaveWorkBufferSize = 0 := by
  rw [openSession, if_pos ((sessionEmpty_iff s).mpr h)]
  exact ⟨rfl, rfl⟩

/-- A session with a chunk stays as it is. -/
theorem openSession_of_ack {s : Server} {i : Fin 8} (h : s.mSaveDataAck i = true) (client : ℕ) :
    openSession s client = s := by
  have hne : ¬sessionEmpty s = true := by
    intro he
    rw [(sessionEmpty_iff s).mp he i] at h
    cases h
  rw [openSession, if_neg hne]

/-- The index test passes exactly the indices of the eight chunks. -/
theorem chunkSlot_eq_some_iff {packet : SaveDataChunk} {slot : Fin 8} :
    chunkSlot packet = some slot ↔ packet.chunkIndex = slot.val := by
  unfold chunkSlot
  split
  · rename_i h
    rw [Option.some.injEq, Fin.ext_iff]
    dsimp only
    omega
  · rename_i h
    have hs := slot.isLt
    constructor
    · intro hn
      cases hn
    · intro hi
      omega

/-- An accepted chunk names its slot and fits the packet. -/
theorem acceptedSlot_eq_some {s : Server} {client : ℕ} {packet : SaveDataChunk} {slot : Fin 8}
    (h : acceptedSlot s client packet = some slot) :
    (openSession s client).mCurrentSaveDataUploader = some client ∧
      packet.size.toNat ≤ sSaveDataChunkSize ∧ packet.chunkIndex = slot.val := by
  unfold acceptedSlot at h
  split at h
  · rename_i hc
    exact ⟨hc.1, hc.2, chunkSlot_eq_some_iff.mp h⟩
  · cases h

/-- A chunk of the session's owner with index and size in range is accepted. -/
theorem acceptedSlot_of_owner {s : Server} {client : ℕ} {packet : SaveDataChunk} {slot : Fin 8}
    (howner : (openSession s client).mCurrentSaveDataUploader = some client)
    (hsize : packet.size.toNat ≤ sSaveDataChunkSize) (hindex : packet.chunkIndex = slot.val) :
    acceptedSlot s client packet = some slot := by
  rw [acceptedSlot, if_pos ⟨howner, hsize⟩]
  exact chunkSlot_eq_some_iff.mpr hindex

/-- The handler as one test followed by the store and commit steps. -/
theorem handleSaveChunk_eq (s : Server) (client : ℕ) (packet : SaveDataChunk) :
    handleSaveChunk s client packet =
      match acceptedSlot s client packet with
      | none => some (openSession s client, [])
      | some slot => (storeChunk (openSession s client) slot packet).bind fun t =>
          if sessionFull t then commitSession t else some (t, []) := by
  unfold handleSaveChunk acceptedSlot
  by_cases howner : (openSession s client).mCurrentSaveDataUploader = some client
  · by_cases hsize : packet.size.toNat ≤ sSaveDataChunkSize
    · have hn : ¬packet.size.toNat > sSaveDataChunkSize := by omega
      cases chunkSlot packet <;>
        simp only [howner, hsize, hn, ne_eq, not_true_eq_false, if_false, and_self, if_true]
    · have hn : packet.size.toNat > sSaveDataChunkSize := by omega
      cases chunkSlot packet <;>
        simp only [howner, hsize, hn, ne_eq, not_true_eq_false, if_false, and_false, if_true]
  · simp only [howner, ne_eq, not_false_eq_true, if_true, false_and, if_false]

/-- Storing a chunk, when its copy stays inside the work buffer. -/
theorem storeChunk_stored {s t : Server} {slot : Fin 8} {packet : SaveDataChunk}
    (h : storeChunk s slot packet = some t) : Stored s slot packet t := by
  unfold storeChunk at h
  rw [Option.map_eq_some_iff] at h
  obtain ⟨buffer, hcopy, rfl⟩ := h
  cases hack : s.mSaveDataAck slot with
  | false =>
    refine ⟨?_, ?_, ?_, ?_, ?_, ?_, ?_⟩ <;> simp only [hack, if_true, Bool.false_eq_true, if_false]
    exact hcopy
  | true =>
    have hself := (update_true_of_marked hack).symm
    refine ⟨?_, ?_, ?_, ?_, ?_, ?_, ?_⟩ <;> simp only [hack, Bool.true_eq_false, if_false, if_true]
    · exact hcopy
    · exact hself
    · omega

/-- The store step is defined exactly when its copy is. -/
theorem storeChunk_isSome_iff {s : Server} {slot : Fin 8} {packet : SaveDataChunk} :
    (storeChunk s slot packet).isSome ↔
      sSaveDataChunkSize * slot + packet.size.toNat ≤ sharedSaveCapacity ∧
        packet.size.toNat ≤ sSaveDataChunkSize := by
  rw [storeChunk, Option.isSome_map, memcpy_isSome_iff, Nat.zero_add]

/-- The commit step, when its copy stays inside both buffers. -/
theorem commitSession_committed {s t : Server} {effects : List Effect}
    (h : commitSession s = some (t, effects)) :
    Committed s t ∧ effects = [.save t.mSaveData] := by
  unfold commitSession at h
  rw [Option.map_eq_some_iff] at h
  obtain ⟨shared, hcopy, he⟩ := h
  cases he
  exact ⟨⟨hcopy, rfl, rfl, fun _ => rfl, rfl, rfl, rfl⟩, rfl⟩

/-- The commit step is defined exactly when the session fits the buffers. -/
theorem commitSession_isSome_iff {s : Server} :
    (commitSession s).isSome ↔ s.mSharedSaveWorkBufferSize ≤ sharedSaveCapacity := by
  rw [commitSession, Option.isSome_map, memcpy_isSome_iff, Nat.zero_add, and_self]

/-- A call of the handler is one of the three steps. -/
theorem handleSaveChunk_step {s t : Server} {client : ℕ} {packet : SaveDataChunk}
    {effects : List Effect} (h : handleSaveChunk s client packet = some (t, effects)) :
    ChunkStep s client packet t effects := by
  rw [handleSaveChunk_eq] at h
  cases hslot : acceptedSlot s client packet with
  | none =>
    rw [hslot] at h
    cases h
    exact .rejected hslot
  | some slot =>
    rw [hslot] at h
    obtain ⟨u, hu, hrest⟩ := Option.bind_eq_some_iff.mp h
    cases hfull : sessionFull u with
    | false =>
      rw [hfull] at hrest
      cases hrest
      exact .stored hslot (storeChunk_stored hu) hfull
    | true =>
      rw [hfull] at hrest
      obtain ⟨hc, rfl⟩ := commitSession_committed hrest
      exact .committed hslot (storeChunk_stored hu) hfull hc

/-- No step touches the client table or the peers. -/
theorem handleSaveChunk_table {s t : Server} {client : ℕ} {packet : SaveDataChunk}
    {effects : List Effect} (h : handleSaveChunk s client packet = some (t, effects)) :
    t.mClients = s.mClients ∧ t.peers = s.peers := by
  have hopened := openSession_clients s client
  have hpeers := openSession_peers s client
  cases handleSaveChunk_step h with
  | rejected _ => exact ⟨hopened, hpeers⟩
  | stored _ hstored _ => exact ⟨hstored.clients.trans hopened, hstored.peers.trans hpeers⟩
  | committed _ hstored _ hcommit =>
    exact ⟨hcommit.clients.trans (hstored.clients.trans hopened),
      hcommit.peers.trans (hstored.peers.trans hpeers)⟩

/-- The handler is defined when the chunk and, on a commit, the whole session
fit the buffers. -/
theorem handleSaveChunk_isSome {s : Server} {client : ℕ} {packet : SaveDataChunk}
    (hfits : ∀ slot, acceptedSlot s client packet = some slot →
      sSaveDataChunkSize * slot + packet.size.toNat ≤ sharedSaveCapacity)
    (hcommit : ∀ slot t, acceptedSlot s client packet = some slot →
      Stored (openSession s client) slot packet t →
        t.mSharedSaveWorkBufferSize ≤ sharedSaveCapacity) :
    (handleSaveChunk s client packet).isSome := by
  rw [handleSaveChunk_eq]
  cases hslot : acceptedSlot s client packet with
  | none => rfl
  | some slot =>
    have hsome : (storeChunk (openSession s client) slot packet).isSome :=
      storeChunk_isSome_iff.mpr ⟨hfits slot hslot, (acceptedSlot_eq_some hslot).2.1⟩
    obtain ⟨t, ht⟩ := Option.isSome_iff_exists.mp hsome
    simp only [ht, Option.bind_some]
    split
    · exact commitSession_isSome_iff.mpr (hcommit slot t hslot (storeChunk_stored ht))
    · rfl

/-- A chunk whose handling is defined was inside the work buffer. -/
theorem Stored.fits {s t : Server} {slot : Fin 8} {packet : SaveDataChunk}
    (h : Stored s slot packet t) :
    sSaveDataChunkSize * slot + packet.size.toNat ≤ sharedSaveCapacity :=
  (memcpy_bounds h.copied).1

/-- Setting a flag adds its quantity once. -/
theorem ackedSum_update (ack : Fin 8 → Bool) (f : Fin 8 → ℕ) (slot : Fin 8) :
    ackedSum (Function.update ack slot true) f =
      ackedSum ack f + if ack slot then 0 else f slot := by
  have hterm : ∀ i, (if Function.update ack slot true i then f i else 0) =
      (if ack i then f i else 0) + if i = slot then (if ack slot then 0 else f slot) else 0 := by
    intro i
    by_cases hi : i = slot
    · subst hi
      rw [Function.update_self, if_pos rfl, if_pos rfl]
      split <;> omega
    · rw [Function.update_of_ne hi, if_neg hi, Nat.add_zero]
  simp only [ackedSum, hterm, Finset.sum_add_distrib, Finset.sum_ite_eq', Finset.mem_univ, if_true]

/-- With no flag set there is nothing to sum. -/
theorem ackedSum_of_empty {ack : Fin 8 → Bool} (h : ∀ i, ack i = false) (f : Fin 8 → ℕ) :
    ackedSum ack f = 0 := by
  simp only [ackedSum, h, Bool.false_eq_true, if_false, Finset.sum_const_zero]

/-- With all flags set everything is summed. -/
theorem ackedSum_of_full {ack : Fin 8 → Bool} (h : ∀ i, ack i = true) (f : Fin 8 → ℕ) :
    ackedSum ack f = ∑ i, f i := by
  simp only [ackedSum, h, if_true]

/-- The sum over some chunks is at most the sum over all. -/
theorem ackedSum_le (ack : Fin 8 → Bool) (f : Fin 8 → ℕ) : ackedSum ack f ≤ ∑ i, f i := by
  refine Finset.sum_le_sum fun i _ => ?_
  split <;> omega

/-- After a chunk is stored its place holds its bytes. -/
theorem Stored.holds {s t : Server} {slot : Fin 8} {packet : SaveDataChunk}
    (h : Stored s slot packet t) :
    SameBytes t.mSharedSaveWorkBuffer (sSaveDataChunkSize * slot) packet.data 0
      packet.size.toNat :=
  memcpy_inside h.copied

/-- Storing a chunk keeps what the other places hold. -/
theorem Stored.frame {s t : Server} {slot other : Fin 8} {packet : SaveDataChunk} {k bOff n : ℕ}
    {b : Buffer k} (h : Stored s slot packet t) (hne : other ≠ slot)
    (hpacket : packet.size.toNat ≤ sSaveDataChunkSize) (hn : n ≤ sSaveDataChunkSize)
    (hold : SameBytes s.mSharedSaveWorkBuffer (sSaveDataChunkSize * other) b bOff n) :
    SameBytes t.mSharedSaveWorkBuffer (sSaveDataChunkSize * other) b bOff n := by
  have hv : other.val ≠ slot.val := fun he => hne (Fin.ext he)
  refine hold.frame h.copied ?_
  simp only [sSaveDataChunkSize] at *
  omega

/-- All chunks but the last have the full size. -/
theorem chunkSize_of_ne_last (saveSize : ℕ) {i : Fin 8} (h : i ≠ 7) :
    (chunkSize saveSize i).toNat = sSaveDataChunkSize := by
  rw [chunkSize, if_neg h]
  rfl

/-- The last chunk takes the rest of a save of at least seven full chunks. -/
theorem chunkSize_last_of_le {saveSize : ℕ} (hlow : sSaveDataChunkSize * 7 ≤ saveSize)
    (hhigh : saveSize < sSaveDataChunkSize * 7 + 2 ^ 16) :
    (chunkSize saveSize 7).toNat = saveSize - sSaveDataChunkSize * 7 := by
  simp only [sSaveDataChunkSize] at *
  rw [chunkSize, if_pos rfl]
  simp only [sSaveDataChunkSize, UInt64.toNat_toUInt16, UInt64.toNat_sub, UInt64.toNat_ofNat']
  omega

/-- For a smaller save the subtraction wraps around. -/
theorem chunkSize_last_of_lt {saveSize : ℕ} (h : saveSize < sSaveDataChunkSize * 7) :
    (chunkSize saveSize 7).toNat = saveSize + 6400 := by
  simp only [sSaveDataChunkSize] at *
  rw [chunkSize, if_pos rfl]
  simp only [sSaveDataChunkSize, UInt64.toNat_toUInt16, UInt64.toNat_sub, UInt64.toNat_ofNat']
  omega

/-- What a chunk built by an upload loop carries. -/
theorem uploadChunk_spec {cap : ℕ} {save : Buffer cap} {saveSize : ℕ} {i : Fin 8}
    {chunk : SaveDataChunk} (h : uploadChunk save saveSize i = some chunk) :
    chunk.chunkIndex = i.val ∧ chunk.size = chunkSize saveSize i ∧
      chunk.size.toNat ≤ sSaveDataChunkSize ∧
      SameBytes chunk.data 0 save (sSaveDataChunkSize * i) chunk.size.toNat := by
  unfold uploadChunk at h
  rw [Option.map_eq_some_iff] at h
  obtain ⟨data, hcopy, rfl⟩ := h
  have hb := memcpy_bounds hcopy
  rw [Nat.zero_add] at hb
  exact ⟨rfl, rfl, hb.1, memcpy_inside hcopy⟩

/-- An upload loop builds a chunk exactly when the size fits the packet and
the chunk lies inside the save's buffer. -/
theorem uploadChunk_isSome_iff {cap : ℕ} {save : Buffer cap} {saveSize : ℕ} {i : Fin 8} :
    (uploadChunk save saveSize i).isSome ↔
      (chunkSize saveSize i).toNat ≤ sSaveDataChunkSize ∧
        sSaveDataChunkSize * i + (chunkSize saveSize i).toNat ≤ cap := by
  rw [uploadChunk, Option.isSome_map, memcpy_isSome_iff, Nat.zero_add]

end BfMultiplayer.SaveChunkRules

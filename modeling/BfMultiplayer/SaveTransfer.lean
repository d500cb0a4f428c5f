import BfMultiplayer.GuardedRuns
import BfMultiplayer.SaveChunkRules

/-!
# Transfer of a save in eight chunks

Either sender cuts its save into eight chunks and either receiver puts them
together, in any order and with any chunk repeated. A receiver counts the size
of a chunk on its first arrival, so in the end it records the sum of the eight
size fields. For a save of at least seven full chunks this sum is the size of
the save. For a smaller one the last size field has wrapped around, and the
sum is too large by `2 ^ 16`.
-/

namespace BfMultiplayer.SaveTransfer

open ByteBuffer Packets ServerState ServerHandlers SaveChunkRules GuardedRuns

/-- The client takes chunk `i` of a sender. -/
def clientTransfer (sender : Fin 8 → Option SaveDataChunk) (st : SaveDataSync) (i : Fin 8) :
    Option SaveDataSync :=
  (sender i).bind (handle_SaveDataChunk st)

/-- The server, and what it has committed. -/
structure ServerReceiver where
  /-- The server. -/
  server : Server
  /-- The values it saved, oldest first. -/
  commits : List ServerSaveData

/-- The server takes chunk `i` of a sender from one client. -/
def serverTransfer (client : ℕ) (sender : Fin 8 → Option SaveDataChunk) (r : ServerReceiver)
    (i : Fin 8) : Option ServerReceiver :=
  (sender i).bind fun chunk => (handleSaveChunk r.server client chunk).map fun result =>
    ⟨result.1, r.commits ++ savedValues result.2⟩

/-- A fresh client that takes the chunks in some order ends with all flags
set, the size of the save and its bytes. -/
def ClientReceives {cap : ℕ} (sender : Fin 8 → Option SaveDataChunk) (save : Buffer cap)
    (saveSize : ℕ) (order : List (Fin 8)) : Prop :=
  ∃ st, run (clientTransfer sender) resetSaveDataBuffer order = some st ∧
    (∀ i, st.sCachedSaveFileAck i = true) ∧ st.sCachedSaveFileSize = saveSize ∧
    SameBytes st.sCachedSaveFileWorkBuffer 0 save 0 saveSize

/-- A fresh server that takes the chunks in some order gets to the state in
which all flags are set, where it commits and clears them, and its shared save
has the size of the save and its bytes. -/
def ServerReceives {cap : ℕ} (client : ℕ) (progress : ServerSaveData)
    (sender : Fin 8 → Option SaveDataChunk) (save : Buffer cap) (saveSize : ℕ)
    (order : List (Fin 8)) : Prop :=
  ∃ r, run (serverTransfer client sender) ⟨Server.fresh progress, []⟩ order = some r ∧
    r.commits ≠ [] ∧ r.server.mSaveData.sharedSaveSize = saveSize ∧
    SameBytes r.server.mSaveData.sharedSave 0 save 0 saveSize

/-- The eight size fields of a save. -/
def sizeField (saveSize : ℕ) (i : Fin 8) : ℕ := (chunkSize saveSize i).toNat

/-- The places of the chunks with a set flag hold those chunks. -/
def Held {cap m : ℕ} (save : Buffer cap) (saveSize : ℕ) (ack : Fin 8 → Bool) (buffer : Buffer m) :
    Prop :=
  ∀ i, ack i = true →
    SameBytes buffer (sSaveDataChunkSize * i) save (sSaveDataChunkSize * i) (sizeField saveSize i)

/-- The size fields add up to seven full chunks and the last field. -/
theorem sum_sizeField (saveSize : ℕ) :
    ∑ i, sizeField saveSize i = sSaveDataChunkSize * 7 + sizeField saveSize 7 := by
  have hfull : ∀ i : Fin 7, sizeField saveSize i.castSucc = sSaveDataChunkSize := by
    intro i
    refine chunkSize_of_ne_last saveSize fun he => ?_
    have hv := congrArg Fin.val he
    have hi := i.isLt
    simp only [Fin.val_castSucc, Fin.isValue, Fin.coe_ofNat_eq_mod] at hv
    omega
  rw [Fin.sum_univ_castSucc]
  simp only [hfull, Finset.sum_const, Finset.card_univ, Fintype.card_fin, smul_eq_mul, Nat.mul_comm]
  rfl

/-- The size fields of a save add up to its size exactly when it has at least
seven full chunks. -/
theorem sum_sizeField_eq_iff {saveSize : ℕ} (hcap : saveSize ≤ sharedSaveCapacity) :
    ∑ i, sizeField saveSize i = saveSize ↔ sSaveDataChunkSize * 7 ≤ saveSize := by
  rw [sum_sizeField]
  by_cases hlow : sSaveDataChunkSize * 7 ≤ saveSize
  · have hlast : sizeField saveSize 7 = saveSize - sSaveDataChunkSize * 7 := by
      refine chunkSize_last_of_le hlow ?_
      simp only [sSaveDataChunkSize, sharedSaveCapacity] at *
      omega
    rw [hlast]
    omega
  · have hlast : sizeField saveSize 7 = saveSize + 6400 := chunkSize_last_of_lt (by omega)
    rw [hlast]
    simp only [sSaveDataChunkSize] at *
    omega

/-- Eight chunks in their places are the save from end to end. -/
theorem Held.sameBytes {cap m : ℕ} {save : Buffer cap} {saveSize : ℕ} {ack : Fin 8 → Bool}
    {buffer : Buffer m} (h : Held save saveSize ack buffer) (hall : ∀ i, ack i = true) :
    SameBytes buffer 0 save 0 (∑ i, sizeField saveSize i) := by
  rw [sum_sizeField]
  intro j hj
  rw [Nat.zero_add]
  by_cases hlast : j < sSaveDataChunkSize * 7
  · -- byte `j` lies in one of the first seven places
    have hdiv : j / sSaveDataChunkSize < 7 := Nat.div_lt_of_lt_mul hlast
    have hlt : j / sSaveDataChunkSize < 8 := by omega
    have hne : (⟨j / sSaveDataChunkSize, hlt⟩ : Fin 8) ≠ 7 := by
      intro he
      have hv : j / sSaveDataChunkSize = 7 := congrArg Fin.val he
      omega
    have hmod : j % sSaveDataChunkSize < sizeField saveSize ⟨j / sSaveDataChunkSize, hlt⟩ := by
      rw [sizeField, chunkSize_of_ne_last saveSize hne]
      exact Nat.mod_lt _ (by decide)
    have hbyte := h ⟨j / sSaveDataChunkSize, hlt⟩ (hall _) _ hmod
    rw [Nat.div_add_mod] at hbyte
    exact hbyte
  · have hrest : j - sSaveDataChunkSize * 7 < sizeField saveSize 7 := by omega
    have hj7 : sSaveDataChunkSize * 7 + (j - sSaveDataChunkSize * 7) = j := by omega
    have hbyte := h 7 (hall 7) _ hrest
    simp only [Fin.isValue, Fin.coe_ofNat_eq_mod, Nat.reduceMod, hj7] at hbyte
    exact hbyte

/-- A chunk copied to its place joins those that are held. -/
theorem Held.store {cap m : ℕ} {save : Buffer cap} {saveSize : ℕ} {ack : Fin 8 → Bool}
    {buffer out : Buffer m} {slot : Fin 8} {chunk : SaveDataChunk}
    (h : Held save saveSize ack buffer) (hchunk : uploadChunk save saveSize slot = some chunk)
    (hcopy : memcpy buffer (sSaveDataChunkSize * slot) chunk.data 0 chunk.size.toNat = some out) :
    Held save saveSize (Function.update ack slot true) out := by
  obtain ⟨-, hsize, hle, hbytes⟩ := uploadChunk_spec hchunk
  intro i hi
  by_cases he : i = slot
  · subst he
    rw [sizeField, ← hsize]
    exact (memcpy_inside hcopy).trans hbytes
  · rw [Function.update_of_ne he] at hi
    have hv : i.val ≠ slot.val := fun hv => he (Fin.ext hv)
    have hfield : sizeField saveSize i ≤ sSaveDataChunkSize ∨ slot.val < i.val := by
      by_cases h7 : i = 7
      · subst h7
        have hs := slot.isLt
        simp only [Fin.isValue, Fin.coe_ofNat_eq_mod] at hv ⊢
        omega
      · exact Or.inl (chunkSize_of_ne_last saveSize h7).le
    refine (h i hi).frame hcopy ?_
    simp only [sSaveDataChunkSize] at *
    omega

/-- The downloading client between two chunks. -/
structure ClientInv {cap : ℕ} (save : Buffer cap) (saveSize : ℕ) (st : SaveDataSync) : Prop where
  /-- The sizes of the chunks that arrived are counted once each. -/
  size : st.sCachedSaveFileSize = ackedSum st.sCachedSaveFileAck (sizeField saveSize)
  /-- Their bytes are in place. -/
  held : Held save saveSize st.sCachedSaveFileAck st.sCachedSaveFileWorkBuffer

/-- The client handles a chunk of an upload loop as a copy and a flag. -/
theorem handle_SaveDataChunk_eq {cap : ℕ} {save : Buffer cap} {saveSize : ℕ} {i : Fin 8}
    {chunk : SaveDataChunk} (hchunk : uploadChunk save saveSize i = some chunk)
    (st : SaveDataSync) :
    handle_SaveDataChunk st chunk =
      (memcpy st.sCachedSaveFileWorkBuffer (sSaveDataChunkSize * i) chunk.data 0
        chunk.size.toNat).map fun buffer =>
          ⟨buffer, Function.update st.sCachedSaveFileAck i true,
            st.sCachedSaveFileSize +
              if st.sCachedSaveFileAck i then 0 else sizeField saveSize i⟩ := by
  obtain ⟨hindex, hsize, hle, -⟩ := uploadChunk_spec hchunk
  have hslot : chunkSlot chunk = some i := chunkSlot_eq_some_iff.mpr hindex
  have hn : ¬chunk.size.toNat > sSaveDataChunkSize := by omega
  simp only [handle_SaveDataChunk, hslot, if_neg hn, sizeField, ← hsize]
  cases st.sCachedSaveFileAck i <;>
    simp only [if_true, if_false, Bool.false_eq_true, Bool.true_eq_false, Nat.add_zero]

/-- One chunk keeps the client's invariant and sets its flag. -/
theorem clientInv_step {cap : ℕ} {save : Buffer cap} {saveSize : ℕ} {st st' : SaveDataSync}
    {i : Fin 8} (hinv : ClientInv save saveSize st)
    (h : clientTransfer (uploadChunk save saveSize) st i = some st') :
    ClientInv save saveSize st' ∧
      st'.sCachedSaveFileAck = Function.update st.sCachedSaveFileAck i true := by
  obtain ⟨chunk, hchunk, hhandle⟩ := Option.bind_eq_some_iff.mp h
  rw [handle_SaveDataChunk_eq hchunk, Option.map_eq_some_iff] at hhandle
  obtain ⟨buffer, hcopy, rfl⟩ := hhandle
  refine ⟨⟨?_, hinv.held.store hchunk hcopy⟩, rfl⟩
  rw [ackedSum_update, ← hinv.size]

/-- A fresh client. -/
theorem clientInv_start {cap : ℕ} (save : Buffer cap) (saveSize : ℕ) :
    ClientInv save saveSize resetSaveDataBuffer :=
  ⟨(ackedSum_of_empty (fun _ => rfl) _).symm, fun _ hi => by cases hi⟩

/-- After a run over all chunks the client has every flag set, the sum of the
size fields, and the bytes of the save. -/
theorem client_assembles {cap : ℕ} {save : Buffer cap} {saveSize : ℕ} {order : List (Fin 8)}
    {st : SaveDataSync} (horder : ∀ i, i ∈ order)
    (hrun : run (clientTransfer (uploadChunk save saveSize)) resetSaveDataBuffer order = some st) :
    (∀ i, st.sCachedSaveFileAck i = true) ∧
      st.sCachedSaveFileSize = ∑ i, sizeField saveSize i ∧
      SameBytes st.sCachedSaveFileWorkBuffer 0 save 0 (∑ i, sizeField saveSize i) := by
  have hstart := clientInv_start save saveSize
  have hinv := run_invariant_of_step (fun _ _ _ hi h => (clientInv_step hi h).1) hstart hrun
  have hack : ∀ i, st.sCachedSaveFileAck i = true := by
    intro i
    refine run_establishes (F := fun st => st.sCachedSaveFileAck i = true)
      (fun _ _ _ hi h => (clientInv_step hi h).1) ?_ ?_ hstart (horder i) hrun
    · intro s t hi h
      rw [(clientInv_step hi h).2, Function.update_self]
    · intro s b t hi hset h
      rw [(clientInv_step hi h).2, Function.update_apply]
      split
      · rfl
      · exact hset
  refine ⟨hack, ?_, hinv.held.sameBytes hack⟩
  rw [hinv.size, ackedSum_of_full hack]

/-- For a save of at least seven full chunks every chunk lies inside the
capacity of the shared save, and fits a packet. -/
theorem sizeField_inside {saveSize : ℕ} (hlow : sSaveDataChunkSize * 7 ≤ saveSize)
    (hcap : saveSize ≤ sharedSaveCapacity) (i : Fin 8) :
    sSaveDataChunkSize * i + sizeField saveSize i ≤ sharedSaveCapacity ∧
      sizeField saveSize i ≤ sSaveDataChunkSize := by
  by_cases h7 : i = 7
  · subst h7
    have hlast : sizeField saveSize 7 = saveSize - sSaveDataChunkSize * 7 := by
      refine chunkSize_last_of_le hlow ?_
      simp only [sSaveDataChunkSize, sharedSaveCapacity] at *
      omega
    rw [hlast]
    simp only [sSaveDataChunkSize, sharedSaveCapacity, Fin.isValue, Fin.coe_ofNat_eq_mod] at *
    omega
  · have hfull : sizeField saveSize i = sSaveDataChunkSize := chunkSize_of_ne_last saveSize h7
    have hv : i.val ≠ 7 := fun hv => h7 (Fin.ext hv)
    have hi := i.isLt
    rw [hfull]
    simp only [sSaveDataChunkSize, sharedSaveCapacity]
    omega

/-- The sender of such a save builds every chunk. -/
theorem uploadChunk_of_le {cap : ℕ} (save : Buffer cap) {saveSize : ℕ}
    (hbuffer : sharedSaveCapacity ≤ cap) (hlow : sSaveDataChunkSize * 7 ≤ saveSize)
    (hcap : saveSize ≤ sharedSaveCapacity) (i : Fin 8) :
    ∃ chunk, uploadChunk save saveSize i = some chunk ∧
      chunk.size.toNat = sizeField saveSize i := by
  obtain ⟨hinside, hfits⟩ := sizeField_inside hlow hcap i
  have hsome : (uploadChunk save saveSize i).isSome :=
    uploadChunk_isSome_iff.mpr ⟨hfits, hinside.trans hbuffer⟩
  obtain ⟨chunk, hchunk⟩ := Option.isSome_iff_exists.mp hsome
  exact ⟨chunk, hchunk, congrArg UInt16.toNat (uploadChunk_spec hchunk).2.1⟩

/-- A client receives a save exactly when it has at least seven full chunks. -/
theorem clientReceives_iff {cap : ℕ} (save : Buffer cap) {saveSize : ℕ} {order : List (Fin 8)}
    (hbuffer : sharedSaveCapacity ≤ cap) (hcap : saveSize ≤ sharedSaveCapacity)
    (horder : ∀ i, i ∈ order) :
    ClientReceives (uploadChunk save saveSize) save saveSize order ↔
      sSaveDataChunkSize * 7 ≤ saveSize := by
  constructor
  · rintro ⟨st, hrun, -, hsize, -⟩
    have hsum := (client_assembles horder hrun).2.1
    exact (sum_sizeField_eq_iff hcap).mp (hsum.symm.trans hsize)
  · intro hlow
    have hdefined : (run (clientTransfer (uploadChunk save saveSize)) resetSaveDataBuffer
        order).isSome := by
      refine (run_isSome_iff_along (P := fun _ _ => True)
        (fun _ _ _ _ _ => True.intro) ?_ True.intro).mpr (along_of_at fun _ _ _ _ _ _ => trivial)
      intro st i _
      obtain ⟨chunk, hchunk, hsize⟩ := uploadChunk_of_le save hbuffer hlow hcap i
      obtain ⟨hinside, hfits⟩ := sizeField_inside hlow hcap i
      have hclient : sharedSaveCapacity ≤ cachedSaveCapacity := by decide
      simp only [clientTransfer, hchunk, Option.bind_some, handle_SaveDataChunk_eq hchunk,
        Option.isSome_map, memcpy_isSome_iff, hsize, Nat.zero_add, iff_true]
      exact ⟨hinside.trans hclient, hfits⟩
    obtain ⟨st, hrun⟩ := Option.isSome_iff_exists.mp hdefined
    obtain ⟨hack, hsize, hbytes⟩ := client_assembles horder hrun
    rw [(sum_sizeField_eq_iff hcap).mpr hlow] at hsize hbytes
    exact ⟨st, hrun, hack, hsize, hbytes⟩

/-- The server between two chunks of one client's uploads of one save. -/
structure ServerInv {cap : ℕ} (save : Buffer cap) (saveSize client : ℕ) (r : ServerReceiver) :
    Prop where
  /-- An open session is the client's, and counts the sizes once each. -/
  session : ∀ i, r.server.mSaveDataAck i = true →
    r.server.mCurrentSaveDataUploader = some client ∧
      r.server.mSharedSaveWorkBufferSize =
        ackedSum r.server.mSaveDataAck (sizeField saveSize)
  /-- The bytes of the chunks that arrived are in place. -/
  held : Held save saveSize r.server.mSaveDataAck r.server.mSharedSaveWorkBuffer
  /-- Some chunk is still missing. -/
  missing : ∃ i, r.server.mSaveDataAck i = false
  /-- What was committed is the sum of the sizes and the bytes of the save. -/
  committed : r.commits ≠ [] →
    r.server.mSaveData.sharedSaveSize = ∑ i, sizeField saveSize i ∧
      SameBytes r.server.mSaveData.sharedSave 0 save 0 (∑ i, sizeField saveSize i)

/-- Whatever the state of the session, the client's next chunk finds itself
the owner of a session with the right count. -/
theorem ServerInv.opened {cap : ℕ} {save : Buffer cap} {saveSize client : ℕ} {r : ServerReceiver}
    (h : ServerInv save saveSize client r) :
    (openSession r.server client).mCurrentSaveDataUploader = some client ∧
      (openSession r.server client).mSharedSaveWorkBufferSize =
        ackedSum r.server.mSaveDataAck (sizeField saveSize) := by
  by_cases hopen : ∃ i, r.server.mSaveDataAck i = true
  · obtain ⟨i, hi⟩ := hopen
    rw [openSession_of_ack hi]
    exact h.session i hi
  · have hempty : ∀ i, r.server.mSaveDataAck i = false := by
      intro i
      cases hi : r.server.mSaveDataAck i with
      | false => rfl
      | true => exact absurd ⟨i, hi⟩ hopen
    rw [ackedSum_of_empty hempty]
    exact openSession_of_empty hempty client

/-- A chunk the client sends is stored, and commits a full session. -/
theorem serverTransfer_cases {cap : ℕ} {save : Buffer cap} {saveSize client : ℕ}
    {r r' : ServerReceiver} {i : Fin 8} (hinv : ServerInv save saveSize client r)
    (h : serverTransfer client (uploadChunk save saveSize) r i = some r') :
    ∃ chunk t, uploadChunk save saveSize i = some chunk ∧
      Stored (openSession r.server client) i chunk t ∧
      ((sessionFull t = false ∧ r' = ⟨t, r.commits⟩) ∨
        (sessionFull t = true ∧ ∃ u, Committed t u ∧ r' = ⟨u, r.commits ++ [u.mSaveData]⟩)) := by
  obtain ⟨chunk, hchunk, hrest⟩ := Option.bind_eq_some_iff.mp h
  obtain ⟨⟨s, effects⟩, hhandle, rfl⟩ := Option.map_eq_some_iff.mp hrest
  obtain ⟨hindex, -, hle, -⟩ := uploadChunk_spec hchunk
  have haccepted := acceptedSlot_of_owner hinv.opened.1 hle hindex
  refine ⟨chunk, ?_⟩
  cases handleSaveChunk_step hhandle with
  | rejected hnone =>
    rw [haccepted] at hnone
    cases hnone
  | stored hslot hstored hfull =>
    rw [haccepted, Option.some.injEq] at hslot
    subst hslot
    exact ⟨s, hchunk, hstored, Or.inl ⟨hfull, by simp only [savedValues, List.filterMap_nil,
      List.append_nil]⟩⟩
  | @committed _ mid _ hslot hstored hfull hcommit =>
    rw [haccepted, Option.some.injEq] at hslot
    subst hslot
    exact ⟨mid, hchunk, hstored, Or.inr ⟨hfull, s, hcommit, rfl⟩⟩

/-- A stored chunk keeps the count and the bytes of the session. -/
theorem ServerInv.store {cap : ℕ} {save : Buffer cap} {saveSize client : ℕ} {r : ServerReceiver}
    {i : Fin 8} {chunk : SaveDataChunk} {t : Server} (h : ServerInv save saveSize client r)
    (hchunk : uploadChunk save saveSize i = some chunk)
    (hstored : Stored (openSession r.server client) i chunk t) :
    t.mSaveDataAck = Function.update r.server.mSaveDataAck i true ∧
      t.mSharedSaveWorkBufferSize = ackedSum t.mSaveDataAck (sizeField saveSize) ∧
      Held save saveSize t.mSaveDataAck t.mSharedSaveWorkBuffer := by
  have hack := hstored.ack
  have hsize := hstored.size
  have hcopied := hstored.copied
  have hfield : chunk.size.toNat = sizeField saveSize i :=
    congrArg UInt16.toNat (uploadChunk_spec hchunk).2.1
  simp only [openSession_ack, openSession_workBuffer] at hack hsize hcopied
  refine ⟨hack, ?_, ?_⟩
  · rw [hack, ackedSum_update, hsize, h.opened.2, hfield]
  · rw [hack]
    exact h.held.store hchunk hcopied

/-- One chunk keeps the server's invariant. -/
theorem serverInv_step {cap : ℕ} {save : Buffer cap} {saveSize client : ℕ}
    {r r' : ServerReceiver} {i : Fin 8} (hinv : ServerInv save saveSize client r)
    (h : serverTransfer client (uploadChunk save saveSize) r i = some r') :
    ServerInv save saveSize client r' := by
  obtain ⟨chunk, t, hchunk, hstored, hend⟩ := serverTransfer_cases hinv h
  obtain ⟨hack, hsize, hheld⟩ := hinv.store hchunk hstored
  rcases hend with ⟨hfull, rfl⟩ | ⟨hfull, u, hcommit, rfl⟩
  · refine ⟨fun _ _ => ⟨hstored.uploader.trans hinv.opened.1, hsize⟩, hheld, ?_, fun hc => ?_⟩
    · by_contra hall
      have hset : ∀ j, t.mSaveDataAck j = true := fun j =>
        Bool.eq_true_of_not_eq_false fun hj => hall ⟨j, hj⟩
      rw [(sessionFull_iff t).mpr hset] at hfull
      cases hfull
    · have hsave := hstored.saveData
      rw [openSession_saveData] at hsave
      dsimp only
      rw [hsave]
      exact hinv.committed hc
  · have hall := (sessionFull_iff t).mp hfull
    rw [ackedSum_of_full hall] at hsize
    refine ⟨fun j hj => ?_, fun j hj => ?_, ⟨0, hcommit.ack 0⟩, fun _ => ⟨?_, ?_⟩⟩
    · rw [hcommit.ack j] at hj
      cases hj
    · rw [hcommit.ack j] at hj
      cases hj
    · exact hcommit.size.trans hsize
    · have hcopy := memcpy_inside hcommit.copied
      rw [hsize] at hcopy
      exact hcopy.trans (hheld.sameBytes hall)

/-- A fresh server. -/
theorem serverInv_start {cap : ℕ} (save : Buffer cap) (saveSize client : ℕ)
    (progress : ServerSaveData) :
    ServerInv save saveSize client ⟨Server.fresh progress, []⟩ :=
  ⟨fun _ hi => absurd hi Bool.false_ne_true, fun _ hi => absurd hi Bool.false_ne_true, ⟨0, rfl⟩,
    fun hc => absurd rfl hc⟩

/-- After a run over all chunks the server has committed, and holds the sum of
the size fields and the bytes of the save. -/
theorem server_assembles {cap : ℕ} {save : Buffer cap} {saveSize client : ℕ}
    {progress : ServerSaveData} {order : List (Fin 8)} {r : ServerReceiver}
    (horder : ∀ i, i ∈ order)
    (hrun : run (serverTransfer client (uploadChunk save saveSize))
      ⟨Server.fresh progress, []⟩ order = some r) :
    r.commits ≠ [] ∧ r.server.mSaveData.sharedSaveSize = ∑ i, sizeField saveSize i ∧
      SameBytes r.server.mSaveData.sharedSave 0 save 0 (∑ i, sizeField saveSize i) := by
  have hstart := serverInv_start save saveSize client progress
  have hinv := run_invariant_of_step (fun _ _ _ => serverInv_step) hstart hrun
  -- every chunk has left its flag, unless a commit has cleared it
  have hflag : ∀ i, r.commits ≠ [] ∨ r.server.mSaveDataAck i = true := by
    intro i
    refine run_establishes (F := fun r => r.commits ≠ [] ∨ r.server.mSaveDataAck i = true)
      (fun _ _ _ => serverInv_step) ?_ ?_ hstart (horder i) hrun
    · intro s t hi h
      obtain ⟨chunk, u, hchunk, hstored, ⟨-, rfl⟩ | ⟨-, v, -, rfl⟩⟩ := serverTransfer_cases hi h
      · refine Or.inr ?_
        dsimp only
        rw [(hi.store hchunk hstored).1, Function.update_self]
      · exact Or.inl (List.append_ne_nil_of_right_ne_nil _ (List.cons_ne_nil _ _))
    · intro s b t hi hset h
      obtain ⟨chunk, u, hchunk, hstored, ⟨-, rfl⟩ | ⟨-, v, -, rfl⟩⟩ := serverTransfer_cases hi h
      · refine hset.imp_right fun hset => ?_
        dsimp only
        rw [(hi.store hchunk hstored).1, Function.update_apply]
        split
        · rfl
        · exact hset
      · exact Or.inl (List.append_ne_nil_of_right_ne_nil _ (List.cons_ne_nil _ _))
  have hcommits : r.commits ≠ [] := by
    obtain ⟨i, hi⟩ := hinv.missing
    rcases hflag i with hc | hset
    · exact hc
    · rw [hi] at hset
      cases hset
  exact ⟨hcommits, hinv.committed hcommits⟩

/-- The server receives a save exactly when it has at least seven full
chunks. -/
theorem serverReceives_iff {cap : ℕ} (save : Buffer cap) {saveSize : ℕ} {order : List (Fin 8)}
    (client : ℕ) (progress : ServerSaveData) (hbuffer : sharedSaveCapacity ≤ cap)
    (hcap : saveSize ≤ sharedSaveCapacity) (horder : ∀ i, i ∈ order) :
    ServerReceives client progress (uploadChunk save saveSize) save saveSize order ↔
      sSaveDataChunkSize * 7 ≤ saveSize := by
  constructor
  · rintro ⟨r, hrun, -, hsize, -⟩
    have hsum := (server_assembles horder hrun).2.1
    exact (sum_sizeField_eq_iff hcap).mp (hsum.symm.trans hsize)
  · intro hlow
    have hsum := (sum_sizeField_eq_iff hcap).mpr hlow
    have hdefined : (run (serverTransfer client (uploadChunk save saveSize))
        ⟨Server.fresh progress, []⟩ order).isSome := by
      refine (run_isSome_iff_along (P := fun _ _ => True) (fun _ _ _ => serverInv_step) ?_
        (serverInv_start save saveSize client progress)).mpr
          (along_of_at fun _ _ _ _ _ _ => trivial)
      intro r i hinv
      obtain ⟨chunk, hchunk, hfield⟩ := uploadChunk_of_le save hbuffer hlow hcap i
      obtain ⟨hindex, -, hle, -⟩ := uploadChunk_spec hchunk
      have haccepted := acceptedSlot_of_owner hinv.opened.1 hle hindex
      simp only [serverTransfer, hchunk, Option.bind_some, Option.isSome_map, iff_true]
      refine handleSaveChunk_isSome (fun slot hslot => ?_) (fun slot t hslot hstored => ?_)
      · rw [haccepted, Option.some.injEq] at hslot
        rw [← hslot, hfield]
        exact (sizeField_inside hlow hcap i).1
      · rw [haccepted, Option.some.injEq] at hslot
        subst hslot
        rw [(hinv.store hchunk hstored).2.1]
        exact (ackedSum_le _ _).trans (hsum.le.trans hcap)
    obtain ⟨r, hrun⟩ := Option.isSome_iff_exists.mp hdefined
    obtain ⟨hcommits, hsize, hbytes⟩ := server_assembles horder hrun
    rw [hsum] at hsize hbytes
    exact ⟨r, hrun, hcommits, hsize, hbytes⟩

/-- The saves of both senders round-trip to both receivers, in any order and
with any repetition, exactly when they have at least seven full chunks. -/
theorem transfer_round_trips (data : ServerSaveData) (st : SaveDataSync)
    (progress : ServerSaveData) (client : ℕ) (order : List (Fin 8))
    (hdata : data.sharedSaveSize ≤ sharedSaveCapacity)
    (hst : st.sCachedSaveFileSize ≤ sharedSaveCapacity) (horder : ∀ i, i ∈ order) :
    (ClientReceives (uploadSaveThread data) data.sharedSave data.sharedSaveSize order ↔
        sSaveDataChunkSize * 7 ≤ data.sharedSaveSize) ∧
      (ServerReceives client progress (uploadSaveThread data) data.sharedSave data.sharedSaveSize
          order ↔ sSaveDataChunkSize * 7 ≤ data.sharedSaveSize) ∧
      (ClientReceives (threadFunc st) st.sCachedSaveFileWorkBuffer st.sCachedSaveFileSize order ↔
        sSaveDataChunkSize * 7 ≤ st.sCachedSaveFileSize) ∧
      (ServerReceives client progress (threadFunc st) st.sCachedSaveFileWorkBuffer
          st.sCachedSaveFileSize order ↔ sSaveDataChunkSize * 7 ≤ st.sCachedSaveFileSize) := by
  have hcached : sharedSaveCapacity ≤ cachedSaveCapacity := by decide
  exact ⟨clientReceives_iff data.sharedSave le_rfl hdata horder,
    serverReceives_iff data.sharedSave client progress le_rfl hdata horder,
    clientReceives_iff st.sCachedSaveFileWorkBuffer hcached hst horder,
    serverReceives_iff st.sCachedSaveFileWorkBuffer client progress hcached hst horder⟩

/-- Stored progress whose shared save has a given size and zero bytes. -/
def savedSize (size : ℕ) : ServerSaveData :=
  { ServerSaveData.fresh (Buffer.zero sharedSaveCapacity) with sharedSaveSize := size }

/-- A save of the size of the default save file arrives, last chunk first. -/
theorem transfer_round_trips_default :
    ClientReceives (uploadSaveThread (savedSize 65548)) (savedSize 65548).sharedSave 65548
        (List.finRange 8).reverse ∧
      ServerReceives 0 (savedSize 0) (uploadSaveThread (savedSize 65548))
        (savedSize 65548).sharedSave 65548 (List.finRange 8).reverse := by
  have h := transfer_round_trips (savedSize 65548) resetSaveDataBuffer (savedSize 0) 0
    (List.finRange 8).reverse (by decide) (by decide) (by decide)
  exact ⟨h.1.mpr (by decide), h.2.1.mpr (by decide)⟩

/-- An empty save, as the server has it when its progress file did not parse,
arrives with size `2 ^ 16` on both receivers. -/
theorem empty_save_grows :
    (run (clientTransfer (uploadSaveThread (savedSize 0))) resetSaveDataBuffer
        (List.finRange 8)).map SaveDataSync.sCachedSaveFileSize = some 65536 ∧
      (run (serverTransfer 0 (uploadSaveThread (savedSize 0))) ⟨Server.fresh (savedSize 0), []⟩
        (List.finRange 8)).map (fun r => r.server.mSaveData.sharedSaveSize) = some 65536 ∧
      ¬ClientReceives (uploadSaveThread (savedSize 0)) (savedSize 0).sharedSave 0
        (List.finRange 8) ∧
      ¬ServerReceives 0 (savedSize 0) (uploadSaveThread (savedSize 0)) (savedSize 0).sharedSave 0
        (List.finRange 8) := by
  have hclient : (run (clientTransfer (uploadSaveThread (savedSize 0))) resetSaveDataBuffer
      (List.finRange 8)).map SaveDataSync.sCachedSaveFileSize = some 65536 := by decide
  have hserver : (run (serverTransfer 0 (uploadSaveThread (savedSize 0)))
      ⟨Server.fresh (savedSize 0), []⟩ (List.finRange 8)).map
        (fun r => r.server.mSaveData.sharedSaveSize) = some 65536 := by decide
  refine ⟨hclient, hserver, ?_, ?_⟩
  · rintro ⟨st, hrun, -, hsize, -⟩
    rw [hrun, Option.map_some, Option.some.injEq, hsize] at hclient
    omega
  · rintro ⟨r, hrun, -, hsize, -⟩
    rw [hrun, Option.map_some, Option.some.injEq, hsize] at hserver
    omega

end BfMultiplayer.SaveTransfer

import BfMultiplayer.GuardedRuns
import BfMultiplayer.SaveChunkRules

/-!
# Which passes a committed upload is made of

Clients upload their saves in passes, each pass the eight chunks of one save
in order on the client's own link, and the server sees the links interleaved
in any way. The session has one owner, so all chunks of a commit come from one
client; but a client whose chunks were dropped becomes the owner in the middle
of a pass as soon as the session is free, and its next pass then completes a
session that an earlier pass began. When every session is opened by the first
chunk of a pass, each commit is one pass of one client.
-/

namespace BfMultiplayer.SaveUploadAtomicity

open ByteBuffer Packets ServerState ServerHandlers SaveChunkRules GuardedRuns

/-- The server and the upload links of its clients, which are told apart by
the place of their records. -/
structure UploadSystem where
  /-- The server. -/
  server : Server
  /-- How many chunks of each client the server has taken from its link. -/
  sent : ℕ → ℕ
  /-- Client and pass of the chunk last stored in each place. -/
  origin : Fin 8 → Option (ℕ × ℕ)
  /-- The last chunk completed a session. -/
  justCommitted : Bool

/-- The number in its pass of the `n`th chunk on a link. -/
def chunkNumber (n : ℕ) : Fin 8 := ⟨n % 8, Nat.mod_lt n (by decide)⟩

/-- The server takes the next chunk from a client's link. Client `c` uploads
`saves c p` in its pass `p`. -/
def uploadStep (saves : ℕ → ℕ → SaveDataSync) (sys : UploadSystem) (client : ℕ) :
    Option UploadSystem :=
  let pass := sys.sent client / 8
  (threadFunc (saves client pass) (chunkNumber (sys.sent client))).bind fun chunk =>
    (handleSaveChunk sys.server client chunk).map fun result =>
      { server := result.1
        sent := Function.update sys.sent client (sys.sent client + 1)
        origin :=
          match acceptedSlot sys.server client chunk with
          | none => sys.origin
          | some slot => Function.update sys.origin slot (some (client, pass))
        justCommitted := !(savedValues result.2).isEmpty }

/-- Before any chunk, with given stored progress. -/
def UploadSystem.start (data : ServerSaveData) : UploadSystem :=
  ⟨Server.fresh data, fun _ => 0, fun _ => none, false⟩

/-- The work buffer holds chunk `i` of a pass, stored there by that pass. -/
def HoldsChunk (saves : ℕ → ℕ → SaveDataSync) (server : Server)
    (origin : Fin 8 → Option (ℕ × ℕ)) (client pass : ℕ) (i : Fin 8) : Prop :=
  origin i = some (client, pass) ∧
    ∃ chunk, threadFunc (saves client pass) i = some chunk ∧
      SameBytes server.mSharedSaveWorkBuffer (sSaveDataChunkSize * i) chunk.data 0
        chunk.size.toNat

/-- The eight chunks in the work buffer come from one pass of one client. -/
def SinglePass (saves : ℕ → ℕ → SaveDataSync) (sys : UploadSystem) : Prop :=
  ∃ client pass, ∀ i, HoldsChunk saves sys.server sys.origin client pass i

/-- The condition on a step: a chunk that finds the session empty is the first
one of its pass. -/
def OpensWithFirstChunk (sys : UploadSystem) (client : ℕ) : Prop :=
  sessionEmpty sys.server = true → sys.sent client % 8 = 0

/-- The first `k` chunks of a pass have arrived, and nothing else. -/
structure PartialPass (saves : ℕ → ℕ → SaveDataSync) (server : Server)
    (origin : Fin 8 → Option (ℕ × ℕ)) (client pass k : ℕ) : Prop where
  /-- The flags are those of the first `k` chunks. -/
  ack : ∀ i : Fin 8, server.mSaveDataAck i = decide (i.val < k)
  /-- Their places hold the chunks of the pass. -/
  held : ∀ i : Fin 8, i.val < k → HoldsChunk saves server origin client pass i

/-- What holds between two chunks: the session is empty, or its owner is in
the middle of the pass that fills it; and a commit was one pass. -/
structure UploadInv (saves : ℕ → ℕ → SaveDataSync) (sys : UploadSystem) : Prop where
  /-- The session. -/
  session : (∀ i, sys.server.mSaveDataAck i = false) ∨
    ∃ client pass k, 0 < k ∧ k < 8 ∧ sys.server.mCurrentSaveDataUploader = some client ∧
      sys.sent client = 8 * pass + k ∧ PartialPass saves sys.server sys.origin client pass k
  /-- The last commit. -/
  commit : sys.justCommitted = true → SinglePass saves sys

/-- Storing the next chunk of the pass extends it by one. -/
theorem PartialPass.extend {saves : ℕ → ℕ → SaveDataSync} {s t : Server}
    {origin : Fin 8 → Option (ℕ × ℕ)} {client pass : ℕ} {slot : Fin 8} {chunk : SaveDataChunk}
    (h : PartialPass saves s origin client pass slot.val)
    (hchunk : threadFunc (saves client pass) slot = some chunk)
    (hstored : Stored s slot chunk t) :
    PartialPass saves t (Function.update origin slot (some (client, pass))) client pass
      (slot.val + 1) := by
  obtain ⟨-, -, hsize, -⟩ := uploadChunk_spec hchunk
  constructor
  · intro i
    rw [hstored.ack]
    by_cases hi : i = slot
    · subst hi
      simp
    · have hv : i.val ≠ slot.val := fun he => hi (Fin.ext he)
      rw [Function.update_of_ne hi, h.ack i, decide_eq_decide]
      omega
  · intro i hi
    by_cases he : i = slot
    · subst he
      exact ⟨Function.update_self .., chunk, hchunk, hstored.holds⟩
    · have hv : i.val ≠ slot.val := fun hv => he (Fin.ext hv)
      obtain ⟨horigin, other, hother, hsame⟩ := h.held i (by omega)
      have hle := (uploadChunk_spec hother).2.2.1
      exact ⟨by rw [Function.update_of_ne he]; exact horigin, other, hother,
        hstored.frame he hsize hle hsame⟩

/-- The pass is complete exactly when its eighth chunk has arrived. -/
theorem PartialPass.full_iff {saves : ℕ → ℕ → SaveDataSync} {s : Server}
    {origin : Fin 8 → Option (ℕ × ℕ)} {client pass k : ℕ}
    (h : PartialPass saves s origin client pass k) : sessionFull s = true ↔ 8 ≤ k := by
  rw [sessionFull_iff]
  constructor
  · intro hall
    have h7 := hall 7
    rw [h.ack 7] at h7
    have hlt := of_decide_eq_true h7
    simp only [Fin.isValue, Fin.coe_ofNat_eq_mod] at hlt
    omega
  · intro hk i
    rw [h.ack i]
    have hi := i.isLt
    exact decide_eq_true (by omega)

/-- A chunk that the session takes is the next one of the pass in it. This is
the only place where the condition on the opening chunk is used. -/
theorem partialPass_before {saves : ℕ → ℕ → SaveDataSync} {sys : UploadSystem} {client : ℕ}
    (hinv : UploadInv saves sys) (hguard : OpensWithFirstChunk sys client)
    (howner : (openSession sys.server client).mCurrentSaveDataUploader = some client) :
    PartialPass saves (openSession sys.server client) sys.origin client (sys.sent client / 8)
      (chunkNumber (sys.sent client)).val := by
  rcases hinv.session with hempty | ⟨owner, pass, k, hpos, hlt, hown, hsent, hpart⟩
  · have hzero : (chunkNumber (sys.sent client)).val = 0 :=
      hguard ((sessionEmpty_iff _).mpr hempty)
    rw [hzero]
    refine ⟨fun i => ?_, fun i hi => absurd hi (Nat.not_lt_zero _)⟩
    rw [openSession_ack, hempty i]
    rfl
  · have hack : sys.server.mSaveDataAck 0 = true := by
      rw [hpart.ack 0]
      exact decide_eq_true hpos
    rw [openSession_of_ack hack] at howner ⊢
    have he : owner = client := by
      rw [hown, Option.some.injEq] at howner
      exact howner
    subst he
    have hp : sys.sent owner / 8 = pass := by omega
    have hk : (chunkNumber (sys.sent owner)).val = k := by
      rw [chunkNumber, hsent]
      dsimp only
      omega
    rw [hp, hk]
    exact hpart

/-- A chunk that the server stores extends the pass of its client by one. -/
theorem partialPass_after {saves : ℕ → ℕ → SaveDataSync} {sys : UploadSystem} {client : ℕ}
    {slot : Fin 8} {chunk : SaveDataChunk} {t : Server} (hinv : UploadInv saves sys)
    (hguard : OpensWithFirstChunk sys client)
    (hchunk : threadFunc (saves client (sys.sent client / 8)) (chunkNumber (sys.sent client)) =
      some chunk)
    (hslot : acceptedSlot sys.server client chunk = some slot)
    (hstored : Stored (openSession sys.server client) slot chunk t) :
    slot.val = sys.sent client % 8 ∧
      PartialPass saves t (Function.update sys.origin slot (some (client, sys.sent client / 8)))
        client (sys.sent client / 8) (slot.val + 1) := by
  obtain ⟨howner, -, hslotIndex⟩ := acceptedSlot_eq_some hslot
  have hindex := (uploadChunk_spec hchunk).1
  have hnext : chunkNumber (sys.sent client) = slot := Fin.ext (by omega)
  have hbefore := partialPass_before hinv hguard howner
  rw [hnext] at hbefore hchunk
  exact ⟨(congrArg Fin.val hnext).symm, hbefore.extend hchunk hstored⟩

/-- A chunk of an upload loop is only dropped for want of ownership. -/
theorem not_owner_of_rejected {saves : ℕ → ℕ → SaveDataSync} {s : Server} {client pass : ℕ}
    {i : Fin 8} {chunk : SaveDataChunk} (hchunk : threadFunc (saves client pass) i = some chunk)
    (hnone : acceptedSlot s client chunk = none) :
    (openSession s client).mCurrentSaveDataUploader ≠ some client := by
  intro howner
  obtain ⟨hindex, -, hsize, -⟩ := uploadChunk_spec hchunk
  rw [acceptedSlot_of_owner howner hsize hindex] at hnone
  cases hnone

/-- One chunk under the condition keeps the invariant. -/
theorem uploadInv_step {saves : ℕ → ℕ → SaveDataSync} {sys sys' : UploadSystem} {client : ℕ}
    (hinv : UploadInv saves sys) (hguard : OpensWithFirstChunk sys client)
    (hstep : uploadStep saves sys client = some sys') : UploadInv saves sys' := by
  unfold uploadStep at hstep
  obtain ⟨chunk, hchunk, hrest⟩ := Option.bind_eq_some_iff.mp hstep
  obtain ⟨⟨server, effects⟩, hhandle, rfl⟩ := Option.map_eq_some_iff.mp hrest
  -- the chunk is dropped, stored, or stored as the last one of its session
  cases handleSaveChunk_step hhandle with
  | rejected hnone =>
    have howner := not_owner_of_rejected hchunk hnone
    simp only [hnone]
    rcases hinv.session with hempty | ⟨owner, pass, k, hpos, hlt, hown, hsent, hpart⟩
    · exact absurd (openSession_of_empty hempty client).1 howner
    · have hack : sys.server.mSaveDataAck 0 = true := by
        rw [hpart.ack 0]
        exact decide_eq_true hpos
      rw [openSession_of_ack hack] at howner ⊢
      have hne : owner ≠ client := by
        rintro rfl
        exact howner hown
      refine ⟨Or.inr ⟨owner, pass, k, hpos, hlt, hown, ?_, hpart⟩, fun h => ?_⟩
      · exact (Function.update_of_ne hne _ _).trans hsent
      · cases h
  | @stored slot _ hslot hstored hfull =>
    obtain ⟨howner, -, -⟩ := acceptedSlot_eq_some hslot
    obtain ⟨hnum, hafter⟩ := partialPass_after hinv hguard hchunk hslot hstored
    have hnotfull : ¬8 ≤ slot.val + 1 := fun h => by
      rw [hafter.full_iff.mpr h] at hfull
      cases hfull
    simp only [hslot]
    refine ⟨Or.inr ⟨client, sys.sent client / 8, slot.val + 1, by omega, by omega,
      hstored.uploader.trans howner, ?_, hafter⟩, fun h => ?_⟩
    · exact (Function.update_self ..).trans (by omega)
    · cases h
  | @committed slot mid _ hslot hstored hfull hcommit =>
    have hafter := (partialPass_after hinv hguard hchunk hslot hstored).2
    have height := hafter.full_iff.mp hfull
    simp only [hslot]
    refine ⟨Or.inl hcommit.ack, fun _ => ⟨client, sys.sent client / 8, fun i => ?_⟩⟩
    have hi := i.isLt
    have hheld := hafter.held i (by omega)
    unfold HoldsChunk at hheld ⊢
    rw [hcommit.workBuffer]
    exact hheld

instance (sys : UploadSystem) (client : ℕ) : Decidable (OpensWithFirstChunk sys client) :=
  inferInstanceAs (Decidable (_ → _))

/-- Every commit of a run is one pass of one client, when every session of the
run is opened by the first chunk of a pass. The passes of the clients, their
saves and the interleaving of their links are arbitrary. -/
theorem commit_is_single_pass (saves : ℕ → ℕ → SaveDataSync) (data : ServerSaveData)
    (schedule : List ℕ) (sys : UploadSystem)
    (hguard : Along OpensWithFirstChunk (uploadStep saves) (UploadSystem.start data) schedule)
    (hrun : run (uploadStep saves) (UploadSystem.start data) schedule = some sys)
    (hcommit : sys.justCommitted = true) : SinglePass saves sys := by
  have hstart : UploadInv saves (UploadSystem.start data) :=
    ⟨Or.inl fun _ => rfl, fun h => by cases h⟩
  exact (run_invariant (fun _ _ _ => uploadInv_step) hstart hguard hrun).commit hcommit

/-- Saves of the size of the default save file, whose bytes are the number of
the pass that uploads them. -/
def numberedSaves (_client pass : ℕ) : SaveDataSync :=
  ⟨fun _ => UInt8.ofNat pass, fun _ => true, 65548⟩

/-- A server with no progress and a zero shared save. -/
def blankServer : UploadSystem :=
  .start (.fresh (Buffer.zero sharedSaveCapacity))

/-- A single client that uploads one save commits that save. -/
theorem commit_is_single_pass_alone :
    ∃ sys, run (uploadStep numberedSaves) blankServer (List.replicate 8 0) = some sys ∧
      sys.justCommitted = true ∧ SinglePass numberedSaves sys := by
  have hrun : (run (uploadStep numberedSaves) blankServer (List.replicate 8 0)).map
      UploadSystem.justCommitted = some true := by decide
  obtain ⟨sys, hsys, hcommit⟩ := Option.map_eq_some_iff.mp hrun
  exact ⟨sys, hsys, hcommit, commit_is_single_pass numberedSaves _ _ sys (by decide) hsys hcommit⟩

/-- Client 1 loses the first chunk of its first pass to the session of client
0, fills the next session with the other seven, and its second pass completes
that session: the commit mixes two passes, and two saves. -/
theorem late_uploader_mixes_passes :
    ∃ sys, run (uploadStep numberedSaves) blankServer
        ([0, 1] ++ List.replicate 7 0 ++ List.replicate 8 1) = some sys ∧
      sys.justCommitted = true ∧ ¬SinglePass numberedSaves sys := by
  have hrun : (run (uploadStep numberedSaves) blankServer
      ([0, 1] ++ List.replicate 7 0 ++ List.replicate 8 1)).map
        (fun sys => (sys.justCommitted, sys.origin 0, sys.origin 1)) =
      some (true, some (1, 1), some (1, 0)) := by decide
  obtain ⟨sys, hsys, he⟩ := Option.map_eq_some_iff.mp hrun
  simp only [Prod.mk.injEq] at he
  refine ⟨sys, hsys, he.1, fun ⟨client, pass, hall⟩ => ?_⟩
  have h0 := (hall 0).1
  have h1 := (hall 1).1
  rw [he.2.1, Option.some.injEq, Prod.mk.injEq] at h0
  rw [he.2.2, Option.some.injEq, Prod.mk.injEq] at h1
  omega

end BfMultiplayer.SaveUploadAtomicity

import BfMultiplayer.BpsRefinement

/-!
# What `bps_apply` accepts and what it touches

The header and the checksums around the loop. The main results are that `bps_apply`
accepts exactly the encodings of patches that turn the source into an output of the
named checksum, when its allocations succeed; that it leaves its source, its output
and its metadata for the causes that are named only; and that a patch changed within
four bytes in a row is refused.
-/

namespace BfMultiplayer.BpsPatching

open BpsNumbers BpsApply BpsFormat BpsRefinement Crc32 CrcRegister

/-! ### Checksums in the patch -/

/-- `read32` reads four bytes, lowest first. -/
theorem read32_toBitVec (a b c d : UInt8) (rest : List UInt8) :
    (read32 (a :: b :: c :: d :: rest)).toBitVec = littleEndian 32 (bits [a, b, c, d]) := by
  apply BitVec.eq_of_getLsbD_eq
  intro i hi
  interval_cases i <;> simp [read32, bits, littleEndian]

/-- A checksum is read as it was written. -/
theorem read32_word32 (n : UInt32) (rest : List UInt8) : read32 (word32 n ++ rest) = n := by
  apply UInt32.toBitVec_inj.mp
  apply BitVec.eq_of_getLsbD_eq
  intro i hi
  rw [word32, List.cons_append, List.cons_append, List.cons_append, List.cons_append,
    read32_toBitVec]
  interval_cases i <;> simp [bits, littleEndian]

/-- The bytes of a message and their bit vectors determine each other. -/
theorem bits_injective : Function.Injective bits :=
  List.map_injective_iff.mpr fun _ _ h => UInt8.toBitVec_inj.mp h

/-- Four bytes are written as they were read. -/
theorem word32_read32 {bytes rest : List UInt8} (h : bytes.length = 4) :
    word32 (read32 (bytes ++ rest)) = bytes := by
  obtain ⟨a, b, c, d, rfl⟩ := List.length_eq_four.mp h
  have hsame : littleEndian 32 (bits (word32 (read32 ([a, b, c, d] ++ rest)))) =
      littleEndian 32 (bits [a, b, c, d]) := by
    have hback := congrArg UInt32.toBitVec (read32_word32 (read32 ([a, b, c, d] ++ rest)) [])
    rw [word32] at hback ⊢
    rw [← read32_toBitVec _ _ _ _ []]
    exact hback.trans (read32_toBitVec a b c d rest)
  exact bits_injective (littleEndian_injective rfl (Nat.le_refl 32) hsame)

/-- The test of the checksum of a patch. -/
def ChecksumHolds (patch : List UInt8) : Prop :=
  crc32 (patch.take (patch.length - 4)) = read32 (patch.drop (patch.length - 4))

/-- The checksum holds exactly when the register behind the whole patch is the one
that ones leave behind 32 shifts. -/
theorem checksumHolds_iff {patch : List UInt8} (h : 4 ≤ patch.length) :
    ChecksumHolds patch ↔ feed polynomial (BitVec.allOnes 32) (bits patch) =
      shiftBits polynomial 32 (BitVec.allOnes 32) := by
  have hlast : (patch.drop (patch.length - 4)).length = 4 := by
    rw [List.length_drop]
    omega
  obtain ⟨body, last, hbody, hlen, hsum⟩ : ∃ body last, patch = body ++ last ∧ last.length = 4 ∧
      (ChecksumHolds patch ↔ crc32 body = read32 last) :=
    ⟨_, _, (List.take_append_drop (patch.length - 4) patch).symm, hlast, Iff.rfl⟩
  obtain ⟨a, b, c, d, rfl⟩ := List.length_eq_four.mp hlen
  have hp : polynomial.getMsbD 0 = true := by decide
  have hbits : bits patch = bits body ++ bits [a, b, c, d] := by
    rw [hbody]
    exact List.map_append
  rw [hsum, hbits, feed_append, feed_eq_shiftBits _ _ (bits [a, b, c, d]) (Nat.le_refl 32)]
  have hshift : shiftBits polynomial 32
      (feed polynomial (BitVec.allOnes 32) (bits body) ^^^ littleEndian 32 (bits [a, b, c, d])) =
      shiftBits polynomial 32 (BitVec.allOnes 32) ↔
      feed polynomial (BitVec.allOnes 32) (bits body) ^^^ littleEndian 32 (bits [a, b, c, d]) =
        BitVec.allOnes 32 := (shiftBits_injective hp 32).eq_iff
  refine Iff.trans ?_ hshift.symm
  rw [← UInt32.toBitVec_inj, crc32_toBitVec, read32_toBitVec]
  generalize feed polynomial (BitVec.allOnes 32) (bits body) = r
  generalize littleEndian 32 (bits [a, b, c, d]) = e
  rw [← BitVec.xor_allOnes]
  constructor
  · rintro rfl
    rw [← BitVec.xor_assoc, BitVec.xor_self, BitVec.zero_xor]
  · intro hones
    rw [← hones, ← BitVec.xor_assoc, BitVec.xor_self, BitVec.zero_xor]

/-! ### The header -/

/-- The signature is read exactly where it stands. -/
theorem readSignature_eq_ok_iff {expected patchat rest : List UInt8} :
    readSignature expected patchat = .ok rest ↔ patchat = expected ++ rest := by
  induction expected generalizing patchat with
  | nil => exact ⟨fun h => by cases h; rfl, fun h => by rw [h]; rfl⟩
  | cons byte expected ih =>
    cases patchat with
    | nil => exact ⟨fun h => (by cases h), fun h => (by cases h)⟩
    | cons b patchat =>
      show (if b ≠ byte then Except.error _ else readSignature expected patchat) = _ ↔ _
      by_cases hb : b = byte
      · rw [if_neg (not_not.mpr hb), ih, hb, List.cons_append, List.cons_inj_right]
      · rw [if_pos hb]
        exact ⟨fun h => (by cases h), fun h => absurd (List.cons.inj h).1 hb⟩

/-- A signature that fits the patch is read or found wrong. -/
theorem readSignature_cases {expected patchat : List UInt8}
    (h : expected.length ≤ patchat.length) :
    (∃ rest, readSignature expected patchat = .ok rest) ∨
      readSignature expected patchat = .error (.error .broken) := by
  induction expected generalizing patchat with
  | nil => exact .inl ⟨patchat, rfl⟩
  | cons byte expected ih =>
    cases patchat with
    | nil => exact absurd h (Nat.not_succ_le_zero _)
    | cons b patchat =>
      show (∃ rest, (if b ≠ byte then Except.error _ else readSignature expected patchat) = _) ∨
        (if b ≠ byte then Except.error _ else readSignature expected patchat) = _
      by_cases hb : b = byte
      · rw [if_neg (not_not.mpr hb)]
        exact ih (Nat.le_of_succ_le_succ h)
      · rw [if_pos hb]
        exact .inr rfl

/-- A block holds what is written to it from an index on. -/
def Block.Holds (block : Option Block) (i left : ℕ) : Prop :=
  ∀ bl ∈ block, left ≠ 0 → bl.start ≠ 0 ∧ i + left ≤ bl.size

/-- A write to a block that holds its index. -/
theorem write_eq_ok_iff {bl : Block} {i : ℕ} :
    bl.write i = .ok () ↔ bl.start ≠ 0 ∧ i < bl.size := by
  unfold Block.write
  by_cases h : bl.start ≠ 0 ∧ i < bl.size
  · rw [if_pos h]
    exact iff_of_true rfl h
  · rw [if_neg h]
    exact iff_of_false (fun he => nomatch he) h

/-- One byte of the metadata and the rest of them. -/
theorem holds_succ_iff {block : Option Block} {i left : ℕ} :
    Block.Holds block i (left + 1) ↔
      (∀ bl ∈ block, bl.write i = .ok ()) ∧ Block.Holds block (i + 1) left := by
  unfold Block.Holds
  constructor
  · intro h
    refine ⟨fun bl hbl => ?_, fun bl hbl _ => ?_⟩
    · obtain ⟨hstart, hsize⟩ := h bl hbl (Nat.succ_ne_zero left)
      exact write_eq_ok_iff.mpr ⟨hstart, by omega⟩
    · obtain ⟨hstart, hsize⟩ := h bl hbl (Nat.succ_ne_zero left)
      exact ⟨hstart, by omega⟩
  · rintro ⟨hfirst, hrest⟩ bl hbl -
    obtain ⟨hstart, hsize⟩ := write_eq_ok_iff.mp (hfirst bl hbl)
    refine ⟨hstart, ?_⟩
    by_cases hleft : left = 0
    · omega
    · have hmore := (hrest bl hbl hleft).2
      omega

/-- One turn of the loops over the metadata. -/
theorem metadataLoop_cons {block : Option Block} {left i : ℕ} {byte : UInt8}
    {patchat : List UInt8} :
    metadataLoop block (left + 1) i (byte :: patchat) =
      (match block with
        | some bl => bl.write i
        | none => .ok ()) >>= fun _ => metadataLoop block left (i + 1) patchat >>= fun r =>
          .ok (byte :: r.1, r.2) := by
  cases block <;> rfl

/-- The metadata are the bytes in front of the instructions, and they fit their block. -/
theorem metadataLoop_eq_ok_iff {block : Option Block} {left i : ℕ}
    {patchat metadata rest : List UInt8} :
    metadataLoop block left i patchat = .ok (metadata, rest) ↔
      metadata.length = left ∧ patchat = metadata ++ rest ∧ Block.Holds block i left := by
  induction left generalizing i patchat metadata with
  | zero =>
    constructor
    · intro h
      cases h
      exact ⟨rfl, rfl, fun _ _ h => absurd rfl h⟩
    · rintro ⟨hlen, rfl, -⟩
      rw [List.eq_nil_of_length_eq_zero hlen]
      rfl
  | succ left ih =>
    have hwrite : ∀ i, (match block with
        | some bl => bl.write i
        | none => .ok ()) = .ok () ↔ ∀ bl ∈ block, bl.write i = .ok () := by
      intro i
      cases block with
      | none => exact iff_of_true rfl fun bl h => nomatch h
      | some bl => exact ⟨fun h bl' hbl => Option.some.inj hbl ▸ h, fun h => h bl rfl⟩
    cases patchat with
    | nil =>
      refine iff_of_false (fun h => nomatch h) ?_
      rintro ⟨hlen, hbytes, -⟩
      rw [(List.append_eq_nil_iff.mp hbytes.symm).1] at hlen
      cases hlen
    | cons byte patchat =>
      rw [metadataLoop_cons, holds_succ_iff, ← hwrite]
      constructor
      · intro h
        obtain ⟨⟨⟩, hfirst, hmore⟩ := bind_eq_ok_iff.mp h
        obtain ⟨⟨more, rest'⟩, hloop, hend⟩ := bind_eq_ok_iff.mp hmore
        cases hend
        obtain ⟨hlen, rfl, hholds⟩ := ih.mp hloop
        exact ⟨congrArg Nat.succ hlen, rfl, hfirst, hholds⟩
      · rintro ⟨hlen, hbytes, hfirst, hholds⟩
        cases metadata with
        | nil => cases hlen
        | cons head metadata =>
          rw [List.cons_append] at hbytes
          obtain ⟨rfl, rfl⟩ := List.cons.inj hbytes
          have hloop := ih.mpr ⟨Nat.succ.inj hlen, rfl, hholds⟩
          rw [hfirst, ok_bind, hloop, ok_bind]

/-- The metadata that the caller wants get a block that holds them. -/
def HoldsMetadata (mem : Memory) (wantMetadata : Bool) (metadatalen : ℕ) : Prop :=
  wantMetadata = true → metadatalen ≠ 0 →
    metadatalen < sizeMax ∧ mem.mallocImpl 1 (metadatalen + 1) ≠ 0

/-- The size of a block for the metadata and a zero byte starts over for the largest length. -/
theorem metadata_size {metadatalen : ℕ} (h : metadatalen ≤ sizeMax) :
    metadatalen < sizeMax ∧ (metadatalen + 1) % addressCount = metadatalen + 1 ∨
      metadatalen = sizeMax ∧ (metadatalen + 1) % addressCount = 0 := by
  rcases Nat.lt_or_eq_of_le h with hlt | rfl
  · exact Or.inl ⟨hlt, Nat.mod_eq_of_lt (Nat.succ_lt_succ hlt)⟩
  · exact Or.inr ⟨rfl, Nat.mod_self _⟩

/-- The block of the metadata that are wanted. -/
def metadataBlock (mem : Memory) (metadatalen : ℕ) : Block :=
  ⟨mem.mallocImpl 1 ((metadatalen + 1) % addressCount), (metadatalen + 1) % addressCount⟩

/-- The block holds the metadata and the zero byte. -/
theorem holdsMetadata_iff {mem : Memory} {want : Bool} {metadatalen : ℕ}
    (h : metadatalen ≤ sizeMax) (hwant : want = true ∧ metadatalen ≠ 0) :
    HoldsMetadata mem want metadatalen ↔
      Block.Holds (some (metadataBlock mem metadatalen)) 0 metadatalen ∧
        (metadataBlock mem metadatalen).write metadatalen = .ok () := by
  rw [write_eq_ok_iff]
  unfold HoldsMetadata Block.Holds metadataBlock
  rcases metadata_size h with ⟨hlt, hsize⟩ | ⟨hmax, hsize⟩
  · rw [hsize]
    constructor
    · intro hmem
      have hblock := (hmem hwant.1 hwant.2).2
      refine ⟨fun bl hbl _ => ?_, hblock, Nat.lt_succ_self _⟩
      cases hbl
      exact ⟨hblock, by dsimp only; omega⟩
    · exact fun hblock _ _ => ⟨hlt, hblock.2.1⟩
  · rw [hsize]
    refine iff_of_false (fun hmem => ?_) fun hblock => Nat.not_lt_zero _ hblock.2.2
    exact absurd (hmem hwant.1 hwant.2).1 (by omega)

/-- Reading the metadata. -/
theorem readMetadata_eq_ok_iff {mem : Memory} {want : Bool} {metadatalen : ℕ}
    (h : metadatalen ≤ sizeMax) {patchat metadata rest : List UInt8} :
    readMetadata mem want metadatalen patchat = .ok (metadata, rest) ↔
      metadata.length = metadatalen ∧ patchat = metadata ++ rest ∧
        HoldsMetadata mem want metadatalen := by
  unfold readMetadata
  by_cases hwant : want = true ∧ metadatalen ≠ 0
  · rw [if_pos hwant, holdsMetadata_iff h hwant]
    show (metadataLoop (some (metadataBlock mem metadatalen)) _ _ _ >>= fun r =>
      (metadataBlock mem metadatalen).write metadatalen >>= fun _ => .ok r) = _ ↔ _
    constructor
    · intro hread
      obtain ⟨⟨text, tail⟩, hloop, hmore⟩ := bind_eq_ok_iff.mp hread
      obtain ⟨⟨⟩, hzero, hend⟩ := bind_eq_ok_iff.mp hmore
      cases hend
      obtain ⟨hlen, hbytes, hblock⟩ := metadataLoop_eq_ok_iff.mp hloop
      exact ⟨hlen, hbytes, hblock, hzero⟩
    · rintro ⟨hlen, hbytes, hblock, hzero⟩
      rw [metadataLoop_eq_ok_iff.mpr ⟨hlen, hbytes, hblock⟩, ok_bind, hzero, ok_bind]
  · rw [if_neg hwant, metadataLoop_eq_ok_iff]
    have hnone : Block.Holds none 0 metadatalen := fun _ hbl => nomatch hbl
    have hholds : HoldsMetadata mem want metadatalen := fun h₁ h₂ => absurd ⟨h₁, h₂⟩ hwant
    exact ⟨fun ⟨hlen, hbytes, _⟩ => ⟨hlen, hbytes, hholds⟩,
      fun ⟨hlen, hbytes, _⟩ => ⟨hlen, hbytes, hnone⟩⟩

/-- The input is accepted without an error exactly when it is the one that the patch
is made for, whatever the flag. -/
theorem checkInput_eq_ok_iff {source : List UInt8} {accept : Bool} {inlen outlen : ℕ}
    {crcInE crcOutE : UInt32} :
    checkInput source accept inlen outlen crcInE crcOutE = .ok .ok ↔
      inlen = source.length ∧ crcInE = crc32 source := by
  unfold checkInput
  dsimp only
  by_cases h : inlen ≠ source.length ∨ crc32 source ≠ crcInE
  · rw [if_pos h]
    refine ⟨fun hok => ?_, fun ⟨hlen, hcrc⟩ => ?_⟩
    · split at hok
      · split at hok <;> cases hok
      · cases hok
    · exact absurd h (by simp [hlen, hcrc])
  · rw [if_neg h]
    have hboth : inlen = source.length ∧ crc32 source = crcInE := by
      simpa only [not_or, not_not] using h
    exact ⟨fun _ => ⟨hboth.1, hboth.2.symm⟩, fun _ => rfl⟩

/-- The output is accepted without an error exactly when the loop ended at the
checksums with an output of the named length and checksum. -/
theorem checkOutput_eq_ok_iff {s : ApplyState} {accept : Bool} {outlen : ℕ} {crcOutE : UInt32}
    {error : BpsError} :
    checkOutput s accept outlen crcOutE error = .ok .ok ↔
      s.patchat.length = 12 ∧ s.out.length = outlen ∧ crc32 s.out = crcOutE ∧ error = .ok := by
  unfold checkOutput
  by_cases hend : s.patchat.length = 12
  · rw [if_neg (not_not.mpr hend)]
    by_cases hlen : s.out.length = outlen
    · rw [if_neg (not_not.mpr hlen)]
      by_cases hcrc : crc32 s.out = crcOutE
      · rw [if_neg (not_not.mpr hcrc)]
        exact ⟨fun h => ⟨hend, hlen, hcrc, by cases h; rfl⟩, fun ⟨_, _, _, h⟩ => by rw [h]⟩
      · rw [if_pos hcrc]
        refine ⟨fun h => ?_, fun ⟨_, _, h, _⟩ => absurd h hcrc⟩
        split at h <;> cases h
    · rw [if_pos hlen]
      exact ⟨fun h => (by cases h), fun ⟨_, h, _⟩ => absurd h hlen⟩
  · rw [if_pos hend]
    exact ⟨fun h => (by cases h), fun ⟨h, _⟩ => absurd h hend⟩

/-! ### What is accepted -/

/-- The three checksums at the end of a patch. -/
theorem drop_checksums (front : List UInt8) {a b c : List UInt8} (ha : a.length = 4)
    (hb : b.length = 4) (hc : c.length = 4) :
    let patch := front ++ (a ++ (b ++ c))
    patch.drop (patch.length - 12) = a ++ (b ++ c) ∧ patch.drop (patch.length - 8) = b ++ c ∧
      patch.drop (patch.length - 4) = c ∧ patch.take (patch.length - 4) = front ++ (a ++ b) := by
  intro patch
  have hpatch : patch.length = front.length + 12 := by
    simp only [patch, List.length_append]
    omega
  have hab : (front ++ a).length = front.length + 4 := by rw [List.length_append, ha]
  have habc : (front ++ (a ++ b)).length = front.length + 8 := by
    rw [List.length_append, List.length_append]
    omega
  refine ⟨List.drop_left' (by omega), ?_, ?_, ?_⟩
  · show (front ++ (a ++ (b ++ c))).drop _ = _
    rw [← List.append_assoc]
    exact List.drop_left' (by omega)
  · show (front ++ (a ++ (b ++ c))).drop _ = _
    rw [← List.append_assoc a, ← List.append_assoc]
    exact List.drop_left' (by omega)
  · show (front ++ (a ++ (b ++ c))).take _ = _
    rw [← List.append_assoc a, ← List.append_assoc]
    exact List.take_left' (by omega)

/-- The bytes behind the content of an encoded patch. -/
def checksums (p : PatchFile) : List UInt8 :=
  word32 p.crcIn ++ (word32 p.crcOut ++ word32 (crc32 p.body))

/-- The encoding of a patch with its checksums apart. -/
theorem encode_eq (p : PatchFile) : p.encode = (signature ++ p.content) ++ checksums p := by
  unfold PatchFile.encode checksums
  rw [PatchFile.body]
  simp only [List.append_assoc]

/-- The checksums of an encoded patch are read back. -/
theorem encode_checksums (p : PatchFile) :
    read32 (p.encode.drop (p.encode.length - 12)) = p.crcIn ∧
      read32 (p.encode.drop (p.encode.length - 8)) = p.crcOut ∧ ChecksumHolds p.encode := by
  obtain ⟨h12, h8, h4, htake⟩ := drop_checksums (signature ++ p.content) (a := word32 p.crcIn)
    (b := word32 p.crcOut) (c := word32 (crc32 p.body)) rfl rfl rfl
  rw [← checksums, ← encode_eq] at h12 h8 h4 htake
  refine ⟨?_, ?_, ?_⟩
  · rw [h12]
    exact read32_word32 _ _
  · rw [h8]
    exact read32_word32 _ _
  · unfold ChecksumHolds
    rw [htake, h4, ← List.append_nil (word32 (crc32 p.body)), read32_word32]
    rfl

/-- The source and the block for the output lie in the memory of the program. -/
structure MemoryFits (mem : Memory) (source : List UInt8) : Prop where
  /-- The source does. -/
  source : mem.instart + source.length ≤ addressEnd
  /-- A block for the output does. -/
  output : ∀ outlen, mem.mallocImpl 0 outlen ≠ 0 → mem.mallocImpl 0 outlen + outlen ≤ addressEnd

/-- The buffers of a patch that names the length of its output. -/
def buffers (mem : Memory) (source : List UInt8) (outlen : ℕ) : Buffers :=
  ⟨source, mem.instart, mem.mallocImpl 0 outlen, outlen⟩

/-- They lie in the memory of the program, too. -/
theorem fits_buffers {mem : Memory} {source : List UInt8} (h : MemoryFits mem source) {outlen : ℕ}
    (hout : outlen ≤ sizeMax) : Fits (buffers mem source outlen) :=
  ⟨h.source, h.output outlen, hout⟩

/-- The two allocations for a patch succeed. -/
structure Allocates (mem : Memory) (wantMetadata : Bool) (p : PatchFile) : Prop where
  /-- The output gets a block. -/
  output : mem.mallocImpl 0 p.outlen ≠ 0
  /-- The metadata do. -/
  metadata : HoldsMetadata mem wantMetadata p.metadata.length

/-- Behind the checksum of the patch, the content of a patch that fits its source is
accepted. -/
theorem applyChecked_content {mem : Memory} {p : PatchFile} {source out : List UInt8}
    {want : Bool} (accept : Bool) (hmem : MemoryFits mem source) (hfits : p.Fits)
    (halloc : Allocates mem want p) (hout : p.output source = some out) :
    applyChecked mem source want accept p.crcIn p.crcOut (p.content ++ checksums p) =
      .ok ⟨.ok, some out, if want then p.metadata else []⟩ := by
  unfold PatchFile.output at hout
  split at hout
  · rename_i hinput
    obtain ⟨m, hrun, hm⟩ := Option.bind_eq_some_iff.mp hout
    split at hm
    · rename_i houtput
      cases hm
      have hcheck : checkInput source accept p.inlen p.outlen p.crcIn p.crcOut = .ok .ok :=
        checkInput_eq_ok_iff.mpr hinput
      have hmeta : ∀ rest, readMetadata mem want p.metadata.length (p.metadata ++ rest) =
          .ok (p.metadata, rest) := fun rest =>
        (readMetadata_eq_ok_iff hfits.metadata).mpr ⟨rfl, rfl, halloc.metadata⟩
      have hlen : (checksums p).length = 12 := rfl
      have hbuffers := fits_buffers hmem hfits.outlen
      have hloop := instructionLoop_encode hlen hbuffers halloc.output (inside_start _)
        hfits.instructions hrun houtput.1.le
      have hend : checkOutput (state (buffers mem source p.outlen) m (checksums p)) accept
          p.outlen p.crcOut .ok = .ok .ok :=
        checkOutput_eq_ok_iff.mpr ⟨rfl, houtput.1, houtput.2, rfl⟩
      unfold applyChecked PatchFile.content
      simp only [List.append_assoc]
      rw [decodeto_eq_ok_iff.mpr ⟨hfits.inlen, rfl⟩, ok_bind]
      dsimp only
      rw [decodeto_eq_ok_iff.mpr ⟨hfits.outlen, rfl⟩, ok_bind]
      dsimp only
      rw [hcheck, ok_bind, decodeto_eq_ok_iff.mpr ⟨hfits.metadata, rfl⟩, ok_bind]
      dsimp only
      rw [hmeta, ok_bind]
      dsimp only
      show (instructionLoop (buffers mem source p.outlen) (state (buffers mem source p.outlen) .start
        (p.instructions.flatMap Instruction.encode ++ checksums p)) >>= _) = _
      rw [hloop, ok_bind, hend, ok_bind, if_neg halloc.output]
      rfl
    · cases hm
  · cases hout

/-- What is accepted behind the checksum of the patch is the content of a patch that
fits its source. -/
theorem content_of_applyChecked {mem : Memory} {source patchat out metadata : List UInt8}
    {want accept : Bool} {crcInE crcOutE : UInt32} (hmem : MemoryFits mem source)
    (h : applyChecked mem source want accept crcInE crcOutE patchat =
      .ok ⟨.ok, some out, metadata⟩) :
    ∃ p : PatchFile, ∃ rest, p.Fits ∧ p.crcIn = crcInE ∧ p.crcOut = crcOutE ∧ rest.length = 12 ∧
      patchat = p.content ++ rest ∧ p.output source = some out ∧ Allocates mem want p ∧
      metadata = if want then p.metadata else [] := by
  obtain ⟨⟨inlen, tail₁⟩, hinlen, h₁⟩ := bind_eq_ok_iff.mp h
  obtain ⟨⟨outlen, tail₂⟩, houtlen, h₂⟩ := bind_eq_ok_iff.mp h₁
  obtain ⟨error, hinput, h₃⟩ := bind_eq_ok_iff.mp h₂
  obtain ⟨⟨metadatalen, tail₃⟩, hmetalen, h₄⟩ := bind_eq_ok_iff.mp h₃
  obtain ⟨⟨text, tail₄⟩, htext, h₅⟩ := bind_eq_ok_iff.mp h₄
  obtain ⟨s, hloop, h₆⟩ := bind_eq_ok_iff.mp h₅
  obtain ⟨error', houtput, h₇⟩ := bind_eq_ok_iff.mp h₆
  obtain ⟨hin, rfl⟩ := decodeto_eq_ok_iff.mp hinlen
  obtain ⟨hout, rfl⟩ := decodeto_eq_ok_iff.mp houtlen
  obtain ⟨hml, rfl⟩ := decodeto_eq_ok_iff.mp hmetalen
  obtain ⟨rfl, rfl, hholds⟩ := (readMetadata_eq_ok_iff hml).mp htext
  obtain ⟨is, rest, m, his, hbytes, hrun, rfl⟩ :=
    run_of_instructionLoop (fits_buffers hmem hout) (inside_start _) hloop
  have hblock : mem.mallocImpl 0 outlen ≠ 0 := by
    intro hnull
    rw [if_pos hnull] at h₇
    cases h₇
  rw [if_neg hblock] at h₇
  cases h₇
  obtain ⟨hend, hlen, hcrc, rfl⟩ := checkOutput_eq_ok_iff.mp houtput
  have hsource := checkInput_eq_ok_iff.mp hinput
  refine ⟨⟨inlen, outlen, text, is, crcInE, crcOutE⟩, rest, ⟨hin, hout, hml, his⟩, rfl, rfl, hend,
    ?_, ?_, ⟨hblock, hholds⟩, rfl⟩
  · unfold PatchFile.content
    simp only [List.append_assoc, hbytes]
  · unfold PatchFile.output
    rw [if_pos hsource]
    have hrun' : Machine.start.run source is = some m := hrun
    rw [hrun', Option.bind_some, if_pos ⟨hlen, hcrc⟩]
    rfl

/-- Bytes that end in twelve are the encoding of a patch when their checksums are
the ones that they carry. -/
theorem eq_encode {p : PatchFile} {patch rest : List UInt8} (hrest : rest.length = 12)
    (hpatch : patch = signature ++ (p.content ++ rest)) (hsum : ChecksumHolds patch)
    (hcrcIn : p.crcIn = read32 (patch.drop (patch.length - 12)))
    (hcrcOut : p.crcOut = read32 (patch.drop (patch.length - 8))) : patch = p.encode := by
  obtain ⟨a, b, c, ha, hb, hc, rfl⟩ : ∃ a b c : List UInt8, a.length = 4 ∧ b.length = 4 ∧
      c.length = 4 ∧ rest = a ++ (b ++ c) := by
    refine ⟨rest.take 4, (rest.drop 4).take 4, rest.drop 8, ?_, ?_, ?_, ?_⟩
    · rw [List.length_take, hrest]
      rfl
    · rw [List.length_take, List.length_drop, hrest]
      rfl
    · rw [List.length_drop, hrest]
    · have hmid : (rest.drop 4).drop 4 = rest.drop 8 := List.drop_drop
      rw [← hmid, List.take_append_drop, List.take_append_drop]
  rw [← List.append_assoc] at hpatch
  subst hpatch
  obtain ⟨h12, h8, h4, htake⟩ := drop_checksums (signature ++ p.content) ha hb hc
  rw [h12] at hcrcIn
  rw [h8] at hcrcOut
  have hin : word32 p.crcIn = a := by rw [hcrcIn, word32_read32 ha]
  have hout : word32 p.crcOut = b := by rw [hcrcOut, word32_read32 hb]
  have hbody : p.body = (signature ++ p.content) ++ (a ++ b) := by
    rw [PatchFile.body, hin, hout]
  have hcrc : word32 (crc32 p.body) = c := by
    unfold ChecksumHolds at hsum
    rw [htake, h4, ← hbody] at hsum
    rw [hsum, ← List.append_nil c, word32_read32 hc, List.append_nil]
  rw [encode_eq, checksums, hin, hout, hcrc]

/-- `bps_apply` succeeds exactly on the encodings of patches whose instructions turn
the source into an output of the length and checksum that the patch names, with the
length and checksum of the source as named, too, and for which the allocations
succeed. It returns that output then, and the metadata when the caller wants it. -/
theorem bpsApply_eq_ok_iff (mem : Memory) (patch source out metadata : List UInt8)
    (want accept : Bool) (hmem : MemoryFits mem source) :
    bpsApply mem patch source want accept = .ok ⟨.ok, some out, metadata⟩ ↔
      ∃ p : PatchFile, p.Fits ∧ patch = p.encode ∧ p.output source = some out ∧
        Allocates mem want p ∧ metadata = if want then p.metadata else [] := by
  constructor
  · intro h
    unfold bpsApply at h
    split at h
    · cases h
    · cases hbody : applyBody mem patch source want accept with
      | error e =>
        rw [hbody] at h
        cases e <;> cases h
      | ok result =>
        rw [hbody] at h
        cases h
        obtain ⟨tail, hsig, hrest⟩ := bind_eq_ok_iff.mp hbody
        dsimp only at hrest
        split at hrest
        · cases hrest
        · rename_i hsum
          obtain ⟨p, rest, hfits, hcrcIn, hcrcOut, hlen, rfl, hout, halloc, hmeta⟩ :=
            content_of_applyChecked hmem hrest
          exact ⟨p, hfits, eq_encode hlen (readSignature_eq_ok_iff.mp hsig) (not_not.mp hsum)
            hcrcIn hcrcOut, hout, halloc, hmeta⟩
  · rintro ⟨p, hfits, rfl, hout, halloc, rfl⟩
    obtain ⟨hcrcIn, hcrcOut, hsum⟩ := encode_checksums p
    have hsig : readSignature signature p.encode = .ok (p.content ++ checksums p) :=
      readSignature_eq_ok_iff.mpr (by rw [encode_eq, List.append_assoc])
    have hbody : applyBody mem p.encode source want accept =
        .ok ⟨.ok, some out, if want then p.metadata else []⟩ := by
      unfold applyBody
      rw [hsig, ok_bind]
      refine (if_neg (not_not.mpr hsum)).trans ?_
      rw [hcrcIn, hcrcOut]
      exact applyChecked_content accept hmem hfits halloc hout
    have hlong : ¬p.encode.length < 4 + 3 + 12 := by
      have hin := List.length_pos_of_ne_nil (writenum_ne_nil p.inlen)
      have hout := List.length_pos_of_ne_nil (writenum_ne_nil p.outlen)
      have hmeta := List.length_pos_of_ne_nil (writenum_ne_nil p.metadata.length)
      have hchecksums : (checksums p).length = 12 := rfl
      have hsignature : signature.length = 4 := rfl
      rw [encode_eq, PatchFile.content]
      simp only [List.length_append, hchecksums, hsignature]
      omega
    unfold bpsApply
    rw [if_neg hlong, hbody]

/-- A source behind the first page and blocks of at most a page behind the second. -/
def twoPages : Memory := ⟨4096, fun _ size => if size ≤ 4096 then 8192 else 0⟩

/-- They are memory of a program. -/
theorem memoryFits_twoPages : MemoryFits twoPages [1, 2, 3] := by
  refine ⟨by decide, fun outlen h => ?_⟩
  by_cases hsize : outlen ≤ 4096
  · have hblock : twoPages.mallocImpl 0 outlen = 8192 := if_pos hsize
    rw [hblock, addressEnd]
    omega
  · exact absurd (if_neg hsize) h

/-- A patch of two instructions: two bytes of its own, and five that repeat them. -/
theorem bpsApply_eq_ok_repeated :
    bpsApply twoPages [66, 80, 83, 49, 131, 135, 128, 133, 97, 98, 147, 128, 29, 128, 188, 85, 247,
      174, 135, 228, 181, 195, 247, 238] [1, 2, 3] false false =
      .ok ⟨.ok, some [97, 98, 97, 98, 97, 98, 97], []⟩ := by
  refine (bpsApply_eq_ok_iff twoPages _ [1, 2, 3] _ [] false false memoryFits_twoPages).mpr
    ⟨⟨3, 7, [], [.targetRead [97, 98], .targetCopy 5 ⟨false, 0⟩], 0x55BC801D, 0xE487AEF7⟩,
      ⟨by decide, by decide, by decide, ?_⟩, by decide +kernel, by decide +kernel,
      ⟨by decide, fun h => nomatch h⟩, rfl⟩
  intro i hi
  rcases List.mem_cons.mp hi with rfl | hi
  · exact ⟨by decide, by decide, trivial⟩
  · rw [List.mem_singleton.mp hi]
    exact ⟨by decide, by decide, by unfold Distance.Fits; decide⟩

/-! ### What is touched -/

/-- Where a part of the code goes wrong, it does so for a cause. -/
def FaultsFor (Cause : Fault → Prop) {α : Type} (x : Attempt α) : Prop :=
  ∀ what, x = .error (.fault what) → Cause what

/-- The patch itself may be the cause: a read behind it, or a number with too many bytes. -/
structure BlamesPatch (Cause : Fault → Prop) : Prop where
  /-- A read behind the patch. -/
  patchRead : Cause .patchRead
  /-- A number with too many bytes. -/
  shift : Cause .shift

variable {Cause : Fault → Prop}

/-- Parts in a row go wrong where one of them does. -/
theorem FaultsFor.bind {α β : Type} {x : Attempt α} {f : α → Attempt β}
    (hx : FaultsFor Cause x) (hf : ∀ a, x = .ok a → FaultsFor Cause (f a)) :
    FaultsFor Cause (x >>= f) := by
  intro what h
  cases hxa : x with
  | error e =>
    rw [hxa] at h
    cases h
    exact hx what hxa
  | ok a =>
    rw [hxa] at h
    exact hf a hxa what h

/-- A part that succeeds does not go wrong. -/
theorem faultsFor_ok {α : Type} (a : α) : FaultsFor Cause (.ok a) := fun _ h => by cases h

/-- The macro `error` does not go wrong. -/
theorem faultsFor_error {α : Type} (which : BpsError) :
    FaultsFor Cause (.error (.error which) : Attempt α) := fun _ h => by cases h

/-- A part that goes wrong does so for its cause. -/
theorem faultsFor_fault {α : Type} {what : Fault} (h : Cause what) :
    FaultsFor Cause (.error (.fault what) : Attempt α) := fun _ he => by
  cases he
  exact h

/-- A choice goes wrong where the part that is chosen does. -/
theorem FaultsFor.ite {α : Type} {c : Prop} [Decidable c] {x y : Attempt α}
    (hx : FaultsFor Cause x) (hy : FaultsFor Cause y) :
    FaultsFor Cause (if c then x else y) := by
  split
  · exact hx
  · exact hy

/-- Reading a number. -/
theorem decodeto_faults (hpatch : BlamesPatch Cause) (patchat : List UInt8) :
    FaultsFor Cause (decodeto patchat) := by
  intro what h
  unfold decodeto at h
  cases hread : decodenum patchat <;> rw [hread] at h <;> cases h
  · exact hpatch.patchRead
  · exact hpatch.shift

/-- Reading a byte of the patch. -/
theorem read8_faults (hpatch : BlamesPatch Cause) (patchat : List UInt8) :
    FaultsFor Cause (read8 patchat) := by
  cases patchat with
  | nil => exact faultsFor_fault hpatch.patchRead
  | cons byte patchat => exact faultsFor_ok _

/-- Reading the signature. -/
theorem readSignature_faults (hpatch : BlamesPatch Cause) (expected patchat : List UInt8) :
    FaultsFor Cause (readSignature expected patchat) := by
  induction expected generalizing patchat with
  | nil => exact faultsFor_ok _
  | cons byte expected ih =>
    exact (read8_faults hpatch patchat).bind fun r _ => (faultsFor_error _).ite (ih r.2)

/-- Writing to a block that may be too small. -/
theorem write_faults {bl : Block} {i : ℕ} (h : bl.write i ≠ .ok () → Cause .metadataWrite) :
    FaultsFor Cause (bl.write i) := by
  by_cases hwrite : bl.write i = .ok ()
  · rw [hwrite]
    exact faultsFor_ok _
  · have hwrong : bl.write i = .error (.fault .metadataWrite) := by
      rw [write_eq_ok_iff] at hwrite
      exact if_neg hwrite
    rw [hwrong]
    exact faultsFor_fault (h hwrite)

/-- The loops over the metadata. -/
theorem metadataLoop_faults (hpatch : BlamesPatch Cause) {block : Option Block} {left i : ℕ}
    {patchat : List UInt8} (h : ¬Block.Holds block i left → Cause .metadataWrite) :
    FaultsFor Cause (metadataLoop block left i patchat) := by
  induction left generalizing i patchat with
  | zero => exact faultsFor_ok _
  | succ left ih =>
    cases patchat with
    | nil => exact faultsFor_fault hpatch.patchRead
    | cons byte patchat =>
      rw [metadataLoop_cons]
      rw [holds_succ_iff] at h
      refine FaultsFor.bind ?_ fun _ _ => (ih fun hmore => h fun hboth => hmore hboth.2).bind
        fun _ _ => faultsFor_ok _
      cases block with
      | none => exact faultsFor_ok _
      | some bl => exact write_faults fun hwrong => h fun hboth => hwrong (hboth.1 bl rfl)

/-- Reading the metadata. -/
theorem readMetadata_faults (hpatch : BlamesPatch Cause) {mem : Memory} {want : Bool}
    {metadatalen : ℕ} (hfits : metadatalen ≤ sizeMax)
    (h : ¬HoldsMetadata mem want metadatalen → Cause .metadataWrite) (patchat : List UInt8) :
    FaultsFor Cause (readMetadata mem want metadatalen patchat) := by
  unfold readMetadata
  by_cases hwant : want = true ∧ metadatalen ≠ 0
  · rw [if_pos hwant]
    rw [holdsMetadata_iff hfits hwant] at h
    refine (metadataLoop_faults hpatch fun hmore => h fun hboth => hmore hboth.1).bind fun _ _ => ?_
    exact (write_faults fun hwrong => h fun hboth => hwrong hboth.2).bind fun _ _ => faultsFor_ok _
  · rw [if_neg hwant]
    exact metadataLoop_faults hpatch fun hmore => (hmore fun _ hbl => nomatch hbl).elim

/-- Reading an instruction. -/
theorem readInstruction_faults (hpatch : BlamesPatch Cause) (room : ℕ) (patchat : List UInt8) :
    FaultsFor Cause (readInstruction room patchat) := by
  refine (decodeto_faults hpatch patchat).bind fun r _ => (faultsFor_error _).ite ?_
  cases Action.ofInstr r.1 with
  | sourceRead => exact faultsFor_ok _
  | targetRead => exact (faultsFor_error _).ite (faultsFor_ok _)
  | sourceCopy => exact (decodeto_faults hpatch r.2).bind fun _ _ => faultsFor_ok _
  | targetCopy => exact (decodeto_faults hpatch r.2).bind fun _ _ => faultsFor_ok _

/-- Somewhere in the bytes is a distance that is larger than an address. -/
def HasDistance (instart : ℕ) (bytes : List UInt8) : Prop :=
  ∃ before number after, bytes = before ++ (writenum number ++ after) ∧ instart < number / 2

/-- It is there with more bytes in front, too. -/
theorem HasDistance.append {instart : ℕ} {bytes : List UInt8} (h : HasDistance instart bytes)
    (front : List UInt8) : HasDistance instart (front ++ bytes) := by
  obtain ⟨before, number, after, rfl, hlarge⟩ := h
  exact ⟨front ++ before, number, after, (List.append_assoc _ _ _).symm, hlarge⟩

/-- The causes for the loop over the instructions. -/
def LoopCause (b : Buffers) (patchat : List UInt8) : Fault → Prop
  | .patchRead => True
  | .shift => True
  | .sourceRead => HasDistance b.instart patchat
  | .targetRead => False
  | .targetWrite => b.outstart = 0
  | .metadataWrite => False

/-- A cause in a part of the patch is one in the patch. -/
theorem LoopCause.append {b : Buffers} {patchat : List UInt8} {what : Fault}
    (h : LoopCause b patchat what) (front : List UInt8) : LoopCause b (front ++ patchat) what := by
  cases what with
  | sourceRead => exact HasDistance.append h front
  | patchRead => exact h
  | shift => exact h
  | targetRead => exact h
  | targetWrite => exact h
  | metadataWrite => exact h

/-- Running an instruction. -/
theorem execRead_faults {b : Buffers} {m : Machine} {i : Instruction} {patchat rest : List UInt8}
    (hbytes : patchat = i.encode ++ rest) :
    FaultsFor (LoopCause b patchat) (execRead b m (i, rest)) := by
  cases hrun : m.exec b.source i with
  | some m' =>
    by_cases hb : b.outstart = 0
    · rw [execRead_null hb hrun]
      exact faultsFor_fault hb
    · rw [execRead_some hb hrun]
      exact faultsFor_ok _
  | none =>
    rw [execRead_none hrun]
    cases i with
    | sourceCopy length d =>
      rw [stopOf]
      by_cases hwraps : Wraps b (b.instart + m.inreadat) length d
      · have hlarge : b.instart < d.number / 2 := by
          have hfar := hwraps.2.1
          rw [Distance.number]
          split <;> omega
        rw [if_pos hwraps]
        refine faultsFor_fault ⟨writenum (Instruction.sourceCopy length d).number, d.number, rest,
          ?_, hlarge⟩
        rw [hbytes, Instruction.encode, Instruction.operand, List.append_assoc]
      · rw [if_neg hwraps]
        exact faultsFor_error _
    | sourceRead length => exact faultsFor_error _
    | targetRead bytes => exact faultsFor_error _
    | targetCopy length d => exact faultsFor_error _

/-- The loop over the instructions. -/
theorem instructionLoop_faults {b : Buffers} {m : Machine} {patchat : List UInt8} (hfits : Fits b)
    (hm : Inside b m) :
    FaultsFor (LoopCause b patchat) (instructionLoop b (state b m patchat)) := by
  induction hn : patchat.length using Nat.strongRecOn generalizing m patchat with
  | ind n ih =>
    by_cases hmore : 12 < patchat.length
    · rw [instructionLoop_step hmore]
      refine FaultsFor.bind ?_ fun s₁ hstep => ?_
      · rw [applyInstruction_eq patchat hfits hm]
        refine (readInstruction_faults ⟨trivial, trivial⟩ _ _).bind fun read hread => ?_
        exact execRead_faults (encode_of_readInstruction hread).2.2.1
      · have hless := length_lt_of_applyInstruction hstep
        obtain ⟨i, rest, m₁, -, rfl, -, hm₁, rfl⟩ := exec_of_applyInstruction hfits hm hstep
        have hrest := ih rest.length (hn ▸ hless) hm₁ rfl
        exact fun what hwhat => (hrest what hwhat).append i.encode
    · have hend : (state b m patchat).patchat.length ≤ 12 := Nat.not_lt.mp hmore
      rw [instructionLoop_end hend]
      exact faultsFor_ok _

/-- The header of a patch begins with the lengths of the input and of the output. -/
def NamesOutput (patch : List UInt8) (outlen : ℕ) (rest : List UInt8) : Prop :=
  ∃ inlen, patch = signature ++ (writenum inlen ++ (writenum outlen ++ rest))

/-- The causes for `bps_apply`. The patch itself is one for reads behind it and for shifts.
The source is left only for a distance that is larger than its address, the output only when
its block could not be allocated, and the metadata only when theirs could not or their length
has no successor. An output byte that was not written is never read. -/
def Explains (mem : Memory) (want : Bool) (patch : List UInt8) : Fault → Prop
  | .patchRead => True
  | .shift => True
  | .sourceRead => HasDistance mem.instart patch
  | .targetRead => False
  | .targetWrite => ∃ outlen rest, NamesOutput patch outlen rest ∧ mem.mallocImpl 0 outlen = 0
  | .metadataWrite => ∃ outlen metadatalen rest,
      NamesOutput patch outlen (writenum metadatalen ++ rest) ∧ ¬HoldsMetadata mem want metadatalen

/-- The part of `bps_apply` behind the checksum of the patch. -/
theorem applyChecked_faults {mem : Memory} {source patch patchat : List UInt8} (want accept : Bool)
    (crcInE crcOutE : UInt32) (hmem : MemoryFits mem source) (hbytes : patch = signature ++ patchat) :
    FaultsFor (Explains mem want patch)
      (applyChecked mem source want accept crcInE crcOutE patchat) := by
  have hpatch : BlamesPatch (Explains mem want patch) := ⟨trivial, trivial⟩
  have hinput : ∀ inlen outlen,
      FaultsFor (Explains mem want patch) (checkInput source accept inlen outlen crcInE crcOutE) :=
    fun _ _ => FaultsFor.ite ((faultsFor_ok _).ite (faultsFor_error _)) (faultsFor_ok _)
  have houtput : ∀ s outlen error,
      FaultsFor (Explains mem want patch) (checkOutput s accept outlen crcOutE error) :=
    fun _ _ _ => (faultsFor_error _).ite ((faultsFor_error _).ite
      (((faultsFor_ok _).ite (faultsFor_error _)).ite (faultsFor_ok _)))
  refine (decodeto_faults hpatch _).bind fun ⟨inlen, tail₁⟩ hinlen => ?_
  refine (decodeto_faults hpatch _).bind fun ⟨outlen, tail₂⟩ houtlen => ?_
  refine (hinput _ _).bind fun _ _ => ?_
  refine (decodeto_faults hpatch _).bind fun ⟨metadatalen, tail₃⟩ hmetalen => ?_
  obtain ⟨-, rfl⟩ := decodeto_eq_ok_iff.mp hinlen
  obtain ⟨hout, rfl⟩ := decodeto_eq_ok_iff.mp houtlen
  obtain ⟨hml, rfl⟩ := decodeto_eq_ok_iff.mp hmetalen
  have hmetadata : ¬HoldsMetadata mem want metadatalen → Explains mem want patch .metadataWrite :=
    fun hholds => ⟨outlen, metadatalen, tail₃, ⟨inlen, hbytes⟩, hholds⟩
  refine (readMetadata_faults hpatch hml hmetadata _).bind fun ⟨text, tail₄⟩ htext => ?_
  refine FaultsFor.bind ?_ fun _ _ => (houtput _ _ _).bind fun _ _ => faultsFor_ok _
  obtain ⟨-, rfl, -⟩ := (readMetadata_eq_ok_iff hml).mp htext
  intro what hwhat
  have hloop := instructionLoop_faults (fits_buffers hmem hout) (inside_start _) what hwhat
  cases what with
  | patchRead => trivial
  | shift => trivial
  | sourceRead =>
    show HasDistance mem.instart patch
    have hdistance : HasDistance mem.instart tail₄ := hloop
    rw [hbytes]
    exact ((((hdistance.append _).append _).append _).append _).append _
  | targetRead => exact hloop.elim
  | targetWrite => exact ⟨outlen, _, ⟨inlen, hbytes⟩, hloop⟩
  | metadataWrite => exact hloop.elim

/-- Whatever the patch, the source and the flags are: where `bps_apply` reads or writes
outside of its memory, it does so for one of the causes. -/
theorem bpsApply_memory_safe (mem : Memory) (patch source : List UInt8) (want accept : Bool)
    (what : Fault) (hmem : MemoryFits mem source)
    (h : bpsApply mem patch source want accept = .error what) : Explains mem want patch what := by
  have hpatch : BlamesPatch (Explains mem want patch) := ⟨trivial, trivial⟩
  have hbody : FaultsFor (Explains mem want patch) (applyBody mem patch source want accept) := by
    refine (readSignature_faults hpatch _ _).bind fun patchat hsig => (faultsFor_error _).ite ?_
    exact applyChecked_faults want accept _ _ hmem (readSignature_eq_ok_iff.mp hsig)
  unfold bpsApply at h
  split at h
  · cases h
  · cases happly : applyBody mem patch source want accept with
    | ok result =>
      rw [happly] at h
      cases h
    | error e =>
      rw [happly] at h
      cases e with
      | error which => cases h
      | fault f =>
        cases h
        exact hbody what happly

/-- A patch that names an output of two to the 40th bytes, for which there is no block, writes
through the null pointer. -/
theorem bpsApply_memory_safe_null :
    Explains twoPages false [66, 80, 83, 49, 131, 0, 127, 126, 126, 126, 158, 128, 129, 97, 29, 128,
      188, 85, 0, 0, 0, 0, 21, 250, 170, 182] .targetWrite :=
  bpsApply_memory_safe twoPages _ [1, 2, 3] false false .targetWrite memoryFits_twoPages
    (by decide +kernel)

/-- A distance of one more than the address of the source leads to the last address, and the
copy of one byte from there passes the tests. -/
example : bpsApply twoPages [66, 80, 83, 49, 131, 129, 128, 130, 3, 191, 29, 128, 188, 85, 0, 0, 0, 0,
    111, 18, 133, 69] [1, 2, 3] false false = .error .sourceRead := by
  decide +kernel

/-! ### Changed patches -/

/-- A patch that is not refused as broken is long enough and its checksum holds. -/
theorem checksumHolds_of_ne_broken {mem : Memory} {patch source : List UInt8}
    {want accept : Bool} (h : bpsApply mem patch source want accept ≠ .ok (.exit .broken)) :
    19 ≤ patch.length ∧ ChecksumHolds patch := by
  unfold bpsApply at h
  split at h
  · exact absurd rfl h
  · rename_i hlong
    have hlen : 19 ≤ patch.length := Nat.not_lt.mp hlong
    refine ⟨hlen, ?_⟩
    by_contra hsum
    apply h
    have hfour : signature.length ≤ patch.length := by
      show 4 ≤ patch.length
      omega
    unfold applyBody
    rcases readSignature_cases hfour with ⟨rest, hsig⟩ | hsig
    · have hwrong : crc32 (patch.take (patch.length - 4)) ≠
          read32 (patch.drop (patch.length - 4)) := hsum
      rw [hsig, ok_bind]
      dsimp only
      rw [if_pos hwrong]
    · rw [hsig, error_bind]

/-- A patch that is not refused as broken is refused as broken, for every source, when
at most four bytes in a row of it are changed, those of its checksums included. -/
theorem bpsApply_burst (mem mem' : Memory) (a xs ys b source source' : List UInt8)
    (want want' accept accept' : Bool) (hlen : xs.length = ys.length) (hshort : xs.length ≤ 4)
    (hne : xs ≠ ys)
    (h : bpsApply mem (a ++ xs ++ b) source want accept ≠ .ok (.exit .broken)) :
    bpsApply mem' (a ++ ys ++ b) source' want' accept' = .ok (.exit .broken) := by
  by_contra hchanged
  obtain ⟨hlong, hsum⟩ := checksumHolds_of_ne_broken h
  obtain ⟨hlong', hsum'⟩ := checksumHolds_of_ne_broken hchanged
  rw [checksumHolds_iff (by omega)] at hsum hsum'
  have hbits : ∀ zs, bits (a ++ zs ++ b) = bits a ++ bits zs ++ bits b := fun zs => by
    unfold bits
    rw [List.map_append, List.map_append]
  have hlens : (bits xs).length = (bits ys).length := by
    unfold bits
    rw [List.length_map, List.length_map, hlen]
  have hfit : 8 * (bits xs).length ≤ 32 := by
    unfold bits
    rw [List.length_map]
    omega
  have hfeed := hsum.trans hsum'.symm
  rw [hbits, hbits] at hfeed
  exact hne (bits_injective (eq_of_feed_eq (by decide) hlens hfit hfeed))

/-- A patch with one of its own bytes changed. -/
theorem bpsApply_burst_byte :
    bpsApply twoPages ([66, 80, 83, 49, 131, 135, 128, 133] ++ [97, 99] ++ [147, 128, 29, 128, 188, 85,
      247, 174, 135, 228, 181, 195, 247, 238]) [1, 2, 3] false false = .ok (.exit .broken) :=
  bpsApply_burst twoPages twoPages [66, 80, 83, 49, 131, 135, 128, 133] [97, 98] [97, 99] [147, 128,
    29, 128, 188, 85, 247, 174, 135, 228, 181, 195, 247, 238] [1, 2, 3] [1, 2, 3] false false false
    false (by decide) (by decide) (by decide) (by decide +kernel)

end BfMultiplayer.BpsPatching

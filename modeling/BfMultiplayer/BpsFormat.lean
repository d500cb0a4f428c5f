import BfMultiplayer.BpsApply
import Mathlib.Tactic.IntervalCases

/-!
# What a BPS patch says

The format behind the bytes: a patch is its header, its metadata, a list of
instructions and the two checksums, and its bytes are one encoding of these. The
instructions run on a machine that knows lists and lengths only. The last part
reads an instruction from bytes, with exactly the failures of the code.
-/

namespace BfMultiplayer.BpsFormat

open BpsNumbers BpsApply Crc32

/-- A relative distance: a sign and a magnitude, so zero has two spellings. -/
structure Distance where
  /-- Whether the pointer moves back. -/
  backwards : Bool
  /-- How far it moves. -/
  magnitude : ℕ
  deriving DecidableEq, Repr

/-- Where a pointer is after a distance. -/
def Distance.after (d : Distance) (readat : ℕ) : ℤ :=
  if d.backwards then readat - d.magnitude else readat + d.magnitude

/-- The number that stands for a distance. -/
def Distance.number (d : Distance) : ℕ := 2 * d.magnitude + if d.backwards then 1 else 0

/-- One instruction of a patch. -/
inductive Instruction where
  /-- Bytes of the source from the place of the output. -/
  | sourceRead (length : ℕ)
  /-- These bytes. -/
  | targetRead (bytes : List UInt8)
  /-- Bytes of the source from a place relative to the last such copy. -/
  | sourceCopy (length : ℕ) (distance : Distance)
  /-- Bytes of the output from a place relative to the last such copy. -/
  | targetCopy (length : ℕ) (distance : Distance)
  deriving DecidableEq, Repr

/-- How many bytes an instruction produces. -/
def Instruction.length : Instruction → ℕ
  | .sourceRead length => length
  | .targetRead bytes => bytes.length
  | .sourceCopy length _ => length
  | .targetCopy length _ => length

/-- The action of an instruction. -/
def Instruction.action : Instruction → Action
  | .sourceRead _ => .sourceRead
  | .targetRead _ => .targetRead
  | .sourceCopy _ _ => .sourceCopy
  | .targetCopy _ _ => .targetCopy

/-- The low two bits of an action. -/
def actionBits : Action → ℕ
  | .sourceRead => 0
  | .targetRead => 1
  | .sourceCopy => 2
  | .targetCopy => 3

/-- The first number of an instruction. -/
def Instruction.number (i : Instruction) : ℕ := 4 * (i.length - 1) + actionBits i.action

/-- The bytes behind the first number. -/
def Instruction.operand : Instruction → List UInt8
  | .sourceRead _ => []
  | .targetRead bytes => bytes
  | .sourceCopy _ distance => writenum distance.number
  | .targetCopy _ distance => writenum distance.number

/-- The bytes of an instruction. -/
def Instruction.encode (i : Instruction) : List UInt8 :=
  writenum i.number ++ i.operand

/-- A distance that `size_t` can spell. -/
def Distance.Fits (d : Distance) : Prop := d.number ≤ sizeMax

/-- An instruction that `size_t` can spell: no length is zero. -/
def Instruction.Fits (i : Instruction) : Prop :=
  1 ≤ i.length ∧ i.number ≤ sizeMax ∧
    match i with
    | .sourceCopy _ distance => distance.Fits
    | .targetCopy _ distance => distance.Fits
    | _ => True

/-- What the instructions work on. -/
structure Machine where
  /-- Where the next `sourceCopy` counts from. -/
  inreadat : ℕ
  /-- Where the next `targetCopy` counts from. -/
  outreadat : ℕ
  /-- The output so far. -/
  out : List UInt8
  deriving DecidableEq, Repr

/-- The machine before the first instruction. -/
def Machine.start : Machine := ⟨0, 0, []⟩

/-- One instruction. Nothing is read outside the source or behind the output. -/
def Machine.exec (source : List UInt8) (m : Machine) : Instruction → Option Machine
  | .sourceRead length =>
    if m.out.length + length ≤ source.length then
      some { m with out := m.out ++ (source.drop m.out.length).take length }
    else none
  | .targetRead bytes => some { m with out := m.out ++ bytes }
  | .sourceCopy length distance =>
    match distance.after m.inreadat with
    | .ofNat n =>
      if n + length ≤ source.length then
        some { m with inreadat := n + length, out := m.out ++ (source.drop n).take length }
      else none
    | .negSucc _ => none
  | .targetCopy length distance =>
    match distance.after m.outreadat with
    | .ofNat n =>
      if n < m.out.length then
        some { m with outreadat := n + length, out := m.out ++ repeated (m.out.drop n) length }
      else none
    | .negSucc _ => none

/-- The instructions of a patch, one after the other. -/
def Machine.run (source : List UInt8) : Machine → List Instruction → Option Machine
  | m, [] => some m
  | m, i :: is => (m.exec source i).bind fun m' => m'.run source is

/-- The four bytes of a checksum. -/
def word32 (n : UInt32) : List UInt8 :=
  [n.toUInt8, (n >>> 8).toUInt8, (n >>> 16).toUInt8, (n >>> 24).toUInt8]

/-- What the bytes of a patch say. -/
structure PatchFile where
  /-- The length of the input. -/
  inlen : ℕ
  /-- The length of the output. -/
  outlen : ℕ
  /-- The metadata. -/
  metadata : List UInt8
  /-- The instructions. -/
  instructions : List Instruction
  /-- The checksum of the input. -/
  crcIn : UInt32
  /-- The checksum of the output. -/
  crcOut : UInt32
  deriving DecidableEq, Repr

/-- A patch whose numbers `size_t` can spell. -/
structure PatchFile.Fits (p : PatchFile) : Prop where
  /-- The length of the input fits. -/
  inlen : p.inlen ≤ sizeMax
  /-- The length of the output fits. -/
  outlen : p.outlen ≤ sizeMax
  /-- The length of the metadata fits. -/
  metadata : p.metadata.length ≤ sizeMax
  /-- Every instruction fits. -/
  instructions : ∀ i ∈ p.instructions, i.Fits

/-- The bytes between the signature and the checksums. -/
def PatchFile.content (p : PatchFile) : List UInt8 :=
  writenum p.inlen ++ (writenum p.outlen ++ (writenum p.metadata.length ++
    (p.metadata ++ p.instructions.flatMap Instruction.encode)))

/-- The bytes that the checksum of the patch is over. -/
def PatchFile.body (p : PatchFile) : List UInt8 :=
  signature ++ p.content ++ (word32 p.crcIn ++ word32 p.crcOut)

/-- The bytes of a patch. -/
def PatchFile.encode (p : PatchFile) : List UInt8 := p.body ++ word32 (crc32 p.body)

/-- What a patch makes of a source, when its instructions can be run and the output
has the length and the checksum that the patch names. -/
def PatchFile.output (p : PatchFile) (source : List UInt8) : Option (List UInt8) :=
  if p.inlen = source.length ∧ p.crcIn = crc32 source then
    (Machine.start.run source p.instructions).bind fun m =>
      if m.out.length = p.outlen ∧ crc32 m.out = p.crcOut then some m.out else none
  else none

/-- What an instruction produces is its length. -/
theorem length_exec {source : List UInt8} {m m' : Machine} {i : Instruction}
    (h : m.exec source i = some m') : m'.out.length = m.out.length + i.length := by
  cases i with
  | sourceRead length =>
    simp only [Machine.exec] at h
    split at h
    · cases h
      rw [List.length_append, List.length_take, List.length_drop, Instruction.length]
      omega
    · cases h
  | targetRead bytes =>
    cases h
    exact List.length_append
  | sourceCopy length distance =>
    simp only [Machine.exec] at h
    split at h
    · split at h
      · cases h
        rw [List.length_append, List.length_take, List.length_drop, Instruction.length]
        omega
      · cases h
    · cases h
  | targetCopy length distance =>
    simp only [Machine.exec] at h
    split at h
    · split at h
      · cases h
        rw [List.length_append, repeated, List.length_ofFn, Instruction.length]
      · cases h
    · cases h

/-- The output only grows. -/
theorem length_le_run {source : List UInt8} :
    ∀ {is : List Instruction} {m m' : Machine}, m.run source is = some m' →
      m.out.length ≤ m'.out.length
  | [], m, m', h => by
    cases h
    exact le_rfl
  | i :: is, m, m', h => by
    obtain ⟨m₁, hexec, hrun⟩ := Option.bind_eq_some_iff.mp h
    have hgrow := length_exec hexec
    exact le_trans (by omega) (length_le_run hrun)

/-! ### Reading an instruction -/

/-- What stands behind the number of an instruction. -/
def readOperand (length : ℕ) (patchat : List UInt8) : Action → Attempt (Instruction × List UInt8)
  | .sourceRead => .ok (.sourceRead length, patchat)
  | .targetRead =>
    if patchat.length < length + 12 then .error (.error .broken)
    else .ok (.targetRead (patchat.take length), patchat.drop length)
  | .sourceCopy => do
    let (number, patchat) ← decodeto patchat
    .ok (.sourceCopy length ⟨number % 2 = 1, number / 2⟩, patchat)
  | .targetCopy => do
    let (number, patchat) ← decodeto patchat
    .ok (.targetCopy length ⟨number % 2 = 1, number / 2⟩, patchat)

/-- The instruction in front of some bytes, with the tests that the code makes
before it looks at the pointers; `room` is what is left of the output. -/
def readInstruction (room : ℕ) (patchat : List UInt8) : Attempt (Instruction × List UInt8) := do
  let (thisinstr, patchat) ← decodeto patchat
  let length := (thisinstr >>> 2) + 1
  if room < length then .error (.error .broken)
  else readOperand length patchat (Action.ofInstr thisinstr)

/-- The two halves of the number of a distance. -/
theorem distance_parts (n : ℕ) : n &&& 1 = n % 2 ∧ n >>> 1 = n / 2 :=
  ⟨Nat.and_two_pow_sub_one_eq_mod n 1, Nat.shiftRight_eq_div_pow n 1⟩

/-- A pointer that moves forwards. -/
theorem moved_forwards {readat n : ℕ} (hsign : n % 2 = 0)
    (hfits : readat + n / 2 < addressCount) : moved readat n = readat + n / 2 := by
  obtain ⟨hlow, hhigh⟩ := distance_parts n
  rw [moved, hlow, hhigh, if_pos hsign, Nat.mod_eq_of_lt hfits]

/-- A pointer that moves backwards, not below address zero. -/
theorem moved_backwards {readat n : ℕ} (hsign : n % 2 = 1) (hle : n / 2 ≤ readat)
    (hfits : readat < addressCount) : moved readat n = readat - n / 2 := by
  obtain ⟨hlow, hhigh⟩ := distance_parts n
  have hwhole : readat + addressCount - n / 2 = readat - n / 2 + addressCount := by omega
  rw [moved, hlow, hhigh, if_neg (by omega), hwhole, Nat.add_mod_right,
    Nat.mod_eq_of_lt (by omega)]

/-- A pointer that moves backwards past address zero comes from the end of the addresses. -/
theorem moved_around {readat n : ℕ} (hsign : n % 2 = 1) (hlt : readat < n / 2) :
    moved readat n = readat + addressCount - n / 2 := by
  obtain ⟨hlow, hhigh⟩ := distance_parts n
  have hpos : 0 < addressCount := Nat.succ_pos sizeMax
  rw [moved, hlow, hhigh, if_neg (by omega), Nat.mod_eq_of_lt (by omega)]

/-- The number of the distance of a number. -/
theorem number_distance (n : ℕ) : Distance.number ⟨n % 2 = 1, n / 2⟩ = n := by
  unfold Distance.number
  rcases Nat.mod_two_eq_zero_or_one n with h | h <;> simp [h] <;> omega

/-- The distance of the number of a distance. -/
theorem distance_number (d : Distance) :
    (⟨d.number % 2 = 1, d.number / 2⟩ : Distance) = d := by
  obtain ⟨backwards, magnitude⟩ := d
  unfold Distance.number
  cases backwards
  · simp
  · simp
    omega

/-- The length and the action of a number. -/
theorem instr_parts (k : ℕ) (action : Action) :
    (4 * k + actionBits action) >>> 2 = k ∧
      Action.ofInstr (4 * k + actionBits action) = action := by
  have hlow : (4 * k + actionBits action) &&& 3 = (4 * k + actionBits action) % 4 :=
    Nat.and_two_pow_sub_one_eq_mod _ 2
  refine ⟨?_, ?_⟩
  · rw [Nat.shiftRight_eq_div_pow]
    cases action <;> simp only [actionBits] <;> omega
  · unfold Action.ofInstr
    rw [hlow, Nat.mul_add_mod]
    cases action <;> rfl

/-- Every number is the first one of some length and action. -/
theorem exists_instr_parts (n : ℕ) : ∃ k action, n = 4 * k + actionBits action := by
  have hmod := Nat.mod_lt n (show 0 < 4 by omega)
  have hsplit := Nat.div_add_mod n 4
  generalize n % 4 = a at hmod hsplit
  interval_cases a
  · exact ⟨n / 4, .sourceRead, hsplit.symm⟩
  · exact ⟨n / 4, .targetRead, hsplit.symm⟩
  · exact ⟨n / 4, .sourceCopy, hsplit.symm⟩
  · exact ⟨n / 4, .targetCopy, hsplit.symm⟩

/-- The reader with the number of the instruction taken apart. -/
theorem readInstruction_eq {room k : ℕ} {action : Action} {rest : List UInt8}
    (hfits : 4 * k + actionBits action ≤ sizeMax) :
    readInstruction room (writenum (4 * k + actionBits action) ++ rest) =
      if room < k + 1 then .error (.error .broken) else readOperand (k + 1) rest action := by
  have hnum : decodeto (writenum (4 * k + actionBits action) ++ rest) =
      .ok (4 * k + actionBits action, rest) := decodeto_eq_ok_iff.mpr ⟨hfits, rfl⟩
  obtain ⟨hlength, haction⟩ := instr_parts k action
  rw [readInstruction, hnum, ok_bind]
  dsimp only
  rw [hlength, haction]

/-- What is read is an encoded instruction that fits the rest of the output. -/
theorem encode_of_readInstruction {room : ℕ} {patchat rest : List UInt8} {i : Instruction}
    (h : readInstruction room patchat = .ok (i, rest)) :
    i.Fits ∧ i.length ≤ room ∧ patchat = i.encode ++ rest ∧
      (i.action = .targetRead → 12 ≤ rest.length) := by
  obtain ⟨⟨number, tail⟩, hnum, -⟩ := bind_eq_ok_iff.mp h
  obtain ⟨hn, rfl⟩ := decodeto_eq_ok_iff.mp hnum
  obtain ⟨k, action, rfl⟩ := exists_instr_parts number
  rw [readInstruction_eq hn] at h
  split at h
  · cases h
  · rename_i hroom
    have hlen : k + 1 ≤ room := Nat.not_lt.mp hroom
    cases action with
    | sourceRead =>
      cases h
      refine ⟨⟨Nat.succ_pos k, hn, trivial⟩, hlen, ?_, fun h => nomatch h⟩
      rw [Instruction.encode, Instruction.operand, List.append_nil]
      rfl
    | targetRead =>
      rw [readOperand] at h
      split at h
      · cases h
      · rename_i hbytes
        cases h
        have htake : (Instruction.targetRead (tail.take (k + 1))).length = k + 1 := by
          rw [Instruction.length, List.length_take]
          omega
        have hnumber : (Instruction.targetRead (tail.take (k + 1))).number =
            4 * k + actionBits .targetRead := by
          rw [Instruction.number, htake]
          rfl
        refine ⟨⟨by omega, by rw [hnumber]; exact hn, trivial⟩, by omega, ?_, fun _ => ?_⟩
        · rw [Instruction.encode, hnumber, Instruction.operand, List.append_assoc,
            List.take_append_drop]
        · rw [List.length_drop]
          omega
    | sourceCopy =>
      obtain ⟨⟨n, rest'⟩, hdist, hread⟩ := bind_eq_ok_iff.mp h
      obtain ⟨hd, rfl⟩ := decodeto_eq_ok_iff.mp hdist
      cases hread
      have hnumber := number_distance n
      refine ⟨⟨Nat.succ_pos k, hn, ?_⟩, hlen, ?_, fun h => nomatch h⟩
      · show Distance.number _ ≤ sizeMax
        rw [hnumber]
        exact hd
      · rw [Instruction.encode, Instruction.operand, hnumber, List.append_assoc]
        rfl
    | targetCopy =>
      obtain ⟨⟨n, rest'⟩, hdist, hread⟩ := bind_eq_ok_iff.mp h
      obtain ⟨hd, rfl⟩ := decodeto_eq_ok_iff.mp hdist
      cases hread
      have hnumber := number_distance n
      refine ⟨⟨Nat.succ_pos k, hn, ?_⟩, hlen, ?_, fun h => nomatch h⟩
      · show Distance.number _ ≤ sizeMax
        rw [hnumber]
        exact hd
      · rw [Instruction.encode, Instruction.operand, hnumber, List.append_assoc]
        rfl

/-- An encoded instruction that fits the rest of the output is read back. -/
theorem readInstruction_encode {room : ℕ} {rest : List UInt8} {i : Instruction} (hi : i.Fits)
    (hroom : i.length ≤ room) (hrest : i.action = .targetRead → 12 ≤ rest.length) :
    readInstruction room (i.encode ++ rest) = .ok (i, rest) := by
  obtain ⟨hpos, hnumber, hoperand⟩ := hi
  obtain ⟨k, hk⟩ : ∃ k, i.length = k + 1 := ⟨i.length - 1, by omega⟩
  have hshape : i.number = 4 * k + actionBits i.action := by
    rw [Instruction.number, hk, Nat.add_sub_cancel]
  have hnot : ¬room < k + 1 := by omega
  rw [hshape] at hnumber
  rw [Instruction.encode, hshape, List.append_assoc, readInstruction_eq hnumber, if_neg hnot, ← hk]
  cases i with
  | sourceRead length => rfl
  | targetRead bytes =>
    have hlong := hrest rfl
    have henough : ¬(bytes ++ rest).length < bytes.length + 12 := by
      rw [List.length_append]
      omega
    show readOperand bytes.length (bytes ++ rest) .targetRead = _
    rw [readOperand, if_neg henough, List.take_left, List.drop_left]
  | sourceCopy length distance =>
    have hread : decodeto (writenum distance.number ++ rest) = .ok (distance.number, rest) :=
      decodeto_eq_ok_iff.mpr ⟨hoperand, rfl⟩
    show readOperand length (writenum distance.number ++ rest) .sourceCopy = _
    rw [readOperand, hread, ok_bind]
    dsimp only
    rw [distance_number]
  | targetCopy length distance =>
    have hread : decodeto (writenum distance.number ++ rest) = .ok (distance.number, rest) :=
      decodeto_eq_ok_iff.mpr ⟨hoperand, rfl⟩
    show readOperand length (writenum distance.number ++ rest) .targetCopy = _
    rw [readOperand, hread, ok_bind]
    dsimp only
    rw [distance_number]

end BfMultiplayer.BpsFormat

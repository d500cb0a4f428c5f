import BfMultiplayer.BpsFormat

/-!
# The code against the format of the patches

Each instruction of the code is an instruction that is read and then run on the
machine, so the loop runs the list of instructions that the bytes spell. It leaves
the memory of the source only for a copy that comes from the end of the addresses,
and that of the output only for the null pointer.
-/

namespace BfMultiplayer.BpsRefinement

open BpsNumbers BpsApply BpsFormat Crc32

/-- Where the memory of a program ends: a pointer in it can be moved by a distance and a length
without another turn around the addresses. -/
def addressEnd : ℕ := 2 ^ 62

/-- The source and the output lie in the memory of the program. -/
structure Fits (b : Buffers) : Prop where
  /-- The source does. -/
  inend : b.inend ≤ addressEnd
  /-- The output does, but for the null pointer. -/
  outend : b.outstart ≠ 0 → b.outend ≤ addressEnd
  /-- The length of the output is a `size_t`. -/
  outlen : b.outlen ≤ sizeMax

/-- The pointers of a machine lie in the source and in the output. -/
structure Inside (b : Buffers) (m : Machine) : Prop where
  /-- The pointer of the `SourceCopy`. -/
  inreadat : m.inreadat ≤ b.source.length
  /-- The pointer of the `TargetCopy`. -/
  outreadat : m.outreadat ≤ b.outlen
  /-- What was written. -/
  out : m.out.length ≤ b.outlen
  /-- Nothing was written to the null pointer. -/
  null : b.outstart = 0 → m.out = []

/-- The state of the code for a machine and the rest of the patch. -/
def state (b : Buffers) (m : Machine) (patchat : List UInt8) : ApplyState :=
  ⟨patchat, b.instart + m.inreadat, b.outstart + m.outreadat, m.out⟩

/-- A copy that begins before address zero and ends in front of the end of the source; its
pointer is at the end of the addresses, so that the tests let it through. -/
def Wraps (b : Buffers) (readat length : ℕ) (d : Distance) : Prop :=
  d.backwards = true ∧ readat < d.magnitude ∧ d.magnitude ≤ readat + length ∧
    readat + length ≤ b.inend + d.magnitude

instance (b : Buffers) (readat length : ℕ) (d : Distance) : Decidable (Wraps b readat length d) :=
  inferInstanceAs (Decidable (_ ∧ _ ∧ _ ∧ _))

/-- How an instruction ends that the machine cannot run. -/
def stopOf (b : Buffers) (m : Machine) : Instruction → Stop
  | .sourceCopy length d =>
    if Wraps b (b.instart + m.inreadat) length d then .fault .sourceRead else .error .broken
  | _ => .error .broken

/-- Running what was read; a machine that cannot go on is a malformed patch, or the read of a
copy that comes from the end of the addresses. -/
def execRead (b : Buffers) (m : Machine) (read : Instruction × List UInt8) :
    Attempt ApplyState :=
  match m.exec b.source read.1 with
  | some m' => if b.outstart = 0 then .error (.fault .targetWrite) else .ok (state b m' read.2)
  | none => .error (stopOf b m read.1)

/-- A `SourceRead` of the code. -/
theorem sourceReadLoop_eq {b : Buffers} (hb : b.outstart ≠ 0) {length : ℕ} {out : List UInt8}
    (hin : out.length + length ≤ b.source.length) (hout : out.length + length ≤ b.outlen) :
    sourceReadLoop b length out = .ok (out ++ (b.source.drop out.length).take length) := by
  rw [sourceReadLoop_eq_map, sourceCopyLoop_eq hb hin hout]
  rfl

/-- Parts in a row, one level deeper. -/
theorem bind_assoc {α β γ : Type} (x : Attempt α) (f : α → Attempt β) (g : β → Attempt γ) :
    x >>= f >>= g = x >>= fun a => f a >>= g := by
  cases x <;> rfl

/-- Parts in a row behind the same first part. -/
theorem bind_congr_ok {α β : Type} {x : Attempt α} {f g : α → Attempt β}
    (h : ∀ a, x = .ok a → f a = g a) : x >>= f = x >>= g := by
  cases hx : x with
  | error e => rfl
  | ok a => exact h a hx

/-- Running an instruction that the machine can run. -/
theorem execRead_some {b : Buffers} (hb : b.outstart ≠ 0) {rest : List UInt8} {m m' : Machine}
    {i : Instruction} (h : m.exec b.source i = some m') :
    execRead b m (i, rest) = .ok (state b m' rest) := by
  unfold execRead
  rw [h]
  exact if_neg hb

/-- Running an instruction of the machine on the null pointer. -/
theorem execRead_null {b : Buffers} (hb : b.outstart = 0) {rest : List UInt8} {m m' : Machine}
    {i : Instruction} (h : m.exec b.source i = some m') :
    execRead b m (i, rest) = .error (.fault .targetWrite) := by
  unfold execRead
  rw [h]
  exact if_pos hb

/-- Running an instruction that the machine cannot run. -/
theorem execRead_none {b : Buffers} {rest : List UInt8} {m : Machine} {i : Instruction}
    (h : m.exec b.source i = none) : execRead b m (i, rest) = .error (stopOf b m i) := by
  unfold execRead
  rw [h]

variable {b : Buffers} {m : Machine} {length : ℕ}

/-- `SourceRead` runs the instruction. -/
theorem caseSourceRead_eq {patchat old : List UInt8} (hpos : 0 < length)
    (hout : m.out.length + length ≤ b.outlen) :
    caseSourceRead b length patchat (state b m old) =
      execRead b m (.sourceRead length, patchat) := by
  unfold caseSourceRead
  by_cases hin : b.source.length < m.out.length + length
  · have hexec : m.exec b.source (.sourceRead length) = none := if_neg (Nat.not_le.mpr hin)
    rw [execRead_none hexec]
    exact if_pos hin
  · have hexec : m.exec b.source (.sourceRead length) =
        some { m with out := m.out ++ (b.source.drop m.out.length).take length } :=
      if_pos (Nat.not_lt.mp hin)
    refine (if_neg hin).trans ?_
    show sourceReadLoop b length m.out >>= _ = _
    by_cases hb : b.outstart = 0
    · have hn : m.out.length < b.source.length := by omega
      rw [execRead_null hb hexec, sourceReadLoop_eq_map, sourceCopyLoop_null hb hpos hn]
      rfl
    · rw [execRead_some hb hexec, sourceReadLoop_eq hb (Nat.not_lt.mp hin) hout]
      rfl

/-- `TargetRead` runs the instruction of the bytes in front of the checksums. -/
theorem caseTargetRead_eq {patchat old : List UInt8} (hpos : 0 < length)
    (hout : m.out.length + length ≤ b.outlen) :
    caseTargetRead b length patchat (state b m old) =
      readOperand length patchat .targetRead >>= execRead b m := by
  rw [caseTargetRead, readOperand]
  by_cases hlong : patchat.length < length + 12
  · rw [if_pos hlong, if_pos hlong]
    rfl
  · rw [if_neg hlong, if_neg hlong, ok_bind]
    show targetReadLoop b length patchat m.out >>= _ = _
    by_cases hb : b.outstart = 0
    · have hbytes : patchat ≠ [] := by
        rintro rfl
        rw [List.length_nil] at hlong
        omega
      rw [execRead_null hb rfl, targetReadLoop_null hb hpos hbytes]
      rfl
    · have htake : (patchat.take length).length = length := by
        rw [List.length_take]
        omega
      have hwritten : m.out.length + (patchat.take length).length ≤ b.outlen := by omega
      have hloop : targetReadLoop b length patchat m.out =
          .ok (patchat.drop length, m.out ++ patchat.take length) := by
        have hread := @targetReadLoop_eq b hb (patchat.drop length) _ _ hwritten
        rwa [htake, List.take_append_drop] at hread
      rw [execRead_some hb rfl, hloop]
      rfl

/-- A pointer that stays at or behind its base is there. -/
theorem moved_of_after {base readat number n : ℕ} (hbase : base + readat ≤ addressEnd)
    (hnumber : number ≤ sizeMax)
    (h : Distance.after ⟨number % 2 = 1, number / 2⟩ readat = .ofNat n) :
    moved (base + readat) number = base + n ∧ n ≤ readat + number / 2 := by
  unfold Distance.after at h
  unfold addressEnd at hbase
  unfold sizeMax at hnumber
  dsimp only at h
  have hcount : addressCount = 2 ^ 64 := rfl
  rcases Nat.mod_two_eq_zero_or_one number with hsign | hsign
  · have hmag : (readat : ℤ) + (number / 2 : ℕ) = n := by simpa [hsign] using h
    rw [moved_forwards hsign (by omega)]
    omega
  · have hmag : (readat : ℤ) - (number / 2 : ℕ) = n := by simpa [hsign] using h
    rw [moved_backwards hsign (by omega) (by omega)]
    omega

/-- A pointer that would be in front of its base has moved backwards. -/
theorem backwards_of_after {readat number k : ℕ}
    (h : Distance.after ⟨number % 2 = 1, number / 2⟩ readat = .negSucc k) :
    number % 2 = 1 ∧ readat < number / 2 := by
  unfold Distance.after at h
  dsimp only at h
  rcases Nat.mod_two_eq_zero_or_one number with hsign | hsign
  · have hmag : (readat : ℤ) + (number / 2 : ℕ) = .negSucc k := by simpa [hsign] using h
    omega
  · have hmag : (readat : ℤ) - (number / 2 : ℕ) = .negSucc k := by simpa [hsign] using h
    exact ⟨hsign, by omega⟩

/-- The tests of a `SourceCopy` from in front of the source pass only for one that wraps. -/
theorem sourceCopy_passes_iff {number readat : ℕ} (hend : b.inend ≤ addressEnd)
    (hread : readat ≤ b.inend) (hnumber : number ≤ sizeMax) (hlength : length ≤ addressEnd)
    (hsign : number % 2 = 1) (hfront : readat < b.instart + number / 2) :
    ¬(moved readat number < b.instart ∨
        b.inend < (moved readat number + length) % addressCount) ↔
      Wraps b readat length ⟨number % 2 = 1, number / 2⟩ := by
  have hcount : addressCount = 2 ^ 64 := rfl
  have hback : decide (number % 2 = 1) = true := decide_eq_true hsign
  unfold addressEnd at hend hlength
  unfold sizeMax at hnumber
  unfold Wraps
  dsimp only
  rw [hback]
  by_cases hle : number / 2 ≤ readat
  · rw [moved_backwards hsign hle (by omega)]
    exact iff_of_false (fun h => h (Or.inl (by omega))) fun h => absurd h.2.1 (by omega)
  · have hlt : readat < number / 2 := Nat.not_le.mp hle
    have hmoved := moved_around hsign hlt
    have hbig : b.instart ≤ moved readat number := by
      have hstart : b.instart ≤ b.inend := Nat.le_add_right _ _
      omega
    by_cases hturn : number / 2 ≤ readat + length
    · -- the end of the copy is behind address zero again
      have hmod : (moved readat number + length) % addressCount =
          readat + length - number / 2 := by
        have hwhole : moved readat number + length =
            readat + length - number / 2 + addressCount := by omega
        rw [hwhole, Nat.add_mod_right, Nat.mod_eq_of_lt (by omega)]
      rw [hmod]
      constructor
      · intro h
        exact ⟨rfl, hlt, hturn, by omega⟩
      · rintro ⟨-, -, -, hfits⟩
        omega
    · have hmod : (moved readat number + length) % addressCount =
          moved readat number + length := Nat.mod_eq_of_lt (by omega)
      rw [hmod]
      exact iff_of_false (fun h => h (Or.inr (by omega))) fun h => hturn h.2.2.1

/-- `SourceCopy` runs the instruction of the distance. -/
theorem caseSourceCopy_eq {patchat old : List UInt8} (hfits : Fits b) (hm : Inside b m)
    (hpos : 0 < length) (hlength : length ≤ addressEnd)
    (hout : m.out.length + length ≤ b.outlen) :
    caseSourceCopy b length patchat (state b m old) =
      readOperand length patchat .sourceCopy >>= execRead b m := by
  rw [caseSourceCopy, readOperand, bind_assoc]
  refine bind_congr_ok fun r hr => ?_
  obtain ⟨number, rest⟩ := r
  have hnumber := (decodeto_eq_ok_iff.mp hr).1
  have hread : b.instart + m.inreadat ≤ b.inend := Nat.add_le_add_left hm.inreadat _
  rw [ok_bind]
  dsimp only
  have hinreadat : (state b m old).inreadat = b.instart + m.inreadat := rfl
  have hwritten : (state b m old).out = m.out := rfl
  rw [hinreadat, hwritten]
  cases hat : Distance.after ⟨number % 2 = 1, number / 2⟩ m.inreadat with
  | negSucc k =>
    obtain ⟨hsign, hfront⟩ := backwards_of_after hat
    have hpasses := @sourceCopy_passes_iff b length _ _ hfits.inend hread hnumber hlength hsign
      (Nat.add_lt_add_left hfront _)
    have hexec : m.exec b.source (.sourceCopy length ⟨number % 2 = 1, number / 2⟩) = none := by
      simp only [Machine.exec, hat]
    rw [execRead_none hexec, stopOf]
    by_cases hwraps : Wraps b (b.instart + m.inreadat) length ⟨number % 2 = 1, number / 2⟩
    · have hbehind : b.inend ≤ moved (b.instart + m.inreadat) number := by
        have hend := hfits.inend
        have hcount : addressCount = 2 ^ 64 := rfl
        unfold addressEnd at hend
        unfold sizeMax at hnumber
        rw [moved_around hsign hwraps.2.1]
        omega
      rw [if_neg (hpasses.mpr hwraps), if_pos hwraps]
      rw [sourceCopyLoop_outside hpos hbehind]
      rfl
    · rw [if_pos (not_not.mp fun h => hwraps (hpasses.mp h)), if_neg hwraps]
  | ofNat n =>
    obtain ⟨hmoved, hn⟩ := moved_of_after (hread.trans hfits.inend) hnumber hat
    have hexec : m.exec b.source (.sourceCopy length ⟨number % 2 = 1, number / 2⟩) =
        if n + length ≤ b.source.length then
          some { m with inreadat := n + length, out := m.out ++ (b.source.drop n).take length }
        else none := by simp only [Machine.exec, hat]
    have hmod : (b.instart + n + length) % addressCount = b.instart + n + length := by
      have hend := hread.trans hfits.inend
      have hcount : addressCount = 2 ^ 64 := rfl
      unfold addressEnd at hend hlength
      unfold sizeMax at hnumber
      exact Nat.mod_eq_of_lt (by omega)
    rw [hmoved, hmod]
    by_cases hin : n + length ≤ b.source.length
    · have hguard : ¬(b.instart + n < b.instart ∨ b.inend < b.instart + n + length) := by
        unfold Buffers.inend
        omega
      rw [if_pos hin] at hexec
      rw [if_neg hguard]
      by_cases hb : b.outstart = 0
      · have hinside : n < b.source.length := by omega
        rw [execRead_null hb hexec, sourceCopyLoop_null hb hpos hinside]
        rfl
      · rw [execRead_some hb hexec, sourceCopyLoop_eq hb hin hout]
        rfl
    · have hguard : b.instart + n < b.instart ∨ b.inend < b.instart + n + length := by
        unfold Buffers.inend
        omega
      have hforward : ¬Wraps b (b.instart + m.inreadat) length ⟨number % 2 = 1, number / 2⟩ := by
        rintro ⟨hback, hlt, -⟩
        have hafter : Distance.after ⟨number % 2 = 1, number / 2⟩ m.inreadat < 0 := by
          unfold Distance.after
          rw [if_pos hback]
          dsimp only at hlt ⊢
          omega
        rw [hat] at hafter
        exact absurd hafter (Int.not_lt.mpr (Int.natCast_nonneg n))
      rw [if_neg hin] at hexec
      rw [if_pos hguard, execRead_none hexec, stopOf, if_neg hforward]

/-- `TargetCopy` runs the instruction of the distance. -/
theorem caseTargetCopy_eq {patchat old : List UInt8} (hfits : Fits b) (hm : Inside b m)
    (hout : m.out.length + length ≤ b.outlen) :
    caseTargetCopy b length patchat (state b m old) =
      readOperand length patchat .targetCopy >>= execRead b m := by
  rw [caseTargetCopy, readOperand, bind_assoc]
  refine bind_congr_ok fun r hr => ?_
  obtain ⟨number, rest⟩ := r
  have hnumber := (decodeto_eq_ok_iff.mp hr).1
  rw [ok_bind]
  dsimp only
  have houtreadat : (state b m old).outreadat = b.outstart + m.outreadat := rfl
  have hout' : (state b m old).out = m.out := rfl
  rw [houtreadat, hout']
  by_cases hb : b.outstart = 0
  · -- nothing was written yet, so there is nothing to copy
    have hempty : m.out.length = 0 := by rw [hm.null hb, List.length_nil]
    have hexec : m.exec b.source (.targetCopy length ⟨number % 2 = 1, number / 2⟩) = none := by
      simp only [Machine.exec]
      split
      · exact if_neg (by omega)
      · rfl
    rw [execRead_none hexec, if_pos (Or.inr (Or.inl (by omega)))]
    rfl
  · have hend := hfits.outend hb
    have hread : b.outstart + m.outreadat ≤ addressEnd :=
      (Nat.add_le_add_left hm.outreadat _).trans hend
    have hwritten : b.outstart + m.out.length + length ≤ b.outend := by
      unfold Buffers.outend
      omega
    cases hat : Distance.after ⟨number % 2 = 1, number / 2⟩ m.outreadat with
    | negSucc k =>
      obtain ⟨hsign, hfront⟩ := backwards_of_after hat
      have hexec : m.exec b.source (.targetCopy length ⟨number % 2 = 1, number / 2⟩) = none := by
        simp only [Machine.exec, hat]
      have hguard : moved (b.outstart + m.outreadat) number < b.outstart ∨
          b.outstart + m.out.length ≤ moved (b.outstart + m.outreadat) number ∨
          b.outend < (moved (b.outstart + m.outreadat) number + length) % addressCount := by
        have hcount : addressCount = 2 ^ 64 := rfl
        unfold addressEnd at hend hread
        unfold sizeMax at hnumber
        by_cases hle : number / 2 ≤ b.outstart + m.outreadat
        · rw [moved_backwards hsign hle (by omega)]
          omega
        · rw [moved_around hsign (Nat.not_le.mp hle)]
          omega
      rw [execRead_none hexec, if_pos hguard]
      rfl
    | ofNat n =>
      obtain ⟨hmoved, hn⟩ := moved_of_after hread hnumber hat
      have hexec : m.exec b.source (.targetCopy length ⟨number % 2 = 1, number / 2⟩) =
          if n < m.out.length then
            some { m with outreadat := n + length, out := m.out ++ repeated (m.out.drop n) length }
          else none := by simp only [Machine.exec, hat]
      rw [hmoved]
      by_cases hin : n < m.out.length
      · -- what is copied ends inside the output since what is written does
        have hmod : (b.outstart + n + length) % addressCount = b.outstart + n + length := by
          have hcount : addressCount = 2 ^ 64 := rfl
          unfold addressEnd at hend
          exact Nat.mod_eq_of_lt (by omega)
        have hguard : ¬(b.outstart + n < b.outstart ∨ b.outstart + m.out.length ≤ b.outstart + n ∨
            b.outend < b.outstart + n + length) := by omega
        rw [if_pos hin] at hexec
        rw [execRead_some hb hexec, hmod, if_neg hguard]
        rw [targetCopyLoop_eq hb hin hout]
        rfl
      · rw [if_neg hin] at hexec
        rw [execRead_none hexec, if_pos (Or.inr (Or.inl (by omega)))]
        rfl

/-- An action of the code is the operand that is read and then run. -/
theorem applyAction_eq {patchat old : List UInt8} (hfits : Fits b) (hm : Inside b m)
    (hpos : 0 < length) (hlength : length ≤ addressEnd)
    (hout : m.out.length + length ≤ b.outlen) (action : Action) :
    applyAction b length patchat (state b m old) action =
      readOperand length patchat action >>= execRead b m := by
  cases action with
  | sourceRead => exact caseSourceRead_eq hpos hout
  | targetRead => exact caseTargetRead_eq hpos hout
  | sourceCopy => exact caseSourceCopy_eq hfits hm hpos hlength hout
  | targetCopy => exact caseTargetCopy_eq hfits hm hout

/-- The place behind what an instruction writes is an address. -/
theorem place_lt (hfits : Fits b) (hm : Inside b m) (hlength : length ≤ addressEnd) :
    b.outstart + m.out.length + length < addressCount := by
  have hcount : addressCount = 2 ^ 64 := rfl
  unfold addressEnd at hlength
  by_cases hb : b.outstart = 0
  · rw [hb, hm.null hb, List.length_nil]
    omega
  · have hend := hfits.outend hb
    have hwritten := hm.out
    unfold addressEnd Buffers.outend at hend
    omega

/-- The body of the loop reads an instruction and runs it. -/
theorem applyInstruction_eq (patchat : List UInt8) (hfits : Fits b) (hm : Inside b m) :
    applyInstruction b (state b m patchat) =
      readInstruction (b.outlen - m.out.length) patchat >>= execRead b m := by
  unfold applyInstruction readInstruction
  rw [bind_assoc]
  refine bind_congr_ok fun r hr => ?_
  obtain ⟨number, rest⟩ := r
  have hnumber := (decodeto_eq_ok_iff.mp hr).1
  have hlength : number >>> 2 + 1 ≤ addressEnd := by
    unfold addressEnd
    unfold sizeMax at hnumber
    rw [Nat.shiftRight_eq_div_pow]
    omega
  have hmod : (b.outstart + m.out.length + (number >>> 2 + 1)) % addressCount =
      b.outstart + m.out.length + (number >>> 2 + 1) := Nat.mod_eq_of_lt (place_lt hfits hm hlength)
  have hwritten := hm.out
  dsimp only
  show (if b.outend < (b.outstart + m.out.length + (number >>> 2 + 1)) % addressCount then _
    else _) = _
  rw [hmod, Buffers.outend]
  by_cases hroom : b.outlen < m.out.length + (number >>> 2 + 1)
  · have hroom' : b.outlen - m.out.length < number >>> 2 + 1 := by omega
    rw [if_pos hroom', error_bind]
    exact if_pos (by omega)
  · have hroom' : ¬b.outlen - m.out.length < number >>> 2 + 1 := by omega
    rw [if_neg hroom', ← applyAction_eq hfits hm (Nat.succ_pos _) hlength (Nat.not_lt.mp hroom)]
    exact if_neg (by omega)

/-! ### The loop -/

/-- An instruction that the machine can run, and whose bytes fit the output, leaves its pointers
inside. -/
theorem inside_exec (hb : b.outstart ≠ 0) (hm : Inside b m) {m' : Machine} {i : Instruction}
    (h : m.exec b.source i = some m') (hout : m'.out.length ≤ b.outlen) : Inside b m' := by
  have hlen := length_exec h
  refine ⟨?_, ?_, hout, fun hnull => absurd hnull hb⟩
  · cases i with
    | sourceRead length =>
      simp only [Machine.exec] at h
      split at h <;> cases h
      exact hm.inreadat
    | targetRead bytes =>
      cases h
      exact hm.inreadat
    | sourceCopy length distance =>
      simp only [Machine.exec] at h
      split at h
      · rename_i n hn
        by_cases hin : n + length ≤ b.source.length
        · rw [if_pos hin] at h
          cases h
          exact hin
        · rw [if_neg hin] at h
          cases h
      · cases h
    | targetCopy length distance =>
      simp only [Machine.exec] at h
      split at h
      · split at h <;> cases h
        exact hm.inreadat
      · cases h
  · cases i with
    | sourceRead length =>
      simp only [Machine.exec] at h
      split at h <;> cases h
      exact hm.outreadat
    | targetRead bytes =>
      cases h
      exact hm.outreadat
    | sourceCopy length distance =>
      simp only [Machine.exec] at h
      split at h
      · split at h <;> cases h
        exact hm.outreadat
      · cases h
    | targetCopy length distance =>
      simp only [Machine.exec] at h
      split at h
      · rename_i n hn
        by_cases hin : n < m.out.length
        · rw [if_pos hin] at h
          cases h
          rw [Instruction.length] at hlen
          show n + length ≤ b.outlen
          omega
        · rw [if_neg hin] at h
          cases h
      · cases h

/-- The machine before the first instruction. -/
theorem inside_start (b : Buffers) : Inside b .start :=
  ⟨Nat.zero_le _, Nat.zero_le _, Nat.zero_le _, fun _ => rfl⟩

/-- What one turn of the loop did: it read an encoded instruction and ran it. -/
theorem exec_of_applyInstruction {patchat : List UInt8} {s' : ApplyState} (hfits : Fits b)
    (hm : Inside b m) (h : applyInstruction b (state b m patchat) = .ok s') :
    ∃ i rest m', i.Fits ∧ patchat = i.encode ++ rest ∧ m.exec b.source i = some m' ∧
      Inside b m' ∧ s' = state b m' rest := by
  rw [applyInstruction_eq patchat hfits hm] at h
  obtain ⟨⟨i, rest⟩, hread, hexec⟩ := bind_eq_ok_iff.mp h
  obtain ⟨hi, hroom, hbytes, -⟩ := encode_of_readInstruction hread
  cases hrun : m.exec b.source i with
  | none =>
    rw [execRead_none hrun] at hexec
    cases hexec
  | some m' =>
    by_cases hb : b.outstart = 0
    · rw [execRead_null hb hrun] at hexec
      cases hexec
    · rw [execRead_some hb hrun] at hexec
      cases hexec
      have hlen := length_exec hrun
      have hout := hm.out
      exact ⟨i, rest, m', hi, hbytes, hrun, inside_exec hb hm hrun (by omega), rfl⟩

/-- One turn of the loop on an encoded instruction. -/
theorem applyInstruction_encode {rest : List UInt8} {m' : Machine} {i : Instruction}
    (hfits : Fits b) (hb : b.outstart ≠ 0) (hm : Inside b m) (hi : i.Fits)
    (hexec : m.exec b.source i = some m') (hout : m'.out.length ≤ b.outlen)
    (hrest : 12 ≤ rest.length) :
    applyInstruction b (state b m (i.encode ++ rest)) = .ok (state b m' rest) := by
  have hlen := length_exec hexec
  have hread : readInstruction (b.outlen - m.out.length) (i.encode ++ rest) = .ok (i, rest) :=
    readInstruction_encode hi (by omega) fun _ => hrest
  rw [applyInstruction_eq _ hfits hm, hread, ok_bind, execRead_some hb hexec]

/-- A turn of the loop in front of the checksums. -/
theorem instructionLoop_step {s : ApplyState} (h : 12 < s.patchat.length) :
    instructionLoop b s = applyInstruction b s >>= instructionLoop b := by
  rw [instructionLoop, if_pos h]
  split
  · rename_i hstep
    rw [hstep]
    rfl
  · rename_i hstep
    rw [hstep]
    rfl

/-- The end of the loop. -/
theorem instructionLoop_end {s : ApplyState} (h : s.patchat.length ≤ 12) :
    instructionLoop b s = .ok s := by
  rw [instructionLoop, if_neg (Nat.not_lt.mpr h)]

/-- What the loop did: it read encoded instructions and ran them. -/
theorem run_of_instructionLoop {patchat : List UInt8} {s' : ApplyState} (hfits : Fits b)
    (hm : Inside b m) (h : instructionLoop b (state b m patchat) = .ok s') :
    ∃ is rest m', (∀ i ∈ is, Instruction.Fits i) ∧
      patchat = is.flatMap Instruction.encode ++ rest ∧ m.run b.source is = some m' ∧
      s' = state b m' rest := by
  induction hn : patchat.length using Nat.strongRecOn generalizing m patchat with
  | ind n ih =>
    by_cases hmore : 12 < patchat.length
    · rw [instructionLoop_step hmore] at h
      obtain ⟨s₁, hstep, hloop⟩ := bind_eq_ok_iff.mp h
      have hless := length_lt_of_applyInstruction hstep
      obtain ⟨i, rest, m₁, hi, rfl, hexec, hm₁, rfl⟩ := exec_of_applyInstruction hfits hm hstep
      obtain ⟨is, rest', m', his, hbytes, hrun, hs'⟩ := ih rest.length (hn ▸ hless) hm₁ hloop rfl
      refine ⟨i :: is, rest', m', List.forall_mem_cons.mpr ⟨hi, his⟩, ?_, ?_, hs'⟩
      · rw [List.flatMap_cons, List.append_assoc, ← hbytes]
      · rw [Machine.run, hexec, Option.bind_some, hrun]
    · rw [instructionLoop_end (Nat.not_lt.mp hmore)] at h
      cases h
      exact ⟨[], patchat, m, fun i hi => absurd hi List.not_mem_nil, rfl, rfl, rfl⟩

/-- An encoded instruction has a byte. -/
theorem encode_length_pos (i : Instruction) : 0 < i.encode.length := by
  have hpos := List.length_pos_of_ne_nil (writenum_ne_nil i.number)
  rw [Instruction.encode, List.length_append]
  omega

/-- The loop runs a list of encoded instructions up to the checksums. -/
theorem instructionLoop_encode {checksums : List UInt8} (hchecksums : checksums.length = 12)
    (hfits : Fits b) (hb : b.outstart ≠ 0) :
    ∀ {is : List Instruction} {m m' : Machine}, Inside b m → (∀ i ∈ is, Instruction.Fits i) →
      m.run b.source is = some m' → m'.out.length ≤ b.outlen →
      instructionLoop b (state b m (is.flatMap Instruction.encode ++ checksums)) =
        .ok (state b m' checksums)
  | [], m, m', _, _, hrun, _ => by
    cases hrun
    exact instructionLoop_end hchecksums.le
  | i :: is, m, m', hm, his, hrun, hout => by
    obtain ⟨hi, his⟩ := List.forall_mem_cons.mp his
    obtain ⟨m₁, hexec, hrun⟩ := Option.bind_eq_some_iff.mp hrun
    have hgrow := (length_le_run hrun).trans hout
    have hmore : 12 < (i.encode ++ (is.flatMap Instruction.encode ++ checksums)).length := by
      have hpos := encode_length_pos i
      rw [List.length_append, List.length_append]
      omega
    have hrest : 12 ≤ (is.flatMap Instruction.encode ++ checksums).length := by
      rw [List.length_append]
      omega
    rw [List.flatMap_cons, List.append_assoc, instructionLoop_step hmore,
      applyInstruction_encode hfits hb hm hi hexec hgrow hrest, ok_bind,
      instructionLoop_encode hchecksums hfits hb (inside_exec hb hm hexec hgrow) his hrun hout]

end BfMultiplayer.BpsRefinement

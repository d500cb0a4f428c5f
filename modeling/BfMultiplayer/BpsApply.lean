import BfMultiplayer.BpsNumbers
import BfMultiplayer.Crc32
import Mathlib.Data.List.GetD
import Mathlib.Data.List.OfFn

/-!
# Applying a BPS patch

`bps_apply` as the loader of patched files calls it. The pointer into the patch is
the list of bytes from it to the end of the patch, the last twelve of which are the
checksums; the pointers into the source and into the output are addresses of 64
bits, so a distance may lead around the end of the address space. An allocation may
give the null pointer, for which the code has no test. Reads and writes have the
bounds that C leaves to its caller as a test, so an access outside is an outcome of
its own. The four byte loops have closed forms, among them the copy from the output
to itself, which repeats what lies between its two ends.
-/

namespace BfMultiplayer.BpsApply

open BpsNumbers Crc32

/-- `bpserror`. -/
inductive BpsError where
  /-- Patch applied or created. -/
  | ok
  /-- The input is the output of the patch. -/
  | toOutput
  /-- The input is not the one the patch is for. -/
  | notThis
  /-- Not a patch, or malformed. -/
  | broken
  /-- The patch could not be read. -/
  | io
  /-- The files that a patch is made from are identical. -/
  | identical
  /-- A number does not fit. -/
  | tooBig
  /-- An allocation failed. -/
  | outOfMem
  /-- The callback returned false. -/
  | canceled
  deriving DecidableEq, Repr

/-- What C leaves undefined and the code has no test for, or might have none for. -/
inductive Fault where
  /-- A read behind the patch. -/
  | patchRead
  /-- A shift by the width of `size_t` or more. -/
  | shift
  /-- A read outside the source. -/
  | sourceRead
  /-- A read of an output byte that was not written. -/
  | targetRead
  /-- A write outside the output, or through its null pointer. -/
  | targetWrite
  /-- A write outside the metadata, or through their null pointer. -/
  | metadataWrite
  deriving DecidableEq, Repr

/-- Why the body of `bps_apply` is left early. -/
inductive Stop where
  /-- The macro `error`. -/
  | error (which : BpsError)
  /-- Undefined behaviour. -/
  | fault (what : Fault)
  deriving DecidableEq, Repr

/-- A part of the body that can be left early. -/
abbrev Attempt := Except Stop

/-- The macro `read8`. -/
def read8 : List UInt8 → Attempt (UInt8 × List UInt8)
  | [] => .error (.fault .patchRead)
  | byte :: patchat => .ok (byte, patchat)

/-- The macro `decodeto`. -/
def decodeto (patchat : List UInt8) : Attempt (ℕ × List UInt8) :=
  match decodenum patchat with
  | .number out rest => .ok (out, rest)
  | .tooBig => .error (.error .tooBig)
  | .patchRead => .error (.fault .patchRead)
  | .shift => .error (.fault .shift)

/-- How many addresses there are. -/
def addressCount : ℕ := sizeMax + 1

/-- What the loop over the instructions reads from and writes to. -/
structure Buffers where
  /-- The source. -/
  source : List UInt8
  /-- Its address. -/
  instart : ℕ
  /-- The address of the output, zero for the null pointer. -/
  outstart : ℕ
  /-- The length of the output. -/
  outlen : ℕ

/-- Behind the source. -/
def Buffers.inend (b : Buffers) : ℕ := b.instart + b.source.length

/-- Behind the output. -/
def Buffers.outend (b : Buffers) : ℕ := b.outstart + b.outlen

/-- The macro `write8`: `out` is what has been written. -/
def write8 (b : Buffers) (out : List UInt8) (byte : UInt8) : Attempt (List UInt8) :=
  if b.outstart ≠ 0 ∧ out.length < b.outlen then .ok (out ++ [byte])
  else .error (.fault .targetWrite)

/-- A read at an address, from a memory that starts at another one. -/
def byteAt (memory : List UInt8) (start readat : ℕ) (fault : Fault) : Attempt UInt8 :=
  if start ≤ readat then
    match memory[readat - start]? with
    | some byte => .ok byte
    | none => .error (.fault fault)
  else .error (.fault fault)

/-- The loop of a `SourceRead`. -/
def sourceReadLoop (b : Buffers) : ℕ → List UInt8 → Attempt (List UInt8)
  | 0, out => .ok out
  | length + 1, out => do
    let byte ← byteAt b.source b.instart (b.instart + out.length) .sourceRead
    let out ← write8 b out byte
    sourceReadLoop b length out

/-- The loop of a `TargetRead`. -/
def targetReadLoop (b : Buffers) :
    ℕ → List UInt8 → List UInt8 → Attempt (List UInt8 × List UInt8)
  | 0, patchat, out => .ok (patchat, out)
  | length + 1, patchat, out => do
    let (byte, patchat) ← read8 patchat
    let out ← write8 b out byte
    targetReadLoop b length patchat out

/-- The loop of a `SourceCopy`. -/
def sourceCopyLoop (b : Buffers) : ℕ → ℕ → List UInt8 → Attempt (ℕ × List UInt8)
  | 0, inreadat, out => .ok (inreadat, out)
  | length + 1, inreadat, out => do
    let byte ← byteAt b.source b.instart inreadat .sourceRead
    let out ← write8 b out byte
    sourceCopyLoop b length (inreadat + 1) out

/-- The loop of a `TargetCopy`. -/
def targetCopyLoop (b : Buffers) : ℕ → ℕ → List UInt8 → Attempt (ℕ × List UInt8)
  | 0, outreadat, out => .ok (outreadat, out)
  | length + 1, outreadat, out => do
    let byte ← byteAt out b.outstart outreadat .targetRead
    let out ← write8 b out byte
    targetCopyLoop b length (outreadat + 1) out

/-- The actions, in the order of the enumeration. -/
inductive Action where
  /-- Bytes of the source from the place of the output. -/
  | sourceRead
  /-- Bytes of the patch. -/
  | targetRead
  /-- Bytes of the source from a place of their own. -/
  | sourceCopy
  /-- Bytes of the output. -/
  | targetCopy
  deriving DecidableEq, Repr

/-- `thisinstr & 3`. -/
def Action.ofInstr (thisinstr : ℕ) : Action :=
  match thisinstr &&& 3 with
  | 0 => .sourceRead
  | 1 => .targetRead
  | 2 => .sourceCopy
  | _ => .targetCopy

/-- What the loop over the instructions keeps. -/
structure ApplyState where
  /-- The bytes of the patch from the pointer on. -/
  patchat : List UInt8
  /-- Where the next `SourceCopy` counts from. -/
  inreadat : ℕ
  /-- Where the next `TargetCopy` counts from. -/
  outreadat : ℕ
  /-- The output so far; behind it is the place of the next byte. -/
  out : List UInt8
  deriving DecidableEq, Repr

/-- The pointer of a copy after its distance, whose lowest bit is the sign. -/
def moved (readat encodeddistance : ℕ) : ℕ :=
  let distance := encodeddistance >>> 1
  if encodeddistance &&& 1 = 0 then (readat + distance) % addressCount
  else (readat + addressCount - distance) % addressCount

/-- `case SourceRead`. -/
def caseSourceRead (b : Buffers) (length : ℕ) (patchat : List UInt8) (s : ApplyState) :
    Attempt ApplyState :=
  if b.source.length < s.out.length + length then .error (.error .broken)
  else do
    let out ← sourceReadLoop b length s.out
    .ok { s with patchat := patchat, out := out }

/-- `case TargetRead`; `patchend` is in front of the twelve bytes of the checksums. -/
def caseTargetRead (b : Buffers) (length : ℕ) (patchat : List UInt8) (s : ApplyState) :
    Attempt ApplyState :=
  if patchat.length < length + 12 then .error (.error .broken)
  else do
    let (patchat, out) ← targetReadLoop b length patchat s.out
    .ok { s with patchat := patchat, out := out }

/-- `case SourceCopy`. -/
def caseSourceCopy (b : Buffers) (length : ℕ) (patchat : List UInt8) (s : ApplyState) :
    Attempt ApplyState := do
  let (encodeddistance, patchat) ← decodeto patchat
  let inreadat := moved s.inreadat encodeddistance
  if inreadat < b.instart ∨ b.inend < (inreadat + length) % addressCount then
    .error (.error .broken)
  else do
    let (inreadat, out) ← sourceCopyLoop b length inreadat s.out
    .ok { s with patchat := patchat, inreadat := inreadat, out := out }

/-- `case TargetCopy`. -/
def caseTargetCopy (b : Buffers) (length : ℕ) (patchat : List UInt8) (s : ApplyState) :
    Attempt ApplyState := do
  let (encodeddistance, patchat) ← decodeto patchat
  let outreadat := moved s.outreadat encodeddistance
  if outreadat < b.outstart ∨ b.outstart + s.out.length ≤ outreadat ∨
      b.outend < (outreadat + length) % addressCount then
    .error (.error .broken)
  else do
    let (outreadat, out) ← targetCopyLoop b length outreadat s.out
    .ok { s with patchat := patchat, outreadat := outreadat, out := out }

/-- The `switch` over the actions. -/
def applyAction (b : Buffers) (length : ℕ) (patchat : List UInt8) (s : ApplyState) :
    Action → Attempt ApplyState
  | .sourceRead => caseSourceRead b length patchat s
  | .targetRead => caseTargetRead b length patchat s
  | .sourceCopy => caseSourceCopy b length patchat s
  | .targetCopy => caseTargetCopy b length patchat s

/-- The body of the loop over the instructions. -/
def applyInstruction (b : Buffers) (s : ApplyState) : Attempt ApplyState := do
  let (thisinstr, patchat) ← decodeto s.patchat
  let length := (thisinstr >>> 2) + 1
  if b.outend < (b.outstart + s.out.length + length) % addressCount then
    .error (.error .broken)
  else applyAction b length patchat s (Action.ofInstr thisinstr)

/-- The bytes that an overlapping copy writes: the window over and over. -/
def repeated (window : List UInt8) (length : ℕ) : List UInt8 :=
  List.ofFn fun i : Fin length => window.getD (i.val % window.length) 0

/-! ### Closed forms of the byte loops -/

/-- A write inside the output appends. -/
theorem write8_of_lt {b : Buffers} (hb : b.outstart ≠ 0) {out : List UInt8} {byte : UInt8}
    (h : out.length < b.outlen) : write8 b out byte = .ok (out ++ [byte]) := if_pos ⟨hb, h⟩

/-- A write through the null pointer. -/
theorem write8_null {b : Buffers} (hb : b.outstart = 0) (out : List UInt8) (byte : UInt8) :
    write8 b out byte = .error (.fault .targetWrite) := if_neg fun h => h.1 hb

/-- A read inside its memory. -/
theorem byteAt_of_lt {memory : List UInt8} {start n : ℕ} {fault : Fault} (h : n < memory.length) :
    byteAt memory start (start + n) fault = .ok memory[n] := by
  rw [byteAt, if_pos (Nat.le_add_right start n), Nat.add_sub_cancel_left,
    List.getElem?_eq_getElem h]

/-- A read behind its memory. -/
theorem byteAt_of_le {memory : List UInt8} {start readat : ℕ} {fault : Fault}
    (h : start + memory.length ≤ readat) :
    byteAt memory start readat fault = .error (.fault fault) := by
  have hstart : start ≤ readat := by omega
  have hlong : memory.length ≤ readat - start := by omega
  rw [byteAt, if_pos hstart, List.getElem?_eq_none hlong]

/-- Going on behind a part that was not left. -/
theorem ok_bind {α β : Type} (a : α) (f : α → Attempt β) : (Except.ok a >>= f) = f a := rfl

/-- A part that was left leaves what contains it. -/
theorem error_bind {α β : Type} (e : Stop) (f : α → Attempt β) :
    ((Except.error e : Attempt α) >>= f) = .error e := rfl

/-- A `SourceCopy` inside both of its memories copies a range of the source. -/
theorem sourceCopyLoop_eq {b : Buffers} (hb : b.outstart ≠ 0) :
    ∀ {length n : ℕ} {out : List UInt8}, n + length ≤ b.source.length →
      out.length + length ≤ b.outlen →
      sourceCopyLoop b length (b.instart + n) out =
        .ok (b.instart + (n + length), out ++ (b.source.drop n).take length)
  | 0, n, out, _, _ => by
    rw [List.take_zero, List.append_nil]
    rfl
  | length + 1, n, out, hin, hout => by
    have hn : n < b.source.length := by omega
    have hwritten : (out ++ [b.source[n]]).length + length ≤ b.outlen := by
      rw [List.length_append, List.length_singleton]
      omega
    have hinside : n + 1 + length ≤ b.source.length := by omega
    have hnext := sourceCopyLoop_eq hb hinside hwritten
    rw [sourceCopyLoop, byteAt_of_lt hn, ok_bind, write8_of_lt hb (by omega), ok_bind,
      Nat.add_assoc, hnext, List.drop_eq_getElem_cons hn, List.take_succ_cons, List.append_assoc,
      List.singleton_append, Nat.succ_add_eq_add_succ]

/-- A `SourceCopy` to the null pointer. -/
theorem sourceCopyLoop_null {b : Buffers} (hb : b.outstart = 0) {length n : ℕ}
    (hlength : 0 < length) (hn : n < b.source.length) (out : List UInt8) :
    sourceCopyLoop b length (b.instart + n) out = .error (.fault .targetWrite) := by
  obtain ⟨k, rfl⟩ := Nat.exists_eq_add_of_lt hlength
  rw [Nat.zero_add, sourceCopyLoop, byteAt_of_lt hn, ok_bind, write8_null hb, error_bind]

/-- A `SourceCopy` from behind the source. -/
theorem sourceCopyLoop_outside {b : Buffers} {length readat : ℕ} (hlength : 0 < length)
    (h : b.inend ≤ readat) (out : List UInt8) :
    sourceCopyLoop b length readat out = .error (.fault .sourceRead) := by
  obtain ⟨k, rfl⟩ := Nat.exists_eq_add_of_lt hlength
  rw [Nat.zero_add, sourceCopyLoop, byteAt_of_le h, error_bind]

/-- A `SourceRead` is a `SourceCopy` from the place of the output. -/
theorem sourceReadLoop_eq_map (b : Buffers) (length : ℕ) (out : List UInt8) :
    sourceReadLoop b length out =
      (sourceCopyLoop b length (b.instart + out.length) out).map Prod.snd := by
  induction length generalizing out with
  | zero => rfl
  | succ length ih =>
    rw [sourceReadLoop, sourceCopyLoop]
    cases byteAt b.source b.instart (b.instart + out.length) .sourceRead with
    | error e => rfl
    | ok byte =>
      rw [ok_bind, ok_bind]
      by_cases h : b.outstart ≠ 0 ∧ out.length < b.outlen
      · rw [write8_of_lt h.1 h.2, ok_bind, ok_bind, ih, List.length_append,
          List.length_singleton, Nat.add_assoc]
      · rw [write8, if_neg h]
        rfl

/-- A `TargetRead` inside the output appends the bytes of the patch. -/
theorem targetReadLoop_eq {b : Buffers} (hb : b.outstart ≠ 0) {rest : List UInt8} :
    ∀ {bytes out : List UInt8}, out.length + bytes.length ≤ b.outlen →
      targetReadLoop b bytes.length (bytes ++ rest) out = .ok (rest, out ++ bytes)
  | [], out, _ => by
    rw [List.append_nil]
    rfl
  | byte :: bytes, out, h => by
    rw [List.length_cons] at h
    have hwritten : (out ++ [byte]).length + bytes.length ≤ b.outlen := by
      rw [List.length_append, List.length_singleton]
      omega
    rw [List.length_cons, targetReadLoop, List.cons_append, read8, ok_bind]
    show (write8 b out byte >>= fun out => targetReadLoop b bytes.length _ out) = _
    rw [write8_of_lt hb (by omega), ok_bind, targetReadLoop_eq hb hwritten, List.append_assoc,
      List.singleton_append]

/-- A `TargetRead` to the null pointer. -/
theorem targetReadLoop_null {b : Buffers} (hb : b.outstart = 0) {length : ℕ} (hlength : 0 < length)
    {patchat : List UInt8} (hbytes : patchat ≠ []) (out : List UInt8) :
    targetReadLoop b length patchat out = .error (.fault .targetWrite) := by
  obtain ⟨k, rfl⟩ := Nat.exists_eq_add_of_lt hlength
  cases patchat with
  | nil => exact absurd rfl hbytes
  | cons byte patchat =>
    rw [Nat.zero_add, targetReadLoop, read8, ok_bind]
    show (write8 b out byte >>= fun out => targetReadLoop b k patchat out) = _
    rw [write8_null hb, error_bind]

/-- The window over and over begins with its first byte and goes on with the window
turned by one. -/
theorem repeated_succ (byte : UInt8) (window : List UInt8) (length : ℕ) :
    repeated (byte :: window) (length + 1) = byte :: repeated (window ++ [byte]) length := by
  have hbyte : ∀ i, (byte :: window).getD ((i + 1) % (window.length + 1)) 0 =
      (window ++ [byte]).getD (i % (window.length + 1)) 0 := by
    intro i
    have hlt : i % (window.length + 1) < window.length + 1 := Nat.mod_lt _ (Nat.succ_pos _)
    have hmod : (i + 1) % (window.length + 1) =
        (i % (window.length + 1) + 1) % (window.length + 1) := by rw [Nat.mod_add_mod]
    rw [hmod]
    generalize i % (window.length + 1) = j at hlt
    by_cases hj : j < window.length
    · rw [Nat.mod_eq_of_lt (by omega), List.getD_cons_succ, List.getD_append _ _ _ _ hj]
    · -- the last byte of the turned window is the first of the old one
      have hlast : j = window.length := by omega
      rw [hlast, Nat.mod_self, List.getD_cons_zero, List.getD_append_right _ _ _ _ le_rfl,
        Nat.sub_self, List.getD_cons_zero]
  unfold repeated
  rw [List.ofFn_succ, List.length_cons, List.length_append, List.length_singleton]
  congr 1
  congr 1
  funext i
  exact hbyte i.val

/-- A `TargetCopy` from behind the start of the output repeats what lies between. -/
theorem targetCopyLoop_eq {b : Buffers} (hb : b.outstart ≠ 0) :
    ∀ {length n : ℕ} {out : List UInt8}, n < out.length → out.length + length ≤ b.outlen →
      targetCopyLoop b length (b.outstart + n) out =
        .ok (b.outstart + (n + length), out ++ repeated (out.drop n) length)
  | 0, n, out, _, _ => by
    rw [repeated, List.ofFn_zero, List.append_nil]
    rfl
  | length + 1, n, out, hn, hout => by
    have hwritten : (out ++ [out[n]]).length + length ≤ b.outlen := by
      rw [List.length_append, List.length_singleton]
      omega
    have hinside : n + 1 < (out ++ [out[n]]).length := by
      rw [List.length_append, List.length_singleton]
      omega
    have hnext := targetCopyLoop_eq hb hinside hwritten
    rw [targetCopyLoop, byteAt_of_lt hn, ok_bind, write8_of_lt hb (by omega), ok_bind,
      Nat.add_assoc, hnext, List.drop_eq_getElem_cons hn, repeated_succ, List.append_assoc,
      List.singleton_append, Nat.succ_add_eq_add_succ, List.drop_append_of_le_length (by omega)]

/-! ### The loop over the instructions -/

/-- A sequence of two parts that was not left. -/
theorem bind_eq_ok_iff {α β : Type} {x : Attempt α} {f : α → Attempt β} {b : β} :
    (x >>= f) = .ok b ↔ ∃ a, x = .ok a ∧ f a = .ok b := by
  cases x with
  | error e =>
    constructor
    · intro h
      cases h
    · rintro ⟨_, h, -⟩
      cases h
  | ok a => exact ⟨fun h => ⟨a, rfl, h⟩, fun ⟨a', h, hf⟩ => by cases h; exact hf⟩

/-- A number is read exactly where its spelling stands. -/
theorem decodeto_eq_ok_iff {patchat rest : List UInt8} {n : ℕ} :
    decodeto patchat = .ok (n, rest) ↔ n ≤ sizeMax ∧ patchat = writenum n ++ rest := by
  rw [← decodenum_eq_number_iff]
  unfold decodeto
  cases decodenum patchat <;> simp

/-- Behind a number that was read there are fewer bytes. -/
theorem length_lt_of_decodeto {patchat rest : List UInt8} {n : ℕ}
    (h : decodeto patchat = .ok (n, rest)) : rest.length < patchat.length :=
  length_lt_of_decodenum ((decodenum_eq_number_iff _ _ _).mpr (decodeto_eq_ok_iff.mp h))

/-- A `TargetRead` does not move back in the patch. -/
theorem length_le_of_targetReadLoop {b : Buffers} {length : ℕ}
    {patchat patchat' out out' : List UInt8}
    (h : targetReadLoop b length patchat out = .ok (patchat', out')) :
    patchat'.length ≤ patchat.length := by
  induction length generalizing patchat out with
  | zero =>
    cases h
    exact le_rfl
  | succ length ih =>
    obtain ⟨⟨byte, rest⟩, hread, hrest⟩ := bind_eq_ok_iff.mp h
    obtain ⟨written, -, hloop⟩ := bind_eq_ok_iff.mp hrest
    cases patchat with
    | nil => cases hread
    | cons head tail =>
      cases hread
      exact (ih hloop).trans (Nat.le_succ _)

/-- No action moves back in the patch. -/
theorem length_le_of_applyAction {b : Buffers} {patchat : List UInt8} {length : ℕ}
    {s s' : ApplyState} {action : Action}
    (h : applyAction b length patchat s action = .ok s') :
    s'.patchat.length ≤ patchat.length := by
  cases action with
  | sourceRead =>
    rw [applyAction, caseSourceRead] at h
    split at h
    · cases h
    · obtain ⟨out, -, hend⟩ := bind_eq_ok_iff.mp h
      cases hend
      exact le_rfl
  | targetRead =>
    rw [applyAction, caseTargetRead] at h
    split at h
    · cases h
    · obtain ⟨⟨rest, out⟩, hloop, hend⟩ := bind_eq_ok_iff.mp h
      cases hend
      exact length_le_of_targetReadLoop hloop
  | sourceCopy =>
    obtain ⟨⟨encodeddistance, rest⟩, hdistance, hcopy⟩ := bind_eq_ok_iff.mp h
    dsimp only at hcopy
    split at hcopy
    · cases hcopy
    · obtain ⟨⟨inreadat, out⟩, -, hend⟩ := bind_eq_ok_iff.mp hcopy
      cases hend
      exact (length_lt_of_decodeto hdistance).le
  | targetCopy =>
    obtain ⟨⟨encodeddistance, rest⟩, hdistance, hcopy⟩ := bind_eq_ok_iff.mp h
    dsimp only at hcopy
    split at hcopy
    · cases hcopy
    · obtain ⟨⟨outreadat, out⟩, -, hend⟩ := bind_eq_ok_iff.mp hcopy
      cases hend
      exact (length_lt_of_decodeto hdistance).le

/-- Every instruction takes bytes of the patch. -/
theorem length_lt_of_applyInstruction {b : Buffers} {s s' : ApplyState}
    (h : applyInstruction b s = .ok s') : s'.patchat.length < s.patchat.length := by
  obtain ⟨⟨thisinstr, patchat⟩, hnum, haction⟩ := bind_eq_ok_iff.mp h
  dsimp only at haction
  split at haction
  · cases haction
  · exact lt_of_le_of_lt (length_le_of_applyAction haction) (length_lt_of_decodeto hnum)

/-- The loop over the instructions: it ends when the pointer is at the checksums or
behind their start. -/
def instructionLoop (b : Buffers) (s : ApplyState) : Attempt ApplyState :=
  if 12 < s.patchat.length then
    match _h : applyInstruction b s with
    | .error e => .error e
    | .ok s' => instructionLoop b s'
  else .ok s
termination_by s.patchat.length
decreasing_by exact length_lt_of_applyInstruction _h

/-- What `bps_apply` returns and leaves in `out` and `metadata`. -/
structure ApplyResult where
  /-- The return value. -/
  error : BpsError
  /-- The output; nothing for the null pointer. -/
  out : Option (List UInt8)
  /-- The metadata without the zero byte behind it. -/
  metadata : List UInt8
  deriving DecidableEq, Repr

/-- What is left behind the label `exit`. -/
def ApplyResult.exit (error : BpsError) : ApplyResult := ⟨error, none, []⟩

/-- `read32`. -/
def read32 (ptr : List UInt8) : UInt32 :=
  (ptr.getD 0 0).toUInt32 ||| (ptr.getD 1 0).toUInt32 <<< 8 |||
    (ptr.getD 2 0).toUInt32 <<< 16 ||| (ptr.getD 3 0).toUInt32 <<< 24

/-- The four tests of the signature. -/
def readSignature : List UInt8 → List UInt8 → Attempt (List UInt8)
  | [], patchat => .ok patchat
  | expected :: signature, patchat => do
    let (byte, patchat) ← read8 patchat
    if byte ≠ expected then .error (.error .broken) else readSignature signature patchat

/-- The characters `BPS1`. -/
def signature : List UInt8 := [0x42, 0x50, 0x53, 0x31]

/-- Where the source lies, and what the allocations give. -/
structure Memory where
  /-- The address of the source. -/
  instart : ℕ
  /-- `mallocImpl`: the address of the block for the output (0) and for the metadata (1), of a
  size; zero is the null pointer. -/
  mallocImpl : ℕ → ℕ → ℕ

/-- A block of some address and size. -/
structure Block where
  /-- The address, zero for the null pointer. -/
  start : ℕ
  /-- The size. -/
  size : ℕ

/-- A write to the metadata. -/
def Block.write (block : Block) (i : ℕ) : Attempt Unit :=
  if block.start ≠ 0 ∧ i < block.size then .ok () else .error (.fault .metadataWrite)

/-- The loops over the metadata, from the index `i` on; the first one writes to a block. -/
def metadataLoop (block : Option Block) : ℕ → ℕ → List UInt8 → Attempt (List UInt8 × List UInt8)
  | 0, _, patchat => .ok ([], patchat)
  | left + 1, i, patchat => do
    let (byte, patchat) ← read8 patchat
    if let some block := block then block.write i
    let (metadata, patchat) ← metadataLoop block left (i + 1) patchat
    .ok (byte :: metadata, patchat)

/-- The metadata, with the zero byte behind them. -/
def readMetadata (mem : Memory) (wantMetadata : Bool) (metadatalen : ℕ) (patchat : List UInt8) :
    Attempt (List UInt8 × List UInt8) :=
  if wantMetadata = true ∧ metadatalen ≠ 0 then do
    let size := (metadatalen + 1) % addressCount
    let block : Block := ⟨mem.mallocImpl 1 size, size⟩
    let (metadata, patchat) ← metadataLoop (some block) metadatalen 0 patchat
    block.write metadatalen
    .ok (metadata, patchat)
  else metadataLoop none metadatalen 0 patchat

/-- The test of the input against what the patch is made for. -/
def checkInput (source : List UInt8) (acceptWrongInput : Bool) (inlen outlen : ℕ)
    (crcInE crcOutE : UInt32) : Attempt BpsError :=
  let crcInA := crc32 source
  if inlen ≠ source.length ∨ crcInA ≠ crcInE then
    let error := if source.length = outlen ∧ crcInA = crcOutE then .toOutput else .notThis
    if acceptWrongInput then .ok error else .error (.error error)
  else .ok .ok

/-- The tests behind the loop over the instructions. -/
def checkOutput (s : ApplyState) (acceptWrongInput : Bool) (outlen : ℕ) (crcOutE : UInt32)
    (error : BpsError) : Attempt BpsError :=
  if s.patchat.length ≠ 12 then .error (.error .broken)
  else if s.out.length ≠ outlen then .error (.error .broken)
  else if crc32 s.out ≠ crcOutE then
    if acceptWrongInput then .ok .notThis else .error (.error .notThis)
  else .ok error

/-- The part of the body behind the test of the checksum of the patch. -/
def applyChecked (mem : Memory) (source : List UInt8) (wantMetadata acceptWrongInput : Bool)
    (crcInE crcOutE : UInt32) (patchat : List UInt8) : Attempt ApplyResult := do
  let (inlen, patchat) ← decodeto patchat
  let (outlen, patchat) ← decodeto patchat
  let error ← checkInput source acceptWrongInput inlen outlen crcInE crcOutE
  let outstart := mem.mallocImpl 0 outlen
  let (metadatalen, patchat) ← decodeto patchat
  let (metadata, patchat) ← readMetadata mem wantMetadata metadatalen patchat
  let s ← instructionLoop ⟨source, mem.instart, outstart, outlen⟩
    ⟨patchat, mem.instart, outstart, []⟩
  let error ← checkOutput s acceptWrongInput outlen crcOutE error
  .ok ⟨error, if outstart = 0 then none else some s.out, if wantMetadata then metadata else []⟩

/-- The body of `bps_apply` behind the test of the length. -/
def applyBody (mem : Memory) (patch source : List UInt8) (wantMetadata acceptWrongInput : Bool) :
    Attempt ApplyResult := do
  let patchat ← readSignature signature patch
  let crcInE := read32 (patch.drop (patch.length - 12))
  let crcOutE := read32 (patch.drop (patch.length - 8))
  let crcPatchE := read32 (patch.drop (patch.length - 4))
  if crc32 (patch.take (patch.length - 4)) ≠ crcPatchE then .error (.error .broken)
  else applyChecked mem source wantMetadata acceptWrongInput crcInE crcOutE patchat

/-- `bps_apply`: what it returns, or what C leaves undefined on the way. -/
def bpsApply (mem : Memory) (patch source : List UInt8) (wantMetadata acceptWrongInput : Bool) :
    Except Fault ApplyResult :=
  if patch.length < 4 + 3 + 12 then .ok (.exit .broken)
  else match applyBody mem patch source wantMetadata acceptWrongInput with
    | .ok result => .ok result
    | .error (.error which) => .ok (.exit which)
    | .error (.fault what) => .error what

end BfMultiplayer.BpsApply

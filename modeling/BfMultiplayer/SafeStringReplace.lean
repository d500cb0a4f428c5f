import BfMultiplayer.TextReplace
import Mathlib.Data.List.OfFn

/-!
# Replacing in a string buffer

`replaceStringImpl_` reads a string forwards and writes what becomes of it into a
buffer of fixed size, which may be the one it reads. It is the branch for a
replacement that is no longer than what it replaces, and for two buffers. In one
buffer the writes never pass the reads, so both agree with replacing in a text.
-/

namespace BfMultiplayer.SafeStringReplace

open TextReplace

variable {α : Type*}

/-- The characters of a memory from an index on. -/
def memRead (memory : ℕ → α) (i n : ℕ) : List α := List.ofFn fun j : Fin n => memory (i + j)

/-- `MemUtil::copy` to an index. -/
def memCopy (memory : ℕ → α) (i : ℕ) (chars : List α) : ℕ → α :=
  fun k => if i ≤ k then (chars[k - i]?).getD (memory k) else memory k

/-- A memory holds a text from an index on. -/
def Holds (memory : ℕ → α) (i : ℕ) (text : List α) : Prop :=
  ∀ j < text.length, text[j]? = some (memory (i + j))

/-- What is read is what the memory holds. -/
theorem memRead_eq_iff {memory : ℕ → α} {i : ℕ} {text : List α} :
    memRead memory i text.length = text ↔ Holds memory i text := by
  unfold memRead Holds
  constructor
  · intro h j hj
    conv => lhs; rw [← h]
    rw [List.getElem?_ofFn, dif_pos hj]
  · intro h
    apply List.ext_getElem?
    intro j
    rw [List.getElem?_ofFn]
    by_cases hj : j < text.length
    · rw [dif_pos hj, h j hj]
    · rw [dif_neg hj, List.getElem?_eq_none (Nat.not_lt.mp hj)]

/-- A text in two parts. -/
theorem holds_append {memory : ℕ → α} {i : ℕ} {a b : List α} :
    Holds memory i (a ++ b) ↔ Holds memory i a ∧ Holds memory (i + a.length) b := by
  unfold Holds
  rw [List.length_append]
  constructor
  · intro h
    refine ⟨fun j hj => ?_, fun j hj => ?_⟩
    · rw [← List.getElem?_append_left hj]
      exact h j (by omega)
    · have hj' := h (a.length + j) (by omega)
      rw [List.getElem?_append_right (Nat.le_add_right _ _), Nat.add_sub_cancel_left] at hj'
      rw [hj', Nat.add_assoc]
  · rintro ⟨ha, hb⟩ j hj
    by_cases hja : j < a.length
    · rw [List.getElem?_append_left hja, ha j hja]
    · have hj' := hb (j - a.length) (by omega)
      rw [List.getElem?_append_right (Nat.not_lt.mp hja), hj']
      congr 2
      omega

/-- A memory that agrees where the text is. -/
theorem Holds.congr {memory memory' : ℕ → α} {i : ℕ} {text : List α} (h : Holds memory i text)
    (hsame : ∀ k, i ≤ k → memory' k = memory k) : Holds memory' i text := by
  intro j hj
  rw [hsame (i + j) (Nat.le_add_right i j)]
  exact h j hj

/-- The comparison finds an occurrence exactly where the text begins with one: what
stands behind the text is no part of what is searched. -/
theorem memRead_eq_iff_prefix {memory : ℕ → α} {i : ℕ} {nul : α} {oldStr text : List α}
    (htext : Holds memory i text) (hnul : memory (i + text.length) = nul) (hold : nul ∉ oldStr) :
    memRead memory i oldStr.length = oldStr ↔ oldStr <+: text := by
  rw [memRead_eq_iff]
  constructor
  · intro h
    by_cases hlen : oldStr.length ≤ text.length
    · rw [List.prefix_iff_eq_take]
      apply List.ext_getElem?
      intro j
      rw [List.getElem?_take]
      by_cases hj : j < oldStr.length
      · rw [if_pos hj, h j hj, htext j (by omega)]
      · rw [if_neg hj, List.getElem?_eq_none (Nat.not_lt.mp hj)]
    · have hend := h text.length (Nat.not_le.mp hlen)
      rw [hnul] at hend
      exact absurd (List.mem_of_getElem? hend) hold
  · rintro ⟨rest, rfl⟩
    exact (holds_append.mp htext).1

/-- A write leaves what is in front of it. -/
theorem memCopy_of_lt {memory : ℕ → α} {i k : ℕ} {chars : List α} (h : k < i) :
    memCopy memory i chars k = memory k := if_neg (Nat.not_le.mpr h)

/-- A write leaves what is behind it. -/
theorem memCopy_of_ge {memory : ℕ → α} {i k : ℕ} {chars : List α} (h : i + chars.length ≤ k) :
    memCopy memory i chars k = memory k := by
  unfold memCopy
  rw [if_pos (by omega), List.getElem?_eq_none (by omega), Option.getD_none]

/-- A write behind a write is one write. -/
theorem memCopy_memCopy (memory : ℕ → α) (i : ℕ) (a b : List α) :
    memCopy (memCopy memory i a) (i + a.length) b = memCopy memory i (a ++ b) := by
  funext k
  by_cases hk : i + a.length ≤ k
  · have hb : (a ++ b)[k - i]? = b[k - (i + a.length)]? := by
      rw [List.getElem?_append_right (by omega)]
      congr 1
      omega
    rw [memCopy, if_pos hk, memCopy_of_ge hk]
    unfold memCopy
    rw [if_pos (by omega), hb]
  · rw [memCopy_of_lt (Nat.not_le.mp hk)]
    unfold memCopy
    by_cases hi : i ≤ k
    · rw [if_pos hi, if_pos hi, List.getElem?_append_left (by omega)]
    · rw [if_neg hi, if_neg hi]

/-- Writing nothing. -/
theorem memCopy_nil (memory : ℕ → α) (i : ℕ) : memCopy memory i [] = memory := by
  funext k
  by_cases hk : i ≤ k
  · exact memCopy_of_ge (by rw [List.length_nil]; omega)
  · exact memCopy_of_lt (Nat.not_le.mp hk)

/-- Copying the characters of a replacement that has any is copying them all or none. -/
theorem copy_newStr (dst : ℕ → α) (bufferI copySize : ℕ) (newStr : List α) :
    (if 1 ≤ copySize then memCopy dst bufferI (newStr.take copySize) else dst) =
      memCopy dst bufferI (newStr.take copySize) := by
  by_cases h : 1 ≤ copySize
  · rw [if_pos h]
  · rw [if_neg h, Nat.lt_one_iff.mp (Nat.not_le.mp h), List.take_zero, memCopy_nil]

/-! ### The loop -/

variable [DecidableEq α]

/-- What is left in the buffer, in `length`, in `is_buffer_overflow` and as the
result. -/
structure Replaced (α : Type*) where
  /-- The buffer. -/
  dst : ℕ → α
  /-- The new length. -/
  length : ℕ
  /-- Whether the buffer was too small. -/
  isBufferOverflow : Bool
  /-- How many occurrences were replaced. -/
  ret : ℕ

/-- The loop of the branch "Simpler case" for strings of characters that `nul` ends.
`source` is the other buffer, or nothing when the string is replaced in place, and
`dstMaxIdx` is the last index of the buffer. -/
def replaceLoop (nul : α) (source : Option (ℕ → α)) (srcSize dstMaxIdx : ℕ) (oldStr newStr : List α)
    (dst : ℕ → α) (targetI bufferI ret : ℕ) : Replaced α :=
  if targetI < srcSize ∧ oldStr ≠ [] then
    let src := source.getD dst
    if memRead src targetI oldStr.length ≠ oldStr then
      -- not the old string, one character is copied
      if bufferI < dstMaxIdx then
        replaceLoop nul source srcSize dstMaxIdx oldStr newStr (memCopy dst bufferI [src targetI])
          (targetI + 1) (bufferI + 1) ret
      else ⟨memCopy dst dstMaxIdx [nul], dstMaxIdx, true, ret⟩
    else
      let copySize := min newStr.length (dstMaxIdx - bufferI)
      let dst := if 1 ≤ copySize then memCopy dst bufferI (newStr.take copySize) else dst
      let ret := ret + if newStr.length = 0 ∨ 0 < copySize then 1 else 0
      if newStr.length ≤ copySize then
        replaceLoop nul source srcSize dstMaxIdx oldStr newStr dst (targetI + oldStr.length)
          (bufferI + newStr.length) ret
      else ⟨memCopy dst dstMaxIdx [nul], dstMaxIdx, true, ret⟩
  else ⟨memCopy dst bufferI [nul], bufferI, false, ret⟩
termination_by srcSize - targetI
decreasing_by
  · omega
  · have hpos := List.length_pos_of_ne_nil (by assumption : targetI < srcSize ∧ oldStr ≠ []).2
    omega

/-- What replacing is to leave: from `bufferI` on the buffer holds as much of `full`
as fits in front of its last index, ended by `nul`, and is otherwise as it was. -/
structure IsReplaced (nul : α) (dstMaxIdx : ℕ) (full : List α) (found : ℕ) (dst : ℕ → α)
    (bufferI ret : ℕ) (r : Replaced α) : Prop where
  /-- The buffer. -/
  dst : r.dst = memCopy dst bufferI (full.take (dstMaxIdx - bufferI) ++ [nul])
  /-- The length. -/
  length : r.length = bufferI + (full.take (dstMaxIdx - bufferI)).length
  /-- Whether something is left out. -/
  isBufferOverflow : r.isBufferOverflow = decide (dstMaxIdx < bufferI + full.length)
  /-- The count, unless something is left out. -/
  ret : bufferI + full.length ≤ dstMaxIdx → r.ret = ret + found

omit [DecidableEq α] in
/-- A part that fits, in front of the rest. -/
theorem IsReplaced.append {nul : α} {dstMaxIdx : ℕ} {part full : List α} {found more : ℕ}
    {dst : ℕ → α} {bufferI ret : ℕ} {r : Replaced α} (hpart : bufferI + part.length ≤ dstMaxIdx)
    (h : IsReplaced nul dstMaxIdx full found (memCopy dst bufferI part) (bufferI + part.length)
      (ret + more) r) :
    IsReplaced nul dstMaxIdx (part ++ full) (found + more) dst bufferI ret r := by
  have htake : (part ++ full).take (dstMaxIdx - bufferI) =
      part ++ full.take (dstMaxIdx - (bufferI + part.length)) := by
    rw [List.take_append, List.take_of_length_le (by omega)]
    congr 2
    omega
  refine ⟨?_, ?_, ?_, fun hfits => ?_⟩
  · rw [h.dst, memCopy_memCopy, htake, List.append_assoc]
  · rw [h.length, htake, List.length_append, Nat.add_assoc]
  · rw [h.isBufferOverflow, List.length_append, Nat.add_assoc]
  · rw [List.length_append, ← Nat.add_assoc] at hfits
    rw [h.ret hfits]
    omega

omit [DecidableEq α] in
/-- What does not fit is cut off at the last index. -/
theorem IsReplaced.overflow {nul : α} {dstMaxIdx : ℕ} {part full : List α} {found : ℕ}
    {dst : ℕ → α} {bufferI ret ret' : ℕ} (hroom : bufferI ≤ dstMaxIdx)
    (hpart : dstMaxIdx < bufferI + part.length) :
    IsReplaced nul dstMaxIdx (part ++ full) found dst bufferI ret
      ⟨memCopy (memCopy dst bufferI (part.take (dstMaxIdx - bufferI))) dstMaxIdx [nul], dstMaxIdx,
        true, ret'⟩ := by
  have htake : (part ++ full).take (dstMaxIdx - bufferI) = part.take (dstMaxIdx - bufferI) :=
    List.take_append_of_le_length (by omega)
  have hlen : (part.take (dstMaxIdx - bufferI)).length = dstMaxIdx - bufferI := by
    rw [List.length_take]
    omega
  have hlast : bufferI + (part.take (dstMaxIdx - bufferI)).length = dstMaxIdx := by omega
  refine ⟨?_, ?_, ?_, fun hfits => ?_⟩
  · rw [htake, ← memCopy_memCopy, hlast]
  · rw [htake, hlast]
  · rw [List.length_append, decide_eq_true (by omega)]
  · rw [List.length_append] at hfits
    omega

/-- The loop on the rest of a string. In place, what is written has not reached what
is still to be read. -/
theorem replaceLoop_spec {nul : α} {source : Option (ℕ → α)} {dstMaxIdx srcSize : ℕ}
    {oldStr newStr : List α} (hold : oldStr ≠ []) (hnul : nul ∉ oldStr) {rest : List α}
    {dst : ℕ → α} {targetI bufferI ret : ℕ} (hsize : srcSize = targetI + rest.length)
    (hroom : bufferI ≤ dstMaxIdx) (hrest : Holds (source.getD dst) targetI rest)
    (hend : source.getD dst srcSize = nul)
    (hplace : source = none → bufferI ≤ targetI ∧ newStr.length ≤ oldStr.length) :
    IsReplaced nul dstMaxIdx (replaceAll oldStr newStr rest) (occurrences oldStr rest) dst bufferI ret
      (replaceLoop nul source srcSize dstMaxIdx oldStr newStr dst targetI bufferI ret) := by
  induction hn : rest.length using Nat.strongRecOn generalizing rest dst targetI bufferI ret with
  | ind n ih =>
    -- what a write at `bufferI` leaves of the string that is read
    have hkeep : ∀ (part : List α) (k : ℕ), (source = none → bufferI + part.length ≤ k) →
        source.getD (memCopy dst bufferI part) k = source.getD dst k := by
      intro part k hk
      cases source with
      | none => exact memCopy_of_ge (hk rfl)
      | some src => rfl
    cases rest with
    | nil =>
      rw [replaceAll_nil, occurrences_nil, replaceLoop, if_neg (by rw [List.length_nil] at hsize; omega)]
      exact ⟨by rw [List.take_nil, List.nil_append], by rw [List.take_nil]; rfl,
        by rw [decide_eq_false (by rw [List.length_nil]; omega)], fun _ => rfl⟩
    | cons c cs =>
      have hmore : targetI < srcSize ∧ oldStr ≠ [] := ⟨by rw [hsize, List.length_cons]; omega, hold⟩
      have hmatch := memRead_eq_iff_prefix hrest (by rw [← hsize]; exact hend) hnul
      rw [replaceLoop, if_pos hmore]
      by_cases hprefix : oldStr <+: c :: cs
      · obtain ⟨tail, htail⟩ := hprefix
        have hfound := hmatch.mpr ⟨tail, htail⟩
        rw [← htail] at hrest hsize ⊢
        obtain ⟨hreplace, hcount⟩ := replaceAll_append hold newStr tail
        have hpos := List.length_pos_of_ne_nil hold
        have hlen : oldStr.length + tail.length = n := by rw [← hn, ← htail, List.length_append]
        rw [List.length_append] at hsize
        rw [hreplace, hcount, if_neg (not_not.mpr hfound)]
        dsimp only
        rw [copy_newStr]
        by_cases hfits : newStr.length ≤ dstMaxIdx - bufferI
        · have hcopy : min newStr.length (dstMaxIdx - bufferI) = newStr.length := min_eq_left hfits
          have hcounted : newStr.length = 0 ∨ 0 < newStr.length := Nat.eq_zero_or_pos _
          rw [hcopy, List.take_length, if_pos le_rfl, if_pos hcounted]
          refine IsReplaced.append (by omega) (ih tail.length (by omega) (by omega) (by omega) ?_ ?_
            (fun hnone => ?_) rfl)
          · exact (holds_append.mp hrest).2.congr fun k hk =>
              hkeep newStr k fun hnone => by have := hplace hnone; omega
          · rw [hkeep newStr srcSize fun hnone => by have := hplace hnone; omega]
            exact hend
          · have := hplace hnone
            exact ⟨by omega, this.2⟩
        · have hcopy : min newStr.length (dstMaxIdx - bufferI) = dstMaxIdx - bufferI :=
            min_eq_right (by omega)
          rw [hcopy, if_neg hfits]
          exact IsReplaced.overflow hroom (by omega)
      · obtain ⟨hreplace, hcount⟩ := replaceAll_cons hprefix newStr
        have hfound : memRead (source.getD dst) targetI oldStr.length ≠ oldStr :=
          fun h => hprefix (hmatch.mp h)
        obtain ⟨hfirst, htail⟩ := (holds_append (a := [c])).mp hrest
        have hchar : source.getD dst targetI = c := (Option.some.inj (hfirst 0 (by simp))).symm
        have hone : ∀ k, targetI + 1 ≤ k → source.getD (memCopy dst bufferI [c]) k =
            source.getD dst k := fun k hk =>
          hkeep [c] k fun hnone => by
            have := hplace hnone
            rw [List.length_singleton]
            omega
        rw [List.length_cons] at hsize hn
        rw [hreplace, hcount, if_pos hfound, hchar]
        by_cases hfits : bufferI < dstMaxIdx
        · rw [if_pos hfits]
          refine @IsReplaced.append α nul dstMaxIdx [c] _ _ 0 _ _ _ _ hfits (ih cs.length (by omega)
            (by omega) hfits ?_ ?_ (fun hnone => ?_) rfl)
          · exact htail.congr hone
          · rw [hone srcSize (by omega)]
            exact hend
          · have := hplace hnone
            exact ⟨by rw [List.length_singleton]; omega, this.2⟩
        · have hfull : bufferI = dstMaxIdx := by omega
          rw [if_neg hfits]
          have hover := @IsReplaced.overflow α nul dstMaxIdx [c] (replaceAll oldStr newStr cs)
            (occurrences oldStr cs) dst bufferI ret ret hroom (by rw [List.length_singleton]; omega)
          rw [hfull, Nat.sub_self, List.take_zero, memCopy_nil] at hover
          rw [hfull]
          exact hover

/-- `replaceStringImpl_` for a replacement that is no longer than what it replaces, or
for two buffers, and for a string to be searched that has a character. -/
def replaceString (nul : α) (source : Option (ℕ → α)) (srcSize dstSize : ℕ) (oldStr newStr : List α)
    (dst : ℕ → α) : Replaced α :=
  replaceLoop nul source srcSize (dstSize - 1) oldStr newStr dst 0 0 0

/-- The buffer is left with the text that replacing every leftmost occurrence gives,
cut off where the buffer ends and ended by `nul`, in the same buffer as in another;
nothing behind it is written. The flag tells whether something was cut off, and
otherwise the result counts the occurrences. -/
theorem replaceString_correct (nul : α) (source : Option (ℕ → α)) (dstSize : ℕ)
    (text oldStr newStr : List α) (dst : ℕ → α) (hsize : 0 < dstSize) (hold : oldStr ≠ [])
    (hnul : nul ∉ oldStr) (htext : Holds (source.getD dst) 0 text)
    (hend : source.getD dst text.length = nul)
    (hplace : source = none → newStr.length ≤ oldStr.length) :
    let full := replaceAll oldStr newStr text
    let r := replaceString nul source text.length dstSize oldStr newStr dst
    Holds r.dst 0 (full.take (dstSize - 1) ++ [nul]) ∧
      (∀ k, (full.take (dstSize - 1)).length < k → r.dst k = dst k) ∧
      r.length = (full.take (dstSize - 1)).length ∧
      (r.isBufferOverflow = true ↔ dstSize ≤ full.length) ∧
      (r.isBufferOverflow = false → r.ret = occurrences oldStr text) := by
  intro full r
  have hspec : IsReplaced nul (dstSize - 1) full (occurrences oldStr text) dst 0 0 r :=
    replaceLoop_spec hold hnul (Nat.zero_add _).symm (Nat.zero_le _) htext hend
      fun hnone => ⟨le_rfl, hplace hnone⟩
  have hdst := hspec.dst
  rw [Nat.sub_zero] at hdst
  refine ⟨fun j hj => ?_, fun k hk => ?_, ?_, ?_, fun hfits => ?_⟩
  · rw [hdst, Nat.zero_add]
    unfold memCopy
    rw [if_pos (Nat.zero_le j), Nat.sub_zero, List.getElem?_eq_getElem hj, Option.getD_some]
  · rw [hdst]
    refine memCopy_of_ge ?_
    rw [List.length_append, List.length_singleton]
    omega
  · rw [hspec.length, Nat.zero_add, Nat.sub_zero]
  · rw [hspec.isBufferOverflow, decide_eq_true_iff]
    omega
  · rw [hspec.isBufferOverflow, decide_eq_false_iff_not] at hfits
    rw [hspec.ret (by omega), Nat.zero_add]

/-- Two occurrences taken out of a text in its own buffer of eight characters. -/
theorem replaceString_twice :
    let text := [1, 2, 3, 1, 2]
    let dst : ℕ → ℕ := fun k => text.getD k 0
    let r := replaceString 0 none text.length 8 [1, 2] [] dst
    Holds r.dst 0 ((replaceAll [1, 2] [] text).take 7 ++ [0]) ∧
      (replaceAll [1, 2] [] text).take 7 = [3] :=
  ⟨(replaceString_correct 0 none 8 [1, 2, 3, 1, 2] [1, 2] [] (fun k => [1, 2, 3, 1, 2].getD k 0)
    (by decide) (by decide) (by decide) (by unfold Holds; decide) rfl (by decide)).1,
    by decide +kernel⟩

end BfMultiplayer.SafeStringReplace

import Mathlib.Tactic.Common
import Mathlib.Data.List.Infix

/-!
# Replacing a text by another

The occurrences of a text, leftmost first and without overlap, and what becomes of a
text when each of them is replaced. The equations go by whether the text at hand
begins with an occurrence; a text that lacks a character of what is searched stays.
-/

namespace BfMultiplayer.TextReplace

variable {α : Type*} [DecidableEq α]

/-- Every leftmost occurrence of `old` replaced by `new`. -/
def replaceAll (old new : List α) (text : List α) : List α :=
  match text with
  | [] => []
  | c :: rest =>
    if old ≠ [] ∧ old <+: c :: rest then new ++ replaceAll old new (rest.drop (old.length - 1))
    else c :: replaceAll old new rest
termination_by text.length
decreasing_by
  · rw [List.length_drop, List.length_cons]
    omega
  · exact Nat.lt_succ_self _

/-- The number of the leftmost occurrences of `old`. -/
def occurrences (old : List α) (text : List α) : ℕ :=
  match text with
  | [] => 0
  | c :: rest =>
    if old ≠ [] ∧ old <+: c :: rest then occurrences old (rest.drop (old.length - 1)) + 1
    else occurrences old rest
termination_by text.length
decreasing_by
  · rw [List.length_drop, List.length_cons]
    omega
  · exact Nat.lt_succ_self _

/-- Nothing is replaced in the empty text. -/
@[simp] theorem replaceAll_nil (old new : List α) : replaceAll old new [] = [] := by
  rw [replaceAll]

/-- Nothing is found in the empty text. -/
@[simp] theorem occurrences_nil (old : List α) : occurrences old [] = 0 := by
  rw [occurrences]

/-- A text that begins with an occurrence. -/
theorem replaceAll_append {old : List α} (hold : old ≠ []) (new rest : List α) :
    replaceAll old new (old ++ rest) = new ++ replaceAll old new rest ∧
      occurrences old (old ++ rest) = occurrences old rest + 1 := by
  obtain ⟨c, tail, rfl⟩ := List.exists_cons_of_ne_nil hold
  have hprefix : c :: tail ≠ [] ∧ c :: tail <+: c :: (tail ++ rest) :=
    ⟨hold, List.prefix_append (c :: tail) rest⟩
  have hdrop : (tail ++ rest).drop ((c :: tail).length - 1) = rest := List.drop_left
  rw [List.cons_append, replaceAll, occurrences, if_pos hprefix, if_pos hprefix, hdrop]
  exact ⟨rfl, rfl⟩

/-- A text that does not begin with an occurrence. -/
theorem replaceAll_cons {old : List α} {c : α} {rest : List α} (h : ¬old <+: c :: rest)
    (new : List α) :
    replaceAll old new (c :: rest) = c :: replaceAll old new rest ∧
      occurrences old (c :: rest) = occurrences old rest := by
  have hnot : ¬(old ≠ [] ∧ old <+: c :: rest) := fun ⟨_, hp⟩ => h hp
  rw [replaceAll, occurrences, if_neg hnot, if_neg hnot]
  exact ⟨rfl, rfl⟩

/-- A text that lacks a character of what is searched stays as it is. -/
theorem replaceAll_of_notMem {old : List α} {a : α} (ha : a ∈ old) (new : List α) :
    ∀ {text : List α}, a ∉ text → replaceAll old new text = text
  | [], _ => replaceAll_nil old new
  | c :: rest, h => by
    have hprefix : ¬old <+: c :: rest := fun hp => h (hp.subset ha)
    have hrest : a ∉ rest := fun hm => h (List.mem_cons_of_mem c hm)
    rw [(replaceAll_cons hprefix new).1, replaceAll_of_notMem ha new hrest]

end BfMultiplayer.TextReplace

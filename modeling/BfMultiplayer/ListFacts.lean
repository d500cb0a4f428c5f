import Mathlib.Tactic.Common
import Mathlib.Algebra.Order.Ring.Nat
import Mathlib.Data.List.Basic
import Mathlib.Data.List.Dedup
import Mathlib.Logic.Function.Basic

/-!
# Lists with one place changed, images, marked keys and lists as sets

A list whose element at one place is replaced or removed keeps all others. Two
lists that are related by their images under two functions stay so when both
take a step that respects the images. A set that is kept as a function to flags
grows by marking a key, and one that is kept as a list by appending what is new.
A sum over places follows an assignment to one of them.
-/

namespace BfMultiplayer.ListFacts

/-- Another element than the one at a place stays when that place is assigned. -/
theorem mem_set_of_ne {α : Type*} {l : List α} {k : ℕ} {a a' other : α} (ha : l[k]? = some a)
    (hother : other ∈ l) (hne : other ≠ a) : other ∈ l.set k a' := by
  obtain ⟨i, hi⟩ := List.mem_iff_getElem?.mp hother
  have hik : k ≠ i := by
    intro h
    rw [h, hi, Option.some.injEq] at ha
    exact hne ha
  exact List.mem_iff_getElem?.mpr ⟨i, by rw [List.getElem?_set_ne hik]; exact hi⟩

/-- It also stays when that place is removed. -/
theorem mem_eraseIdx_of_ne {α : Type*} {l : List α} {k : ℕ} {a other : α} (ha : l[k]? = some a)
    (hother : other ∈ l) (hne : other ≠ a) : other ∈ l.eraseIdx k := by
  obtain ⟨i, hi⟩ := List.mem_iff_getElem?.mp hother
  have hik : i ≠ k := by
    intro h
    rw [← h, hi, Option.some.injEq] at ha
    exact hne ha
  exact List.mem_eraseIdx_iff_getElem?.mpr ⟨i, hik, hi⟩

/-- The elements beside a place stay when it is assigned. -/
theorem mem_set_of_mem_eraseIdx {α : Type*} {l : List α} {k : ℕ} {a' other : α}
    (hother : other ∈ l.eraseIdx k) : other ∈ l.set k a' := by
  obtain ⟨i, hik, hi⟩ := List.mem_eraseIdx_iff_getElem?.mp hother
  exact List.mem_iff_getElem?.mpr ⟨i, by rw [List.getElem?_set_ne hik.symm]; exact hi⟩

/-- Two lists with the same images have the same images after a step that takes
equal images to equal images. -/
theorem map_eq_map_of_step {α β γ : Type*} {f : α → γ} {g : β → γ} {step : α → α} {step' : β → β}
    (hstep : ∀ a b, f a = g b → f (step a) = g (step' b)) {as : List α} {bs : List β}
    (h : as.map f = bs.map g) : (as.map step).map f = (bs.map step').map g := by
  induction as generalizing bs with
  | nil =>
    rw [List.map_nil, eq_comm, List.map_eq_nil_iff] at h
    rw [h]
    rfl
  | cons a as ih =>
    cases bs with
    | nil => cases h
    | cons b bs =>
      rw [List.map_cons, List.map_cons, List.cons.injEq] at h
      simp only [List.map_cons, hstep a b h.1, ih h.2]

/-- An idempotent map permutes a list exactly when it leaves it alone. -/
theorem map_perm_self_iff {α : Type*} {f : α → α} (hf : ∀ a, f (f a) = f a) (l : List α) :
    (l.map f).Perm l ↔ ∀ a ∈ l, f a = a := by
  constructor
  · intro hperm a ha
    obtain ⟨b, -, rfl⟩ := List.mem_map.mp (hperm.mem_iff.mpr ha)
    exact hf b
  · intro hfix
    rw [List.map_congr_left hfix, List.map_id']

/-- Marking a key among some flags. -/
theorem update_true {α : Type*} [DecidableEq α] [BEq α] [LawfulBEq α] (flags : α → Bool)
    (key other : α) :
    Function.update flags key true other = (flags other || key == other) := by
  by_cases h : other = key
  · rw [h, Function.update_self, beq_self_eq_true, Bool.or_true]
  · have hbeq : (key == other) = false := beq_eq_false_iff_ne.mpr (Ne.symm h)
    rw [Function.update_of_ne h, hbeq, Bool.or_false]

/-- Marking a marked key. -/
theorem update_true_of_marked {α : Type*} [DecidableEq α] {flags : α → Bool} {key : α}
    (h : flags key = true) : Function.update flags key true = flags := by
  rw [← h, Function.update_eq_self]

/-- A list keeps the items of another one, each of them once. -/
structure StoresSet {α : Type*} (received stored : List α) : Prop where
  /-- No item is kept twice. -/
  nodup : stored.Nodup
  /-- The same items. -/
  mem_iff : ∀ a, a ∈ stored ↔ a ∈ received

/-- Nothing is kept of nothing. -/
theorem StoresSet.nil {α : Type*} : StoresSet ([] : List α) [] := ⟨List.nodup_nil, fun _ => Iff.rfl⟩

/-- New items may be kept as they come exactly when none of them is kept. -/
theorem StoresSet.append_iff {α : Type*} {received stored items : List α}
    (h : StoresSet received stored) (hitems : items.Nodup) :
    StoresSet (received ++ items) (stored ++ items) ↔ ∀ a ∈ items, a ∉ stored := by
  have hmem : ∀ a, a ∈ stored ++ items ↔ a ∈ received ++ items := by
    intro a
    rw [List.mem_append, List.mem_append, h.mem_iff a]
  constructor
  · intro hboth a ha hstored
    exact (List.nodup_append.mp hboth.nodup).2.2 a hstored a ha rfl
  · intro hnew
    refine ⟨List.nodup_append.mpr ⟨h.nodup, hitems, fun a ha b hb hab => ?_⟩, hmem⟩
    exact hnew b hb (hab ▸ ha)

/-- The items among some that are not kept yet may always be kept. -/
theorem StoresSet.append_new {α : Type*} [DecidableEq α] {received stored items : List α}
    (h : StoresSet received stored) (hitems : items.Nodup) :
    StoresSet (received ++ items) (stored ++ items.filter fun a => a ∉ stored) := by
  refine ⟨List.nodup_append.mpr ⟨h.nodup, hitems.filter _, fun a ha b hb hab => ?_⟩, fun a => ?_⟩
  · have hnew := (List.mem_filter.mp hb).2
    rw [decide_eq_true_iff, ← hab] at hnew
    exact hnew ha
  · rw [List.mem_append, List.mem_append, List.mem_filter, decide_eq_true_iff, ← h.mem_iff a]
    by_cases ha : a ∈ stored
    · exact iff_of_true (Or.inl ha) (Or.inl ha)
    · simp only [ha, false_or, not_false_eq_true, and_true]

/-- How many items are kept: the different ones. -/
theorem StoresSet.length_eq {α : Type*} [DecidableEq α] {received stored : List α}
    (h : StoresSet received stored) : stored.length = received.dedup.length := by
  have hperm : stored.Perm received.dedup := by
    refine (List.perm_ext_iff_of_nodup h.nodup received.nodup_dedup).mpr fun a => ?_
    rw [List.mem_dedup, h.mem_iff a]
  exact hperm.length_eq

/-- A change at some places that a function does not see. -/
theorem map_change_eq {α β : Type*} {f : α → β} {change : α → α} (h : ∀ a, f (change a) = f a)
    (p : α → Prop) [DecidablePred p] (l : List α) :
    (l.map fun a => if p a then change a else a).map f = l.map f := by
  rw [List.map_map]
  refine List.map_congr_left fun a _ => ?_
  rw [Function.comp_apply]
  split
  · exact h a
  · rfl

/-- A sum over distinct places after an assignment to one of them. -/
theorem sum_map_update {α : Type*} [DecidableEq α] {places : List α} (hnodup : places.Nodup)
    {place : α} (hmem : place ∈ places) (f : α → ℕ) (n : ℕ) :
    (places.map (Function.update f place n)).sum + f place = (places.map f).sum + n := by
  induction places with
  | nil => exact absurd hmem List.not_mem_nil
  | cons head places ih =>
    rw [List.nodup_cons] at hnodup
    rw [List.map_cons, List.map_cons, List.sum_cons, List.sum_cons]
    by_cases hhead : head = place
    · have htail : places.map (Function.update f place n) = places.map f :=
        List.map_congr_left fun other hother =>
          Function.update_of_ne (fun he => hnodup.1 (by rw [hhead, ← he]; exact hother)) n f
      rw [htail, hhead, Function.update_self]
      omega
    · have hrest := ih hnodup.2 ((List.mem_cons.mp hmem).resolve_left (Ne.symm hhead))
      rw [Function.update_of_ne hhead]
      omega

end BfMultiplayer.ListFacts

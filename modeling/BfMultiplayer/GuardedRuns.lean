import Mathlib.Tactic.Common
import Mathlib.Data.Option.Basic

/-!
# Runs of a partial step function and facts along them

A system is a step function from a state and an action to the next state,
undefined where the system has no such step. A run follows a list of actions.
`Along` states a fact about every step of a run, at the state the step starts
from: it is used both for the conditions under which a run is looked at and
for the facts proved about it. The rules below carry an invariant from the
single steps to whole runs.
-/

namespace BfMultiplayer.GuardedRuns

variable {σ α : Type*} {step : σ → α → Option σ} {P Q : σ → α → Prop} {Inv : σ → Prop}

/-- Follow a list of actions; undefined as soon as one step is. -/
def run (step : σ → α → Option σ) : σ → List α → Option σ
  | s, [] => some s
  | s, a :: actions => (step s a).bind fun t => run step t actions

/-- Every step of the run from `s` satisfies `P` at the state it starts from.
A step that is undefined ends the run. -/
def Along (P : σ → α → Prop) (step : σ → α → Option σ) : σ → List α → Prop
  | _, [] => True
  | s, a :: actions => P s a ∧ ∀ t, step s a = some t → Along P step t actions

/-- Every state of the run from `s` satisfies `F`, the first and the last one
included. -/
def Throughout (F : σ → Prop) (step : σ → α → Option σ) (s : σ) (actions : List α) : Prop :=
  Along (fun s _ => F s) step s actions ∧ ∀ t, run step s actions = some t → F t

/-- A decidable fact is decidable along a run. -/
instance decidableAlong (P : σ → α → Prop) [∀ s a, Decidable (P s a)] (step : σ → α → Option σ) :
    ∀ (s : σ) (actions : List α), Decidable (Along P step s actions)
  | _, [] => isTrue trivial
  | s, a :: actions =>
    match hs : step s a with
    | none =>
      decidable_of_iff (P s a) ⟨fun h => ⟨h, fun t ht => by rw [hs] at ht; cases ht⟩, And.left⟩
    | some t =>
      have := decidableAlong P step t actions
      decidable_of_iff (P s a ∧ Along P step t actions)
        ⟨fun h => ⟨h.1, fun u hu => by rw [hs] at hu; cases hu; exact h.2⟩, fun h => ⟨h.1, h.2 t hs⟩⟩

/-- So is one of every state. -/
instance decidableThroughout (F : σ → Prop) [∀ s, Decidable (F s)] (step : σ → α → Option σ) (s : σ)
    (actions : List α) : Decidable (Throughout F step s actions) :=
  inferInstanceAs (Decidable (_ ∧ ∀ t ∈ run step s actions, F t))

/-- The empty run stays where it starts. -/
@[simp] theorem run_nil (s : σ) : run step s [] = some s := rfl

/-- A longer run takes its first step and goes on from there. -/
@[simp] theorem run_cons (s : σ) (a : α) (actions : List α) :
    run step s (a :: actions) = (step s a).bind fun t => run step t actions := rfl

/-- A run over two lists of actions goes on from where the first one ends. -/
theorem run_append (s : σ) (first rest : List α) :
    run step s (first ++ rest) = (run step s first).bind fun t => run step t rest := by
  induction first generalizing s with
  | nil => rfl
  | cons a first ih =>
    rw [List.cons_append, run_cons, run_cons, Option.bind_assoc]
    exact congrArg _ (funext fun t => ih t)

/-- Nothing is asked of the empty run. -/
@[simp] theorem along_nil (s : σ) : Along P step s [] := trivial

/-- A fact along a longer run is one about its first step and its rest. -/
theorem along_cons (s : σ) (a : α) (actions : List α) :
    Along P step s (a :: actions) ↔
      P s a ∧ ∀ t, step s a = some t → Along P step t actions := Iff.rfl

/-- Two facts along a run are one. -/
theorem along_and {s : σ} {actions : List α} (hp : Along P step s actions)
    (hq : Along Q step s actions) : Along (fun s a => P s a ∧ Q s a) step s actions := by
  induction actions generalizing s with
  | nil => trivial
  | cons a actions ih => exact ⟨⟨hp.1, hq.1⟩, fun t ht => ih (hp.2 t ht) (hq.2 t ht)⟩

/-- A fact along a run implies what follows from it at each step. -/
theorem along_mono (h : ∀ s a, P s a → Q s a) {s : σ} {actions : List α}
    (hp : Along P step s actions) : Along Q step s actions := by
  induction actions generalizing s with
  | nil => trivial
  | cons a actions ih => exact ⟨h s a hp.1, fun t ht => ih (hp.2 t ht)⟩

/-- A fact along a run holds of its last step. -/
theorem along_last {s t : σ} {actions : List α} {a : α}
    (h : Along P step s (actions ++ [a])) (hrun : run step s actions = some t) : P t a := by
  induction actions generalizing s with
  | nil =>
    cases hrun
    exact h.1
  | cons b actions ih =>
    rw [run_cons, Option.bind_eq_some_iff] at hrun
    obtain ⟨u, hu, hrest⟩ := hrun
    exact ih (h.2 u hu) hrest

/-- A run whose end satisfies a decidable fact, by evaluation. -/
theorem run_reaches {R : σ → Prop} [DecidablePred R] {s : σ} {actions : List α}
    (h : (run step s actions).any (fun t => decide (R t)) = true) :
    ∃ t, run step s actions = some t ∧ R t := by
  cases hrun : run step s actions with
  | none =>
    rw [hrun] at h
    cases h
  | some t =>
    rw [hrun, Option.any_some, decide_eq_true_iff] at h
    exact ⟨t, rfl, h⟩

/-- A fact that holds after every prefix holds along the run. -/
theorem along_of_at {s : σ} {actions : List α}
    (h : ∀ first a rest t, actions = first ++ a :: rest → run step s first = some t → P t a) :
    Along P step s actions := by
  induction actions generalizing s with
  | nil => trivial
  | cons b actions ih =>
    refine ⟨h [] b actions s rfl rfl, fun u hu => ih fun first a rest t he hrun => ?_⟩
    refine h (b :: first) a rest t (by rw [he, List.cons_append]) ?_
    rw [run_cons, hu]
    exact hrun

/-- Step to run: an invariant that every guarded step keeps holds at the end
of every guarded run. -/
theorem run_invariant
    (hstep : ∀ s a t, Inv s → P s a → step s a = some t → Inv t)
    {s t : σ} {actions : List α} (hs : Inv s) (hguard : Along P step s actions)
    (hrun : run step s actions = some t) : Inv t := by
  induction actions generalizing s with
  | nil =>
    cases hrun
    exact hs
  | cons a actions ih =>
    rw [run_cons, Option.bind_eq_some_iff] at hrun
    obtain ⟨u, hu, hrest⟩ := hrun
    exact ih (hstep s a u hs hguard.1 hu) (hguard.2 u hu) hrest

/-- What an invariant says of a step that meets the guard holds along every
guarded run. -/
theorem along_of_invariant
    (hstep : ∀ s a t, Inv s → P s a → step s a = some t → Inv t)
    (hfact : ∀ s a, Inv s → P s a → Q s a)
    {s : σ} {actions : List α} (hs : Inv s) (hguard : Along P step s actions) :
    Along Q step s actions := by
  induction actions generalizing s with
  | nil => trivial
  | cons a actions ih =>
    exact ⟨hfact s a hs hguard.1, fun t ht => ih (hstep s a t hs hguard.1 ht) (hguard.2 t ht)⟩

/-- Two facts that are the same at each state of an invariant, which the steps that
satisfy them keep, are the same along a run. -/
theorem along_iff_of_invariant
    (hstep : ∀ s a t, Inv s → P s a → step s a = some t → Inv t)
    (hiff : ∀ s a, Inv s → (Q s a ↔ P s a)) {s : σ} {actions : List α} (hs : Inv s) :
    Along Q step s actions ↔ Along P step s actions := by
  induction actions generalizing s with
  | nil => exact Iff.rfl
  | cons a actions ih =>
    rw [along_cons, along_cons, hiff s a hs]
    refine and_congr_right fun hp => forall_congr' fun t => imp_congr_right fun ht => ?_
    exact ih (hstep s a t hs hp ht)

/-- Two facts that are the same wherever a history holds, one about the state and one about the
actions before it, are the same along a run. -/
theorem along_iff_of_history {History : List α → σ → Prop} {R : List α → α → Prop}
    (hstep : ∀ past s a t, History past s → step s a = some t → History (past ++ [a]) t)
    (hiff : ∀ past s a, History past s → (Q s a ↔ R past a))
    (hdef : ∀ s a, Q s a → (step s a).isSome)
    {past : List α} {s : σ} {actions : List α} (hs : History past s) :
    Along Q step s actions ↔ ∀ first a, first ++ [a] <+: actions → R (past ++ first) a := by
  induction actions generalizing past s with
  | nil =>
    refine iff_of_true trivial fun first a hprefix => ?_
    exact absurd (List.prefix_nil.mp hprefix) (List.append_ne_nil_of_right_ne_nil _ (by simp))
  | cons b actions ih =>
    rw [along_cons, hiff past s b hs]
    constructor
    · rintro ⟨hb, hrest⟩ first a hprefix
      obtain ⟨t, ht⟩ := Option.isSome_iff_exists.mp (hdef s b ((hiff past s b hs).mpr hb))
      cases first with
      | nil =>
        have hhead : a = b := (List.cons_prefix_cons.mp hprefix).1
        rwa [hhead, List.append_nil]
      | cons c first =>
        obtain ⟨rfl, htail⟩ := List.cons_prefix_cons.mp hprefix
        have hlater := (ih (hstep past s c t hs ht)).mp (hrest t ht) first a htail
        rwa [List.append_assoc, List.singleton_append] at hlater
    · intro h
      have hb := h [] b (List.cons_prefix_cons.mpr ⟨rfl, List.nil_prefix⟩)
      rw [List.append_nil] at hb
      refine ⟨hb, fun t ht => (ih (hstep past s b t hs ht)).mpr fun first a hprefix => ?_⟩
      have hlater := h (b :: first) a (List.cons_prefix_cons.mpr ⟨rfl, hprefix⟩)
      rwa [List.append_assoc, List.singleton_append]

/-- Step to run without a guard. -/
theorem run_invariant_of_step
    (hstep : ∀ s a t, Inv s → step s a = some t → Inv t)
    {s t : σ} {actions : List α} (hs : Inv s) (hrun : run step s actions = some t) : Inv t :=
  run_invariant (P := fun _ _ => True) (fun s a t hi _ h => hstep s a t hi h) hs
    (along_of_at fun _ _ _ _ _ _ => trivial) hrun

/-- Where the guard decides whether a single step is defined, it decides
whether a whole run is. -/
theorem run_isSome_iff_along
    (hstep : ∀ s a t, Inv s → step s a = some t → Inv t)
    (hdef : ∀ s a, Inv s → ((step s a).isSome ↔ P s a))
    {s : σ} {actions : List α} (hs : Inv s) :
    (run step s actions).isSome ↔ Along P step s actions := by
  induction actions generalizing s with
  | nil => simp
  | cons a actions ih =>
    rw [run_cons, along_cons, ← hdef s a hs]
    cases ha : step s a with
    | none => simp
    | some t =>
      have hi := ih (hstep s a t hs ha)
      simpa using hi

/-- A counter that grows exactly in the steps that break a rule stands still
in exactly the runs that keep it. -/
theorem count_eq_iff_along {count : σ → ℕ}
    (hkeeps : ∀ s a t, step s a = some t → P s a → count t = count s)
    (hbreaks : ∀ s a t, step s a = some t → ¬P s a → count s < count t)
    {s t : σ} {actions : List α} (hrun : run step s actions = some t) :
    count s ≤ count t ∧ (count t = count s ↔ Along P step s actions) := by
  induction actions generalizing s with
  | nil =>
    cases hrun
    exact ⟨Nat.le_refl _, iff_of_true rfl trivial⟩
  | cons a actions ih =>
    rw [run_cons, Option.bind_eq_some_iff] at hrun
    obtain ⟨u, hu, hrest⟩ := hrun
    obtain ⟨hle, hiff⟩ := ih hrest
    rw [along_cons]
    by_cases hp : P s a
    · have heq := hkeeps s a u hu hp
      refine ⟨by omega, ?_⟩
      rw [← heq, hiff]
      constructor
      · intro h
        refine ⟨hp, fun v hv => ?_⟩
        rw [hu, Option.some.injEq] at hv
        rwa [← hv]
      · exact fun h => h.2 u hu
    · have hlt := hbreaks s a u hu hp
      refine ⟨by omega, iff_of_false (by omega) fun h => hp h.1⟩

/-- A fact holds throughout the empty run if it holds at its only state. -/
theorem throughout_nil {F : σ → Prop} {s : σ} : Throughout F step s [] ↔ F s := by
  constructor
  · exact fun h => h.2 s rfl
  · intro h
    refine ⟨trivial, fun t ht => ?_⟩
    cases ht
    exact h

/-- A fact holds throughout a longer run if it holds at its first state and
throughout the rest. -/
theorem throughout_cons {F : σ → Prop} {s : σ} {a : α} {actions : List α} :
    Throughout F step s (a :: actions) ↔
      F s ∧ ∀ t, step s a = some t → Throughout F step t actions := by
  constructor
  · intro h
    refine ⟨h.1.1, fun t ht => ⟨h.1.2 t ht, fun u hu => h.2 u ?_⟩⟩
    rw [run_cons, ht]
    exact hu
  · intro h
    refine ⟨⟨h.1, fun t ht => (h.2 t ht).1⟩, fun u hu => ?_⟩
    rw [run_cons, Option.bind_eq_some_iff] at hu
    obtain ⟨t, ht, hrest⟩ := hu
    exact (h.2 t ht).2 u hrest

/-- A fact about every state holds throughout. -/
theorem throughout_of_forall {F : σ → Prop} (h : ∀ s, F s) (s : σ) (actions : List α) :
    Throughout F step s actions := by
  refine ⟨?_, fun t _ => h t⟩
  induction actions generalizing s with
  | nil => trivial
  | cons a actions ih => exact ⟨h s, fun t _ => ih t⟩

/-- An invariant of the past and the state, kept by the steps between states with a fact whose
actions are of a kind, holds at the end of a run of such steps. -/
theorem run_history {History : List α → σ → Prop} {F : σ → Prop} {Kind : α → Prop}
    (hstep : ∀ past s a t, History past s → F s → F t → Kind a → step s a = some t →
      History (past ++ [a]) t)
    {past : List α} {s t : σ} {actions : List α} (hs : History past s)
    (hfact : Throughout F step s actions) (hkind : ∀ a ∈ actions, Kind a)
    (hrun : run step s actions = some t) : History (past ++ actions) t := by
  induction actions generalizing past s with
  | nil =>
    cases hrun
    rwa [List.append_nil]
  | cons a actions ih =>
    rw [run_cons, Option.bind_eq_some_iff] at hrun
    obtain ⟨u, hu, hrest⟩ := hrun
    obtain ⟨ha, hrestKind⟩ := List.forall_mem_cons.mp hkind
    obtain ⟨hF, hrestFact⟩ := throughout_cons.mp hfact
    have hFu : F u := by
      cases actions with
      | nil => exact throughout_nil.mp (hrestFact u hu)
      | cons b actions => exact (throughout_cons.mp (hrestFact u hu)).1
    have hnext := ih (hstep past s a u hs hF hFu ha hu) (hrestFact u hu) hrestKind hrest
    rwa [List.append_assoc, List.singleton_append] at hnext

/-- Under an invariant, a fact that a step keeps exactly when it obeys a rule holds
throughout exactly the runs that obey the rule. -/
theorem throughout_iff_along_of_invariant {F : σ → Prop}
    (hinv : ∀ s a t, Inv s → step s a = some t → Inv t)
    (hstep : ∀ s a t, Inv s → F s → step s a = some t → (F t ↔ P s a))
    (hnone : ∀ s a, step s a = none → P s a)
    {s : σ} {actions : List α} (hi : Inv s) (hs : F s) :
    Throughout F step s actions ↔ Along P step s actions := by
  induction actions generalizing s with
  | nil => exact iff_of_true (throughout_nil.mpr hs) trivial
  | cons a actions ih =>
    rw [throughout_cons, along_cons]
    cases ha : step s a with
    | none => exact iff_of_true ⟨hs, fun t ht => nomatch ht⟩ ⟨hnone s a ha, fun t ht => nomatch ht⟩
    | some t =>
      have hkeeps := hstep s a t hi hs ha
      have hi' := hinv s a t hi ha
      constructor
      · intro h
        have ht : F t := by
          have hrest := h.2 t rfl
          cases actions with
          | nil => exact throughout_nil.mp hrest
          | cons b actions => exact (throughout_cons.mp hrest).1
        refine ⟨hkeeps.mp ht, fun u hu => ?_⟩
        cases hu
        exact (ih hi' ht).mp (h.2 t rfl)
      · intro h
        refine ⟨hs, fun u hu => ?_⟩
        cases hu
        exact (ih hi' (hkeeps.mpr h.1)).mpr (h.2 t rfl)

/-- A fact that a step keeps exactly when it obeys a rule holds throughout
exactly the runs that obey the rule. -/
theorem throughout_iff_along {F : σ → Prop}
    (hstep : ∀ s a t, F s → step s a = some t → (F t ↔ P s a))
    (hnone : ∀ s a, step s a = none → P s a)
    {s : σ} {actions : List α} (hs : F s) :
    Throughout F step s actions ↔ Along P step s actions := by
  have hinv : ∀ s a t, (fun _ : σ => True) s → step s a = some t → (fun _ : σ => True) t :=
    fun _ _ _ _ _ => trivial
  exact throughout_iff_along_of_invariant hinv (fun s a t _ hs ha => hstep s a t hs ha) hnone
    trivial hs

/-- What an action establishes and every step keeps holds after a run that
takes the action. -/
theorem run_establishes {F : σ → Prop} {a : α}
    (hstep : ∀ s b t, Inv s → step s b = some t → Inv t)
    (hset : ∀ s t, Inv s → step s a = some t → F t)
    (hkeep : ∀ s b t, Inv s → F s → step s b = some t → F t)
    {s t : σ} {actions : List α} (hs : Inv s) (hmem : a ∈ actions)
    (hrun : run step s actions = some t) : F t := by
  induction actions generalizing s with
  | nil => exact absurd hmem List.not_mem_nil
  | cons b actions ih =>
    rw [run_cons, Option.bind_eq_some_iff] at hrun
    obtain ⟨u, hu, hrest⟩ := hrun
    have hi := hstep s b u hs hu
    rcases List.mem_cons.mp hmem with rfl | hmem
    · have hboth : ∀ s b t, Inv s ∧ F s → step s b = some t → Inv t ∧ F t :=
        fun s b t h hb => ⟨hstep s b t h.1 hb, hkeep s b t h.1 h.2 hb⟩
      exact (run_invariant_of_step hboth ⟨hi, hset s u hs hu⟩ hrest).2
    · exact ih hi hmem hrest

end BfMultiplayer.GuardedRuns

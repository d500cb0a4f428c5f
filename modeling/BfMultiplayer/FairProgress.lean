import Mathlib.Order.WellFounded
import Mathlib.Tactic.Common

/-!
# Progress under fair schedules

A schedule gives the action of every step. While a goal has not been reached,
every action either leaves the state or makes progress along a well-founded
relation; when actions that make progress keep coming, the goal is reached.
-/

namespace BfMultiplayer.FairProgress

variable {σ α : Type*}

/-- The state behind some steps of a schedule. -/
def runSchedule (step : σ → α → σ) (schedule : ℕ → α) (start : σ) : ℕ → σ
  | 0 => start
  | k + 1 => step (runSchedule step schedule start k) (schedule k)

/-- A step keeps an invariant and goes down along a relation. -/
def Advances (r : σ → σ → Prop) (inv : σ → Prop) (s s' : σ) : Prop := inv s' ∧ r s' s

/-- What makes a step function progress to a goal along a relation. -/
structure Progress (step : σ → α → σ) (r : σ → σ → Prop) (inv goal : σ → Prop)
    (helps : σ → α → Prop) : Prop where
  /-- The relation has no infinite descent. -/
  wellFounded : WellFounded r
  /-- An action leaves the state or makes progress. -/
  any : ∀ s a, inv s → ¬goal s → step s a = s ∨ Advances r inv s (step s a)
  /-- A helpful action makes progress. -/
  helpful : ∀ s a, inv s → ¬goal s → helps s a → Advances r inv s (step s a)

/-- Helpful actions keep coming in every state before the goal. -/
def Fair (inv goal : σ → Prop) (helps : σ → α → Prop) (schedule : ℕ → α) : Prop :=
  ∀ s, inv s → ¬goal s → ∀ k, ∃ later, k ≤ later ∧ helps s (schedule later)

variable {step : σ → α → σ} {r : σ → σ → Prop} {inv goal : σ → Prop} {helps : σ → α → Prop}
  {schedule : ℕ → α} {start : σ}

/-- There is progress up to the next helpful action. -/
theorem Progress.advances (h : Progress step r inv goal helps) {s : σ} (hinv : inv s)
    (hgoal : ¬goal s) {n : ℕ} :
    ∀ k, runSchedule step schedule start k = s → helps s (schedule (k + n)) →
      ∃ later, k ≤ later ∧ Advances r inv s (runSchedule step schedule start later) := by
  induction n with
  | zero =>
    intro k hs hhelps
    refine ⟨k + 1, Nat.le_succ k, ?_⟩
    rw [runSchedule, hs]
    exact h.helpful s _ hinv hgoal hhelps
  | succ n ih =>
    intro k hs hhelps
    rcases h.any s (schedule k) hinv hgoal with hsame | hadvance
    · have hnext : runSchedule step schedule start (k + 1) = s := by rw [runSchedule, hs, hsame]
      have hindex : k + (n + 1) = k + 1 + n := by omega
      rw [hindex] at hhelps
      obtain ⟨later, hlater, hdone⟩ := ih (k + 1) hnext hhelps
      exact ⟨later, by omega, hdone⟩
    · refine ⟨k + 1, Nat.le_succ k, ?_⟩
      rw [runSchedule, hs]
      exact hadvance

/-- From every state of a fair run the goal is reached. -/
theorem Progress.reaches_from (h : Progress step r inv goal helps)
    (hfair : Fair inv goal helps schedule) (s : σ) :
    ∀ k, runSchedule step schedule start k = s → inv s →
      ∃ later, k ≤ later ∧ inv (runSchedule step schedule start later) ∧
        goal (runSchedule step schedule start later) := by
  induction s using h.wellFounded.induction with
  | _ s ih =>
    intro k hs hinv
    by_cases hgoal : goal s
    · refine ⟨k, le_rfl, ?_⟩
      rw [hs]
      exact ⟨hinv, hgoal⟩
    · obtain ⟨helpful, hfrom, hhelps⟩ := hfair s hinv hgoal k
      obtain ⟨n, rfl⟩ := Nat.exists_eq_add_of_le hfrom
      obtain ⟨next, hnext, hkept, hless⟩ := h.advances hinv hgoal k hs hhelps
      obtain ⟨later, hlater, hreached⟩ := ih _ hless next rfl hkept
      exact ⟨later, by omega, hreached⟩

/-- A fair run reaches the goal. -/
theorem Progress.reaches (h : Progress step r inv goal helps)
    (hfair : Fair inv goal helps schedule) (hstart : inv start) :
    ∃ k, inv (runSchedule step schedule start k) ∧ goal (runSchedule step schedule start k) := by
  obtain ⟨k, -, hreached⟩ := h.reaches_from hfair start 0 rfl hstart
  exact ⟨k, hreached⟩

end BfMultiplayer.FairProgress

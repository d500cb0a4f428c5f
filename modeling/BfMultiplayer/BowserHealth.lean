import BfMultiplayer.EchoSuppression
import Mathlib.Algebra.Group.Basic
import Mathlib.Algebra.Group.Int.Defs

/-!
# Dark Bowser's health

`handleToC_MiscMapSync` asks for as much damage as the health is above the one it
is told, by a call of the function that the damage hook replaces. The hook halves
every amount, before it looks at the flag by which the handler turns it off. So
the packet is never answered, but its damage is halved as that of a local hit is:
the health goes half the way.
-/

namespace BfMultiplayer.BowserHealth

open Packets GuardedRuns EchoSuppression

section

variable {γ : Type} (game : SyncGame γ)

/-- The original routine subtracts its argument from the health. -/
def DamageSubtracts : Prop :=
  ∀ g health, game.mHealth g = some health →
    ∀ amount, game.mHealth (game.requestDamage g amount) = some (health - amount)

/-- The network thread handles a packet to its end. -/
def Handles (sys : EchoSystem γ) (packet : SyncPacket) (after : EchoSystem γ) : Prop :=
  (∃ n, run (echoStep game) sys (.receive packet :: List.replicate n .network) = some after) ∧
    after.netThread = .idle

/-- Handling a health has an end, and whenever it has ended the boss has that health and nothing
was sent in response. -/
def AppliesExactly (sys : EchoSystem γ) (newHealth : ℤ) : Prop :=
  (∃ after, Handles game sys (.darkBowserHealth newHealth) after) ∧
    ∀ after, Handles game sys (.darkBowserHealth newHealth) after →
      game.mHealth after.game = some newHealth ∧ after.echoes = sys.echoes

/-- The health that the handler leaves. -/
def leftHealth (hasScene : Bool) (health newHealth : ℤ) : ℤ :=
  if hasScene then health - (health - newHealth).tdiv 2 else health

variable {game}

/-- Only zero is its own half. -/
theorem tdiv_two_eq_self_iff (amount : ℤ) : amount.tdiv 2 = amount ↔ amount = 0 := by
  rcases Int.eq_nat_or_neg amount with ⟨n, rfl | rfl⟩
  · rw [Int.tdiv_eq_ediv_of_nonneg (Int.natCast_nonneg n)]
    omega
  · rw [Int.neg_tdiv, Int.tdiv_eq_ediv_of_nonneg (Int.natCast_nonneg n)]
    omega

/-- The handler leaves the health that it is told only where that is the health already. -/
theorem leftHealth_eq_iff (hasScene : Bool) (health newHealth : ℤ) :
    leftHealth hasScene health newHealth = newHealth ↔ newHealth = health := by
  cases hasScene with
  | false => exact eq_comm
  | true =>
    have hhalf := tdiv_two_eq_self_iff (health - newHealth)
    rw [leftHealth, if_pos rfl]
    omega

/-- A thread that is idle takes no step. -/
theorem run_network_of_idle {sys after : EchoSystem γ} (hidle : sys.netThread = .idle) {n : ℕ}
    (h : run (echoStep game) sys (List.replicate n .network) = some after) : after = sys := by
  cases n with
  | zero => exact (Option.some.inj h).symm
  | succ n =>
    have hstep : echoStep game sys .network = none := by
      rw [echoStep, handlerStep, hidle]
    rw [List.replicate_succ, run_cons, hstep] at h
    cases h

/-- Handling a packet has at most one end. -/
theorem Handles.unique {sys after after' : EchoSystem γ} {packet : SyncPacket}
    (h : Handles game sys packet after) (h' : Handles game sys packet after') : after' = after := by
  obtain ⟨⟨n, hn⟩, hidle⟩ := h
  obtain ⟨⟨m, hm⟩, hidle'⟩ := h'
  have hsplit : ∀ {n m : ℕ} {after after' : EchoSystem γ}, n ≤ m → after.netThread = .idle →
      run (echoStep game) sys (.receive packet :: List.replicate n .network) = some after →
      run (echoStep game) sys (.receive packet :: List.replicate m .network) = some after' →
      after' = after := by
    intro n m after after' hle hidle hn hm
    have hlong : EchoAction.receive packet :: List.replicate m .network =
        (.receive packet :: List.replicate n .network) ++ List.replicate (m - n) .network := by
      rw [List.cons_append, List.replicate_append_replicate, Nat.add_sub_of_le hle]
    rw [hlong, run_append, hn, Option.bind_some] at hm
    exact run_network_of_idle hidle hm
  rcases Nat.le_total n m with hle | hle
  · exact hsplit hle hidle hn hm
  · exact (hsplit hle hidle' hm hn).symm

/-- What the handler does: it sends nothing, and takes half of the difference. -/
theorem handles_darkBowserHealth (hdamage : DamageSubtracts game) {sys : EchoSystem γ}
    (hidle : sys.netThread = .idle) {health : ℤ} (hhealth : game.mHealth sys.game = some health)
    (newHealth : ℤ) : ∃ after, Handles game sys (.darkBowserHealth newHealth) after ∧
      game.mHealth after.game = some (leftHealth (game.hasScene sys.game) health newHealth) ∧
      after.echoes = sys.echoes := by
  have hreceive : echoStep game sys (.receive (.darkBowserHealth newHealth)) =
      some (beginHandler game sys (.darkBowserHealth newHealth)) := by
    rw [echoStep, hidle]
  by_cases hunchanged : game.hasScene sys.game = false ∨ health = newHealth
  · -- without a scene and at the health that it is told, the handler returns
    have hbegin : beginHandler game sys (.darkBowserHealth newHealth) = sys := by
      rcases hunchanged with hscene | hsame
      · simp only [beginHandler, hscene, Bool.false_eq_true, if_false]
      · simp only [beginHandler, hhealth, hsame, if_true, ite_self]
    have hleft : leftHealth (game.hasScene sys.game) health newHealth = health := by
      rcases hunchanged with hscene | hsame
      · rw [leftHealth, hscene, if_neg Bool.false_ne_true]
      · rw [leftHealth, hsame, sub_self, Int.zero_tdiv, sub_zero, ite_self]
    refine ⟨sys, ⟨⟨0, ?_⟩, hidle⟩, ?_, rfl⟩
    · rw [run_cons, hreceive, hbegin]
      rfl
    · rw [hleft, hhealth]
  · have hscene : game.hasScene sys.game = true := by
      cases h : game.hasScene sys.game with
      | true => rfl
      | false => exact absurd (Or.inl h) hunchanged
    have hne : ¬health = newHealth := fun h => hunchanged (Or.inr h)
    have hbegin : beginHandler game sys (.darkBowserHealth newHealth) =
        { sys with
          sDisableBowserDamageHook := true
          netThread := .calling (.requestDamage (health - newHealth)) } := by
      simp only [beginHandler, hscene, if_true, hhealth, if_neg hne]
      rfl
    refine ⟨{ sys with
        game := game.requestDamage sys.game ((health - newHealth).tdiv 2)
        sDisableBowserDamageHook := false
        netThread := .idle
        echoes := sys.echoes ++ [] }, ⟨⟨3, ?_⟩, rfl⟩, ?_, List.append_nil _⟩
    · rw [run_cons, hreceive, hbegin]
      rfl
    · rw [leftHealth, if_pos hscene]
      exact hdamage _ _ hhealth _

/-- A health that a client is told is applied exactly when the boss has it already. -/
theorem applies_exactly_iff (hdamage : DamageSubtracts game) (sys : EchoSystem γ)
    (hidle : sys.netThread = .idle) (health newHealth : ℤ)
    (hhealth : game.mHealth sys.game = some health) :
    AppliesExactly game sys newHealth ↔ newHealth = health := by
  obtain ⟨after, hhandles, hleft, hechoes⟩ :=
    handles_darkBowserHealth hdamage hidle hhealth newHealth
  have hiff := leftHealth_eq_iff (game.hasScene sys.game) health newHealth
  constructor
  · intro h
    have happlied := (h.2 after hhandles).1
    rw [hleft, Option.some.injEq] at happlied
    exact hiff.mp happlied
  · intro h
    refine ⟨⟨after, hhandles⟩, fun other hother => ?_⟩
    rw [hhandles.unique hother, hleft, hiff.mpr h]
    exact ⟨rfl, hechoes⟩

end

/-- A game whose state is the health of its one Dark Bowser. -/
def bowserGame : SyncGame ℤ :=
  { islandGame with
    mHealth := some
    requestDamage := fun health amount => health - amount }

/-- Its damage is subtracted. -/
theorem bowserGame_damageSubtracts : DamageSubtracts bowserGame := by
  intro g health hhealth amount
  cases hhealth
  rfl

/-- The health that the boss has is applied. -/
theorem applies_exactly_same : AppliesExactly bowserGame (.start 10) 10 :=
  (applies_exactly_iff bowserGame_damageSubtracts (.start 10) rfl 10 10 rfl).mpr rfl

/-- Told a health of six, a boss with ten is left with eight. -/
theorem health_goes_half_the_way : ¬AppliesExactly bowserGame (.start 10) 6 := by
  intro h
  have hhealth : bowserGame.mHealth (EchoSystem.start (10 : ℤ)).game = some 10 := rfl
  obtain ⟨after, hhandles, hleft, -⟩ :=
    handles_darkBowserHealth bowserGame_damageSubtracts rfl hhealth 6
  have happlied := (h.2 after hhandles).1
  rw [hleft] at happlied
  exact absurd happlied (by decide)

end BfMultiplayer.BowserHealth

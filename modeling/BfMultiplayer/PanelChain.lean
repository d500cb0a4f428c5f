import Mathlib.Algebra.Order.Field.Rat
import Mathlib.Algebra.Order.Floor.Ring
import Mathlib.Data.Rat.Floor
import Mathlib.Logic.Function.Basic
import Mathlib.Tactic.FieldSimp
import Mathlib.Tactic.Linarith
import Mathlib.Tactic.Ring

/-!
# Chains of panels

The panels of a chain open one after another and close one after another. A
panel executes its nerve once a frame, in any order with the others. Rotations
are kept as the angle around X from the orientation that a panel was placed in,
and exact; positions are left out.
-/

namespace BfMultiplayer.PanelChain

/-- The nerves. -/
inductive Nerve where
  | OpenStart
  | Open
  | StartNext
  | CloseSign
  | CloseFace
  | Close
  deriving DecidableEq

/-- A panel. Its links are those of its place in the chain. -/
structure PatanPanel where
  /-- The nerve. -/
  nerve : Nerve
  /-- `getNerveStep` in the next execution. -/
  step : ℕ
  /-- The actor is not dead. -/
  alive : Bool
  /-- The rotation around X from `mInitialQuat`. -/
  degrees : ℚ
  /-- `mDegreesToRotateToNext`. -/
  mDegreesToRotateToNext : ℚ
  deriving DecidableEq

/-- What the level gives for a chain. -/
structure Chain where
  /-- The number of panels. -/
  length : ℕ
  /-- There is a first panel. -/
  length_pos : 0 < length
  /-- `mDegreesToRotate` of the panels. -/
  mDegreesToRotate : ℕ → ℚ
  /-- `getProjectedAngleBetween` of the panels, when they close, and their next ones. -/
  projectedAngle : ℕ → ℚ

/-- `mLast`. -/
def mLast : ℕ → Option ℕ
  | 0 => none
  | last + 1 => some last

/-- `mNext`. -/
def Chain.mNext (chain : Chain) (i : ℕ) : Option ℕ :=
  if i + 1 < chain.length then some (i + 1) else none

/-- `findStartPanel`: along `mLast` while it is not null. -/
def findStartPanel : ℕ → ℕ
  | 0 => 0
  | last + 1 => findStartPanel last

/-- `al::setNerve`. The next execution is the first step of the nerve. -/
def PatanPanel.setNerve (panel : PatanPanel) (nerve : Nerve) : PatanPanel :=
  { panel with nerve := nerve, step := 0 }

/-- The nerve is kept for the next execution. -/
def PatanPanel.nextStep (panel : PatanPanel) : PatanPanel := { panel with step := panel.step + 1 }

/-- `rotateX`. -/
def PatanPanel.rotateX (panel : PatanPanel) (degree : ℚ) : PatanPanel :=
  { panel with degrees := panel.degrees + degree }

/-- `makeActorDead`. -/
def PatanPanel.makeActorDead (panel : PatanPanel) : PatanPanel := { panel with alive := false }

/-- `isClosing`. -/
def PatanPanel.isClosing (panel : PatanPanel) : Bool :=
  panel.nerve = .CloseSign || panel.nerve = .CloseFace || panel.nerve = .Close

/-- `start`, of the panel at a place of the chain. -/
def start (chain : Chain) (i : ℕ) (panel : PatanPanel) : PatanPanel :=
  let placed := { panel.setNerve .OpenStart with alive := true, degrees := 0 }
  match mLast i with
  | some _ => placed.rotateX (-chain.mDegreesToRotate i)
  | none => placed.rotateX 180

/-- `startClose`. -/
def startClose (panel : PatanPanel) : PatanPanel := panel.setNerve .CloseSign

/-- What panels do to each other and to their actors. -/
inductive Event where
  /-- A panel goes to `StartNext`. -/
  | startNext (panel : ℕ)
  /-- A panel calls `startClose` on one. -/
  | startClose (panel callee : ℕ)
  /-- `tryOffStageSwitch`, of a panel. -/
  | offStageSwitch (panel : ℕ)
  /-- `makeActorDead`, of a panel. -/
  | dead (panel : ℕ)
  deriving DecidableEq

/-- The panels of a chain and what they have done. -/
structure State where
  /-- The panels by their places. -/
  panels : ℕ → PatanPanel
  /-- The events so far. -/
  events : List Event

/-- A panel is replaced. -/
def State.modify (s : State) (i : ℕ) (f : PatanPanel → PatanPanel) : State :=
  { s with panels := Function.update s.panels i (f (s.panels i)) }

/-- An event happens. -/
def State.tell (s : State) (event : Event) : State := { s with events := s.events ++ [event] }

/-- `exeOpenStart`. -/
def exeOpenStart (degreesToRotate : ℚ) (panel : PatanPanel) : PatanPanel :=
  if (panel.step : ℚ) < degreesToRotate / 10 then (panel.rotateX 10).nextStep
  else panel.setNerve .Open

/-- `exeOpen`, with what `isActionEnd` returns. -/
def exeOpen (i : ℕ) (actionEnd : Bool) (s : State) : State :=
  if actionEnd then (s.modify i fun panel => panel.setNerve .StartNext).tell (.startNext i)
  else s.modify i PatanPanel.nextStep

/-- `exeStartNext`. There is no result when the null `mLast` of a single panel is followed. -/
def exeStartNext (chain : Chain) (i : ℕ) (s : State) : Option State :=
  match chain.mNext i with
  | some next =>
    let s := if (s.panels i).step = 0 then s.modify next (start chain next) else s
    some (s.modify i PatanPanel.nextStep)
  | none =>
    match mLast i with
    | none => none
    | some last =>
      let first := findStartPanel last
      let s :=
        if (s.panels first).isClosing then s
        else (s.modify first startClose).tell (.startClose i first)
      some (s.modify i PatanPanel.nextStep)

/-- `exeCloseSign`. -/
def exeCloseSign (panel : PatanPanel) : PatanPanel :=
  if panel.step = 25 then panel.setNerve .CloseFace else panel.nextStep

/-- The degrees that a panel turns when it closes. -/
def Chain.degreesToNext (chain : Chain) (i : ℕ) : ℚ :=
  if chain.projectedAngle i = 0 then 180 else chain.projectedAngle i

/-- `exeCloseFace`, with what `isActionEnd` returns. -/
def exeCloseFace (chain : Chain) (i : ℕ) (actionEnd : Bool) (panel : PatanPanel) : PatanPanel :=
  if actionEnd then
    match chain.mNext i with
    | some _ => { panel.setNerve .Close with mDegreesToRotateToNext := chain.degreesToNext i }
    | none => panel.setNerve .Close
  else panel.nextStep

/-- `exeClose`. -/
def exeClose (chain : Chain) (i : ℕ) (s : State) : State :=
  match chain.mNext i with
  | some next =>
    if ((s.panels i).step : ℚ) < (s.panels i).mDegreesToRotateToNext / 10 then
      s.modify i fun panel => (panel.rotateX 10).nextStep
    else
      (((s.modify next startClose).tell (.startClose i next)).modify i
        PatanPanel.makeActorDead).tell (.dead i)
  | none =>
    if (s.panels i).step = 0 then
      ((s.tell (.offStageSwitch (findStartPanel i))).modify i
        PatanPanel.makeActorDead).tell (.dead i)
    else s.modify i PatanPanel.nextStep

/-- The execution of a nerve, with what `isActionEnd` returns. -/
def exeNerve (chain : Chain) (i : ℕ) (actionEnd : Bool) (s : State) : Nerve → Option State
  | .OpenStart => some (s.modify i (exeOpenStart (chain.mDegreesToRotate i)))
  | .Open => some (exeOpen i actionEnd s)
  | .StartNext => exeStartNext chain i s
  | .CloseSign => some (s.modify i exeCloseSign)
  | .CloseFace => some (s.modify i (exeCloseFace chain i actionEnd))
  | .Close => some (exeClose chain i s)

/-- A panel executes its nerve. Dead panels do nothing. -/
def execute (chain : Chain) (s : State) (action : ℕ × Bool) : Option State :=
  if (s.panels action.1).alive then
    exeNerve chain action.1 action.2 s (s.panels action.1).nerve
  else some s

/-- A panel behind `init`. -/
def initialPanel : PatanPanel := ⟨.OpenStart, 0, false, 0, 180⟩

/-- `start` is called on the first panel. -/
def started (chain : Chain) : State := (State.mk (fun _ => initialPanel) []).modify 0 (start chain 0)

/-- The state behind some executions. -/
def runFor (chain : Chain) (schedule : ℕ → ℕ × Bool) : ℕ → Option State
  | 0 => some (started chain)
  | k + 1 => (runFor chain schedule k).bind fun s => execute chain s (schedule k)

@[simp] theorem State.modify_same (s : State) (i : ℕ) (f : PatanPanel → PatanPanel) :
    (s.modify i f).panels i = f (s.panels i) :=
  Function.update_self _ _ _

theorem State.modify_of_ne (s : State) {i j : ℕ} (f : PatanPanel → PatanPanel) (h : j ≠ i) :
    (s.modify i f).panels j = s.panels j :=
  Function.update_of_ne h _ _

@[simp] theorem State.modify_events (s : State) (i : ℕ) (f : PatanPanel → PatanPanel) :
    (s.modify i f).events = s.events := rfl

@[simp] theorem State.tell_panels (s : State) (event : Event) :
    (s.tell event).panels = s.panels := rfl

@[simp] theorem State.tell_events (s : State) (event : Event) :
    (s.tell event).events = s.events ++ [event] := rfl

/-- Every panel finds the first one. -/
theorem findStartPanel_eq (i : ℕ) : findStartPanel i = 0 := by
  induction i with
  | zero => rfl
  | succ last ih => exact ih

/-- The steps in which a panel turns by ten degrees. -/
theorem step_lt_iff {step : ℕ} {degrees : ℚ} :
    (step : ℚ) < degrees / 10 ↔ step < ⌈degrees / 10⌉₊ :=
  Nat.lt_ceil.symm

/-- A child panel behind `start` and some executions of `exeOpenStart`. -/
def openingPanel (chain : Chain) (last : ℕ) (panel : PatanPanel) : ℕ → PatanPanel
  | 0 => start chain (last + 1) panel
  | k + 1 =>
    exeOpenStart (chain.mDegreesToRotate (last + 1)) (openingPanel chain last panel k)

/-- A child panel is in `Open` behind some executions of `exeOpenStart`, in the orientation that
it was placed in. -/
def OpensWherePlaced (chain : Chain) (last : ℕ) (panel : PatanPanel) : Prop :=
  ∃ k, (∀ j < k, (openingPanel chain last panel j).nerve = .OpenStart) ∧
    (openingPanel chain last panel k).nerve = .Open ∧
    (openingPanel chain last panel k).degrees = 0

/-- While a child panel turns, every execution has turned it by ten degrees. -/
theorem openingPanel_turning (chain : Chain) (last : ℕ) (panel : PatanPanel) {k : ℕ}
    (hk : k ≤ ⌈chain.mDegreesToRotate (last + 1) / 10⌉₊) :
    (openingPanel chain last panel k).nerve = .OpenStart ∧
      (openingPanel chain last panel k).step = k ∧
      (openingPanel chain last panel k).degrees = 10 * k - chain.mDegreesToRotate (last + 1) := by
  induction k with
  | zero =>
    refine ⟨rfl, rfl, ?_⟩
    rw [openingPanel, start]
    dsimp only [mLast, PatanPanel.rotateX]
    push_cast
    ring
  | succ k ih =>
    obtain ⟨hnerve, hstep, hdegrees⟩ := ih (by omega)
    have hturns : ((openingPanel chain last panel k).step : ℚ) <
        chain.mDegreesToRotate (last + 1) / 10 := by
      rw [hstep]
      exact step_lt_iff.mpr (by omega)
    rw [openingPanel, exeOpenStart, if_pos hturns]
    dsimp only [PatanPanel.nextStep, PatanPanel.rotateX]
    refine ⟨hnerve, by rw [hstep], ?_⟩
    rw [hdegrees]
    push_cast
    ring

/-- A child panel is in `Open` behind the last turn, rotated as it is then. -/
theorem openingPanel_open (chain : Chain) (last : ℕ) (panel : PatanPanel) :
    (openingPanel chain last panel (⌈chain.mDegreesToRotate (last + 1) / 10⌉₊ + 1)).nerve = .Open ∧
      (openingPanel chain last panel
        (⌈chain.mDegreesToRotate (last + 1) / 10⌉₊ + 1)).degrees =
        10 * ⌈chain.mDegreesToRotate (last + 1) / 10⌉₊ - chain.mDegreesToRotate (last + 1) := by
  obtain ⟨-, hstep, hdegrees⟩ := openingPanel_turning chain last panel le_rfl
  have hends : ¬((openingPanel chain last panel
      ⌈chain.mDegreesToRotate (last + 1) / 10⌉₊).step : ℚ) <
      chain.mDegreesToRotate (last + 1) / 10 := by
    rw [hstep, step_lt_iff]
    exact lt_irrefl _
  rw [openingPanel, exeOpenStart, if_neg hends]
  exact ⟨rfl, hdegrees⟩

/-- A child panel opens where it was placed exactly when it turns by a multiple of ten. -/
theorem opens_where_placed_iff (chain : Chain) (last : ℕ) (panel : PatanPanel)
    (hpos : 0 < chain.mDegreesToRotate (last + 1)) :
    OpensWherePlaced chain last panel ↔
      ∃ turns : ℤ, chain.mDegreesToRotate (last + 1) = 10 * turns := by
  obtain ⟨hopen, hdegrees⟩ := openingPanel_open chain last panel
  constructor
  · rintro ⟨k, hbefore, hnerve, hplaced⟩
    -- the panel is in `Open` for the first time behind its last turn
    have hk : k = ⌈chain.mDegreesToRotate (last + 1) / 10⌉₊ + 1 := by
      rcases Nat.lt_trichotomy k (⌈chain.mDegreesToRotate (last + 1) / 10⌉₊ + 1) with
        hlt | heq | hgt
      · have hturning := (openingPanel_turning chain last panel (Nat.lt_succ_iff.mp hlt)).1
        rw [hnerve] at hturning
        cases hturning
      · exact heq
      · have hturning := hbefore _ hgt
        rw [hopen] at hturning
        cases hturning
    rw [hk, hdegrees] at hplaced
    refine ⟨⌈chain.mDegreesToRotate (last + 1) / 10⌉₊, ?_⟩
    rw [Int.cast_natCast]
    linarith
  · rintro ⟨turns, hturns⟩
    have hquotient : chain.mDegreesToRotate (last + 1) / 10 = turns := by
      rw [hturns]
      ring
    have hceil : (⌈chain.mDegreesToRotate (last + 1) / 10⌉₊ : ℚ) = turns := by
      have hpositive : 0 ≤ turns := by
        have hratio : (0 : ℚ) < turns := by
          rw [← hquotient]
          exact div_pos hpos (by norm_num)
        exact_mod_cast hratio.le
      obtain ⟨n, rfl⟩ := Int.eq_ofNat_of_zero_le hpositive
      rw [hquotient, Int.cast_natCast, Nat.ceil_natCast]
    refine ⟨_, fun j hj => ?_, hopen, ?_⟩
    · exact (openingPanel_turning chain last panel (Nat.lt_succ_iff.mp hj)).1
    · rw [hdegrees, hceil, hturns]
      ring

/-- Two panels at a right angle, and the second one to turn by 45 degrees. -/
def slantedPanels : Chain := ⟨2, by decide, fun _ => 45, fun _ => 90⟩

/-- Two panels, the second one to turn by 90 degrees. -/
def straightPanels : Chain := ⟨2, by decide, fun _ => 90, fun _ => 90⟩

/-- A panel that turns by 90 degrees opens where it was placed. -/
theorem straightPanels_open : OpensWherePlaced straightPanels 0 initialPanel :=
  (opens_where_placed_iff straightPanels 0 initialPanel (by decide +kernel)).mpr ⟨9, by
    decide +kernel⟩

/-- A panel that turns by 45 degrees is in `Open` five degrees from where it was placed. -/
theorem slantedPanels_open :
    (openingPanel slantedPanels 0 initialPanel 6).nerve = .Open ∧
      (openingPanel slantedPanels 0 initialPanel 6).degrees = 5 ∧
      ¬OpensWherePlaced slantedPanels 0 initialPanel := by
  refine ⟨by decide +kernel, by decide +kernel, ?_⟩
  rintro ⟨k, hbefore, hnerve, hplaced⟩
  have hturning : ∀ j < 6, (openingPanel slantedPanels 0 initialPanel j).nerve = .OpenStart := by
    decide +kernel
  have hopen : (openingPanel slantedPanels 0 initialPanel 6).nerve = .Open := by decide +kernel
  rcases Nat.lt_trichotomy k 6 with hlt | rfl | hgt
  · have hstill := hturning k hlt
    rw [hnerve] at hstill
    cases hstill
  · revert hplaced
    decide +kernel
  · have hstill := hbefore 6 hgt
    rw [hopen] at hstill
    cases hstill

end BfMultiplayer.PanelChain

import BfMultiplayer.FairProgress
import BfMultiplayer.PanelChain
import Mathlib.Data.Nat.Find
import Mathlib.Data.Prod.Lex
import Mathlib.Order.Lex

/-!
# The wave along a chain of panels

One panel at a time opens, and then one at a time closes; all others wait or
are dead. A chain of two panels or more follows this wave in every order of
executions, and runs through it when every action ends. In a chain of one
panel the search for the first panel starts at the null `mLast` of it.
-/

namespace BfMultiplayer.PanelWave

open PanelChain FairProgress

/-- How far a panel has opened. -/
inductive OpeningStage where
  /-- `OpenStart`, at a step. -/
  | OpenStart (step : ℕ)
  /-- `Open`. -/
  | Open
  /-- `StartNext`, not yet executed. -/
  | StartNext

/-- How far a panel has closed. -/
inductive ClosingStage where
  /-- `CloseSign`, at a step. -/
  | CloseSign (step : ℕ)
  /-- `CloseFace`. -/
  | CloseFace
  /-- `Close`, at a step. -/
  | Close (step : ℕ)

/-- The place of the wave. -/
inductive Wave where
  /-- A panel opens. -/
  | opening (panel : ℕ) (stage : OpeningStage)
  /-- A panel closes. -/
  | closing (panel : ℕ) (stage : ClosingStage)
  /-- All panels are dead. -/
  | closed

/-- The panel that opens or closes. -/
def Wave.panel : Wave → Option ℕ
  | .opening k _ => some k
  | .closing k _ => some k
  | .closed => none

/-- The wave when its panel is executed, with its action at its end or not. -/
def Wave.advance (chain : Chain) (actionEnd : Bool) : Wave → Wave
  | .opening k (.OpenStart step) =>
    if step < ⌈chain.mDegreesToRotate k / 10⌉₊ then .opening k (.OpenStart (step + 1))
    else .opening k .Open
  | .opening k .Open => if actionEnd then .opening k .StartNext else .opening k .Open
  | .opening k .StartNext =>
    if k + 1 < chain.length then .opening (k + 1) (.OpenStart 0) else .closing 0 (.CloseSign 0)
  | .closing k (.CloseSign step) =>
    if step = 25 then .closing k .CloseFace else .closing k (.CloseSign (step + 1))
  | .closing k .CloseFace => if actionEnd then .closing k (.Close 0) else .closing k .CloseFace
  | .closing k (.Close step) =>
    if k + 1 < chain.length then
      if step < ⌈chain.degreesToNext k / 10⌉₊ then .closing k (.Close (step + 1))
      else .closing (k + 1) (.CloseSign 0)
    else .closed
  | .closed => .closed

/-- The wave when a panel is executed. -/
def waveStep (chain : Chain) (wave : Wave) (action : ℕ × Bool) : Wave :=
  if wave.panel = some action.1 then wave.advance chain action.2 else wave

/-- The wave is inside of the chain, and no counter has passed its end. -/
def Wave.Valid (chain : Chain) : Wave → Prop
  | .opening k _ => k < chain.length
  | .closing k (.CloseSign step) => k < chain.length ∧ step ≤ 25
  | .closing k .CloseFace => k < chain.length
  | .closing k (.Close step) => k < chain.length ∧ (k + 1 = chain.length → step = 0)
  | .closed => True

/-- The first panels go to `StartNext`, in their order. -/
def openedEvents (k : ℕ) : List Event := (List.range k).map Event.startNext

/-- The first panels start to close the next one and die, in their order. -/
def closedEvents (k : ℕ) : List Event :=
  (List.range k).flatMap fun j => [Event.startClose j (j + 1), Event.dead j]

/-- The last panel starts to close the first one. -/
def turnEvents (n : ℕ) : List Event := openedEvents n ++ [Event.startClose (n - 1) 0]

/-- The events of a whole wave. -/
def waveEvents (n : ℕ) : List Event :=
  turnEvents n ++ closedEvents (n - 1) ++ [Event.offStageSwitch 0, Event.dead (n - 1)]

/-- The events up to a place of the wave. -/
def Wave.events (chain : Chain) : Wave → List Event
  | .opening k .StartNext => openedEvents (k + 1)
  | .opening k _ => openedEvents k
  | .closing k _ => turnEvents chain.length ++ closedEvents k
  | .closed => waveEvents chain.length

/-- A panel that has started its next one. -/
structure Opened (panel : PatanPanel) : Prop where
  /-- It is not dead. -/
  alive : panel.alive = true
  /-- It stays in `StartNext`. -/
  nerve : panel.nerve = .StartNext
  /-- It has been executed there. -/
  step : panel.step ≠ 0

/-- A panel that has closed. -/
structure Dead (panel : PatanPanel) : Prop where
  /-- It is dead. -/
  alive : panel.alive = false
  /-- It has died in `Close`. -/
  nerve : panel.nerve = .Close

/-- A panel is in a stage of its opening. -/
def OpeningStage.Shows (panel : PatanPanel) : OpeningStage → Prop
  | .OpenStart step => panel.alive = true ∧ panel.nerve = .OpenStart ∧ panel.step = step
  | .Open => panel.alive = true ∧ panel.nerve = .Open
  | .StartNext => panel.alive = true ∧ panel.nerve = .StartNext ∧ panel.step = 0

/-- The panel at a place of the chain is in a stage of its closing. -/
def ClosingStage.Shows (chain : Chain) (k : ℕ) (panel : PatanPanel) : ClosingStage → Prop
  | .CloseSign step => panel.alive = true ∧ panel.nerve = .CloseSign ∧ panel.step = step
  | .CloseFace => panel.alive = true ∧ panel.nerve = .CloseFace
  | .Close step => panel.alive = true ∧ panel.nerve = .Close ∧ panel.step = step ∧
      (k + 1 < chain.length → panel.mDegreesToRotateToNext = chain.degreesToNext k)

/-- What a wave says about the panel at a place of the chain. -/
def Wave.At (chain : Chain) (j : ℕ) (panel : PatanPanel) : Wave → Prop
  | .opening k stage =>
    (j < k → Opened panel) ∧ (j = k → stage.Shows panel) ∧ (k < j → panel.alive = false)
  | .closing k stage =>
    (j < k → Dead panel) ∧ (j = k → stage.Shows chain k panel) ∧
      (k < j → j < chain.length → Opened panel) ∧ (chain.length ≤ j → panel.alive = false)
  | .closed => panel.alive = false

/-- A state is at a place of the wave. -/
structure Shows (chain : Chain) (wave : Wave) (s : State) : Prop where
  /-- The wave is inside of the chain. -/
  valid : wave.Valid chain
  /-- The panels are as the wave says. -/
  panels : ∀ j, wave.At chain j (s.panels j)
  /-- The events are those up to the wave. -/
  events : s.events = wave.events chain

/-- Every panel is executed again and again with its action at its end. -/
def Timely (chain : Chain) (schedule : ℕ → ℕ × Bool) : Prop :=
  ∀ i < chain.length, ∀ k, ∃ later, k ≤ later ∧ schedule later = (i, true)

/-- The chain opens and closes: in every order of executions no null link is followed and what
happens is the beginning of the wave, and when every action ends all of it happens. -/
def OpensAndCloses (chain : Chain) : Prop :=
  (∀ schedule k, ∃ s, runFor chain schedule k = some s ∧ s.events <+: waveEvents chain.length) ∧
    ∀ schedule, Timely chain schedule →
      ∃ k s, runFor chain schedule k = some s ∧ s.events = waveEvents chain.length ∧
        ∀ j, (s.panels j).alive = false

section Steps

variable {chain : Chain} {s : State} {i k : ℕ} {actionEnd : Bool}

/-- Dead panels are not executed. -/
theorem execute_dead (h : (s.panels i).alive = false) :
    execute chain s (i, actionEnd) = some s := by
  rw [execute, h]
  rfl

/-- A living panel executes its nerve. -/
theorem execute_alive {nerve : Nerve} (h : (s.panels i).alive = true)
    (hnerve : (s.panels i).nerve = nerve) :
    execute chain s (i, actionEnd) = exeNerve chain i actionEnd s nerve := by
  rw [execute, if_pos h]
  dsimp only
  rw [hnerve]

/-- Waiting keeps a panel that has started its next one. -/
theorem Opened.nextStep {panel : PatanPanel} (h : Opened panel) : Opened panel.nextStep :=
  ⟨h.alive, h.nerve, Nat.succ_ne_zero _⟩

/-- A panel in front of another one waits when it has started it. -/
theorem execute_opened (h : Opened (s.panels i)) (hi : i + 1 < chain.length) :
    execute chain s (i, actionEnd) = some (s.modify i PatanPanel.nextStep) := by
  rw [execute_alive h.alive h.nerve, exeNerve, exeStartNext, Chain.mNext, if_pos hi]
  dsimp only
  rw [if_neg h.step]

/-- The last panel waits while the first one closes. -/
theorem execute_last (h : Opened (s.panels (i + 1))) (hi : i + 2 = chain.length)
    (hclosing : (s.panels 0).isClosing = true) :
    execute chain s (i + 1, actionEnd) = some (s.modify (i + 1) PatanPanel.nextStep) := by
  rw [execute_alive h.alive h.nerve, exeNerve, exeStartNext, Chain.mNext, if_neg (by omega)]
  dsimp only [mLast]
  rw [findStartPanel_eq, if_pos hclosing]

/-- A state stays at its place of the wave when one of its panels is replaced by one that the
wave allows there. -/
theorem Shows.modify {wave : Wave} (h : Shows chain wave s) {f : PatanPanel → PatanPanel}
    (hf : wave.At chain i (f (s.panels i))) : Shows chain wave (s.modify i f) := by
  refine ⟨h.valid, fun j => ?_, h.events⟩
  by_cases hj : j = i
  · rw [hj, State.modify_same]
    exact hf
  · rw [State.modify_of_ne s f hj]
    exact h.panels j

/-- The first panel closes as long as the wave does. -/
theorem Shows.first_isClosing {stage : ClosingStage} (h : Shows chain (.closing k stage) s) :
    (s.panels 0).isClosing = true := by
  obtain ⟨hbefore, hat, -⟩ := h.panels 0
  rcases Nat.eq_zero_or_pos k with hk | hk
  · have hstage := hat hk.symm
    cases stage with
    | CloseSign step => rw [PatanPanel.isClosing, hstage.2.1]; rfl
    | CloseFace => rw [PatanPanel.isClosing, hstage.2]; rfl
    | Close step => rw [PatanPanel.isClosing, hstage.2.1]; rfl
  · rw [PatanPanel.isClosing, (hbefore hk).nerve]
    rfl

/-- The executions of all other panels leave the wave. -/
theorem Shows.bystander {wave : Wave} (h : Shows chain wave s) (hi : wave.panel ≠ some i) :
    ∃ s', execute chain s (i, actionEnd) = some s' ∧ Shows chain wave s' := by
  cases wave with
  | opening k stage =>
    obtain ⟨hbefore, hat, hbehind⟩ := h.panels i
    have hk : k < chain.length := h.valid
    rcases Nat.lt_trichotomy i k with hlt | heq | hgt
    · refine ⟨_, execute_opened (hbefore hlt) (by omega), h.modify ?_⟩
      exact ⟨fun _ => (hbefore hlt).nextStep, fun heq => by omega, fun hgt => by omega⟩
    · exact absurd (congrArg some heq.symm) hi
    · exact ⟨s, execute_dead (hbehind hgt), h⟩
  | closing k stage =>
    obtain ⟨hbefore, hat, hbehind, hout⟩ := h.panels i
    rcases Nat.lt_trichotomy i k with hlt | heq | hgt
    · exact ⟨s, execute_dead (hbefore hlt).alive, h⟩
    · exact absurd (congrArg some heq.symm) hi
    · by_cases hin : i < chain.length
      · have hopened := hbehind hgt hin
        refine ⟨s.modify i PatanPanel.nextStep, ?_, h.modify ?_⟩
        · by_cases hlast : i + 1 < chain.length
          · exact execute_opened hopened hlast
          · cases i with
            | zero => omega
            | succ last => exact execute_last hopened (by omega) h.first_isClosing
        · exact ⟨fun hlt => by omega, fun heq => by omega, fun _ _ => hopened.nextStep,
            fun hge => by omega⟩
      · exact ⟨s, execute_dead (hout (Nat.le_of_not_lt hin)), h⟩
  | closed => exact ⟨s, execute_dead (h.panels i), h⟩

/-- The panel that opens changes, and no other one does. -/
theorem Shows.openingMove {stage stage' : OpeningStage} (h : Shows chain (.opening k stage) s)
    {s' : State} {f : PatanPanel → PatanPanel} (hpanels : s'.panels = (s.modify k f).panels)
    (hstage : stage'.Shows (f (s.panels k)))
    (hevents : s'.events = (Wave.opening k stage').events chain) :
    Shows chain (.opening k stage') s' := by
  refine ⟨h.valid, fun j => ?_, hevents⟩
  rw [hpanels]
  obtain ⟨hbefore, -, hbehind⟩ := h.panels j
  by_cases hj : j = k
  · subst hj
    rw [State.modify_same]
    exact ⟨fun hlt => by omega, fun _ => hstage, fun hgt => by omega⟩
  · rw [State.modify_of_ne s f hj]
    exact ⟨hbefore, fun heq => absurd heq hj, hbehind⟩

/-- The panel that closes changes, and no other one does. -/
theorem Shows.closingMove {stage stage' : ClosingStage} (h : Shows chain (.closing k stage) s)
    {f : PatanPanel → PatanPanel} (hvalid : (Wave.closing k stage').Valid chain)
    (hstage : stage'.Shows chain k (f (s.panels k))) :
    Shows chain (.closing k stage') (s.modify k f) := by
  refine ⟨hvalid, fun j => ?_, h.events⟩
  obtain ⟨hbefore, -, hbehind, hout⟩ := h.panels j
  by_cases hj : j = k
  · subst hj
    have hin : j < chain.length := by
      cases stage' with
      | CloseSign step => exact hvalid.1
      | CloseFace => exact hvalid
      | Close step => exact hvalid.1
    rw [State.modify_same]
    exact ⟨fun hlt => by omega, fun _ => hstage, fun hgt => by omega, fun hge => by omega⟩
  · rw [State.modify_of_ne s f hj]
    exact ⟨hbefore, fun heq => absurd heq hj, hbehind, hout⟩

/-- What the opening panel shows. -/
theorem Shows.openingPanel {stage : OpeningStage} (h : Shows chain (.opening k stage) s) :
    stage.Shows (s.panels k) :=
  (h.panels k).2.1 rfl

/-- What the closing panel shows. -/
theorem Shows.closingPanel {stage : ClosingStage} (h : Shows chain (.closing k stage) s) :
    stage.Shows chain k (s.panels k) :=
  (h.panels k).2.1 rfl

/-- `exeOpenStart` turns the panel, and then goes to `Open`. -/
theorem Shows.openStart {step : ℕ} (h : Shows chain (.opening k (.OpenStart step)) s) :
    ∃ s', execute chain s (k, actionEnd) = some s' ∧
      Shows chain ((Wave.opening k (.OpenStart step)).advance chain actionEnd) s' := by
  obtain ⟨halive, hnerve, hstep⟩ := h.openingPanel
  refine ⟨_, execute_alive halive hnerve, ?_⟩
  rw [Wave.advance]
  by_cases hturns : step < ⌈chain.mDegreesToRotate k / 10⌉₊
  · rw [if_pos hturns]
    refine h.openingMove rfl ?_ h.events
    rw [exeOpenStart, if_pos (by rw [hstep]; exact step_lt_iff.mpr hturns)]
    exact ⟨halive, hnerve, congrArg (· + 1) hstep⟩
  · rw [if_neg hturns]
    refine h.openingMove rfl ?_ h.events
    rw [exeOpenStart, if_neg (by rw [hstep, step_lt_iff]; exact hturns)]
    exact ⟨halive, rfl⟩

/-- `exeOpen` waits for the end of the action. -/
theorem Shows.open (h : Shows chain (.opening k .Open) s) :
    ∃ s', execute chain s (k, actionEnd) = some s' ∧
      Shows chain ((Wave.opening k .Open).advance chain actionEnd) s' := by
  obtain ⟨halive, hnerve⟩ := h.openingPanel
  refine ⟨_, execute_alive halive hnerve, ?_⟩
  rw [Wave.advance, exeOpen]
  cases actionEnd with
  | false => exact h.openingMove rfl ⟨halive, hnerve⟩ h.events
  | true =>
    refine h.openingMove (f := fun panel => panel.setNerve .StartNext) rfl
      ⟨halive, rfl, rfl⟩ ?_
    have hevents := h.events
    rw [if_pos rfl, State.tell_events, State.modify_events, hevents, Wave.events, Wave.events,
      openedEvents, openedEvents, List.range_succ, List.map_append]
    · rfl
    · exact fun heq => nomatch heq

/-- `exeStartNext` starts the next panel. -/
theorem Shows.startNext (h : Shows chain (.opening k .StartNext) s) (hk : k + 1 < chain.length) :
    ∃ s', execute chain s (k, actionEnd) = some s' ∧
      Shows chain (.opening (k + 1) (.OpenStart 0)) s' := by
  obtain ⟨halive, hnerve, hstep⟩ := h.openingPanel
  refine ⟨(s.modify (k + 1) (start chain (k + 1))).modify k PatanPanel.nextStep, ?_, hk,
    fun j => ?_, h.events⟩
  · rw [execute_alive halive hnerve, exeNerve, exeStartNext, Chain.mNext, if_pos hk]
    dsimp only
    rw [if_pos hstep]
  · obtain ⟨hbefore, -, hbehind⟩ := h.panels j
    rcases Nat.lt_trichotomy j (k + 1) with hlt | rfl | hgt
    · refine ⟨fun _ => ?_, fun heq => by omega, fun hgt => by omega⟩
      by_cases hj : j = k
      · rw [hj, State.modify_same, State.modify_of_ne _ _ (by omega)]
        exact ⟨halive, hnerve, Nat.succ_ne_zero _⟩
      · rw [State.modify_of_ne _ _ hj, State.modify_of_ne _ _ (by omega)]
        exact hbefore (by omega)
    · refine ⟨fun hlt => by omega, fun _ => ?_, fun hgt => by omega⟩
      rw [State.modify_of_ne _ _ (by omega), State.modify_same]
      exact ⟨rfl, rfl, rfl⟩
    · refine ⟨fun hlt => by omega, fun heq => by omega, fun _ => ?_⟩
      rw [State.modify_of_ne _ _ (by omega), State.modify_of_ne _ _ (by omega)]
      exact hbehind (by omega)

/-- `exeStartNext` of the last panel starts to close the first one. -/
theorem Shows.turn (h : Shows chain (.opening (k + 1) .StartNext) s)
    (hk : k + 2 = chain.length) :
    ∃ s', execute chain s (k + 1, actionEnd) = some s' ∧
      Shows chain (.closing 0 (.CloseSign 0)) s' := by
  obtain ⟨halive, hnerve, hstep⟩ := h.openingPanel
  have hfirst : Opened (s.panels 0) := (h.panels 0).1 (Nat.succ_pos k)
  have hclosing : (s.panels 0).isClosing = false := by
    rw [PatanPanel.isClosing, hfirst.nerve]
    rfl
  refine ⟨((s.modify 0 PanelChain.startClose).tell (.startClose (k + 1) 0)).modify (k + 1)
    PatanPanel.nextStep, ?_, ⟨by omega, Nat.zero_le _⟩, fun j => ?_, ?_⟩
  · rw [execute_alive halive hnerve, exeNerve, exeStartNext, Chain.mNext, if_neg (by omega)]
    dsimp only [mLast]
    rw [findStartPanel_eq, hclosing]
    rfl
  · obtain ⟨hbefore, -, hbehind⟩ := h.panels j
    rcases Nat.eq_zero_or_pos j with rfl | hpos
    · refine ⟨fun hlt => by omega, fun _ => ?_, fun hgt => by omega, fun hge => by omega⟩
      rw [State.modify_of_ne _ _ (by omega), State.tell_panels, State.modify_same]
      exact ⟨hfirst.alive, rfl, rfl⟩
    · refine ⟨fun hlt => by omega, fun heq => by omega, fun _ hin => ?_, fun hout => ?_⟩
      · by_cases hj : j = k + 1
        · rw [hj, State.modify_same, State.tell_panels, State.modify_of_ne _ _ (by omega)]
          exact ⟨halive, hnerve, Nat.succ_ne_zero _⟩
        · rw [State.modify_of_ne _ _ hj, State.tell_panels, State.modify_of_ne _ _ (by omega)]
          exact hbefore (by omega)
      · rw [State.modify_of_ne _ _ (by omega), State.tell_panels,
          State.modify_of_ne _ _ (by omega)]
        exact hbehind (by omega)
  · rw [State.modify_events, State.tell_events, State.modify_events, h.events]
    simp only [Wave.events, turnEvents, closedEvents, ← hk, List.range_zero, List.flatMap_nil,
      List.append_nil]
    rfl

/-- `exeCloseSign` waits for its 25 steps. -/
theorem Shows.closeSign {step : ℕ} (h : Shows chain (.closing k (.CloseSign step)) s) :
    ∃ s', execute chain s (k, actionEnd) = some s' ∧
      Shows chain ((Wave.closing k (.CloseSign step)).advance chain actionEnd) s' := by
  obtain ⟨halive, hnerve, hstep⟩ := h.closingPanel
  obtain ⟨hk, hle⟩ := h.valid
  refine ⟨_, execute_alive halive hnerve, ?_⟩
  rw [Wave.advance]
  by_cases hends : step = 25
  · rw [if_pos hends]
    refine h.closingMove hk ?_
    rw [exeCloseSign, if_pos (hstep.trans hends)]
    exact ⟨halive, rfl⟩
  · rw [if_neg hends]
    refine h.closingMove ⟨hk, by omega⟩ ?_
    rw [exeCloseSign, if_neg (by rw [hstep]; exact hends)]
    exact ⟨halive, hnerve, congrArg (· + 1) hstep⟩

/-- `exeCloseFace` waits for the end of the action. -/
theorem Shows.closeFace (h : Shows chain (.closing k .CloseFace) s) :
    ∃ s', execute chain s (k, actionEnd) = some s' ∧
      Shows chain ((Wave.closing k .CloseFace).advance chain actionEnd) s' := by
  obtain ⟨halive, hnerve⟩ := h.closingPanel
  have hk : k < chain.length := h.valid
  refine ⟨_, execute_alive halive hnerve, ?_⟩
  rw [Wave.advance]
  cases actionEnd with
  | false => exact h.closingMove hk ⟨halive, hnerve⟩
  | true =>
    refine h.closingMove ⟨hk, fun _ => rfl⟩ ?_
    rw [exeCloseFace, if_pos rfl, Chain.mNext]
    by_cases hnext : k + 1 < chain.length
    · rw [if_pos hnext]
      exact ⟨halive, rfl, rfl, fun _ => rfl⟩
    · rw [if_neg hnext]
      exact ⟨halive, rfl, rfl, fun hlt => absurd hlt hnext⟩

/-- `exeClose` starts to close the next panel and dies. -/
theorem Shows.closeNext {step : ℕ} (h : Shows chain (.closing k (.Close step)) s)
    (hk : k + 1 < chain.length) (hends : ¬step < ⌈chain.degreesToNext k / 10⌉₊) :
    ∃ s', execute chain s (k, actionEnd) = some s' ∧
      Shows chain (.closing (k + 1) (.CloseSign 0)) s' := by
  obtain ⟨halive, hnerve, hstep, hdegrees⟩ := h.closingPanel
  have hnext : Opened (s.panels (k + 1)) := (h.panels (k + 1)).2.2.1 (Nat.lt_succ_self k) hk
  refine ⟨(((s.modify (k + 1) PanelChain.startClose).tell (.startClose k (k + 1))).modify k
    PatanPanel.makeActorDead).tell (.dead k), ?_, ⟨hk, Nat.zero_le _⟩, fun j => ?_, ?_⟩
  · rw [execute_alive halive hnerve, exeNerve, exeClose, Chain.mNext, if_pos hk]
    dsimp only
    rw [if_neg]
    rw [hstep, hdegrees hk, step_lt_iff]
    exact hends
  · obtain ⟨hbefore, -, hbehind, hout⟩ := h.panels j
    rw [State.tell_panels]
    rcases Nat.lt_trichotomy j (k + 1) with hlt | rfl | hgt
    · refine ⟨fun _ => ?_, fun heq => by omega, fun hgt => by omega, fun hge => by omega⟩
      by_cases hj : j = k
      · rw [hj, State.modify_same, State.tell_panels, State.modify_of_ne _ _ (by omega)]
        exact ⟨rfl, hnerve⟩
      · rw [State.modify_of_ne _ _ hj, State.tell_panels, State.modify_of_ne _ _ (by omega)]
        exact hbefore (by omega)
    · refine ⟨fun hlt => by omega, fun _ => ?_, fun hgt => by omega, fun hge => by omega⟩
      rw [State.modify_of_ne _ _ (by omega), State.tell_panels, State.modify_same]
      exact ⟨hnext.alive, rfl, rfl⟩
    · rw [State.modify_of_ne _ _ (by omega), State.tell_panels, State.modify_of_ne _ _ (by omega)]
      exact ⟨fun hlt => by omega, fun heq => by omega, fun _ => hbehind (by omega), hout⟩
  · rw [State.tell_events, State.modify_events, State.tell_events, State.modify_events, h.events]
    simp only [Wave.events, closedEvents, List.range_succ, List.flatMap_append,
      List.flatMap_singleton, List.append_assoc]
    rfl

/-- `exeClose` of the last panel turns the switch of the first one off and dies. -/
theorem Shows.closeLast {step : ℕ} (h : Shows chain (.closing k (.Close step)) s)
    (hk : ¬k + 1 < chain.length) :
    ∃ s', execute chain s (k, actionEnd) = some s' ∧ Shows chain .closed s' := by
  obtain ⟨halive, hnerve, hstep, -⟩ := h.closingPanel
  obtain ⟨hin, hzero⟩ := h.valid
  have hlast : k + 1 = chain.length := by omega
  refine ⟨((s.tell (.offStageSwitch 0)).modify k PatanPanel.makeActorDead).tell (.dead k), ?_,
    trivial, fun j => ?_, ?_⟩
  · rw [execute_alive halive hnerve, exeNerve, exeClose, Chain.mNext, if_neg hk]
    dsimp only
    rw [if_pos (hstep.trans (hzero hlast)), findStartPanel_eq]
  · obtain ⟨hbefore, -, -, hout⟩ := h.panels j
    rw [State.tell_panels]
    by_cases hj : j = k
    · rw [hj, State.modify_same]
      rfl
    · rw [State.modify_of_ne _ _ hj, State.tell_panels]
      rcases Nat.lt_or_ge j k with hlt | hge
      · exact (hbefore hlt).alive
      · exact hout (by omega)
  · rw [State.tell_events, State.modify_events, State.tell_events, h.events]
    have hpred : chain.length - 1 = k := by omega
    simp only [Wave.events, waveEvents, hpred, List.append_assoc]
    rfl

/-- `exeClose` turns the panel, and then closes the next one or the chain. -/
theorem Shows.close {step : ℕ} (h : Shows chain (.closing k (.Close step)) s) :
    ∃ s', execute chain s (k, actionEnd) = some s' ∧
      Shows chain ((Wave.closing k (.Close step)).advance chain actionEnd) s' := by
  rw [Wave.advance]
  by_cases hk : k + 1 < chain.length
  · rw [if_pos hk]
    by_cases hturns : step < ⌈chain.degreesToNext k / 10⌉₊
    · obtain ⟨halive, hnerve, hstep, hdegrees⟩ := h.closingPanel
      rw [if_pos hturns]
      refine ⟨s.modify k fun panel => (panel.rotateX 10).nextStep, ?_,
        h.closingMove ⟨by omega, fun heq => by omega⟩
          ⟨halive, hnerve, congrArg (· + 1) hstep, hdegrees⟩⟩
      rw [execute_alive halive hnerve, exeNerve, exeClose, Chain.mNext, if_pos hk]
      dsimp only
      rw [if_pos]
      rw [hstep, hdegrees hk, step_lt_iff]
      exact hturns
    · rw [if_neg hturns]
      exact h.closeNext hk hturns
  · rw [if_neg hk]
    exact h.closeLast hk

/-- An execution moves the chain along the wave, unless it follows the null `mLast` of a single
panel. -/
theorem Shows.execute {wave : Wave} (h : Shows chain wave s) (action : ℕ × Bool)
    (hlink : wave = .opening 0 .StartNext → 2 ≤ chain.length) :
    ∃ s', execute chain s action = some s' ∧ Shows chain (waveStep chain wave action) s' := by
  obtain ⟨i, actionEnd⟩ := action
  by_cases hi : wave.panel = some i
  · rw [waveStep, if_pos hi]
    cases wave with
    | opening k stage =>
      cases hi
      cases stage with
      | OpenStart step => exact h.openStart
      | Open => exact h.open
      | StartNext =>
        have hin : i < chain.length := h.valid
        rw [Wave.advance]
        by_cases hk : i + 1 < chain.length
        · rw [if_pos hk]
          exact h.startNext hk
        · rw [if_neg hk]
          cases i with
          | zero =>
            have hlong := hlink rfl
            omega
          | succ last => exact h.turn (by omega)
    | closing k stage =>
      cases hi
      cases stage with
      | CloseSign step => exact h.closeSign
      | CloseFace => exact h.closeFace
      | Close step => exact h.close
    | closed => cases hi
  · rw [waveStep, if_neg hi]
    exact h.bystander hi

end Steps

section Runs

variable {chain : Chain} {schedule : ℕ → ℕ × Bool}

/-- `start` puts the first panel at the beginning of the wave. -/
theorem started_shows (chain : Chain) :
    Shows chain (.opening 0 (.OpenStart 0)) (started chain) := by
  refine ⟨chain.length_pos, fun j => ?_, rfl⟩
  rcases Nat.eq_zero_or_pos j with rfl | hpos
  · exact ⟨fun hlt => by omega, fun _ => ⟨rfl, rfl, rfl⟩, fun hgt => by omega⟩
  · refine ⟨fun hlt => by omega, fun heq => by omega, fun _ => ?_⟩
    rw [started, State.modify_of_ne _ _ (by omega)]
    rfl

/-- The wave behind some executions. -/
def waveAfter (chain : Chain) (schedule : ℕ → ℕ × Bool) : ℕ → Wave :=
  runSchedule (waveStep chain) schedule (.opening 0 (.OpenStart 0))

/-- A run follows the wave until a single panel has opened. -/
theorem run_shows (schedule : ℕ → ℕ × Bool) {k : ℕ}
    (hlink : ∀ j < k, waveAfter chain schedule j = .opening 0 .StartNext → 2 ≤ chain.length) :
    ∃ s, runFor chain schedule k = some s ∧ Shows chain (waveAfter chain schedule k) s := by
  induction k with
  | zero => exact ⟨started chain, rfl, started_shows chain⟩
  | succ k ih =>
    obtain ⟨s, hrun, hshows⟩ := ih fun j hj => hlink j (by omega)
    obtain ⟨s', hstep, hnext⟩ := hshows.execute (schedule k) (hlink k (Nat.lt_succ_self k))
    refine ⟨s', ?_, hnext⟩
    rw [runFor, hrun, Option.bind_some, hstep]

/-- One more panel goes to `StartNext`. -/
theorem openedEvents_begin {k n : ℕ} (h : k ≤ n) : openedEvents k <+: openedEvents n := by
  obtain ⟨d, rfl⟩ := Nat.exists_eq_add_of_le h
  rw [openedEvents, openedEvents, List.range_add, List.map_append]
  exact List.prefix_append _ _

/-- One more panel closes. -/
theorem closedEvents_begin {k n : ℕ} (h : k ≤ n) : closedEvents k <+: closedEvents n := by
  obtain ⟨d, rfl⟩ := Nat.exists_eq_add_of_le h
  rw [closedEvents, closedEvents, List.range_add, List.flatMap_append]
  exact List.prefix_append _ _

/-- The events at a place of the wave are the beginning of those of a whole one. -/
theorem events_begin {wave : Wave} (h : wave.Valid chain) :
    wave.events chain <+: waveEvents chain.length := by
  have hturn : turnEvents chain.length <+: waveEvents chain.length := by
    rw [waveEvents, List.append_assoc]
    exact List.prefix_append _ _
  have hopened : ∀ k ≤ chain.length, openedEvents k <+: waveEvents chain.length := fun k hk =>
    ((openedEvents_begin hk).trans (List.prefix_append _ _)).trans hturn
  cases wave with
  | opening k stage =>
    have hk : k < chain.length := h
    cases stage with
    | OpenStart step => exact hopened k hk.le
    | Open => exact hopened k hk.le
    | StartNext => exact hopened (k + 1) hk
  | closing k stage =>
    have hk : k < chain.length := by
      cases stage with
      | CloseSign step => exact h.1
      | CloseFace => exact h
      | Close step => exact h.1
    rw [Wave.events, waveEvents]
    have hclosed := closedEvents_begin (by omega : k ≤ chain.length - 1)
    exact ((List.prefix_append_right_inj _).mpr hclosed).trans (List.prefix_append _ _)
  | closed => exact List.prefix_refl _

/-- What is left of the wave: panels, stages of the panel, and steps of the stage. -/
def rank (chain : Chain) : Wave → ℕ ×ₗ ℕ ×ₗ ℕ
  | .opening k (.OpenStart step) =>
    toLex (2 * chain.length - k, toLex (2, ⌈chain.mDegreesToRotate k / 10⌉₊ - step))
  | .opening k .Open => toLex (2 * chain.length - k, toLex (1, 0))
  | .opening k .StartNext => toLex (2 * chain.length - k, toLex (0, 0))
  | .closing k (.CloseSign step) => toLex (chain.length - k, toLex (2, 25 - step))
  | .closing k .CloseFace => toLex (chain.length - k, toLex (1, 0))
  | .closing k (.Close step) =>
    toLex (chain.length - k, toLex (0, ⌈chain.degreesToNext k / 10⌉₊ - step))
  | .closed => toLex (0, toLex (0, 0))

/-- An execution of the panel of the wave with its action at its end. -/
def Helps (wave : Wave) (action : ℕ × Bool) : Prop :=
  wave.panel = some action.1 ∧ action.2 = true

/-- The order of two ranks, panel by panel, stage by stage and step by step. -/
theorem rank_lt_iff {a b c a' b' c' : ℕ} :
    (toLex (a, toLex (b, c)) : ℕ ×ₗ ℕ ×ₗ ℕ) < toLex (a', toLex (b', c')) ↔
      a < a' ∨ a = a' ∧ (b < b' ∨ b = b' ∧ c < c') := by
  rw [Prod.Lex.toLex_lt_toLex, Prod.Lex.toLex_lt_toLex]

/-- The wave stays inside of the chain and has less in front of it. -/
theorem advance_rank {wave : Wave} (h : wave.Valid chain) (hopen : wave ≠ .closed) :
    (wave.advance chain true).Valid chain ∧
      rank chain (wave.advance chain true) < rank chain wave := by
  cases wave with
  | opening k stage =>
    have hk : k < chain.length := h
    cases stage with
    | OpenStart step =>
      rw [Wave.advance]
      split_ifs with hturns
      · exact ⟨hk, rank_lt_iff.mpr (by omega)⟩
      · exact ⟨hk, rank_lt_iff.mpr (by omega)⟩
    | Open => exact ⟨hk, rank_lt_iff.mpr (by omega)⟩
    | StartNext =>
      rw [Wave.advance]
      split_ifs with hnext
      · exact ⟨hnext, rank_lt_iff.mpr (by omega)⟩
      · exact ⟨⟨chain.length_pos, Nat.zero_le _⟩, rank_lt_iff.mpr (by omega)⟩
  | closing k stage =>
    cases stage with
    | CloseSign step =>
      obtain ⟨hk, hle⟩ := h
      rw [Wave.advance]
      split_ifs with hends
      · exact ⟨hk, rank_lt_iff.mpr (by omega)⟩
      · exact ⟨⟨hk, by omega⟩, rank_lt_iff.mpr (by omega)⟩
    | CloseFace => exact ⟨⟨h, fun _ => rfl⟩, rank_lt_iff.mpr (by omega)⟩
    | Close step =>
      obtain ⟨hk, hzero⟩ := h
      rw [Wave.advance]
      split_ifs with hnext hturns
      · exact ⟨⟨hk, fun hlast => by omega⟩, rank_lt_iff.mpr (by omega)⟩
      · exact ⟨⟨hnext, Nat.zero_le _⟩, rank_lt_iff.mpr (by omega)⟩
      · exact ⟨trivial, rank_lt_iff.mpr (by omega)⟩
  | closed => exact absurd rfl hopen

/-- An action that goes on does not change the wave, or it does not matter. -/
theorem advance_false (chain : Chain) (wave : Wave) :
    wave.advance chain false = wave ∨ wave.advance chain false = wave.advance chain true := by
  cases wave with
  | opening k stage =>
    cases stage with
    | OpenStart step => exact Or.inr rfl
    | Open => exact Or.inl rfl
    | StartNext => exact Or.inr rfl
  | closing k stage =>
    cases stage with
    | CloseSign step => exact Or.inr rfl
    | CloseFace => exact Or.inl rfl
    | Close step => exact Or.inr rfl
  | closed => exact Or.inl rfl

/-- The descent of the wave. -/
def Behind (chain : Chain) (wave wave' : Wave) : Prop := rank chain wave < rank chain wave'

/-- The wave has no infinite descent. -/
theorem behind_wellFounded (chain : Chain) : WellFounded (Behind chain) :=
  InvImage.wf (rank chain) wellFounded_lt

/-- Every execution leaves the wave or advances it. -/
theorem waveStep_any {wave : Wave} (h : wave.Valid chain) (hopen : wave ≠ .closed)
    (action : ℕ × Bool) :
    waveStep chain wave action = wave ∨
      Advances (Behind chain) (Wave.Valid chain) wave (waveStep chain wave action) := by
  rw [waveStep]
  split_ifs with hpanel
  · cases action.2 with
    | false =>
      rcases advance_false chain wave with hsame | hadvance
      · exact Or.inl hsame
      · rw [hadvance]
        exact Or.inr (advance_rank h hopen)
    | true => exact Or.inr (advance_rank h hopen)
  · exact Or.inl rfl

/-- The wave makes progress until all panels are dead. -/
theorem wave_progress (chain : Chain) :
    Progress (waveStep chain) (Behind chain) (Wave.Valid chain) (· = .closed) Helps where
  wellFounded := behind_wellFounded chain
  any wave action h hopen := waveStep_any h hopen action
  helpful wave action h hopen hhelps := by
    rw [waveStep, if_pos hhelps.1, hhelps.2]
    exact advance_rank h hopen

/-- A single panel has not yet left `StartNext`. -/
def SingleOpens : Wave → Prop
  | .opening k _ => k = 0
  | _ => False

/-- The first panel makes progress until it has opened. -/
theorem single_progress (chain : Chain) :
    Progress (waveStep chain) (Behind chain) SingleOpens (· = .opening 0 .StartNext) Helps := by
  have hadvance : ∀ wave, SingleOpens wave → wave ≠ .opening 0 .StartNext →
      Advances (Behind chain) SingleOpens wave (wave.advance chain true) := by
    intro wave hsingle hclosed
    cases wave with
    | opening k stage =>
      cases hsingle
      have hvalid : (Wave.opening 0 stage).Valid chain := chain.length_pos
      refine ⟨?_, (advance_rank hvalid fun heq => nomatch heq).2⟩
      cases stage with
      | OpenStart step =>
        rw [Wave.advance]
        split_ifs <;> rfl
      | Open => rfl
      | StartNext => exact absurd rfl hclosed
    | closing k stage => cases hsingle
    | closed => cases hsingle
  refine ⟨behind_wellFounded chain, fun wave action hsingle hclosed => ?_,
    fun wave action hsingle hclosed hhelps => ?_⟩
  · rw [waveStep]
    split_ifs with hpanel
    · cases action.2 with
      | false =>
        rcases advance_false chain wave with hsame | hsteps
        · exact Or.inl hsame
        · rw [hsteps]
          exact Or.inr (hadvance wave hsingle hclosed)
      | true => exact Or.inr (hadvance wave hsingle hclosed)
    · exact Or.inl rfl
  · rw [waveStep, if_pos hhelps.1, hhelps.2]
    exact hadvance wave hsingle hclosed

/-- The panel of a wave is executed again and again with its action at its end. -/
theorem Timely.fair (h : Timely chain schedule) :
    Fair (Wave.Valid chain) (· = .closed) Helps schedule := by
  intro wave hvalid hopen k
  have hpanel : ∃ i < chain.length, wave.panel = some i := by
    cases wave with
    | opening i stage => exact ⟨i, hvalid, rfl⟩
    | closing i stage =>
      cases stage with
      | CloseSign step => exact ⟨i, hvalid.1, rfl⟩
      | CloseFace => exact ⟨i, hvalid, rfl⟩
      | Close step => exact ⟨i, hvalid.1, rfl⟩
    | closed => exact absurd rfl hopen
  obtain ⟨i, hi, hwave⟩ := hpanel
  obtain ⟨later, hlater, hschedule⟩ := h i hi k
  refine ⟨later, hlater, ?_⟩
  rw [hschedule]
  exact ⟨hwave, rfl⟩

/-- The schedule that executes the first panel only. -/
def firstOnly : ℕ → ℕ × Bool := fun _ => (0, true)

/-- A single panel comes to an execution that follows its null `mLast`. -/
theorem single_follows_null (chain : Chain) (hsingle : chain.length = 1) :
    ∃ k, runFor chain firstOnly k = none := by
  classical
  have hfair : Fair SingleOpens (· = .opening 0 .StartNext) Helps firstOnly := by
    intro wave hopens _ k
    cases wave with
    | opening i stage =>
      cases hopens
      exact ⟨k, le_rfl, rfl, rfl⟩
    | closing i stage => cases hopens
    | closed => cases hopens
  have hstart : SingleOpens (.opening 0 (.OpenStart 0)) := rfl
  obtain ⟨k, -, hk⟩ := (single_progress chain).reaches hfair hstart
  -- the first time that it is in `StartNext`
  have hexists : ∃ k, waveAfter chain firstOnly k = .opening 0 .StartNext := ⟨k, hk⟩
  obtain ⟨s, hrun, hshows⟩ := run_shows firstOnly (k := Nat.find hexists)
    fun j hj heq => absurd heq (Nat.find_min hexists hj)
  rw [Nat.find_spec hexists] at hshows
  obtain ⟨halive, hnerve, -⟩ := hshows.openingPanel
  refine ⟨Nat.find hexists + 1, ?_⟩
  rw [runFor, hrun, Option.bind_some, firstOnly, execute_alive halive hnerve, exeNerve,
    exeStartNext, Chain.mNext, if_neg (by omega)]
  rfl

/-- A chain opens and closes exactly when it has two panels or more. -/
theorem opens_and_closes_iff (chain : Chain) : OpensAndCloses chain ↔ 2 ≤ chain.length := by
  constructor
  · rintro ⟨hsafe, -⟩
    by_contra hshort
    have hpos := chain.length_pos
    obtain ⟨k, hnone⟩ := single_follows_null chain (by omega)
    obtain ⟨s, hsome, -⟩ := hsafe firstOnly k
    rw [hnone] at hsome
    cases hsome
  · intro hlong
    refine ⟨fun schedule k => ?_, fun schedule htimely => ?_⟩
    · obtain ⟨s, hrun, hshows⟩ := run_shows schedule (k := k) fun _ _ _ => hlong
      refine ⟨s, hrun, ?_⟩
      rw [hshows.events]
      exact events_begin hshows.valid
    · have hstart : (Wave.opening 0 (.OpenStart 0)).Valid chain := chain.length_pos
      obtain ⟨k, -, hclosed⟩ := (wave_progress chain).reaches htimely.fair hstart
      obtain ⟨s, hrun, hshows⟩ := run_shows schedule (k := k) fun _ _ _ => hlong
      have hwave : waveAfter chain schedule k = .closed := hclosed
      rw [hwave] at hshows
      exact ⟨k, s, hrun, hshows.events, hshows.panels⟩

/-- A chain of one panel. -/
def singlePanel : Chain := ⟨1, by decide, fun _ => 180, fun _ => 180⟩

/-- The single panel follows its null link: it turns for 18 frames, goes to `Open` and, its action
being at its end, to `StartNext`. -/
theorem singlePanel_crashes :
    (runFor singlePanel firstOnly 20).isSome = true ∧ runFor singlePanel firstOnly 21 = none ∧
      ¬OpensAndCloses singlePanel := by
  have hnone : (runFor singlePanel firstOnly 21).isNone = true := by decide +kernel
  refine ⟨by decide +kernel, Option.isNone_iff_eq_none.mp hnone, fun h => ?_⟩
  obtain ⟨s, hsome, -⟩ := h.1 firstOnly 21
  rw [hsome] at hnone
  cases hnone

end Runs

end BfMultiplayer.PanelWave

import BfMultiplayer.PanelStarter

/-!
# The waves of a started chain

The system of a starter, its switch and a chain is always at a place of one
cycle: the starter waits, a wave is on its way, and what has happened are some
whole waves and the beginning of another one. Chains that have been started
before open and close as they do at their first start.
-/

namespace BfMultiplayer.PanelReplay

open PanelChain PanelWave PanelStarter FairProgress

/-- The parts of the cycle. -/
inductive Phase where
  /-- The starter waits. -/
  | offWait
  /-- The starter has been stepped on. -/
  | toOn
  /-- The switch has still to call `start`. -/
  | starting
  /-- The panels open and close. -/
  | running (wave : Wave)
  /-- The switch has still to call `close`. -/
  | ending
  /-- The starter goes back to its wait. -/
  | toOff

/-- The nerve of the starter. -/
def Phase.nerve : Phase → StarterNerve
  | .offWait => .OffWait
  | .toOn => .ToOn
  | .toOff => .ToOff
  | _ => .OnWait

/-- The switch. -/
def Phase.stageSwitch : Phase → StageSwitch
  | .starting => ⟨true, [.start]⟩
  | .running _ => ⟨true, []⟩
  | .ending => ⟨false, [.close]⟩
  | _ => ⟨false, []⟩

/-- A place of the cycle. -/
structure Position where
  /-- The number of whole waves. -/
  waves : ℕ
  /-- The part of the cycle. -/
  phase : Phase

/-- The position when a wave has come to a place. -/
def Position.ofWave (waves : ℕ) : Wave → Position
  | .closed => ⟨waves + 1, .ending⟩
  | wave => ⟨waves, .running wave⟩

/-- The position when something happens. -/
def Position.next (chain : Chain) : Position → Action → Position
  | ⟨n, .offWait⟩, .message true => ⟨n, .toOn⟩
  | ⟨n, .toOn⟩, .starter true => ⟨n, .starting⟩
  | ⟨n, .starting⟩, .call 0 => ⟨n, .running (.opening 0 (.OpenStart 0))⟩
  | ⟨n, .running wave⟩, .panel i actionEnd =>
    Position.ofWave n (waveStep chain wave (i, actionEnd))
  | ⟨n, .ending⟩, .call 0 => ⟨n, .toOff⟩
  | ⟨n, .toOff⟩, .starter true => ⟨n, .offWait⟩
  | position, _ => position

/-- The events of some whole waves. -/
def playedEvents (chain : Chain) (n : ℕ) : List Event :=
  (List.replicate n (waveEvents chain.length)).flatten

/-- All panels are dead. -/
def AllDead (panels : State) : Prop := ∀ j, (panels.panels j).alive = false

/-- The panels of a state, with events in front of theirs. -/
def after (earlier : List Event) (s : State) : State := ⟨s.panels, earlier ++ s.events⟩

/-- The panels are at a part of the cycle behind some waves. -/
def Phase.Shows (chain : Chain) (n : ℕ) (panels : State) : Phase → Prop
  | .running wave =>
    wave ≠ .closed ∧ ∃ s, PanelWave.Shows chain wave s ∧ panels = after (playedEvents chain n) s
  | _ => AllDead panels ∧ panels.events = playedEvents chain n

/-- The clipping and the light of a starter fit to its nerve. -/
structure Lit (starter : PatanPanelStarter) : Prop where
  /-- A starter that changes is executed out of sight, too. -/
  clipping : starter.nerve = .ToOn ∨ starter.nerve = .ToOff → starter.clipping = false
  /-- The light is on from the first step of `ToOn` to that of `ToOff`. -/
  light : starter.light = .On ↔ starter.nerve = .OnWait ∨
    starter.nerve = .ToOn ∧ starter.step ≠ 0 ∨ starter.nerve = .ToOff ∧ starter.step = 0

/-- A system is at a place of the cycle. -/
structure Stands (chain : Chain) (position : Position) (s : System) : Prop where
  /-- The nerve of the starter. -/
  nerve : s.starter.nerve = position.phase.nerve
  /-- The switch. -/
  stageSwitch : s.stageSwitch = position.phase.stageSwitch
  /-- The panels. -/
  panels : position.phase.Shows chain position.waves s.panels
  /-- The rest of the starter. -/
  lit : Lit s.starter

section Starter

variable {starter : PatanPanelStarter}

/-- A starter that waits for a step on it has its light off. -/
theorem lit_offWait (hnerve : starter.nerve = .OffWait) : Lit starter ↔ starter.light = .Off := by
  have hlight : starter.light = .Off ↔ ¬starter.light = .On := by
    cases starter.light <;> decide
  constructor
  · intro h
    rw [hlight, h.light, hnerve]
    simp
  · intro h
    refine ⟨fun hchanges => ?_, ?_⟩
    · rw [hnerve] at hchanges
      rcases hchanges with hchanges | hchanges <;> cases hchanges
    · rw [h, hnerve]
      simp

/-- A starter that waits for the end of the panels has its light on. -/
theorem lit_onWait (hnerve : starter.nerve = .OnWait) : Lit starter ↔ starter.light = .On := by
  constructor
  · intro h
    exact h.light.mpr (Or.inl hnerve)
  · intro h
    refine ⟨fun hchanges => ?_, ?_⟩
    · rw [hnerve] at hchanges
      rcases hchanges with hchanges | hchanges <;> cases hchanges
    · exact ⟨fun _ => Or.inl hnerve, fun _ => h⟩

/-- A starter that changes to on has its light off before its first step. -/
theorem lit_toOn (hnerve : starter.nerve = .ToOn) :
    Lit starter ↔ starter.clipping = false ∧ (starter.light = .On ↔ starter.step ≠ 0) := by
  constructor
  · intro h
    refine ⟨h.clipping (Or.inl hnerve), ?_⟩
    rw [h.light, hnerve]
    simp
  · rintro ⟨hclipping, hlight⟩
    refine ⟨fun _ => hclipping, ?_⟩
    rw [hlight, hnerve]
    simp

/-- A starter that changes to off has its light on before its first step. -/
theorem lit_toOff (hnerve : starter.nerve = .ToOff) :
    Lit starter ↔ starter.clipping = false ∧ (starter.light = .On ↔ starter.step = 0) := by
  constructor
  · intro h
    refine ⟨h.clipping (Or.inr hnerve), ?_⟩
    rw [h.light, hnerve]
    simp
  · rintro ⟨hclipping, hlight⟩
    refine ⟨fun _ => hclipping, ?_⟩
    rw [hlight, hnerve]
    simp

/-- `exeOffWait` keeps the nerve and the light. -/
theorem exeOffWait_spec (h : Lit starter) (hnerve : starter.nerve = .OffWait) :
    (exeOffWait starter).nerve = .OffWait ∧ Lit (exeOffWait starter) := by
  have hlight := (lit_offWait hnerve).mp h
  have hkeeps : (exeOffWait starter).nerve = .OffWait ∧ (exeOffWait starter).light = .Off := by
    rw [exeOffWait]
    split_ifs with hfirst
    · exact ⟨hnerve, hlight⟩
    · exact ⟨hnerve, hlight⟩
  exact ⟨hkeeps.1, (lit_offWait hkeeps.1).mpr hkeeps.2⟩

/-- `exeOnWait` keeps the nerve and the light. -/
theorem exeOnWait_spec (h : Lit starter) (hnerve : starter.nerve = .OnWait) :
    (exeOnWait starter).nerve = .OnWait ∧ Lit (exeOnWait starter) := by
  have hlight := (lit_onWait hnerve).mp h
  have hkeeps : (exeOnWait starter).nerve = .OnWait ∧ (exeOnWait starter).light = .On := by
    rw [exeOnWait]
    split_ifs with hfirst
    · exact ⟨hnerve, hlight⟩
    · exact ⟨hnerve, hlight⟩
  exact ⟨hkeeps.1, (lit_onWait hkeeps.1).mpr hkeeps.2⟩

/-- `exeToOff` puts the light off, and waits for the end of the action. -/
theorem exeToOff_spec (actionEnd : Bool) (h : Lit starter) (hnerve : starter.nerve = .ToOff) :
    (exeToOff actionEnd starter).nerve = (if actionEnd then .OffWait else .ToOff) ∧
      Lit (exeToOff actionEnd starter) := by
  obtain ⟨hclipping, hlight⟩ := (lit_toOff hnerve).mp h
  -- what the first step leaves, and the later ones keep
  obtain ⟨lit, hlit, hlitNerve, hlitClipping, hlitLight⟩ : ∃ lit : PatanPanelStarter,
      exeToOff actionEnd starter = (if actionEnd then lit.setNerve .OffWait else lit.nextStep) ∧
        lit.nerve = .ToOff ∧ lit.clipping = false ∧ lit.light = .Off := by
    refine ⟨_, rfl, ?_⟩
    split_ifs with hfirst
    · exact ⟨hnerve, hclipping, rfl⟩
    · refine ⟨hnerve, hclipping, ?_⟩
      cases hcolour : starter.light with
      | Off => rfl
      | On => exact absurd (hlight.mp hcolour) hfirst
  rw [hlit]
  cases actionEnd with
  | true => exact ⟨rfl, (lit_offWait rfl).mpr hlitLight⟩
  | false =>
    have hkept : lit.nextStep.nerve = .ToOff := hlitNerve
    refine ⟨hkept, (lit_toOff hkept).mpr ⟨hlitClipping, ?_⟩⟩
    simp [PatanPanelStarter.nextStep, hlitLight]

/-- `exeToOn` puts the light on, and turns the switch on at the end of the action. -/
theorem exeToOn_spec (actionEnd : Bool) (h : Lit starter) (hnerve : starter.nerve = .ToOn)
    (stageSwitch : StageSwitch) :
    (exeToOn actionEnd starter stageSwitch).1.nerve = (if actionEnd then .OnWait else .ToOn) ∧
      (exeToOn actionEnd starter stageSwitch).2 =
        (if actionEnd then stageSwitch.tryOn else stageSwitch) ∧
      Lit (exeToOn actionEnd starter stageSwitch).1 := by
  obtain ⟨hclipping, hlight⟩ := (lit_toOn hnerve).mp h
  obtain ⟨lit, hlit, hlitNerve, hlitClipping, hlitLight⟩ : ∃ lit : PatanPanelStarter,
      exeToOn actionEnd starter stageSwitch =
        (if actionEnd then (lit.setNerve .OnWait, stageSwitch.tryOn)
          else (lit.nextStep, stageSwitch)) ∧
        lit.nerve = .ToOn ∧ lit.clipping = false ∧ lit.light = .On := by
    refine ⟨_, rfl, ?_⟩
    split_ifs with hfirst
    · exact ⟨hnerve, hclipping, rfl⟩
    · exact ⟨hnerve, hclipping, hlight.mpr hfirst⟩
  rw [hlit]
  cases actionEnd with
  | true => exact ⟨rfl, rfl, (lit_onWait rfl).mpr hlitLight⟩
  | false =>
    have hkept : lit.nextStep.nerve = .ToOn := hlitNerve
    refine ⟨hkept, rfl, (lit_toOn hkept).mpr ⟨hlitClipping, ?_⟩⟩
    simp [PatanPanelStarter.nextStep, hlitLight]

/-- `receiveMsg` answers a step on a waiting starter, and nothing else. -/
theorem receiveMsg_spec (floorTouch : Bool) (h : Lit starter) :
    Lit (receiveMsg floorTouch starter).1 ∧
      (receiveMsg floorTouch starter).1.nerve =
        (if floorTouch && starter.nerve = .OffWait then .ToOn else starter.nerve) := by
  rw [receiveMsg]
  split_ifs with hanswers
  · have hnerve : starter.nerve = .OffWait := by
      rw [Bool.and_eq_true, decide_eq_true_eq] at hanswers
      exact hanswers.2
    have hoff := (lit_offWait hnerve).mp h
    refine ⟨(lit_toOn rfl).mpr ⟨rfl, ?_⟩, rfl⟩
    simp [PatanPanelStarter.setNerve, hoff]
  · exact ⟨h, rfl⟩

/-- `close` in `OnWait` starts to change to off. -/
theorem close_spec (h : Lit starter) (hnerve : starter.nerve = .OnWait) :
    (close starter).nerve = .ToOff ∧ Lit (close starter) := by
  have hon := (lit_onWait hnerve).mp h
  rw [close, if_pos hnerve]
  refine ⟨rfl, (lit_toOff rfl).mpr ⟨rfl, ?_⟩⟩
  simp [PatanPanelStarter.setNerve, hon]

end Starter

section Panels

variable {chain : Chain} {n : ℕ} {earlier : List Event}

/-- One more whole wave. -/
theorem playedEvents_succ (chain : Chain) (n : ℕ) :
    playedEvents chain (n + 1) = playedEvents chain n ++ waveEvents chain.length := by
  rw [playedEvents, playedEvents, List.replicate_succ', List.flatten_append, List.flatten_singleton]

/-- The panels behind any events. -/
theorem after_panels (earlier : List Event) (s : State) : (after earlier s).panels = s.panels := rfl

/-- The events in front do not matter to what a panel does to panels. -/
theorem after_modify (earlier : List Event) (s : State) (i : ℕ) (f : PatanPanel → PatanPanel) :
    (after earlier s).modify i f = after earlier (s.modify i f) := rfl

/-- A new event stands behind those in front. -/
theorem after_tell (earlier : List Event) (s : State) (event : Event) :
    (after earlier s).tell event = after earlier (s.tell event) := by
  rw [after, State.tell, after, State.tell, List.append_assoc]

/-- A panel executes its nerve in the same way behind any events. -/
theorem exeNerve_after (chain : Chain) (i : ℕ) (actionEnd : Bool) (s : State) (nerve : Nerve) :
    exeNerve chain i actionEnd (after earlier s) nerve =
      (exeNerve chain i actionEnd s nerve).map (after earlier) := by
  cases nerve with
  | OpenStart => rfl
  | Open =>
    rw [exeNerve, exeNerve, exeOpen, exeOpen, Option.map_some]
    split_ifs with hend
    · rw [after_modify, after_tell]
    · rfl
  | StartNext =>
    rw [exeNerve, exeNerve, exeStartNext, exeStartNext]
    cases chain.mNext i with
    | some next =>
      dsimp only [Option.map_some]
      by_cases hfirst : (s.panels i).step = 0
      · have hafter : ((after earlier s).panels i).step = 0 := hfirst
        rw [if_pos hafter, if_pos hfirst]
        rfl
      · have hafter : ((after earlier s).panels i).step ≠ 0 := hfirst
        rw [if_neg hafter, if_neg hfirst]
        rfl
    | none =>
      cases mLast i with
      | none => rfl
      | some last =>
        dsimp only [Option.map_some]
        cases hcloses : (s.panels (findStartPanel last)).isClosing with
        | true =>
          have hafter : ((after earlier s).panels (findStartPanel last)).isClosing = true := hcloses
          rw [if_pos hafter, if_pos rfl, after_modify]
        | false =>
          have hafter : ((after earlier s).panels (findStartPanel last)).isClosing = false :=
            hcloses
          rw [hafter, if_neg Bool.false_ne_true, if_neg Bool.false_ne_true, after_modify,
            after_tell, after_modify]
  | CloseSign => rfl
  | CloseFace => rfl
  | Close =>
    rw [exeNerve, exeNerve, exeClose, exeClose, Option.map_some]
    cases chain.mNext i with
    | some next =>
      dsimp only
      by_cases hturns : ((s.panels i).step : ℚ) < (s.panels i).mDegreesToRotateToNext / 10
      · have hafter : (((after earlier s).panels i).step : ℚ) <
          ((after earlier s).panels i).mDegreesToRotateToNext / 10 := hturns
        rw [if_pos hafter, if_pos hturns, after_modify]
      · have hafter : ¬(((after earlier s).panels i).step : ℚ) <
          ((after earlier s).panels i).mDegreesToRotateToNext / 10 := hturns
        rw [if_neg hafter, if_neg hturns, after_modify, after_tell, after_modify, after_tell]
    | none =>
      dsimp only
      by_cases hfirst : (s.panels i).step = 0
      · have hafter : ((after earlier s).panels i).step = 0 := hfirst
        rw [if_pos hafter, if_pos hfirst, after_tell, after_modify, after_tell]
      · have hafter : ((after earlier s).panels i).step ≠ 0 := hfirst
        rw [if_neg hafter, if_neg hfirst, after_modify]

/-- A panel is executed in the same way behind any events. -/
theorem execute_after (chain : Chain) (s : State) (action : ℕ × Bool) :
    execute chain (after earlier s) action = (execute chain s action).map (after earlier) := by
  rw [execute, execute]
  by_cases halive : (s.panels action.1).alive = true
  · rw [after_panels, if_pos halive, if_pos halive]
    exact exeNerve_after chain action.1 action.2 s _
  · rw [after_panels, if_neg halive, if_neg halive]
    rfl

/-- The switch is turned off at the end of a wave only. -/
theorem offStageSwitch_mem_iff (chain : Chain) (wave : Wave) :
    Event.offStageSwitch 0 ∈ wave.events chain ↔ wave = .closed := by
  cases wave with
  | opening k stage =>
    cases stage <;> simp [Wave.events, openedEvents]
  | closing k stage =>
    simp [Wave.events, turnEvents, openedEvents, closedEvents]
  | closed => simp [Wave.events, waveEvents]

/-- `start` of the first panel begins a wave when all panels are dead. -/
theorem start_shows {panels : State} (hdead : AllDead panels)
    (hevents : panels.events = playedEvents chain n) :
    (Phase.running (.opening 0 (.OpenStart 0))).Shows chain n
      (panels.modify 0 (start chain 0)) := by
  have hopen : Wave.opening 0 (.OpenStart 0) ≠ .closed := fun heq => nomatch heq
  refine ⟨hopen, ⟨(panels.modify 0 (start chain 0)).panels, []⟩, ?_, ?_⟩
  · refine ⟨chain.length_pos, fun j => ?_, rfl⟩
    rcases Nat.eq_zero_or_pos j with rfl | hpos
    · exact ⟨fun hlt => by omega, fun _ => ⟨rfl, rfl, rfl⟩, fun hgt => by omega⟩
    · refine ⟨fun hlt => by omega, fun heq => by omega, fun _ => ?_⟩
      dsimp only
      rw [State.modify_of_ne _ _ (by omega)]
      exact hdead j
  · rw [after, List.append_nil, ← hevents]
    rfl

/-- A panel of a chain of two panels or more moves its wave along. -/
theorem running_execute {wave : Wave} {panels : State} (hlong : 2 ≤ chain.length)
    (h : (Phase.running wave).Shows chain n panels) (action : ℕ × Bool) :
    ∃ s s', PanelWave.Shows chain wave s ∧ PanelWave.Shows chain (waveStep chain wave action) s' ∧
      panels = after (playedEvents chain n) s ∧
      execute chain panels action = some (after (playedEvents chain n) s') := by
  obtain ⟨-, s, hshows, rfl⟩ := h
  obtain ⟨s', hexecute, hnext⟩ := hshows.execute action fun _ => hlong
  refine ⟨s, s', hshows, hnext, rfl, ?_⟩
  rw [execute_after, hexecute, Option.map_some]

/-- The new events of an execution have the end of the wave when it comes to it. -/
theorem newEvents_off_iff (earlier : List Event) {wave wave' : Wave} {s s' : State}
    (hopen : wave ≠ .closed)
    (hs : PanelWave.Shows chain wave s) (hs' : PanelWave.Shows chain wave' s') :
    Event.offStageSwitch 0 ∈
        (after earlier s').events.drop (after earlier s).events.length ↔ wave' = .closed := by
  rw [after, after]
  dsimp only
  rw [List.length_append, List.drop_append, hs.events, hs'.events]
  have hfront : earlier.drop (earlier.length + (wave.events chain).length) = [] :=
    List.drop_eq_nil_of_le (Nat.le_add_right _ _)
  rw [hfront, List.nil_append, Nat.add_sub_cancel_left]
  constructor
  · intro hmem
    exact (offStageSwitch_mem_iff chain wave').mp (List.mem_of_mem_drop hmem)
  · rintro rfl
    -- the events before it are the beginning of a whole wave, without its end
    obtain ⟨rest, hrest⟩ := events_begin hs.valid
    have hnot := (offStageSwitch_mem_iff chain wave).not.mpr hopen
    have hmem := (offStageSwitch_mem_iff chain .closed).mpr rfl
    rw [Wave.events, ← hrest] at hmem ⊢
    rw [List.drop_left]
    exact (List.mem_append.mp hmem).resolve_left hnot

end Panels

section Steps

variable {chain : Chain} {n : ℕ} {s : System}

/-- A wave that goes on. -/
theorem ofWave_of_ne {wave : Wave} (h : wave ≠ .closed) :
    Position.ofWave n wave = ⟨n, .running wave⟩ := by
  cases wave with
  | opening k stage => rfl
  | closing k stage => rfl
  | closed => exact absurd rfl h

/-- Panels that stay as they are leave the switch. -/
theorem setPanels_self (s : System) : s.setPanels s.panels = s := by
  rw [System.setPanels, List.drop_length, if_neg List.not_mem_nil]

/-- Dead panels leave the system. -/
theorem perform_dead (h : AllDead s.panels) (i : ℕ) (actionEnd : Bool) :
    perform chain s (.panel i actionEnd) = some s := by
  rw [perform, execute_dead (h i), Option.map_some, setPanels_self]

/-- An execution of a panel while they open and close. -/
theorem Stands.panel {wave : Wave} (hlong : 2 ≤ chain.length)
    (h : Stands chain ⟨n, .running wave⟩ s) (i : ℕ) (actionEnd : Bool) :
    ∃ s', perform chain s (.panel i actionEnd) = some s' ∧
      Stands chain (Position.ofWave n (waveStep chain wave (i, actionEnd))) s' := by
  have hopen : wave ≠ .closed := h.panels.1
  obtain ⟨old, new, hold, hnew, hpanels, hexecute⟩ :=
    running_execute hlong h.panels (i, actionEnd)
  have hoff := newEvents_off_iff (playedEvents chain n) hopen hold hnew
  refine ⟨_, by rw [perform, hexecute, Option.map_some], ?_⟩
  generalize waveStep chain wave (i, actionEnd) = wave' at hnew hoff
  by_cases hclosed : wave' = .closed
  · subst hclosed
    refine ⟨h.nerve, ?_, ⟨fun j => hnew.panels j, ?_⟩, h.lit⟩
    · rw [System.setPanels]
      dsimp only
      rw [hpanels, if_pos (hoff.mpr rfl), h.stageSwitch]
      rfl
    · have hevents : playedEvents chain n ++ new.events = playedEvents chain (n + 1) := by
        rw [hnew.events, playedEvents_succ]
        rfl
      exact hevents
  · rw [ofWave_of_ne hclosed]
    refine ⟨h.nerve, ?_, ⟨hclosed, new, hnew, rfl⟩, h.lit⟩
    rw [System.setPanels]
    dsimp only
    rw [hpanels, if_neg (hoff.not.mpr hclosed)]
    exact h.stageSwitch

/-- A message to the starter. -/
theorem Stands.message {position : Position} (h : Stands chain position s) (floorTouch : Bool) :
    ∃ s', perform chain s (.message floorTouch) = some s' ∧
      Stands chain (position.next chain (.message floorTouch)) s' := by
  refine ⟨_, rfl, ?_⟩
  obtain ⟨hlit, hnerve⟩ := receiveMsg_spec floorTouch h.lit
  obtain ⟨n, phase⟩ := position
  rw [h.nerve] at hnerve
  cases phase with
  | offWait =>
    cases floorTouch with
    | true => exact ⟨hnerve, h.stageSwitch, h.panels, hlit⟩
    | false => exact ⟨hnerve, h.stageSwitch, h.panels, hlit⟩
  | _ =>
    cases floorTouch with
    | true => exact ⟨hnerve, h.stageSwitch, h.panels, hlit⟩
    | false => exact ⟨hnerve, h.stageSwitch, h.panels, hlit⟩

/-- An execution of the starter. -/
theorem Stands.starter {position : Position} (h : Stands chain position s) (actionEnd : Bool) :
    ∃ s', perform chain s (.starter actionEnd) = some s' ∧
      Stands chain (position.next chain (.starter actionEnd)) s' := by
  refine ⟨_, rfl, ?_⟩
  obtain ⟨n, phase⟩ := position
  have hnerve := h.nerve
  rw [executeStarter]
  cases phase with
  | offWait =>
    obtain ⟨hkept, hlit⟩ := exeOffWait_spec h.lit hnerve
    rw [hnerve]
    exact ⟨hkept, h.stageSwitch, h.panels, hlit⟩
  | toOn =>
    obtain ⟨hchanged, hswitch, hlit⟩ :=
      exeToOn_spec actionEnd h.lit hnerve s.stageSwitch
    rw [hnerve]
    rw [h.stageSwitch] at hswitch
    cases actionEnd with
    | true => exact ⟨hchanged, by dsimp only; rw [h.stageSwitch, hswitch]; rfl, h.panels, hlit⟩
    | false => exact ⟨hchanged, by dsimp only; rw [h.stageSwitch, hswitch]; rfl, h.panels, hlit⟩
  | toOff =>
    obtain ⟨hchanged, hlit⟩ := exeToOff_spec actionEnd h.lit hnerve
    rw [hnerve]
    cases actionEnd with
    | true => exact ⟨hchanged, h.stageSwitch, h.panels, hlit⟩
    | false => exact ⟨hchanged, h.stageSwitch, h.panels, hlit⟩
  | _ =>
    obtain ⟨hkept, hlit⟩ := exeOnWait_spec h.lit hnerve
    rw [hnerve]
    exact ⟨hkept, h.stageSwitch, h.panels, hlit⟩

/-- A call of the switch. -/
theorem Stands.call {position : Position} (h : Stands chain position s) (k : ℕ) :
    ∃ s', perform chain s (.call k) = some s' ∧
      Stands chain (position.next chain (.call k)) s' := by
  refine ⟨_, rfl, ?_⟩
  obtain ⟨n, phase⟩ := position
  rw [System.call, h.stageSwitch]
  cases phase with
  | starting =>
    obtain ⟨hdead, hevents⟩ := h.panels
    cases k with
    | zero => exact ⟨h.nerve, rfl, start_shows hdead hevents, h.lit⟩
    | succ k => exact h
  | ending =>
    obtain ⟨hnerve, hlit⟩ := close_spec h.lit h.nerve
    cases k with
    | zero => exact ⟨hnerve, rfl, h.panels, hlit⟩
    | succ k => exact h
  | _ => exact h

/-- An execution of a panel. -/
theorem Stands.anyPanel {position : Position} (hlong : 2 ≤ chain.length)
    (h : Stands chain position s) (i : ℕ) (actionEnd : Bool) :
    ∃ s', perform chain s (.panel i actionEnd) = some s' ∧
      Stands chain (position.next chain (.panel i actionEnd)) s' := by
  obtain ⟨n, phase⟩ := position
  cases phase with
  | running wave => exact h.panel hlong i actionEnd
  | _ => exact ⟨s, perform_dead h.panels.1 i actionEnd, h⟩

/-- What happens moves the system along the cycle. -/
theorem Stands.next {position : Position} (hlong : 2 ≤ chain.length)
    (h : Stands chain position s) (action : Action) :
    ∃ s', perform chain s action = some s' ∧ Stands chain (position.next chain action) s' := by
  cases action with
  | message floorTouch => exact h.message floorTouch
  | starter actionEnd => exact h.starter actionEnd
  | panel i actionEnd => exact h.anyPanel hlong i actionEnd
  | call k => exact h.call k

end Steps

section Runs

variable {chain : Chain} {schedule : ℕ → Action} {target : ℕ}

/-- The position behind some steps of a schedule. -/
def positionAfter (chain : Chain) (schedule : ℕ → Action) : ℕ → Position :=
  runSchedule (Position.next chain) schedule ⟨0, .offWait⟩

/-- The system stands at its first position behind `init`. -/
theorem placed_stands (chain : Chain) : Stands chain ⟨0, .offWait⟩ placed :=
  ⟨rfl, rfl, ⟨fun _ => rfl, rfl⟩, (lit_offWait rfl).mpr rfl⟩

/-- A run follows the cycle. -/
theorem play_stands (hlong : 2 ≤ chain.length) (schedule : ℕ → Action) (k : ℕ) :
    ∃ s, playFor chain schedule k = some s ∧ Stands chain (positionAfter chain schedule k) s := by
  induction k with
  | zero => exact ⟨placed, rfl, placed_stands chain⟩
  | succ k ih =>
    obtain ⟨s, hrun, hstands⟩ := ih
    obtain ⟨s', hperform, hnext⟩ := hstands.next hlong (schedule k)
    refine ⟨s', ?_, hnext⟩
    rw [playFor, hrun, Option.bind_some, hperform]

/-- The panels open and close in one wave at a time. -/
structure InTurn (chain : Chain) (s : System) : Prop where
  /-- What has happened are some whole waves and the beginning of another one. -/
  events : ∃ n, playedEvents chain n <+: s.panels.events ∧
    s.panels.events <+: playedEvents chain (n + 1)
  /-- A step on the starter is answered when the last wave is over. -/
  answers : (receiveMsg true s.starter).2 = true →
    AllDead s.panels ∧ s.stageSwitch = ⟨false, []⟩ ∧ ∃ n, s.panels.events = playedEvents chain n
  /-- A wave is started when all panels are dead. -/
  starts : Call.start ∈ s.stageSwitch.calls → AllDead s.panels
  /-- The clipping and the light fit to the nerve. -/
  lit : Lit s.starter

/-- Whole waves are some waves and the beginning of another one. -/
theorem played_begins {events : List Event} {n : ℕ} (h : events = playedEvents chain n) :
    ∃ n, playedEvents chain n <+: events ∧ events <+: playedEvents chain (n + 1) := by
  subst h
  refine ⟨n, List.prefix_refl _, ?_⟩
  rw [playedEvents_succ]
  exact List.prefix_append _ _

/-- Panels play in turn at every place of the cycle. -/
theorem Stands.inTurn {position : Position} {s : System} (h : Stands chain position s) :
    InTurn chain s := by
  obtain ⟨n, phase⟩ := position
  refine ⟨?_, fun hanswers => ?_, fun hstarts => ?_, h.lit⟩
  · cases phase with
    | running wave =>
      obtain ⟨-, state, hshows, hpanels⟩ := h.panels
      refine ⟨n, ?_, ?_⟩
      · rw [hpanels]
        exact List.prefix_append _ _
      · rw [hpanels, playedEvents_succ, after]
        dsimp only
        rw [hshows.events]
        exact (List.prefix_append_right_inj _).mpr (events_begin hshows.valid)
    | _ => exact played_begins h.panels.2
  · have hnerve : s.starter.nerve = .OffWait := by
      by_contra hother
      simp [receiveMsg, hother] at hanswers
    rw [h.nerve] at hnerve
    cases phase with
    | offWait => exact ⟨h.panels.1, h.stageSwitch, n, h.panels.2⟩
    | _ => cases hnerve
  · rw [h.stageSwitch] at hstarts
    cases phase with
    | starting => exact h.panels.1
    | _ => simp [Phase.stageSwitch] at hstarts

/-- In every order of messages, executions and calls the panels of a chain of two panels or more
open and close in one wave at a time. -/
theorem panels_in_turn (hlong : 2 ≤ chain.length) (schedule : ℕ → Action) (k : ℕ) :
    ∃ s, playFor chain schedule k = some s ∧ InTurn chain s := by
  obtain ⟨s, hrun, hstands⟩ := play_stands hlong schedule k
  exact ⟨s, hrun, hstands.inTurn⟩

/-- The actions of a round with two panels. -/
def turn : ℕ → Action
  | 0 => .message true
  | 1 => .starter true
  | 2 => .call 0
  | i + 3 => .panel i true

/-- A schedule of two panels in which everything has its turn. -/
def rounds (k : ℕ) : Action := turn (k % 5)

/-- Two panels play in turn in a hundred rounds. -/
theorem panels_in_turn_straight :
    ∃ s, playFor straightPanels rounds 500 = some s ∧ InTurn straightPanels s :=
  panels_in_turn (by decide) rounds 500

/-- The order of the parts of the cycle, down to the end of a wave. -/
def Phase.order : Phase → ℕ
  | .ending => 6
  | .toOff => 5
  | .offWait => 4
  | .toOn => 3
  | .starting => 2
  | .running _ => 1

/-- What is left of a wave that is on its way. -/
def Phase.left (chain : Chain) : Phase → ℕ ×ₗ ℕ ×ₗ ℕ
  | .running wave => rank chain wave
  | _ => rank chain .closed

/-- What is left of the cycle: waves, parts, and places of the wave. -/
def cycleRank (chain : Chain) (target : ℕ) (position : Position) : ℕ ×ₗ ℕ ×ₗ (ℕ ×ₗ ℕ ×ₗ ℕ) :=
  toLex (target - position.waves, toLex (position.phase.order, position.phase.left chain))

/-- A position is nearer to some waves. -/
def Nearer (chain : Chain) (target : ℕ) (position position' : Position) : Prop :=
  cycleRank chain target position < cycleRank chain target position'

/-- A position is not behind the wait for another wave. -/
structure Ahead (chain : Chain) (target : ℕ) (position : Position) : Prop where
  /-- The starter has not been stepped on behind the last wave. -/
  waves : position.waves < target ∨ position.waves = target ∧ 4 ≤ position.phase.order
  /-- A wave on its way is inside of the chain. -/
  wave : ∀ wave, position.phase = .running wave → wave.Valid chain ∧ wave ≠ .closed

/-- What moves a part of the cycle along. -/
def Phase.Helps : Phase → Action → Prop
  | .offWait, action => action = .message true
  | .toOn, action => action = .starter true
  | .starting, action => action = .call 0
  | .running wave, action => ∃ i, wave.panel = some i ∧ action = .panel i true
  | .ending, action => action = .call 0
  | .toOff, action => action = .starter true

/-- The order of two positions, waves first, then parts, and then places of the wave. -/
theorem nearer_iff {position position' : Position} :
    Nearer chain target position position' ↔
      target - position.waves < target - position'.waves ∨
        target - position.waves = target - position'.waves ∧
          (position.phase.order < position'.phase.order ∨
            position.phase.order = position'.phase.order ∧
              position.phase.left chain < position'.phase.left chain) := by
  rw [Nearer, cycleRank, cycleRank, Prod.Lex.toLex_lt_toLex, Prod.Lex.toLex_lt_toLex]

/-- A wave that moves along brings the position nearer. -/
theorem ofWave_advances {n : ℕ} {wave wave' : Wave} (hn : n < target)
    (h : Advances (Behind chain) (Wave.Valid chain) wave wave') :
    Advances (Nearer chain target) (Ahead chain target) ⟨n, .running wave⟩
      (Position.ofWave n wave') := by
  by_cases hclosed : wave' = .closed
  · subst hclosed
    refine ⟨⟨?_, fun wave hwave => nomatch hwave⟩, nearer_iff.mpr (Or.inl ?_)⟩
    · change n + 1 < target ∨ n + 1 = target ∧ 4 ≤ 6
      omega
    · change target - (n + 1) < target - n
      omega
  · rw [ofWave_of_ne hclosed]
    refine ⟨⟨Or.inl hn, ?_⟩, nearer_iff.mpr (Or.inr ⟨rfl, Or.inr ⟨rfl, h.2⟩⟩)⟩
    rintro wave'' hwave
    cases hwave
    exact ⟨h.1, hclosed⟩

/-- Another part of the cycle, with the same waves, brings the position nearer. -/
theorem part_advances {n : ℕ} {phase phase' : Phase}
    (hwaves : n < target ∨ n = target ∧ 4 ≤ phase'.order) (horder : phase'.order < phase.order)
    (hwave : ∀ wave, phase' = .running wave → wave.Valid chain ∧ wave ≠ .closed) :
    Advances (Nearer chain target) (Ahead chain target) ⟨n, phase⟩ ⟨n, phase'⟩ :=
  ⟨⟨hwaves, hwave⟩, nearer_iff.mpr (Or.inr ⟨rfl, Or.inl horder⟩)⟩

/-- Another wave is to come before the last part of the cycle. -/
theorem Ahead.early {position : Position} (h : Ahead chain target position)
    (horder : position.phase.order < 4) : position.waves < target := by
  rcases h.waves with hless | ⟨-, hlate⟩
  · exact hless
  · omega

/-- What moves a part of the cycle along brings the position nearer. -/
theorem next_helps {position : Position} {action : Action} (h : Ahead chain target position)
    (hgoal : position ≠ ⟨target, .offWait⟩) (hhelps : position.phase.Helps action) :
    Advances (Nearer chain target) (Ahead chain target) position
      (position.next chain action) := by
  obtain ⟨n, phase⟩ := position
  have hwaves := h.waves
  cases phase with
  | offWait =>
    cases hhelps
    have hn : n ≠ target := fun heq => hgoal (congrArg (Position.mk · .offWait) heq)
    exact part_advances (Or.inl (hwaves.resolve_right fun hlast => hn hlast.1)) (by decide)
      fun wave hwave => nomatch hwave
  | toOn =>
    cases hhelps
    have hn : n < target := h.early (show 3 < 4 by decide)
    exact part_advances (Or.inl hn) (by decide) fun wave hwave => nomatch hwave
  | starting =>
    cases hhelps
    have hn : n < target := h.early (show 2 < 4 by decide)
    refine part_advances (Or.inl hn) (by decide) fun wave hwave => ?_
    cases hwave
    exact ⟨chain.length_pos, fun heq => nomatch heq⟩
  | running wave =>
    obtain ⟨i, hpanel, rfl⟩ := hhelps
    obtain ⟨hvalid, hopen⟩ := h.wave wave rfl
    have hn : n < target := h.early (show 1 < 4 by decide)
    exact ofWave_advances hn
      ((wave_progress chain).helpful wave (i, true) hvalid hopen ⟨hpanel, rfl⟩)
  | ending =>
    cases hhelps
    exact part_advances (hwaves.imp_right fun hlast => ⟨hlast.1, by decide⟩) (by decide)
      fun wave hwave => nomatch hwave
  | toOff =>
    cases hhelps
    exact part_advances (hwaves.imp_right fun hlast => ⟨hlast.1, by decide⟩) (by decide)
      fun wave hwave => nomatch hwave

/-- Everything else leaves the position. -/
theorem next_any {position : Position} (h : Ahead chain target position)
    (hgoal : position ≠ ⟨target, .offWait⟩) (action : Action) :
    position.next chain action = position ∨
      Advances (Nearer chain target) (Ahead chain target) position
        (position.next chain action) := by
  by_cases hhelps : position.phase.Helps action
  · exact Or.inr (next_helps h hgoal hhelps)
  · obtain ⟨n, phase⟩ := position
    cases phase with
    | running wave =>
      cases action with
      | panel i actionEnd =>
        obtain ⟨hvalid, hopen⟩ := h.wave wave rfl
        have hn : n < target := h.early (show 1 < 4 by decide)
        rcases (wave_progress chain).any wave (i, actionEnd) hvalid hopen with hsame | hmoves
        · refine Or.inl ?_
          rw [Position.next, hsame]
          exact ofWave_of_ne hopen
        · exact Or.inr (ofWave_advances hn hmoves)
      | _ => exact Or.inl rfl
    | _ =>
      refine Or.inl ?_
      cases action with
      | message floorTouch => cases floorTouch with
        | true => first | rfl | exact absurd rfl hhelps
        | false => rfl
      | starter actionEnd => cases actionEnd with
        | true => first | rfl | exact absurd rfl hhelps
        | false => rfl
      | panel i actionEnd => rfl
      | call k => cases k with
        | zero => first | rfl | exact absurd rfl hhelps
        | succ k => rfl

/-- The cycle makes progress until some waves are over and the starter waits. -/
theorem cycle_progress (chain : Chain) (target : ℕ) :
    Progress (Position.next chain) (Nearer chain target) (Ahead chain target)
      (· = ⟨target, .offWait⟩) fun position action => position.phase.Helps action where
  wellFounded := InvImage.wf (cycleRank chain target) wellFounded_lt
  any _ action h hgoal := next_any h hgoal action
  helpful _ _ h hgoal hhelps := next_helps h hgoal hhelps

/-- A schedule in which all that the system waits for happens again and again. -/
structure Busy (chain : Chain) (schedule : ℕ → Action) : Prop where
  /-- The starter is stepped on. -/
  touched : ∀ k, ∃ later, k ≤ later ∧ schedule later = .message true
  /-- The starter is executed with its action at its end. -/
  starter : ∀ k, ∃ later, k ≤ later ∧ schedule later = .starter true
  /-- The switch makes its first call. -/
  called : ∀ k, ∃ later, k ≤ later ∧ schedule later = .call 0
  /-- Every panel is executed with its action at its end. -/
  panels : ∀ i < chain.length, ∀ k, ∃ later, k ≤ later ∧ schedule later = .panel i true

/-- A wave that goes on has a panel of the chain. -/
theorem panel_of_valid {wave : Wave} (h : wave.Valid chain) (hopen : wave ≠ .closed) :
    ∃ i < chain.length, wave.panel = some i := by
  cases wave with
  | opening i stage => exact ⟨i, h, rfl⟩
  | closing i stage =>
    cases stage with
    | CloseSign step => exact ⟨i, h.1, rfl⟩
    | CloseFace => exact ⟨i, h, rfl⟩
    | Close step => exact ⟨i, h.1, rfl⟩
  | closed => exact absurd rfl hopen

/-- What moves the cycle along keeps coming. -/
theorem Busy.fair (h : Busy chain schedule) :
    Fair (Ahead chain target) (· = ⟨target, .offWait⟩)
      (fun position action => position.phase.Helps action) schedule := by
  intro position hahead _ k
  obtain ⟨n, phase⟩ := position
  cases phase with
  | offWait => exact h.touched k
  | toOn => exact h.starter k
  | starting => exact h.called k
  | running wave =>
    obtain ⟨hvalid, hopen⟩ := hahead.wave wave rfl
    obtain ⟨i, hi, hpanel⟩ := panel_of_valid hvalid hopen
    obtain ⟨later, hlater, hschedule⟩ := h.panels i hi k
    exact ⟨later, hlater, i, hpanel, hschedule⟩
  | ending => exact h.called k
  | toOff => exact h.starter k

/-- However often the panels have opened and closed, they do it again when the starter is stepped
on: for every number of waves, a busy run comes to the wait of the starter behind them. -/
theorem panels_replay (hlong : 2 ≤ chain.length) (hbusy : Busy chain schedule) (n : ℕ) :
    ∃ k s, playFor chain schedule k = some s ∧ s.starter.nerve = .OffWait ∧ AllDead s.panels ∧
      s.stageSwitch = ⟨false, []⟩ ∧ s.panels.events = playedEvents chain n := by
  have hstart : Ahead chain n ⟨0, .offWait⟩ := by
    refine ⟨?_, fun wave hwave => nomatch hwave⟩
    rcases Nat.eq_zero_or_pos n with rfl | hpos
    · exact Or.inr ⟨rfl, by decide⟩
    · exact Or.inl hpos
  obtain ⟨k, -, hk⟩ := (cycle_progress chain n).reaches hbusy.fair hstart
  obtain ⟨s, hrun, hstands⟩ := play_stands hlong schedule k
  have hposition : positionAfter chain schedule k = ⟨n, .offWait⟩ := hk
  rw [hposition] at hstands
  exact ⟨k, s, hrun, hstands.nerve, hstands.panels.1, hstands.stageSwitch, hstands.panels.2⟩

/-- Every action of a round comes again. -/
theorem rounds_later {r : ℕ} (hr : r < 5) (k : ℕ) :
    ∃ later, k ≤ later ∧ rounds later = turn r := by
  refine ⟨5 * k + r, by omega, ?_⟩
  rw [rounds, Nat.mul_add_mod, Nat.mod_eq_of_lt hr]

/-- In rounds everything happens again and again. -/
theorem rounds_busy : Busy straightPanels rounds := by
  refine ⟨rounds_later (r := 0) (by decide), rounds_later (r := 1) (by decide),
    rounds_later (r := 2) (by decide), fun i hi => rounds_later (r := i + 3) ?_⟩
  have htwo : i < 2 := hi
  omega

/-- Two panels open and close three times. -/
theorem panels_replay_straight :
    ∃ k s, playFor straightPanels rounds k = some s ∧ s.starter.nerve = .OffWait ∧
      AllDead s.panels ∧ s.stageSwitch = ⟨false, []⟩ ∧
      s.panels.events = playedEvents straightPanels 3 :=
  panels_replay (by decide) rounds_busy 3

end Runs

end BfMultiplayer.PanelReplay

import BfMultiplayer.PanelWave
import Mathlib.Tactic.SplitIfs

/-!
# Panels that are started again and again

A starter turns a stage switch on when a player steps on it. The switch starts
the first panel of a chain, and the last panel turns it off. How a switch calls
its listeners is the game's: it calls them once for a change, in any execution
behind it. Chains of two panels or more open and close in one wave at a time,
and as often as the starter is stepped on while it waits.
-/

namespace BfMultiplayer.PanelStarter

open PanelChain PanelWave FairProgress

/-- The nerves of the starter. -/
inductive StarterNerve where
  | OffWait
  | OnWait
  | ToOff
  | ToOn
  deriving DecidableEq

/-- The actions of the starter. -/
inductive StarterAction where
  | OffWait
  | OnWait
  | OnToOff
  | Reaction
  deriving DecidableEq

/-- The pre-pass lights of the starter. -/
inductive Light where
  | Off
  | On
  deriving DecidableEq

/-- A starter. -/
structure PatanPanelStarter where
  /-- The nerve. -/
  nerve : StarterNerve
  /-- `getNerveStep` in the next execution. -/
  step : ℕ
  /-- The action, if one has been started. -/
  action : Option StarterAction
  /-- The light that has appeared last. -/
  light : Light
  /-- The clipping is valid, so that the actor may be left out of executions. -/
  clipping : Bool
  deriving DecidableEq

/-- `al::setNerve`. -/
def PatanPanelStarter.setNerve (starter : PatanPanelStarter) (nerve : StarterNerve) :
    PatanPanelStarter :=
  { starter with nerve := nerve, step := 0 }

/-- The nerve is kept for the next execution. -/
def PatanPanelStarter.nextStep (starter : PatanPanelStarter) : PatanPanelStarter :=
  { starter with step := starter.step + 1 }

/-- `init`. -/
def init : PatanPanelStarter := ⟨.OffWait, 0, none, .Off, true⟩

/-- A call of a listener. -/
inductive Call where
  /-- `PatanPanel::start`, of the first panel. -/
  | start
  /-- `PatanPanelStarter::close`. -/
  | close
  deriving DecidableEq

/-- The stage switch of a starter and its first panel. -/
structure StageSwitch where
  /-- It is on. -/
  isOn : Bool
  /-- The calls that it has still to make. -/
  calls : List Call
  deriving DecidableEq

/-- `al::tryOnStageSwitch`. A switch that is off calls the panel. -/
def StageSwitch.tryOn (stageSwitch : StageSwitch) : StageSwitch :=
  if stageSwitch.isOn then stageSwitch else ⟨true, stageSwitch.calls ++ [.start]⟩

/-- `al::tryOffStageSwitch`. A switch that is on calls the starter. -/
def StageSwitch.tryOff (stageSwitch : StageSwitch) : StageSwitch :=
  if stageSwitch.isOn then ⟨false, stageSwitch.calls ++ [.close]⟩ else stageSwitch

/-- `exeOffWait`. -/
def exeOffWait (starter : PatanPanelStarter) : PatanPanelStarter :=
  if starter.step = 0 then { starter with clipping := true, action := some .OffWait }.nextStep
  else starter.nextStep

/-- `exeOnWait`. -/
def exeOnWait (starter : PatanPanelStarter) : PatanPanelStarter :=
  if starter.step = 0 then { starter with action := some .OnWait, clipping := true }.nextStep
  else starter.nextStep

/-- `exeToOff`, with what `isActionEnd` returns. -/
def exeToOff (actionEnd : Bool) (starter : PatanPanelStarter) : PatanPanelStarter :=
  let starter :=
    if starter.step = 0 then { starter with action := some .OnToOff, light := .Off } else starter
  if actionEnd then starter.setNerve .OffWait else starter.nextStep

/-- `exeToOn`, with what `isActionEnd` returns. -/
def exeToOn (actionEnd : Bool) (starter : PatanPanelStarter) (stageSwitch : StageSwitch) :
    PatanPanelStarter × StageSwitch :=
  let starter :=
    if starter.step = 0 then { starter with action := some .Reaction, light := .On } else starter
  if actionEnd then (starter.setNerve .OnWait, stageSwitch.tryOn)
  else (starter.nextStep, stageSwitch)

/-- `receiveMsg`, of a message that `isMsgPlayerFloorTouch` is true for or not. -/
def receiveMsg (floorTouch : Bool) (starter : PatanPanelStarter) : PatanPanelStarter × Bool :=
  if floorTouch && starter.nerve = .OffWait then
    ({ starter with clipping := false }.setNerve .ToOn, true)
  else (starter, false)

/-- `close`. -/
def close (starter : PatanPanelStarter) : PatanPanelStarter :=
  if starter.nerve = .OnWait then { starter with clipping := false }.setNerve .ToOff else starter

/-- A starter, a chain of panels and the switch between them. -/
structure System where
  /-- The starter. -/
  starter : PatanPanelStarter
  /-- The switch. -/
  stageSwitch : StageSwitch
  /-- The panels, and what they have done. -/
  panels : State

/-- What happens to the system. -/
inductive Action where
  /-- The starter receives a message. -/
  | message (floorTouch : Bool)
  /-- The starter executes its nerve, with its action at its end or not. -/
  | starter (actionEnd : Bool)
  /-- A panel executes its nerve, with its action at its end or not. -/
  | panel (i : ℕ) (actionEnd : Bool)
  /-- The switch makes one of its calls. -/
  | call (k : ℕ)
  deriving DecidableEq

/-- The starter executes its nerve. -/
def executeStarter (actionEnd : Bool) (s : System) : System :=
  match s.starter.nerve with
  | .OffWait => { s with starter := exeOffWait s.starter }
  | .OnWait => { s with starter := exeOnWait s.starter }
  | .ToOff => { s with starter := exeToOff actionEnd s.starter }
  | .ToOn =>
    let (starter, stageSwitch) := exeToOn actionEnd s.starter s.stageSwitch
    { s with starter := starter, stageSwitch := stageSwitch }

/-- What the panels do turns the switch off when `tryOffStageSwitch` is called on the first one. -/
def System.setPanels (s : System) (panels : State) : System :=
  let turnsOff := Event.offStageSwitch 0 ∈ panels.events.drop s.panels.events.length
  { s with
    panels := panels
    stageSwitch := if turnsOff then s.stageSwitch.tryOff else s.stageSwitch }

/-- A listener is called. -/
def System.listen (chain : Chain) (s : System) : Call → System
  | .start => { s with panels := s.panels.modify 0 (start chain 0) }
  | .close => { s with starter := close s.starter }

/-- The switch makes a call. -/
def System.call (chain : Chain) (s : System) (k : ℕ) : System :=
  match s.stageSwitch.calls[k]? with
  | none => s
  | some listener =>
    { s with stageSwitch.calls := s.stageSwitch.calls.eraseIdx k }.listen chain listener

/-- The system when something happens. There is no result when a null link is followed. -/
def perform (chain : Chain) (s : System) : Action → Option System
  | .message floorTouch => some { s with starter := (receiveMsg floorTouch s.starter).1 }
  | .starter actionEnd => some (executeStarter actionEnd s)
  | .panel i actionEnd => (execute chain s.panels (i, actionEnd)).map s.setPanels
  | .call k => some (s.call chain k)

/-- The system behind the `init` of its actors. -/
def placed : System := ⟨init, ⟨false, []⟩, ⟨fun _ => initialPanel, []⟩⟩

/-- The system behind some steps of a schedule. -/
def playFor (chain : Chain) (schedule : ℕ → Action) : ℕ → Option System
  | 0 => some placed
  | k + 1 => (playFor chain schedule k).bind fun s => perform chain s (schedule k)

end BfMultiplayer.PanelStarter

import BfMultiplayer.GuardedRuns
import BfMultiplayer.Packets

/-!
# Suppressing the echo of a remote change

Three functions of the game are hooked: after the change they send it to the
server, unless a flag of the process says otherwise. The network thread turns
the flag while it applies a change of another client, so that this change is not
sent back. It never is. But the flag is not the thread's own: a change that the
game makes meanwhile is not sent either.
-/

namespace BfMultiplayer.EchoSuppression

open Packets GuardedRuns

/-- The fields that `makePhaseUnlockPacketData` and `handleToC_PhaseUnlock` copy
between `SingleModeData` and the packet. -/
structure PhaseProgress where
  isNewToPhase1 : Bool
  isNewToPhase2 : Bool
  isNewToPhase3 : Bool
  isNewToPhase4 : Bool
  isNewToPhase2Boss : Bool
  isNewToPhase3Boss : Bool
  isNewToPhase1BowserIntro : Bool
  isNewToPhase2BowserIntro : Bool
  isNewToPhase3BowserIntro : Bool
  isNewToPhase1BowserExit : Bool
  isNewToPhase2BowserExit : Bool
  isNewToPhase3BowserExit : Bool
  phase1DarkBowserHitPoint : ℤ
  phase2DarkBowserHitPoint : ℤ
  phase3DarkBowserHitPoint : ℤ
  phase4DarkBowserHitPoint : ℤ
  phase4DarkBowserHitPointFinal : ℤ
  phase3DarkBowserHitPointPreBattle : ℤ
  phase4DarkBowserHitPointPreBattle : ℤ
  deriving DecidableEq

/-- `PhaseUnlockData`. -/
structure PhaseUnlockData where
  /-- The unlocked phase. -/
  unlockedPhase : ℤ
  /-- The argument of `setPhaseEnd`. -/
  endCurrentPhase : Bool
  /-- The fields that are only copied. -/
  progress : PhaseProgress
  deriving DecidableEq

/-- The packets of the three hooks, and of the three handlers. -/
inductive SyncPacket where
  /-- `ToS_PhaseUnlock`, `ToC_PhaseUnlock`. -/
  | phaseUnlock (data : PhaseUnlockData)
  /-- `ToS_ScenarioUpdate`, `ToC_ScenarioUpdate`. -/
  | scenarioUpdate (islandName : CString) (scenario : ℤ) (unk : Bool)
  /-- `MiscMapSyncData` of the type `DarkBowserHealth`. -/
  | darkBowserHealth (health : ℤ)
  deriving DecidableEq

/-- The game as the hooks and the handlers use it. -/
structure SyncGame (γ : Type) where
  /-- The sequence is in its single mode and has a scene. -/
  hasScene : γ → Bool
  /-- The fields of `SingleModeData`. -/
  phaseProgress : γ → PhaseProgress
  /-- Assignment to them. -/
  setPhaseProgress : γ → PhaseProgress → γ
  /-- `mUnlockedPhase`. -/
  mUnlockedPhase : γ → ℤ
  /-- `SingleModeDataFunction::setUnlockedPhase`. -/
  setUnlockedPhase : γ → ℤ → γ
  /-- `mIsPhaseEnd`. -/
  mIsPhaseEnd : γ → Bool
  /-- `SingleModeDataFunction::setPhaseEnd` without its hook. -/
  setPhaseEnd : γ → Bool → γ
  /-- The names of `mIslandKeeper->mIslands`. -/
  islandNames : List CString
  /-- `IslandHolder::setScenarioID` on the island with this index. -/
  setScenarioID : γ → ℕ → ℤ → Bool → γ
  /-- `mHealth` of the first `DarkBowser` among the actors. -/
  mHealth : γ → Option ℤ
  /-- `DarkBowser::requestDamage` without its hook. -/
  requestDamage : γ → ℤ → γ

/-- A call of a hooked function. -/
inductive HookedCall where
  /-- `setPhaseEnd`. -/
  | setPhaseEnd (isEnd : Bool)
  /-- `setScenarioID` of the island with an index, at one of the hooked places. -/
  | setScenarioID (island : ℕ) (scenario : ℤ) (something : Bool)
  /-- `requestDamage`. -/
  | requestDamage (amount : ℤ)
  deriving DecidableEq

/-- The two flags of the process. -/
inductive Flag where
  /-- `sIsPhaseHookEnabled`. -/
  | phaseHook
  /-- `sDisableBowserDamageHook`. -/
  | bowserDamageHook
  deriving DecidableEq

/-- The flag that a hook tests. -/
def HookedCall.flag : HookedCall → Flag
  | .setPhaseEnd _ => .phaseHook
  | .setScenarioID _ _ _ => .phaseHook
  | .requestDamage _ => .bowserDamageHook

/-- Where the game thread is. -/
inductive GameThread where
  /-- Outside the hooks. -/
  | idle
  /-- A hook has called the original function and tests its flag next. -/
  | inHook (call : HookedCall)
  deriving DecidableEq

/-- Where the network thread is. -/
inductive NetThread where
  /-- Outside the handlers. -/
  | idle
  /-- `handleToC_PhaseUnlock` has turned the flag. -/
  | unlocking (data : PhaseUnlockData)
  /-- `handleToC_ScenarioUpdate` has turned the flag. -/
  | updating (islandName : CString) (scenario : ℤ) (unk : Bool)
  /-- A handler has turned the flag and is about to call a hooked function. -/
  | calling (call : HookedCall)
  /-- The hook has called the original function and tests its flag next. -/
  | inHook (call : HookedCall)
  /-- It turns the flag back next. -/
  | restoring (flag : Flag)
  deriving DecidableEq

/-- The flag that the network thread has turned and not yet turned back. -/
def NetThread.turned : NetThread → Option Flag
  | .idle => none
  | .unlocking _ => some .phaseHook
  | .updating _ _ _ => some .phaseHook
  | .calling call => some call.flag
  | .inHook call => some call.flag
  | .restoring flag => some flag

/-- The client. -/
structure EchoSystem (γ : Type) where
  /-- The game. -/
  game : γ
  /-- Whether the phase and scenario hooks send. -/
  sIsPhaseHookEnabled : Bool
  /-- Whether the damage hook does not. -/
  sDisableBowserDamageHook : Bool
  /-- The game thread. -/
  gameThread : GameThread
  /-- The network thread. -/
  netThread : NetThread
  /-- The finished calls of the game thread, each with the packets its hook sent. -/
  finished : List (HookedCall × List SyncPacket)
  /-- The packets sent by a hook on the network thread. -/
  echoes : List SyncPacket

/-- A step of one of the threads. -/
inductive EchoAction where
  /-- The game thread calls a hooked function, as far as the test of the flag. -/
  | call (call : HookedCall)
  /-- The hook on the game thread goes on to its end. -/
  | test
  /-- The network thread takes up a packet. -/
  | receive (packet : SyncPacket)
  /-- The network thread takes its next step. -/
  | network
  deriving DecidableEq

section Model

variable {γ : Type} (game : SyncGame γ)

/-- `makePhaseUnlockPacketData`. -/
def makePhaseUnlockPacketData (g : γ) (isEnd : Bool) : PhaseUnlockData :=
  ⟨game.mUnlockedPhase g, isEnd, game.phaseProgress g⟩

/-- The original function behind a hook. -/
def HookedCall.orig (g : γ) : HookedCall → γ
  | .setPhaseEnd isEnd => game.setPhaseEnd g isEnd
  | .setScenarioID island scenario something => game.setScenarioID g island scenario something
  | .requestDamage amount => game.requestDamage g (amount.tdiv 2)

/-- The packet that a hook makes. -/
def HookedCall.packet (g : γ) : HookedCall → SyncPacket
  | .setPhaseEnd isEnd => .phaseUnlock (makePhaseUnlockPacketData game g isEnd)
  | .setScenarioID island scenario something =>
    .scenarioUpdate ((game.islandNames.getD island []).take 128) scenario something
  | .requestDamage _ => .darkBowserHealth ((game.mHealth g).getD 0)

/-- Whether a hook with a flag sends. -/
def EchoSystem.sends (sys : EchoSystem γ) : Flag → Bool
  | .phaseHook => sys.sIsPhaseHookEnabled
  | .bowserDamageHook => !sys.sDisableBowserDamageHook

/-- Turn a flag so that its hooks send, or so that they do not. -/
def EchoSystem.turn (sys : EchoSystem γ) (sends : Bool) : Flag → EchoSystem γ
  | .phaseHook => { sys with sIsPhaseHookEnabled := sends }
  | .bowserDamageHook => { sys with sDisableBowserDamageHook := !sends }

/-- What a hook sends after the call of the original function. -/
def hookPackets (sys : EchoSystem γ) (call : HookedCall) : List SyncPacket :=
  if sys.sends call.flag then [call.packet game sys.game] else []

/-- The start of a handler. Without a scene, without a Dark Bowser and at the
health it is told it returns before it turns the flag. -/
def beginHandler (sys : EchoSystem γ) (packet : SyncPacket) : EchoSystem γ :=
  if game.hasScene sys.game then
    match packet with
    | .phaseUnlock data => { sys.turn false .phaseHook with netThread := .unlocking data }
    | .scenarioUpdate islandName scenario unk =>
      { sys.turn false .phaseHook with netThread := .updating islandName scenario unk }
    | .darkBowserHealth newHealth =>
      match game.mHealth sys.game with
      | none => sys
      | some health =>
        if health = newHealth then sys
        else { sys.turn false .bowserDamageHook with
          netThread := .calling (.requestDamage (health - newHealth)) }
  else sys

/-- The next step of a handler that has turned its flag. -/
def handlerStep (sys : EchoSystem γ) : Option (EchoSystem γ) :=
  match sys.netThread with
  | .idle => none
  | .unlocking data =>
    let g := game.setUnlockedPhase (game.setPhaseProgress sys.game data.progress) data.unlockedPhase
    some { sys with
      game := g
      netThread := if game.mIsPhaseEnd g then .restoring .phaseHook
        else .calling (.setPhaseEnd data.endCurrentPhase) }
  | .updating islandName scenario unk =>
    -- the handler calls the function itself, which is hooked at other places only
    let g := match game.islandNames.idxOf? islandName with
      | some island => game.setScenarioID sys.game island scenario unk
      | none => sys.game
    some { sys with game := g, netThread := .restoring .phaseHook }
  | .calling call => some { sys with game := call.orig game sys.game, netThread := .inHook call }
  | .inHook call => some { sys with
      echoes := sys.echoes ++ hookPackets game sys call
      netThread := .restoring call.flag }
  | .restoring flag => some { sys.turn true flag with netThread := .idle }

/-- The step function. -/
def echoStep (sys : EchoSystem γ) : EchoAction → Option (EchoSystem γ)
  | .call call =>
    match sys.gameThread with
    | .idle => some { sys with game := call.orig game sys.game, gameThread := .inHook call }
    | .inHook _ => none
  | .test =>
    match sys.gameThread with
    | .idle => none
    | .inHook call => some { sys with
        gameThread := .idle
        finished := sys.finished ++ [(call, hookPackets game sys call)] }
  | .receive packet =>
    match sys.netThread with
    | .idle => some (beginHandler game sys packet)
    | _ => none
  | .network => handlerStep game sys

/-- A connected client outside hooks and handlers. -/
def EchoSystem.start (g : γ) : EchoSystem γ := ⟨g, true, false, .idle, .idle, [], []⟩

/-- Each finished call of the game has sent one packet, and no call of a handler
has sent any. -/
def EachChangeSentOnce (sys : EchoSystem γ) : Prop :=
  (∀ entry ∈ sys.finished, entry.2.length = 1) ∧ sys.echoes = []

instance (sys : EchoSystem γ) : Decidable (EachChangeSentOnce sys) :=
  inferInstanceAs (Decidable (_ ∧ _))

/-- The condition on a step: a hook on the game thread does not test a flag that
the network thread has turned. -/
def TestsOwnFlag (sys : EchoSystem γ) : EchoAction → Prop
  | .test => ∀ call, sys.gameThread = .inHook call → sys.netThread.turned ≠ some call.flag
  | _ => True

/-- What holds between two steps: a hook sends unless the network thread has turned
its flag, and nothing has been sent back. -/
structure FlagInv (sys : EchoSystem γ) : Prop where
  /-- The flags. -/
  sends : ∀ flag, sys.sends flag = true ↔ sys.netThread.turned ≠ some flag
  /-- The packets sent by a hook on the network thread. -/
  echoes : sys.echoes = []

/-- Turning a flag turns that flag. -/
theorem sends_turn (sys : EchoSystem γ) (sends : Bool) (flag other : Flag) :
    (sys.turn sends flag).sends other = if other = flag then sends else sys.sends other := by
  cases flag <;> cases other <;> simp [EchoSystem.turn, EchoSystem.sends]

/-- Turning a flag sends nothing. -/
@[simp] theorem turn_echoes (sys : EchoSystem γ) (sends : Bool) (flag : Flag) :
    (sys.turn sends flag).echoes = sys.echoes := by
  cases flag <;> rfl

/-- Turning a flag finishes no call. -/
@[simp] theorem turn_finished (sys : EchoSystem γ) (sends : Bool) (flag : Flag) :
    (sys.turn sends flag).finished = sys.finished := by
  cases flag <;> rfl

/-- A thread outside the handlers that turns a flag keeps the invariant. -/
theorem flagInv_turn {sys : EchoSystem γ} {netThread : NetThread} {flag : Flag}
    (hinv : FlagInv sys) (hidle : sys.netThread = .idle) (hturned : netThread.turned = some flag) :
    FlagInv { sys.turn false flag with netThread := netThread } := by
  refine ⟨fun other => ?_, (turn_echoes sys false flag).trans hinv.echoes⟩
  have hsends : EchoSystem.sends { sys.turn false flag with netThread := netThread } other =
      (sys.turn false flag).sends other := by cases other <;> rfl
  have hbefore := hinv.sends other
  rw [hidle] at hbefore
  rw [hsends, sends_turn, hturned]
  by_cases hflag : other = flag
  · simp [hflag]
  · rw [if_neg hflag, hbefore]
    simp [NetThread.turned, Ne.symm hflag]

/-- A step that turns no flag and stays between the same turns keeps the invariant. -/
theorem flagInv_of_same {sys sys' : EchoSystem γ} (hinv : FlagInv sys)
    (hsends : ∀ flag, sys'.sends flag = sys.sends flag)
    (hturned : sys'.netThread.turned = sys.netThread.turned) (hechoes : sys'.echoes = sys.echoes) :
    FlagInv sys' := by
  refine ⟨fun flag => ?_, hechoes.trans hinv.echoes⟩
  rw [hsends, hturned]
  exact hinv.sends flag

variable {game}

/-- The start of a handler keeps the invariant. -/
theorem flagInv_begin {sys : EchoSystem γ} (hinv : FlagInv sys) (hidle : sys.netThread = .idle)
    (packet : SyncPacket) : FlagInv (beginHandler game sys packet) := by
  unfold beginHandler
  split
  · cases packet with
    | phaseUnlock data => exact flagInv_turn hinv hidle rfl
    | scenarioUpdate islandName scenario unk => exact flagInv_turn hinv hidle rfl
    | darkBowserHealth newHealth =>
      dsimp only
      split
      · exact hinv
      · split
        · exact hinv
        · exact flagInv_turn hinv hidle rfl
  · exact hinv

/-- On the network thread a hook sends nothing. -/
theorem hookPackets_of_turned {sys : EchoSystem γ} (hinv : FlagInv sys) {call : HookedCall}
    (hturned : sys.netThread.turned = some call.flag) : hookPackets game sys call = [] := by
  have hoff : sys.sends call.flag ≠ true := fun h => (hinv.sends call.flag).mp h hturned
  rw [hookPackets, if_neg hoff]

/-- Elsewhere it sends one packet. -/
theorem hookPackets_of_not_turned {sys : EchoSystem γ} (hinv : FlagInv sys) {call : HookedCall}
    (hturned : sys.netThread.turned ≠ some call.flag) :
    hookPackets game sys call = [call.packet game sys.game] := by
  rw [hookPackets, if_pos ((hinv.sends call.flag).mpr hturned)]

/-- A handler in progress keeps the invariant and finishes no call of the game. -/
theorem flagInv_handler {sys sys' : EchoSystem γ} (hinv : FlagInv sys)
    (hstep : handlerStep game sys = some sys') : FlagInv sys' ∧ sys'.finished = sys.finished := by
  unfold handlerStep at hstep
  split at hstep
  · cases hstep
  · rename_i data hthread
    cases hstep
    refine ⟨flagInv_of_same hinv (fun flag => by cases flag <;> rfl) ?_ rfl, rfl⟩
    dsimp only
    rw [hthread]
    split <;> rfl
  · rename_i islandName scenario unk hthread
    cases hstep
    refine ⟨flagInv_of_same hinv (fun flag => by cases flag <;> rfl) ?_ rfl, rfl⟩
    rw [hthread]
    rfl
  · rename_i call hthread
    cases hstep
    refine ⟨flagInv_of_same hinv (fun flag => by cases flag <;> rfl) ?_ rfl, rfl⟩
    rw [hthread]
    rfl
  · rename_i call hthread
    cases hstep
    have hturned : sys.netThread.turned = some call.flag := by rw [hthread]; rfl
    refine ⟨flagInv_of_same hinv (fun flag => by cases flag <;> rfl) ?_ ?_, rfl⟩
    · rw [hturned]
      rfl
    · dsimp only
      rw [hookPackets_of_turned hinv hturned, List.append_nil]
  · rename_i flag hthread
    cases hstep
    refine ⟨⟨fun other => ?_, (turn_echoes sys true flag).trans hinv.echoes⟩,
      turn_finished sys true flag⟩
    have hsends : EchoSystem.sends { sys.turn true flag with netThread := .idle } other =
        (sys.turn true flag).sends other := by cases other <;> rfl
    have hbefore := hinv.sends other
    rw [hthread] at hbefore
    rw [hsends, sends_turn]
    by_cases hflag : other = flag
    · simp [hflag, NetThread.turned]
    · rw [if_neg hflag, hbefore]
      simp [NetThread.turned, Ne.symm hflag]

/-- One step keeps the invariant. -/
theorem flagInv_step {sys sys' : EchoSystem γ} {action : EchoAction} (hinv : FlagInv sys)
    (hstep : echoStep game sys action = some sys') : FlagInv sys' := by
  cases action with
  | call call =>
    simp only [echoStep] at hstep
    split at hstep
    · cases hstep
      exact flagInv_of_same hinv (fun flag => by cases flag <;> rfl) rfl rfl
    · cases hstep
  | test =>
    simp only [echoStep] at hstep
    split at hstep
    · cases hstep
    · cases hstep
      exact flagInv_of_same hinv (fun flag => by cases flag <;> rfl) rfl rfl
  | receive packet =>
    simp only [echoStep] at hstep
    split at hstep
    · rename_i hidle
      cases hstep
      exact flagInv_begin hinv hidle packet
    · cases hstep
  | network => exact (flagInv_handler hinv hstep).1

/-- The start of a handler finishes no call of the game. -/
theorem beginHandler_finished (sys : EchoSystem γ) (packet : SyncPacket) :
    (beginHandler game sys packet).finished = sys.finished := by
  unfold beginHandler
  split
  · cases packet with
    | phaseUnlock data => rfl
    | scenarioUpdate islandName scenario unk => rfl
    | darkBowserHealth newHealth =>
      dsimp only
      split
      · rfl
      · split <;> rfl
  · rfl

/-- A step keeps that each change is sent once exactly when a hook on the game
thread does not test a flag that the network thread has turned. -/
theorem eachChangeSentOnce_step {sys sys' : EchoSystem γ} {action : EchoAction}
    (hinv : FlagInv sys) (honce : EachChangeSentOnce sys)
    (hstep : echoStep game sys action = some sys') :
    EachChangeSentOnce sys' ↔ TestsOwnFlag sys action := by
  have hechoes := (flagInv_step hinv hstep).echoes
  have hsame : sys'.finished = sys.finished → EachChangeSentOnce sys' :=
    fun he => ⟨by rw [he]; exact honce.1, hechoes⟩
  cases action with
  | call call =>
    refine iff_of_true (hsame ?_) trivial
    simp only [echoStep] at hstep
    split at hstep <;> cases hstep
    rfl
  | receive packet =>
    refine iff_of_true (hsame ?_) trivial
    simp only [echoStep] at hstep
    split at hstep <;> cases hstep
    exact beginHandler_finished sys packet
  | network => exact iff_of_true (hsame (flagInv_handler hinv hstep).2) trivial
  | test =>
    simp only [echoStep] at hstep
    split at hstep
    · cases hstep
    · rename_i call hthread
      cases hstep
      simp only [TestsOwnFlag, EachChangeSentOnce, hinv.echoes, and_true]
      constructor
      · intro hfinished other hother hturned
        rw [hthread, GameThread.inHook.injEq] at hother
        have hlast := hfinished (call, hookPackets game sys call)
          (List.mem_append_right _ (List.mem_singleton_self _))
        rw [hookPackets_of_turned hinv (by rw [hother]; exact hturned)] at hlast
        cases hlast
      · intro htests entry hentry
        rcases List.mem_append.mp hentry with hold | hnew
        · exact honce.1 entry hold
        · rw [List.mem_singleton.mp hnew, hookPackets_of_not_turned hinv (htests call hthread)]
          rfl

/-- Nothing is swallowed and nothing is sent back, in exactly the runs in which no
hook on the game thread tests a flag while the network thread has it turned. -/
theorem changes_sent_once_iff (game : SyncGame γ) (g : γ) (actions : List EchoAction) :
    Throughout EachChangeSentOnce (echoStep game) (.start g) actions ↔
      Along TestsOwnFlag (echoStep game) (.start g) actions := by
  have hstart : FlagInv (EchoSystem.start g) :=
    ⟨fun flag => by cases flag <;> exact iff_of_true rfl (Option.some_ne_none _).symm, rfl⟩
  refine throughout_iff_along_of_invariant (fun _ _ _ hinv hstep => flagInv_step hinv hstep)
    (fun _ _ _ hinv honce hstep => eachChangeSentOnce_step hinv honce hstep) ?_ hstart
    ⟨fun entry hentry => absurd hentry List.not_mem_nil, rfl⟩
  intro sys action hnone
  cases action with
  | test =>
    intro call hthread
    simp only [echoStep, hthread] at hnone
    cases hnone
  | _ => trivial

end Model

/-- A game whose state is the scenario of its one island. -/
def islandGame : SyncGame ℤ where
  hasScene _ := true
  phaseProgress _ := ⟨false, false, false, false, false, false, false, false, false, false, false,
    false, 0, 0, 0, 0, 0, 0, 0⟩
  setPhaseProgress g _ := g
  mUnlockedPhase _ := 1
  setUnlockedPhase g _ := g
  mIsPhaseEnd _ := false
  setPhaseEnd g _ := g
  islandNames := [[97]]
  setScenarioID _ _ scenario _ := scenario
  mHealth _ := none
  requestDamage g _ := g

/-- The game sets a scenario while the network thread sets that of another client.
No packet tells of it. -/
theorem local_change_is_swallowed :
    ∃ sys, run (echoStep islandGame) (.start 0)
        [.receive (.scenarioUpdate [97] 2 true), .network, .call (.setScenarioID 0 3 true), .test,
          .network] = some sys ∧
      sys.finished = [(.setScenarioID 0 3 true, [])] ∧ sys.game = 3 ∧ ¬EachChangeSentOnce sys :=
  run_reaches (by decide)

end BfMultiplayer.EchoSuppression

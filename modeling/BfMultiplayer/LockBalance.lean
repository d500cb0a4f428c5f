import BfMultiplayer.EnetCalls
import BfMultiplayer.GuardedRuns

/-!
# Locks are released on every exit

The functions lock and unlock by hand. Two of them return from a failure branch
with the lock still taken: `NetClient::exeConnect` when ENet has no peer for the
connection, and `Server::exeStartup` when ENet cannot be initialised or the host
not be created. All others leave every lock as they found it.
-/

namespace BfMultiplayer.LockBalance

open ServerState ServerHandlers Channels EnetCalls GuardedRuns

/-- How often a lock is acquired. -/
def acquisitions (mutex : Mutex) (calls : List EnetCall) : ℕ := calls.count (.lock mutex)

/-- How often it is released. -/
def unlocks (mutex : Mutex) (calls : List EnetCall) : ℕ := calls.count (.unlock mutex)

/-- Each lock is released as often as it is acquired. -/
def Balanced (calls : List EnetCall) : Prop :=
  ∀ mutex, unlocks mutex calls = acquisitions mutex calls

/-- The condition: a connection that is started gets a peer, and the server starts. -/
def LeavesUnlocked : Execution → Prop
  | .exeConnect isFirstStep _ connecting _ => isFirstStep = true → connecting = true
  | .exeStartup isFirstStep initialized created =>
    isFirstStep = true → initialized = true ∧ created = true
  | _ => True

instance : DecidablePred LeavesUnlocked
  | .exeConnect _ _ _ _ => inferInstanceAs (Decidable (_ → _))
  | .exeStartup _ _ _ => inferInstanceAs (Decidable (_ → _))
  | .sendPacketToAll _ => isTrue trivial
  | .sendPacketToAllExcept _ _ _ _ => isTrue trivial
  | .clientSendPacket _ _ _ _ => isTrue trivial
  | .serverExeService _ _ _ => isTrue trivial
  | .netSendPacket _ => isTrue trivial
  | .disconnect => isTrue trivial
  | .clientExeService _ _ _ _ => isTrue trivial

/-- Who holds the locks, and how often. -/
structure LockState where
  /-- The thread that holds a lock. -/
  owner : Mutex → Option ℕ
  /-- How often it holds it. -/
  count : Mutex → ℕ

/-- Nobody holds a lock. -/
def LockState.Unlocked (st : LockState) : Prop := ∀ mutex, st.count mutex = 0

/-- An execution is not kept waiting: no lock that it takes is held by another thread. -/
def Runs (st : LockState) (thread : ℕ) (calls : List EnetCall) : Prop :=
  ∀ mutex ∈ [Mutex.mClientCS, .mEnetMutex], .lock mutex ∈ calls →
    st.owner mutex = none ∨ st.owner mutex = some thread

instance (st : LockState) (thread : ℕ) (calls : List EnetCall) : Decidable (Runs st thread calls) :=
  List.decidableBAll _ _

/-- A complete execution by a thread; undefined while the thread has to wait. -/
def lockStep (st : LockState) (action : ℕ × Execution) : Option LockState :=
  let calls := action.2.calls
  if Runs st action.1 calls then
    let count := fun mutex => st.count mutex + acquisitions mutex calls - unlocks mutex calls
    some ⟨fun mutex => if count mutex = 0 then none
      else if .lock mutex ∈ calls then some action.1 else st.owner mutex, count⟩
  else none

/-- The start: all locks are free. -/
def LockState.start : LockState := ⟨fun _ => none, fun _ => 0⟩

/-- Two balanced parts. -/
theorem Balanced.append {calls rest : List EnetCall} (h : Balanced calls) (h' : Balanced rest) :
    Balanced (calls ++ rest) := by
  intro mutex
  have hleft := h mutex
  have hright := h' mutex
  simp only [unlocks, acquisitions, List.count_append] at *
  omega

/-- Balanced parts of a list. -/
theorem balanced_flatMap {α : Type*} {calls : α → List EnetCall} {parts : List α}
    (h : ∀ part ∈ parts, Balanced (calls part)) : Balanced (parts.flatMap calls) := by
  induction parts with
  | nil => exact fun _ => rfl
  | cons part parts ih =>
    rw [List.flatMap_cons]
    exact (h part List.mem_cons_self).append (ih fun other ho => h other (List.mem_cons_of_mem _ ho))

/-- Calls on packets alone. -/
theorem balanced_of_no_lock {calls : List EnetCall}
    (h : ∀ call ∈ calls, ∀ mutex, call ≠ .lock mutex ∧ call ≠ .unlock mutex) : Balanced calls := by
  intro mutex
  have hlocks : acquisitions mutex calls = 0 :=
    List.count_eq_zero.mpr fun hmem => (h _ hmem mutex).1 rfl
  have hunlocks : unlocks mutex calls = 0 :=
    List.count_eq_zero.mpr fun hmem => (h _ hmem mutex).2 rfl
  omega

/-- Taking and leaving a lock around balanced calls. -/
theorem Balanced.locked {calls : List EnetCall} (h : Balanced calls) (mutex : Mutex) :
    Balanced ([.lock mutex] ++ calls ++ [.unlock mutex]) := by
  intro other
  have hcalls := h other
  simp only [unlocks, acquisitions, List.count_append, List.count_singleton] at *
  cases mutex <;> cases other <;> simp <;> omega

/-- A send of the client. -/
theorem balanced_netSendPacket (send : ClientSend) : Balanced (netSendPacket send) := by
  unfold netSendPacket
  split
  · exact fun _ => rfl
  · rename_i peer hpeer
    split
    · have hinner : Balanced [.packetCreate send.packet, .peerSend peer send.packet send.queued] :=
        fun _ => rfl
      exact hinner.locked .mClientCS
    · exact fun _ => rfl

/-- A packet of the server for all but one. -/
theorem balanced_sendPacketToAllExcept (s : Server) (except packet : ℕ)
    (queued : ClientNode → Bool) : Balanced (sendPacketToAllExcept s except packet queued) := by
  have hinner : Balanced (.packetCreate packet :: (s.mClients.filter fun node =>
      node.ptr != except).map fun node => .peerSend node.client.mPeer packet (queued node)) := by
    refine balanced_of_no_lock fun call hcall mutex => ?_
    rcases List.mem_cons.mp hcall with rfl | hcall
    · exact ⟨by simp, by simp⟩
    · obtain ⟨node, -, rfl⟩ := List.mem_map.mp hcall
      exact ⟨by simp, by simp⟩
  exact hinner.locked .mEnetMutex

/-- A send of the server. -/
theorem balanced_send (s : Server) (send : Send) : Balanced (send.calls s) := by
  cases send with
  | toAll packet => exact fun mutex => by cases mutex <;> rfl
  | toAllExcept except packet queued => exact balanced_sendPacketToAllExcept s except packet queued
  | toClient client packet queued =>
    simp only [Send.calls, EnetCalls.clientSendPacket]
    split <;> exact fun _ => rfl

/-- The loop of `Server::exeService`. -/
theorem balanced_serviceLoop (s : Server) (events : List ServiceEvent) :
    Balanced (serviceLoop s events) := by
  induction events generalizing s with
  | nil => exact fun _ => rfl
  | cons e events ih =>
    refine Balanced.append ?_ (ih (e.next s))
    obtain ⟨event, packet, sends⟩ := e
    cases event with
    | connect peer ptr => exact fun _ => rfl
    | disconnect peer =>
      simp only [ServiceEvent.calls]
      split
      · exact balanced_send s (.toAll packet)
      · exact fun _ => rfl
    | receive peer message now =>
      have hreceived : Balanced [.packetReceived packet] := fun _ => rfl
      have hdestroyed : Balanced [.packetDestroy packet] := fun _ => rfl
      simp only [ServiceEvent.calls]
      split
      · exact hreceived
      · split
        · exact (hreceived.append (balanced_flatMap fun send _ => balanced_send s send)).append
            hdestroyed
        · exact hreceived.append hdestroyed

/-- The loop of `NetClient::exeService` leaves the lock once. -/
theorem balanced_clientLoop (events : List ClientEvent) :
    Balanced ([.lock .mClientCS] ++ clientLoop events) := by
  have hloop : ∃ calls, Balanced calls ∧ clientLoop events = calls ++ [.unlock .mClientCS] := by
    induction events with
    | nil => exact ⟨[], fun _ => rfl, rfl⟩
    | cons event events ih =>
      obtain ⟨calls, hcalls, hrest⟩ := ih
      cases event with
      | connect figure =>
        refine ⟨_, (balanced_netSendPacket figure).append hcalls, ?_⟩
        rw [clientLoop, hrest, List.append_assoc]
      | disconnect sends =>
        exact ⟨_, balanced_flatMap fun send _ => balanced_netSendPacket send, rfl⟩
      | receive channelID packet sends =>
        have hreceived : Balanced [.packetReceived packet] := fun _ => rfl
        have hdestroyed : Balanced [.packetDestroy packet] := fun _ => rfl
        have hsends := hreceived.append
          (balanced_flatMap fun send (_ : send ∈ sends) => balanced_netSendPacket send)
        rw [clientLoop, hrest]
        split
        · exact ⟨_, hsends.append hcalls, (List.append_assoc ..).symm⟩
        · exact ⟨_, (hsends.append hdestroyed).append hcalls, (List.append_assoc ..).symm⟩
  obtain ⟨calls, hcalls, hrest⟩ := hloop
  rw [hrest, ← List.append_assoc]
  exact hcalls.locked .mClientCS

/-- Every execution that meets the condition is balanced. -/
theorem balanced_of_leavesUnlocked {e : Execution} (h : LeavesUnlocked e) : Balanced e.calls := by
  cases e with
  | sendPacketToAll packet => exact fun mutex => by cases mutex <;> rfl
  | sendPacketToAllExcept s except packet queued =>
    exact balanced_sendPacketToAllExcept s except packet queued
  | clientSendPacket s client packet queued => exact balanced_send s (.toClient client packet queued)
  | exeStartup isFirstStep initialized created =>
    cases isFirstStep with
    | false => exact fun _ => rfl
    | true =>
      obtain ⟨rfl, rfl⟩ := h rfl
      exact fun mutex => by cases mutex <;> rfl
  | serverExeService s hostLive events =>
    cases hostLive with
    | false => exact fun _ => rfl
    | true => exact (balanced_serviceLoop s events).locked .mEnetMutex
  | netSendPacket send => exact balanced_netSendPacket send
  | disconnect => exact fun mutex => by cases mutex <;> rfl
  | exeConnect isFirstStep hostLive connecting events =>
    have hconnects : (isFirstStep && !connecting) = false := by
      cases isFirstStep with
      | false => rfl
      | true => rw [h rfl]; rfl
    simp only [Execution.calls, EnetCalls.exeConnect, hconnects, Bool.false_eq_true, if_false]
    cases hostLive with
    | false => exact fun mutex => by cases mutex <;> rfl
    | true =>
      refine Balanced.locked (balanced_flatMap fun event _ => ?_) .mClientCS
      cases event <;> exact fun _ => rfl
  | clientExeService greeting tryLock hostLive events =>
    refine (balanced_flatMap fun send _ => balanced_netSendPacket send).append ?_
    cases tryLock with
    | false => exact fun _ => rfl
    | true =>
      cases hostLive with
      | false => exact fun mutex => by cases mutex <;> rfl
      | true => exact balanced_clientLoop (events.take sMaxPacketsPerStep)

/-- Any other execution takes one lock and leaves it taken. -/
theorem locks_of_not_leavesUnlocked {e : Execution} (h : ¬LeavesUnlocked e) :
    ∃ mutex, e.calls = [.lock mutex] := by
  cases e with
  | exeConnect isFirstStep hostLive connecting events =>
    obtain ⟨hstep, hfails⟩ := Classical.not_imp.mp h
    refine ⟨.mClientCS, ?_⟩
    simp only [Execution.calls, EnetCalls.exeConnect, hstep, Bool.eq_false_iff.mpr hfails]
    rfl
  | exeStartup isFirstStep initialized created =>
    obtain ⟨hstep, hfails⟩ := Classical.not_imp.mp h
    refine ⟨.mEnetMutex, ?_⟩
    simp only [Execution.calls, EnetCalls.exeStartup, hstep, if_true]
    cases initialized with
    | false => rfl
    | true =>
      cases created with
      | false => rfl
      | true => exact absurd ⟨rfl, rfl⟩ hfails
  | _ => exact absurd trivial h

/-- An execution is balanced exactly when it meets the condition. -/
theorem balanced_iff (e : Execution) : Balanced e.calls ↔ LeavesUnlocked e := by
  by_cases h : LeavesUnlocked e
  · exact iff_of_true (balanced_of_leavesUnlocked h) h
  · refine iff_of_false (fun hbalanced => ?_) h
    obtain ⟨mutex, hcalls⟩ := locks_of_not_leavesUnlocked h
    have heq := hbalanced mutex
    rw [hcalls] at heq
    simp [unlocks, acquisitions] at heq

/-- The condition on a step: an execution that is not kept waiting meets it. -/
def StepLeavesUnlocked (st : LockState) (action : ℕ × Execution) : Prop :=
  Runs st action.1 action.2.calls → LeavesUnlocked action.2

instance (st : LockState) (action : ℕ × Execution) : Decidable (StepLeavesUnlocked st action) :=
  inferInstanceAs (Decidable (_ → _))

/-- From free locks, an execution ends with free locks exactly when it meets the
condition. -/
theorem unlocked_step {st st' : LockState} {action : ℕ × Execution} (hfree : st.Unlocked)
    (hstep : lockStep st action = some st') : st'.Unlocked ↔ StepLeavesUnlocked st action := by
  unfold lockStep at hstep
  dsimp only at hstep
  split at hstep
  · rename_i hruns
    cases hstep
    simp only [LockState.Unlocked, StepLeavesUnlocked, hruns, true_imp_iff]
    by_cases h : LeavesUnlocked action.2
    · refine iff_of_true (fun mutex => ?_) h
      have hbalanced := balanced_of_leavesUnlocked h mutex
      have hzero := hfree mutex
      omega
    · refine iff_of_false (fun hzero => ?_) h
      obtain ⟨mutex, hcalls⟩ := locks_of_not_leavesUnlocked h
      have hcount := hzero mutex
      rw [hcalls] at hcount
      simp [unlocks, acquisitions] at hcount
  · cases hstep

/-- A lock that is left taken keeps every other thread waiting. -/
theorem waits_forever {st : LockState} {thread other : ℕ} {mutex : Mutex} {e : Execution}
    (howner : st.owner mutex = some thread) (hother : other ≠ thread)
    (hlock : .lock mutex ∈ e.calls) : lockStep st (other, e) = none := by
  refine if_neg fun hruns => ?_
  have hmem : mutex ∈ [Mutex.mClientCS, .mEnetMutex] := by cases mutex <;> simp
  rcases hruns mutex hmem hlock with hnone | hsome
  · rw [howner] at hnone
    cases hnone
  · rw [howner, Option.some.injEq] at hsome
    exact hother hsome.symm

/-- An execution releases every lock as often as it takes it, and in a run all
locks are free between two executions, exactly when a connection that is started
gets a peer and the server starts. -/
theorem locks_released_iff (e : Execution) (actions : List (ℕ × Execution)) :
    (Balanced e.calls ↔ LeavesUnlocked e) ∧
      (Throughout LockState.Unlocked lockStep .start actions ↔
        Along StepLeavesUnlocked lockStep .start actions) := by
  refine ⟨balanced_iff e, ?_⟩
  refine throughout_iff_along (fun _ _ _ hfree hstep => unlocked_step hfree hstep) ?_ fun _ => rfl
  intro st action hnone hruns
  simp only [lockStep, if_pos hruns] at hnone
  cases hnone

/-- ENet has no peer for the connection: the client's thread keeps the lock, and
`disconnect` from the menu waits forever. -/
theorem failed_connect_keeps_lock :
    ¬Balanced (Execution.calls (.exeConnect true true false [])) ∧
      ∃ st, run lockStep .start [(1, .exeConnect true true false [])] = some st ∧
        ¬st.Unlocked ∧ lockStep st (2, .disconnect) = none := by
  refine ⟨fun h => ?_, _, rfl, fun h => ?_, rfl⟩
  · have hclient := h .mClientCS
    revert hclient
    decide
  · have hclient := h .mClientCS
    revert hclient
    decide

end BfMultiplayer.LockBalance

import BfMultiplayer.GuardedRuns
import BfMultiplayer.Packets
import Mathlib.Algebra.Order.Ring.Nat
import Mathlib.Data.List.Basic

/-!
# The queue of remote animations

An action that arrives waits in `mActionQueue` for the interval between two
poses, so that it starts when the puppet gets to the pose it was sent with.
`PlayerData::update` counts the entries down in a loop over their indices and
erases those that it starts; an entry that moves up into an erased place is
stepped over. So an action starts on time as long as the one in front of it is
gone before it arrives, and late otherwise.
-/

namespace BfMultiplayer.ActionQueue

open Packets GuardedRuns

/-- `ActionPacketData::Type`. -/
inductive ActionType where
  | Anim
  | SubAnim
  | MaterialAnim
  | RaidonAnim
  /-- A value outside of the enumeration. -/
  | other (value : UInt8)
  deriving DecidableEq

/-- `ActionPacketData`. -/
structure ActionPacketData where
  /-- What is animated. -/
  type : ActionType
  /-- The name of the action. -/
  action : CString
  deriving DecidableEq

/-- The calls that start an action. -/
inductive StartCall where
  /-- `mPlayerPuppet->startAnim`. -/
  | startAnim (action : CString)
  /-- `mPlayerPuppet->startSubAnim`. -/
  | startSubAnim (action : CString)
  /-- `mPlayerPuppet->startMaterialAnim`. -/
  | startMaterialAnim (action : CString)
  /-- `al::startAction` of `mRaidonPuppet`. -/
  | startAction (action : CString)
  deriving DecidableEq

/-- `MultiplayerManager::sPosePacketInterval`. -/
def sPosePacketInterval : ℕ := 6

/-- The capacity of `mActionQueue`. -/
def actionQueueCapacity : ℕ := 32

/-- `StartActionQueueEntry`, at the place that stands for its pointer: the number of the packet
that it was made for. -/
structure StartActionQueueEntry where
  /-- The packet. -/
  packet : ℕ
  /-- Its data. -/
  data : ActionPacketData
  /-- The updates until it starts. -/
  framesLeft : ℤ
  deriving DecidableEq

/-- An action that was started. -/
structure StartedAction where
  /-- The packet that it came with. -/
  packet : ℕ
  /-- In which execution of `update`. -/
  update : ℕ
  /-- By which call. -/
  call : StartCall
  deriving DecidableEq

/-- A packet that arrived. -/
structure Arrival where
  /-- How many executions of `update` were before it. -/
  update : ℕ
  /-- Its data. -/
  data : ActionPacketData
  deriving DecidableEq

/-- The queue of a remote player with a puppet, and what happened so far. -/
structure RemotePlayer where
  /-- `mActionQueue`. -/
  mActionQueue : List StartActionQueueEntry
  /-- The executions of `update`. -/
  updates : ℕ
  /-- The packets, in the order of their arrival. -/
  arrived : List Arrival
  /-- The actions that were started, in this order. -/
  started : List StartedAction
  deriving DecidableEq

/-- The branches of `update` over the type of an entry. -/
def startCall (data : ActionPacketData) : StartCall :=
  match data.type with
  | .Anim => .startAnim data.action
  | .SubAnim => .startSubAnim data.action
  | .MaterialAnim => .startMaterialAnim data.action
  | _ => .startAction data.action

/-- `entry->framesLeft--`. -/
def StartActionQueueEntry.countDown (entry : StartActionQueueEntry) : StartActionQueueEntry :=
  { entry with framesLeft := entry.framesLeft - 1 }

/-- The start of an entry in some execution of `update`. -/
def StartActionQueueEntry.start (entry : StartActionQueueEntry) (update : ℕ) : StartedAction :=
  ⟨entry.packet, update, startCall entry.data⟩

/-- The loop of `update` over the queue from index `i` on: the queue it leaves, and the
entries that it starts. -/
def queueLoop (i : ℕ) (queue : List StartActionQueueEntry) :
    List StartActionQueueEntry × List StartActionQueueEntry :=
  if h : i < queue.length then
    let entry := (queue.get ⟨i, h⟩).countDown
    if entry.framesLeft = 0 then
      let rest := queueLoop (i + 1) (queue.eraseIdx i)
      (rest.1, entry :: rest.2)
    else queueLoop (i + 1) (queue.set i entry)
  else (queue, [])
termination_by queue.length - i
decreasing_by
  · rw [List.length_eraseIdx_of_lt h]
    omega
  · rw [List.length_set]
    omega

/-- `PlayerData::update`. -/
def updatePlayer (player : RemotePlayer) : RemotePlayer :=
  let queue := queueLoop 0 player.mActionQueue
  { player with
    mActionQueue := queue.1
    updates := player.updates + 1
    started := player.started ++ queue.2.map fun entry => entry.start (player.updates + 1) }

/-- `PlayerData::handleActionPacket`; undefined when the queue is full. -/
def handleActionPacket (player : RemotePlayer) (data : ActionPacketData) : Option RemotePlayer :=
  if player.mActionQueue.length < actionQueueCapacity then
    some { player with
      mActionQueue := player.mActionQueue ++ [⟨player.arrived.length, data, sPosePacketInterval⟩]
      arrived := player.arrived ++ [⟨player.updates, data⟩] }
  else none

/-- What happens to a remote player. -/
inductive QueueEvent where
  /-- A frame. -/
  | update
  /-- A `ToC_Action` packet. -/
  | action (data : ActionPacketData)

/-- The step function. -/
def queueStep (player : RemotePlayer) : QueueEvent → Option RemotePlayer
  | .update => some (updatePlayer player)
  | .action data => handleActionPacket player data

/-- No packet has arrived. -/
def noActions : RemotePlayer := ⟨[], 0, [], []⟩

/-- The action of a packet is due. -/
def Arrival.isDue (arrival : Arrival) (updates : ℕ) : Bool :=
  arrival.update + sPosePacketInterval ≤ updates

/-- The start of an action on time. -/
def Arrival.onTime (arrival : Arrival) (packet : ℕ) : StartedAction :=
  ⟨packet, arrival.update + sPosePacketInterval, startCall arrival.data⟩

/-- The starts that are expected: those of the actions that are due, each once, on time, in the
order of their arrival. -/
def dueStarts (player : RemotePlayer) : List StartedAction :=
  (player.arrived.zipIdx.filter fun pair => pair.1.isDue player.updates).map fun pair =>
    pair.1.onTime pair.2

/-- Of the actions that have arrived, those that are due were started, each once, on time, in
the order of their arrival, and no others. -/
def StartsOnTime (player : RemotePlayer) : Prop := player.started = dueStarts player

/-- The condition on the arrivals: the actions that are due arrived at least six updates
apart. -/
def ArrivedApart (player : RemotePlayer) : Prop :=
  (player.arrived.filter fun arrival => arrival.isDue player.updates).Pairwise
    fun arrival later => arrival.update + sPosePacketInterval ≤ later.update

instance (player : RemotePlayer) : Decidable (StartsOnTime player) :=
  inferInstanceAs (Decidable (_ = _))

instance (player : RemotePlayer) : Decidable (ArrivedApart player) :=
  inferInstanceAs (Decidable (List.Pairwise _ _))

/-- The loop without indices: an entry that is erased keeps the next one from being counted. -/
def sweep : List StartActionQueueEntry →
    List StartActionQueueEntry × List StartActionQueueEntry
  | [] => ([], [])
  | [entry] =>
    if entry.countDown.framesLeft = 0 then ([], [entry.countDown]) else ([entry.countDown], [])
  | entry :: next :: rest =>
    if entry.countDown.framesLeft = 0 then
      (next :: (sweep rest).1, entry.countDown :: (sweep rest).2)
    else (entry.countDown :: (sweep (next :: rest)).1, (sweep (next :: rest)).2)

/-- One round of the loop, at the first entry behind those that it has passed. -/
theorem queueLoop_append_cons (passed rest : List StartActionQueueEntry)
    (entry : StartActionQueueEntry) :
    queueLoop passed.length (passed ++ entry :: rest) =
      if entry.countDown.framesLeft = 0 then
        ((queueLoop (passed.length + 1) (passed ++ rest)).1,
          entry.countDown :: (queueLoop (passed.length + 1) (passed ++ rest)).2)
      else queueLoop (passed.length + 1) (passed ++ entry.countDown :: rest) := by
  have hlt : passed.length < (passed ++ entry :: rest).length := by
    rw [List.length_append, List.length_cons]
    omega
  have hget : (passed ++ entry :: rest).get ⟨passed.length, hlt⟩ = entry := by
    rw [List.get_eq_getElem, List.getElem_append_right (Nat.le_refl _)]
    simp only [Nat.sub_self, List.getElem_cons_zero]
  have herase : (passed ++ entry :: rest).eraseIdx passed.length = passed ++ rest := by
    rw [List.eraseIdx_append_of_length_le (Nat.le_refl _), Nat.sub_self, List.eraseIdx_cons_zero]
  have hset : (passed ++ entry :: rest).set passed.length entry.countDown =
      passed ++ entry.countDown :: rest := by
    rw [List.set_append_right _ _ (Nat.le_refl _), Nat.sub_self, List.set_cons_zero]
  rw [queueLoop, dif_pos hlt]
  dsimp only
  rw [hget, herase, hset]

/-- Behind the last entry the loop ends. -/
theorem queueLoop_of_le {i : ℕ} {queue : List StartActionQueueEntry} (h : queue.length ≤ i) :
    queueLoop i queue = (queue, []) := by
  rw [queueLoop, dif_neg (Nat.not_lt.mpr h)]

/-- What the loop does behind the entries that it has passed. -/
theorem queueLoop_append (passed rest : List StartActionQueueEntry) :
    queueLoop passed.length (passed ++ rest) = (passed ++ (sweep rest).1, (sweep rest).2) := by
  induction rest using sweep.induct generalizing passed with
  | case1 => exact queueLoop_of_le (by rw [List.append_nil])
  | case2 entry hzero =>
    rw [queueLoop_append_cons, if_pos hzero, sweep, if_pos hzero,
      queueLoop_of_le (by rw [List.append_nil]; omega)]
  | case3 entry hzero =>
    rw [queueLoop_append_cons, if_neg hzero, sweep, if_neg hzero,
      queueLoop_of_le (by rw [List.length_append, List.length_singleton])]
  | case4 entry next rest hzero ih =>
    have hpassed := ih (passed ++ [next])
    rw [List.length_append, List.length_singleton, List.append_assoc, List.append_assoc] at hpassed
    rw [queueLoop_append_cons, if_pos hzero, sweep, if_pos hzero]
    simp only [List.singleton_append] at hpassed
    rw [hpassed]
  | case5 entry next rest hzero ih =>
    have hpassed := ih (passed ++ [entry.countDown])
    rw [List.length_append, List.length_singleton, List.append_assoc, List.append_assoc] at hpassed
    rw [queueLoop_append_cons, if_neg hzero, sweep, if_neg hzero]
    exact hpassed

/-- An update sweeps over the queue. -/
theorem updatePlayer_eq (player : RemotePlayer) :
    updatePlayer player = { player with
      mActionQueue := (sweep player.mActionQueue).1
      updates := player.updates + 1
      started := player.started ++
        (sweep player.mActionQueue).2.map fun entry => entry.start (player.updates + 1) } := by
  have hloop := queueLoop_append [] player.mActionQueue
  rw [List.nil_append, List.nil_append, List.length_nil] at hloop
  rw [updatePlayer, hloop]

/-- When no entry starts with the next update, all are counted down. -/
theorem sweep_of_waiting {queue : List StartActionQueueEntry}
    (h : ∀ entry ∈ queue, 2 ≤ entry.framesLeft) :
    sweep queue = (queue.map StartActionQueueEntry.countDown, []) := by
  have hne : ∀ entry ∈ queue, ¬entry.countDown.framesLeft = 0 := by
    intro entry hentry hzero
    have hleft := h entry hentry
    simp only [StartActionQueueEntry.countDown] at hzero
    omega
  induction queue using sweep.induct with
  | case1 => rfl
  | case2 entry hzero => exact absurd hzero (hne entry List.mem_cons_self)
  | case3 entry hzero =>
    rw [sweep, if_neg hzero]
    rfl
  | case4 entry next rest hzero ih => exact absurd hzero (hne entry List.mem_cons_self)
  | case5 entry next rest hzero ih =>
    have hrest := ih (fun other hother => h other (List.mem_cons_of_mem _ hother))
      fun other hother => hne other (List.mem_cons_of_mem _ hother)
    rw [sweep, if_neg hzero, hrest]
    rfl

/-- An entry that is started had one update left. -/
theorem mem_sweep_started {queue : List StartActionQueueEntry} {entry : StartActionQueueEntry}
    (h : entry ∈ (sweep queue).2) :
    ∃ old ∈ queue, old.packet = entry.packet ∧ old.framesLeft = 1 := by
  have hone : ∀ old : StartActionQueueEntry, old.countDown.framesLeft = 0 → old.framesLeft = 1 := by
    intro old hzero
    simp only [StartActionQueueEntry.countDown] at hzero
    omega
  induction queue using sweep.induct with
  | case1 => cases h
  | case2 old hzero =>
    rw [sweep, if_pos hzero] at h
    rw [List.mem_singleton.mp h]
    exact ⟨old, List.mem_cons_self, rfl, hone old hzero⟩
  | case3 old hzero =>
    rw [sweep, if_neg hzero] at h
    cases h
  | case4 old next rest hzero ih =>
    rw [sweep, if_pos hzero] at h
    rcases List.mem_cons.mp h with rfl | hrest
    · exact ⟨old, List.mem_cons_self, rfl, hone old hzero⟩
    · obtain ⟨other, hother, hfacts⟩ := ih hrest
      exact ⟨other, List.mem_cons_of_mem _ (List.mem_cons_of_mem _ hother), hfacts⟩
  | case5 old next rest hzero ih =>
    rw [sweep, if_neg hzero] at h
    obtain ⟨other, hother, hfacts⟩ := ih h
    exact ⟨other, List.mem_cons_of_mem _ hother, hfacts⟩

/-- The queue holds the entries of the given packets, the first of them with the given number.
None is ahead of its time. -/
def Holds (updates : ℕ) : ℕ → List StartActionQueueEntry → List Arrival → Prop
  | _, [], [] => True
  | packet, entry :: queue, arrival :: waiting =>
    (entry.packet = packet ∧ entry.data = arrival.data ∧
      (arrival.update + sPosePacketInterval : ℤ) ≤ updates + entry.framesLeft) ∧
    Holds updates (packet + 1) queue waiting
  | _, _, _ => False

/-- Each entry of the queue belongs to a waiting packet. -/
theorem Holds.exists_arrival {updates packet : ℕ} {queue : List StartActionQueueEntry}
    {waiting : List Arrival} (h : Holds updates packet queue waiting)
    {entry : StartActionQueueEntry} (hentry : entry ∈ queue) :
    packet ≤ entry.packet ∧ ∃ arrival ∈ waiting,
      (arrival.update + sPosePacketInterval : ℤ) ≤ updates + entry.framesLeft := by
  induction queue generalizing packet waiting with
  | nil => cases hentry
  | cons first queue ih =>
    cases waiting with
    | nil => exact absurd h id
    | cons arrival waiting =>
      obtain ⟨⟨hpacket, -, hleft⟩, hrest⟩ := h
      rcases List.mem_cons.mp hentry with rfl | hentry
      · exact ⟨by omega, arrival, List.mem_cons_self, hleft⟩
      · obtain ⟨hle, other, hother, hbound⟩ := ih hrest hentry
        exact ⟨by omega, other, List.mem_cons_of_mem _ hother, hbound⟩

/-- Counting down goes with the updates. -/
theorem Holds.countDown {updates packet : ℕ} {queue : List StartActionQueueEntry}
    {waiting : List Arrival} (h : Holds updates packet queue waiting) :
    Holds (updates + 1) packet (queue.map StartActionQueueEntry.countDown) waiting := by
  induction queue generalizing packet waiting with
  | nil =>
    cases waiting with
    | nil => trivial
    | cons arrival waiting => exact absurd h id
  | cons first queue ih =>
    cases waiting with
    | nil => exact absurd h id
    | cons arrival waiting =>
      obtain ⟨⟨hpacket, hdata, hleft⟩, hrest⟩ := h
      refine ⟨⟨hpacket, hdata, ?_⟩, ih hrest⟩
      simp only [StartActionQueueEntry.countDown]
      push_cast
      omega

/-- A packet that arrives is held behind the others. -/
theorem Holds.concat {updates packet : ℕ} {queue : List StartActionQueueEntry}
    {waiting : List Arrival} (h : Holds updates packet queue waiting) (data : ActionPacketData) :
    Holds updates packet (queue ++ [⟨packet + waiting.length, data, sPosePacketInterval⟩])
      (waiting ++ [⟨updates, data⟩]) := by
  induction queue generalizing packet waiting with
  | nil =>
    cases waiting with
    | nil => exact ⟨⟨rfl, rfl, by simp⟩, trivial⟩
    | cons arrival waiting => exact absurd h id
  | cons first queue ih =>
    cases waiting with
    | nil => exact absurd h id
    | cons arrival waiting =>
      have hnext := ih h.2
      have hnumber : packet + 1 + waiting.length = packet + (waiting.length + 1) := by omega
      rw [hnumber] at hnext
      exact ⟨h.1, hnext⟩

/-- So far all starts were on time: the packets that are gone were due, and have arrived apart;
those that wait are not due. The first of these is counted exactly when it has arrived apart
from those that are gone; otherwise it was stepped over, and is late already. -/
structure Punctual (player : RemotePlayer) (gone waiting : List Arrival) : Prop where
  /-- The packets. -/
  arrived : player.arrived = gone ++ waiting
  /-- They are in the order of their arrival. -/
  sorted : player.arrived.Pairwise fun arrival later => arrival.update ≤ later.update
  /-- They have arrived by now. -/
  past : ∀ arrival ∈ player.arrived, arrival.update ≤ player.updates
  /-- What is gone was due. -/
  due : ∀ arrival ∈ gone, arrival.update + sPosePacketInterval ≤ player.updates
  /-- What waits is not. -/
  notDue : ∀ arrival ∈ waiting, player.updates < arrival.update + sPosePacketInterval
  /-- What is gone has arrived apart. -/
  apart : gone.Pairwise fun arrival later => arrival.update + sPosePacketInterval ≤ later.update
  /-- The starts. -/
  started : player.started = gone.zipIdx.map fun pair => pair.1.onTime pair.2
  /-- The entries. -/
  holds : Holds player.updates gone.length player.mActionQueue waiting
  /-- The first of them. -/
  head : ∀ entry arrival, player.mActionQueue.head? = some entry → waiting.head? = some arrival →
    if ∀ other ∈ gone, other.update + sPosePacketInterval ≤ arrival.update then
      (player.updates + entry.framesLeft : ℤ) = arrival.update + sPosePacketInterval
    else (arrival.update + sPosePacketInterval : ℤ) < player.updates + entry.framesLeft

/-- Due by some update is what is to be started by it. -/
theorem isDue_iff (arrival : Arrival) (updates : ℕ) :
    arrival.isDue updates = true ↔ arrival.update + sPosePacketInterval ≤ updates :=
  decide_eq_true_iff

/-- The packets that are due are those that are gone. -/
theorem Punctual.filter_due {player : RemotePlayer} {gone waiting : List Arrival}
    (h : Punctual player gone waiting) :
    (player.arrived.filter fun arrival => arrival.isDue player.updates) = gone := by
  have hgone : ∀ arrival ∈ gone, arrival.isDue player.updates = true :=
    fun arrival harrival => (isDue_iff _ _).mpr (h.due arrival harrival)
  have hwaiting : ∀ arrival ∈ waiting, ¬arrival.isDue player.updates = true := by
    intro arrival harrival hdue
    have hlater := h.notDue arrival harrival
    rw [isDue_iff] at hdue
    omega
  rw [h.arrived, List.filter_append, List.filter_eq_self.mpr hgone,
    List.filter_eq_nil_iff.mpr hwaiting, List.append_nil]

/-- Then the starts are on time, and the packets that are due have arrived apart. -/
theorem Punctual.both {player : RemotePlayer} {gone waiting : List Arrival}
    (h : Punctual player gone waiting) : StartsOnTime player ∧ ArrivedApart player := by
  constructor
  · have hgone : ∀ pair ∈ gone.zipIdx, pair.1.isDue player.updates = true :=
      fun pair hpair => (isDue_iff _ _).mpr (h.due _ (List.fst_mem_of_mem_zipIdx hpair))
    have hwaiting : ∀ pair ∈ waiting.zipIdx gone.length, ¬pair.1.isDue player.updates = true := by
      intro pair hpair hdue
      have hlater := h.notDue _ (List.fst_mem_of_mem_zipIdx hpair)
      rw [isDue_iff] at hdue
      omega
    rw [StartsOnTime, dueStarts, h.arrived, List.zipIdx_append, List.filter_append,
      List.filter_eq_self.mpr hgone, Nat.zero_add, List.filter_eq_nil_iff.mpr hwaiting,
      List.append_nil]
    exact h.started
  · rw [ArrivedApart, h.filter_due]
    exact h.apart

/-- A packet that is due and was not started is missing among the starts. -/
theorem not_startsOnTime_of_missing {player : RemotePlayer} {front rest : List Arrival}
    {arrival : Arrival} (harrived : player.arrived = front ++ arrival :: rest)
    (hdue : arrival.update + sPosePacketInterval ≤ player.updates)
    (hmissing : ∀ start ∈ player.started, start.packet ≠ front.length) :
    ¬StartsOnTime player := by
  intro h
  have hmem : (arrival, front.length) ∈ player.arrived.zipIdx := by
    rw [List.mem_zipIdx_iff_getElem?, harrived, List.getElem?_append_right (Nat.le_refl _),
      Nat.sub_self, List.getElem?_cons_zero]
  have hstart : arrival.onTime front.length ∈ player.started := by
    rw [h, dueStarts]
    exact List.mem_map.mpr ⟨_, List.mem_filter.mpr ⟨hmem, (isDue_iff _ _).mpr hdue⟩, rfl⟩
  exact hmissing _ hstart rfl

/-- Two packets that are due and have not arrived apart. -/
theorem not_arrivedApart_of_close {player : RemotePlayer} {front rest : List Arrival}
    {earlier later : Arrival} (harrived : player.arrived = front ++ later :: rest)
    (hearlier : earlier ∈ front) (hdue : earlier.update + sPosePacketInterval ≤ player.updates)
    (hdue' : later.update + sPosePacketInterval ≤ player.updates)
    (hclose : later.update < earlier.update + sPosePacketInterval) : ¬ArrivedApart player := by
  intro h
  rw [ArrivedApart, harrived, List.filter_append, List.pairwise_append] at h
  have hapart := h.2.2 earlier (List.mem_filter.mpr ⟨hearlier, (isDue_iff _ _).mpr hdue⟩) later
    (List.mem_filter.mpr ⟨List.mem_cons_self, (isDue_iff _ _).mpr hdue'⟩)
  omega

/-- Only packets that are gone were started. -/
theorem Punctual.packet_lt {player : RemotePlayer} {gone waiting : List Arrival}
    (h : Punctual player gone waiting) : ∀ start ∈ player.started, start.packet < gone.length := by
  intro start hstart
  rw [h.started] at hstart
  obtain ⟨pair, hpair, rfl⟩ := List.mem_map.mp hstart
  exact List.snd_lt_of_mem_zipIdx hpair

/-- What an update starts. -/
theorem started_updatePlayer (player : RemotePlayer) :
    (updatePlayer player).started = player.started ++
      (sweep player.mActionQueue).2.map fun entry => entry.start (player.updates + 1) := by
  rw [updatePlayer_eq]

/-- An update by which no packet is due. -/
theorem Punctual.wait {player : RemotePlayer} {gone waiting : List Arrival}
    (h : Punctual player gone waiting)
    (hnot : ∀ arrival ∈ waiting, player.updates + 1 < arrival.update + sPosePacketInterval) :
    Punctual (updatePlayer player) gone waiting := by
  have hsweep : sweep player.mActionQueue =
      (player.mActionQueue.map StartActionQueueEntry.countDown, []) := by
    refine sweep_of_waiting fun entry hentry => ?_
    obtain ⟨-, arrival, harrival, hleft⟩ := h.holds.exists_arrival hentry
    have hlater := hnot arrival harrival
    omega
  rw [updatePlayer_eq, hsweep]
  refine ⟨h.arrived, h.sorted, ?_, ?_, hnot, h.apart, ?_, h.holds.countDown, ?_⟩
  · exact fun arrival harrival => Nat.le_succ_of_le (h.past arrival harrival)
  · exact fun arrival harrival => Nat.le_succ_of_le (h.due arrival harrival)
  · rw [List.map_nil, List.append_nil]
    exact h.started
  · intro entry arrival hentry harrival
    rw [List.head?_map, Option.map_eq_some_iff] at hentry
    obtain ⟨old, hold, rfl⟩ := hentry
    have hhead := h.head old arrival hold harrival
    simp only [StartActionQueueEntry.countDown]
    push_cast
    split at hhead
    · rename_i hapart
      rw [if_pos hapart]
      omega
    · rename_i hapart
      rw [if_neg hapart]
      omega

/-- An update by which a packet is due that was stepped over. -/
theorem Punctual.late {player : RemotePlayer} {gone waiting : List Arrival} {first : Arrival}
    (h : Punctual player gone (first :: waiting))
    (hdue : first.update + sPosePacketInterval = player.updates + 1)
    (hclose : ¬∀ other ∈ gone, other.update + sPosePacketInterval ≤ first.update) :
    ¬StartsOnTime (updatePlayer player) ∧ ¬ArrivedApart (updatePlayer player) := by
  constructor
  · have harrived : (updatePlayer player).arrived = gone ++ first :: waiting := h.arrived
    refine not_startsOnTime_of_missing harrived (Nat.le_of_eq hdue) ?_
    intro start hstart hpacket
    rw [started_updatePlayer, List.mem_append] at hstart
    rcases hstart with hstart | hstart
    · have hlt := h.packet_lt start hstart
      omega
    · obtain ⟨entry, hentry, rfl⟩ := List.mem_map.mp hstart
      obtain ⟨old, hold, holdPacket, hleft⟩ := mem_sweep_started hentry
      -- only the first entry has this number, and it has more than one update left
      have hholds := h.holds
      have hhead := h.head
      cases hqueue : player.mActionQueue with
      | nil =>
        rw [hqueue] at hold
        cases hold
      | cons entry' queue =>
        rw [hqueue] at hold hholds hhead
        have hlate := hhead entry' first rfl rfl
        rw [if_neg hclose] at hlate
        have hnumber : old.packet = gone.length := holdPacket.trans hpacket
        rcases List.mem_cons.mp hold with rfl | hrest
        · omega
        · have hle := (hholds.2.exists_arrival hrest).1
          omega
  · obtain ⟨other, hother⟩ := not_forall.mp hclose
    obtain ⟨hmem, hlt⟩ := Classical.not_imp.mp hother
    have harrived : (updatePlayer player).arrived = gone ++ first :: waiting := h.arrived
    exact not_arrivedApart_of_close harrived hmem
      (Nat.le_succ_of_le (h.due other hmem)) (Nat.le_of_eq hdue) (by omega)

/-- The first packet is due, and has arrived apart from those that are gone. -/
theorem Punctual.entry_first {player : RemotePlayer} {gone waiting : List Arrival}
    {first : Arrival} (h : Punctual player gone (first :: waiting))
    (hdue : first.update + sPosePacketInterval = player.updates + 1)
    (hapart : ∀ other ∈ gone, other.update + sPosePacketInterval ≤ first.update) :
    ∃ entry queue, player.mActionQueue = entry :: queue ∧ entry.countDown.framesLeft = 0 ∧
      entry.start (player.updates + 1) = first.onTime gone.length ∧
      Holds player.updates (gone.length + 1) queue waiting := by
  have hholds := h.holds
  have hhead := h.head
  cases hqueue : player.mActionQueue with
  | nil =>
    rw [hqueue] at hholds
    exact absurd hholds id
  | cons entry queue =>
    rw [hqueue] at hholds hhead
    have hexact := hhead entry first rfl rfl
    rw [if_pos hapart] at hexact
    obtain ⟨⟨hpacket, hdata, -⟩, hrest⟩ := hholds
    refine ⟨entry, queue, rfl, ?_, ?_, hrest⟩
    · simp only [StartActionQueueEntry.countDown]
      omega
    · rw [StartActionQueueEntry.start, Arrival.onTime, hpacket, hdata, hdue]

/-- An update by which the first packet is due, and the next one too. -/
theorem Punctual.stepOver {player : RemotePlayer} {gone waiting : List Arrival}
    {first next : Arrival} (h : Punctual player gone (first :: next :: waiting))
    (hdue : first.update + sPosePacketInterval = player.updates + 1)
    (hnext : next.update + sPosePacketInterval ≤ player.updates + 1)
    (hapart : ∀ other ∈ gone, other.update + sPosePacketInterval ≤ first.update) :
    ¬StartsOnTime (updatePlayer player) ∧ ¬ArrivedApart (updatePlayer player) := by
  have harrived : (updatePlayer player).arrived = (gone ++ [first]) ++ next :: waiting := by
    rw [List.append_assoc]
    exact h.arrived
  obtain ⟨entry, queue, hqueue, hzero, hstart, hholds⟩ := h.entry_first hdue hapart
  constructor
  · refine not_startsOnTime_of_missing harrived hnext fun start hmem hpacket => ?_
    rw [List.length_append, List.length_singleton] at hpacket
    rw [started_updatePlayer, List.mem_append] at hmem
    rcases hmem with hmem | hmem
    · have hlt := h.packet_lt start hmem
      omega
    · obtain ⟨started, hstarted, rfl⟩ := List.mem_map.mp hmem
      cases queue with
      | nil => exact absurd hholds id
      | cons entry' queue =>
        rw [hqueue, sweep, if_pos hzero] at hstarted
        rcases List.mem_cons.mp hstarted with rfl | hrest
        · have hfirst := congrArg StartedAction.packet hstart
          simp only [StartActionQueueEntry.start, Arrival.onTime,
            StartActionQueueEntry.countDown] at hfirst hpacket
          omega
        · obtain ⟨old, hold, holdPacket, -⟩ := mem_sweep_started hrest
          have hle := (hholds.2.exists_arrival hold).1
          simp only [StartActionQueueEntry.start] at hpacket
          omega
  · have hfirst : first ∈ gone ++ [first] := List.mem_append_right _ List.mem_cons_self
    have hmem : next ∈ player.arrived := by
      rw [h.arrived]
      exact List.mem_append_right _ (List.mem_cons_of_mem _ List.mem_cons_self)
    have hpast := h.past next hmem
    exact not_arrivedApart_of_close harrived hfirst (Nat.le_of_eq hdue) hnext (by omega)

/-- While the first entry is started, the entry behind it is stepped over and all others are
counted down. -/
theorem Holds.sweep_first {updates packet : ℕ} {entry : StartActionQueueEntry}
    {queue : List StartActionQueueEntry} {waiting : List Arrival}
    (h : Holds updates packet queue waiting) (hzero : entry.countDown.framesLeft = 0)
    (hlater : ∀ arrival ∈ waiting, updates + 1 < arrival.update + sPosePacketInterval) :
    ∃ rest, sweep (entry :: queue) = (rest, [entry.countDown]) ∧
      Holds (updates + 1) packet rest waiting ∧
      ∀ next arrival, rest.head? = some next → waiting.head? = some arrival →
        (arrival.update + sPosePacketInterval : ℤ) ≤ updates + next.framesLeft := by
  cases queue with
  | nil =>
    refine ⟨[], ?_, ?_, fun next arrival hnext => nomatch hnext⟩
    · rw [sweep, if_pos hzero]
    · exact h.countDown
  | cons next queue =>
    cases waiting with
    | nil => exact absurd h id
    | cons arrival waiting =>
      have hwaiting : ∀ other ∈ queue, 2 ≤ other.framesLeft := by
        intro other hother
        obtain ⟨-, found, hfound, hleft⟩ := h.2.exists_arrival hother
        have hfar := hlater found (List.mem_cons_of_mem _ hfound)
        omega
      refine ⟨next :: queue.map StartActionQueueEntry.countDown, ?_, ?_, ?_⟩
      · rw [sweep, if_pos hzero, sweep_of_waiting hwaiting]
      · obtain ⟨⟨hpacket, hdata, hleft⟩, hrest⟩ := h
        refine ⟨⟨hpacket, hdata, ?_⟩, hrest.countDown⟩
        push_cast
        omega
      · intro other arrival' hother harrival
        rw [List.head?_cons, Option.some.injEq] at hother harrival
        rw [← hother, ← harrival]
        exact h.1.2.2

/-- An update by which the first packet alone is due. -/
theorem Punctual.startFirst {player : RemotePlayer} {gone waiting : List Arrival}
    {first : Arrival} (h : Punctual player gone (first :: waiting))
    (hdue : first.update + sPosePacketInterval = player.updates + 1)
    (hlater : ∀ arrival ∈ waiting, player.updates + 1 < arrival.update + sPosePacketInterval)
    (hapart : ∀ other ∈ gone, other.update + sPosePacketInterval ≤ first.update) :
    Punctual (updatePlayer player) (gone ++ [first]) waiting := by
  obtain ⟨entry, queue, hqueue, hzero, hstart, hholds⟩ := h.entry_first hdue hapart
  obtain ⟨rest, hsweep, hrest, hhead⟩ := hholds.sweep_first hzero hlater
  rw [← hqueue] at hsweep
  have harrived : player.arrived = (gone ++ [first]) ++ waiting := by
    rw [List.append_assoc]
    exact h.arrived
  rw [updatePlayer_eq, hsweep]
  refine ⟨harrived, h.sorted, ?_, ?_, hlater, ?_, ?_, ?_, ?_⟩
  · exact fun arrival harrival => Nat.le_succ_of_le (h.past arrival harrival)
  · intro arrival harrival
    rcases List.mem_append.mp harrival with hgone | hlast
    · exact Nat.le_succ_of_le (h.due arrival hgone)
    · rw [List.mem_singleton.mp hlast]
      exact Nat.le_of_eq hdue
  · refine List.pairwise_append.mpr ⟨h.apart, List.pairwise_singleton _ _, ?_⟩
    intro other hother arrival harrival
    rw [List.mem_singleton.mp harrival]
    exact hapart other hother
  · rw [h.started, List.zipIdx_append, List.map_append, Nat.zero_add]
    exact congrArg _ (congrArg (· :: []) hstart)
  · rw [List.length_append, List.length_singleton]
    exact hrest
  · intro next arrival hnext harrival
    have hclose : ¬∀ other ∈ gone ++ [first],
        other.update + sPosePacketInterval ≤ arrival.update := by
      intro hall
      have hfirst := hall first (List.mem_append_right _ List.mem_cons_self)
      have harrivalMem : arrival ∈ player.arrived := by
        rw [harrived]
        exact List.mem_append_right _ (List.mem_of_mem_head? harrival)
      have hpast := h.past arrival harrivalMem
      omega
    have hleft := hhead next arrival hnext harrival
    rw [if_neg hclose]
    push_cast
    omega

/-- What is known of a player between two events: the starts are on time and the packets have
arrived apart, or neither. -/
structure QueueInv (player : RemotePlayer) : Prop where
  /-- The starts are in the past. -/
  past : ∀ start ∈ player.started, start.update ≤ player.updates
  /-- Both or neither. -/
  both : (∃ gone waiting, Punctual player gone waiting) ∨
    ¬StartsOnTime player ∧ ¬ArrivedApart player

/-- An update while the starts are on time. -/
theorem Punctual.update {player : RemotePlayer} {gone waiting : List Arrival}
    (h : Punctual player gone waiting) :
    (∃ gone' waiting', Punctual (updatePlayer player) gone' waiting') ∨
      ¬StartsOnTime (updatePlayer player) ∧ ¬ArrivedApart (updatePlayer player) := by
  have hsorted := h.sorted
  rw [h.arrived, List.pairwise_append] at hsorted
  cases waiting with
  | nil => exact Or.inl ⟨gone, [], h.wait fun arrival harrival => nomatch harrival⟩
  | cons first rest =>
    have hrest := (List.pairwise_cons.mp hsorted.2.1).1
    have hnot := h.notDue first List.mem_cons_self
    by_cases hdue : first.update + sPosePacketInterval = player.updates + 1
    · by_cases hapart : ∀ other ∈ gone, other.update + sPosePacketInterval ≤ first.update
      · cases rest with
        | nil =>
          exact Or.inl ⟨_, [], h.startFirst hdue (fun arrival harrival => nomatch harrival) hapart⟩
        | cons next rest =>
          by_cases hnext : next.update + sPosePacketInterval ≤ player.updates + 1
          · exact Or.inr (h.stepOver hdue hnext hapart)
          · refine Or.inl ⟨_, _, h.startFirst hdue (fun arrival harrival => ?_) hapart⟩
            rcases List.mem_cons.mp harrival with rfl | hmem
            · omega
            · have hle := (List.pairwise_cons.mp (List.pairwise_cons.mp hsorted.2.1).2).1
                arrival hmem
              omega
      · exact Or.inr (h.late hdue hapart)
    · refine Or.inl ⟨gone, _, h.wait fun arrival harrival => ?_⟩
      rcases List.mem_cons.mp harrival with rfl | hmem
      · omega
      · have hle := hrest arrival hmem
        omega

/-- A packet while the starts are on time. -/
theorem Punctual.action {player player' : RemotePlayer} {gone waiting : List Arrival}
    {data : ActionPacketData} (h : Punctual player gone waiting)
    (hstep : handleActionPacket player data = some player') :
    Punctual player' gone (waiting ++ [⟨player.updates, data⟩]) := by
  unfold handleActionPacket at hstep
  split at hstep
  · cases hstep
    have hpositive : 0 < sPosePacketInterval := by decide
    have harrived : player.arrived ++ [⟨player.updates, data⟩] =
        gone ++ (waiting ++ [⟨player.updates, data⟩]) := by
      rw [h.arrived, List.append_assoc]
    refine ⟨harrived, ?_, ?_, h.due, ?_, h.apart, h.started, ?_, ?_⟩
    · refine List.pairwise_append.mpr ⟨h.sorted, List.pairwise_singleton _ _, ?_⟩
      intro arrival harrival later hlater
      rw [List.mem_singleton.mp hlater]
      exact h.past arrival harrival
    · intro arrival harrival
      rcases List.mem_append.mp harrival with hold | hnew
      · exact h.past arrival hold
      · rw [List.mem_singleton.mp hnew]
    · intro arrival harrival
      rcases List.mem_append.mp harrival with hold | hnew
      · exact h.notDue arrival hold
      · rw [List.mem_singleton.mp hnew]
        dsimp only
        omega
    · have hnext := h.holds.concat data
      rw [h.arrived, List.length_append]
      exact hnext
    · intro entry arrival hentry harrival
      have hholds := h.holds
      cases hqueue : player.mActionQueue with
      | nil =>
        cases waiting with
        | nil =>
          -- the packet is the first that waits, and all others are gone
          rw [hqueue] at hentry
          cases hentry
          cases harrival
          rw [if_pos h.due]
        | cons first waiting =>
          rw [hqueue] at hholds
          exact absurd hholds id
      | cons first queue =>
        cases waiting with
        | nil =>
          rw [hqueue] at hholds
          exact absurd hholds id
        | cons arrival' waiting =>
          rw [hqueue] at hentry
          exact h.head entry arrival (by rw [hqueue]; exact hentry) harrival
  · cases hstep

/-- The expected starts up to some update are those of the state behind it. -/
theorem filter_dueStarts (player : RemotePlayer) :
    (dueStarts (updatePlayer player)).filter (fun start => decide (start.update ≤ player.updates)) =
      dueStarts player := by
  have hupdates : (updatePlayer player).updates = player.updates + 1 := rfl
  have harrived : (updatePlayer player).arrived = player.arrived := rfl
  rw [dueStarts, dueStarts, List.filter_map, List.filter_filter, hupdates, harrived]
  congr 2
  funext pair
  rw [Function.comp_apply, Arrival.onTime, Arrival.isDue, Arrival.isDue, ← Bool.decide_and]
  refine decide_eq_decide.mpr ⟨fun h => h.1, fun h => ⟨h, ?_⟩⟩
  omega

/-- Starts that are on time behind an update were so before it. -/
theorem startsOnTime_of_update {player : RemotePlayer}
    (hpast : ∀ start ∈ player.started, start.update ≤ player.updates)
    (h : StartsOnTime (updatePlayer player)) : StartsOnTime player := by
  have hold : player.started.filter (fun start => decide (start.update ≤ player.updates)) =
      player.started :=
    List.filter_eq_self.mpr fun start hstart => decide_eq_true (hpast start hstart)
  have hnew : ((sweep player.mActionQueue).2.map fun entry =>
      entry.start (player.updates + 1)).filter
        (fun start => decide (start.update ≤ player.updates)) = [] := by
    refine List.filter_eq_nil_iff.mpr fun start hstart hle => ?_
    obtain ⟨entry, -, rfl⟩ := List.mem_map.mp hstart
    have hpast' : (entry.start (player.updates + 1)).update ≤ player.updates :=
      of_decide_eq_true hle
    have hnow : (entry.start (player.updates + 1)).update = player.updates + 1 := rfl
    omega
  rw [StartsOnTime, ← filter_dueStarts, ← h, started_updatePlayer, List.filter_append, hold, hnew,
    List.append_nil]

/-- Packets that have arrived apart behind an update had before it. -/
theorem arrivedApart_of_update {player : RemotePlayer} (h : ArrivedApart (updatePlayer player)) :
    ArrivedApart player := by
  refine h.sublist (List.monotone_filter_right _ fun arrival => ?_)
  have hupdates : (updatePlayer player).updates = player.updates + 1 := rfl
  rw [hupdates, isDue_iff, isDue_iff]
  omega

/-- A packet that arrives is not due. -/
theorem action_expects {player player' : RemotePlayer} {data : ActionPacketData}
    (hstep : handleActionPacket player data = some player') :
    (StartsOnTime player' ↔ StartsOnTime player) ∧ (ArrivedApart player' ↔ ArrivedApart player) := by
  unfold handleActionPacket at hstep
  split at hstep
  · cases hstep
    have hnot : (⟨player.updates, data⟩ : Arrival).isDue player.updates = false := by
      rw [Arrival.isDue, decide_eq_false_iff_not]
      simp only [sPosePacketInterval]
      omega
    constructor
    · simp only [StartsOnTime, dueStarts, List.zipIdx_append, List.filter_append,
        List.zipIdx_singleton, List.filter_cons, hnot, Bool.false_eq_true, if_false,
        List.filter_nil, List.append_nil]
    · simp only [ArrivedApart, List.filter_append, List.filter_cons, hnot, Bool.false_eq_true,
        if_false, List.filter_nil, List.append_nil]
  · cases hstep

/-- One event keeps what is known of a player. -/
theorem queueInv_step (player : RemotePlayer) (event : QueueEvent) (player' : RemotePlayer)
    (h : QueueInv player) (hstep : queueStep player event = some player') : QueueInv player' := by
  cases event with
  | update =>
    cases hstep
    constructor
    · intro start hstart
      have hupdates : (updatePlayer player).updates = player.updates + 1 := rfl
      rw [started_updatePlayer, List.mem_append] at hstart
      rw [hupdates]
      rcases hstart with hold | hnew
      · exact Nat.le_succ_of_le (h.past start hold)
      · obtain ⟨entry, -, rfl⟩ := List.mem_map.mp hnew
        exact Nat.le_refl _
    · rcases h.both with ⟨gone, waiting, hpunctual⟩ | ⟨hstarts, hapart⟩
      · exact hpunctual.update
      · exact Or.inr ⟨fun hnow => hstarts (startsOnTime_of_update h.past hnow),
          fun hnow => hapart (arrivedApart_of_update hnow)⟩
  | action data =>
    obtain ⟨hstarts, hapart⟩ := action_expects hstep
    constructor
    · have hsame : player'.started = player.started ∧ player'.updates = player.updates := by
        simp only [queueStep, handleActionPacket] at hstep
        split at hstep
        · cases hstep
          exact ⟨rfl, rfl⟩
        · cases hstep
      rw [hsame.1, hsame.2]
      exact h.past
    · rw [hstarts, hapart]
      exact h.both.imp_left fun ⟨gone, waiting, hpunctual⟩ =>
        ⟨gone, _, hpunctual.action hstep⟩

/-- In every run in which the queue is never full, the actions that are due have been started,
each once, on time and in the order of their arrival, exactly when their packets have arrived at
least six updates apart. -/
theorem actions_start_on_time_iff (events : List QueueEvent) (player : RemotePlayer)
    (hrun : run queueStep noActions events = some player) :
    StartsOnTime player ↔ ArrivedApart player := by
  have hpunctual : Punctual noActions [] [] := by
    refine ⟨rfl, List.Pairwise.nil, ?_, ?_, ?_, List.Pairwise.nil, rfl, trivial, ?_⟩
    · exact fun arrival harrival => nomatch harrival
    · exact fun arrival harrival => nomatch harrival
    · exact fun arrival harrival => nomatch harrival
    · exact fun entry arrival hentry => nomatch hentry
  have hstart : QueueInv noActions :=
    ⟨fun start hstart => (nomatch hstart), Or.inl ⟨[], [], hpunctual⟩⟩
  rcases (run_invariant_of_step queueInv_step hstart hrun).both with
    ⟨gone, waiting, hnow⟩ | ⟨hstarts, hapart⟩
  · exact iff_of_true hnow.both.1 hnow.both.2
  · exact iff_of_false hstarts hapart

/-- The step function over the sweep, for evaluation. -/
def sweepStep (player : RemotePlayer) : QueueEvent → Option RemotePlayer
  | .update => some { player with
      mActionQueue := (sweep player.mActionQueue).1
      updates := player.updates + 1
      started := player.started ++
        (sweep player.mActionQueue).2.map fun entry => entry.start (player.updates + 1) }
  | .action data => handleActionPacket player data

/-- Both step functions are the same. -/
theorem queueStep_eq : queueStep = sweepStep := by
  funext player event
  cases event with
  | update => exact congrArg some (updatePlayer_eq player)
  | action data => rfl

/-- Two actions that arrive six updates apart are started on time. -/
theorem actions_start_on_time_two : ∃ player,
    run queueStep noActions ([.action ⟨.Anim, [65]⟩] ++ List.replicate 6 .update ++
      [.action ⟨.SubAnim, [66]⟩] ++ List.replicate 6 .update) = some player ∧
    StartsOnTime player := by
  have hrun : ∃ player, run queueStep noActions ([.action ⟨.Anim, [65]⟩] ++
      List.replicate 6 .update ++ [.action ⟨.SubAnim, [66]⟩] ++ List.replicate 6 .update) =
        some player ∧ ArrivedApart player := by
    rw [queueStep_eq]
    exact run_reaches (by decide)
  obtain ⟨player, hplayer, hapart⟩ := hrun
  exact ⟨player, hplayer, (actions_start_on_time_iff _ player hplayer).mpr hapart⟩

/-- Of three actions that arrive between two updates, the first and the third are started with
the sixth update, and the second one behind them with the seventh. -/
theorem second_action_is_overtaken : ∃ player,
    run queueStep noActions ([.action ⟨.Anim, [65]⟩, .action ⟨.Anim, [66]⟩,
      .action ⟨.Anim, [67]⟩] ++ List.replicate 7 .update) = some player ∧
    player.started =
      [⟨0, 6, .startAnim [65]⟩, ⟨2, 6, .startAnim [67]⟩, ⟨1, 7, .startAnim [66]⟩] ∧
    ¬StartsOnTime player := by
  rw [queueStep_eq]
  exact run_reaches (by decide)

end BfMultiplayer.ActionQueue

import BfMultiplayer.ClientTable
import BfMultiplayer.SaveSessionOwner

/-!
# Background tasks and the records they use

A greeting starts a thread that uploads the shared save, a scene entry one that
runs the whole handler. Both are detached and reach everything through the
`Client*` they were started with. The event loop erases a record without
looking at the threads that hold it, since `Client::disconnect` is empty. As
long as no event erases a record that a running thread holds, every step of a
thread is made on the record it was started with.
-/

namespace BfMultiplayer.BackgroundTasks

open ByteBuffer Packets ServerState ServerHandlers SaveChunkRules EventLoopRules ClientLinks
  ClientTable SaveSessionOwner GuardedRuns

/-- What a detached thread does next. -/
inductive Work where
  /-- `uploadSaveThread` takes the mutex. -/
  | uploadLock
  /-- It sends chunk `i`. -/
  | uploadChunk (i : Fin 8)
  /-- It gives the mutex back. -/
  | uploadUnlock
  /-- `handleSingleModeSceneEnter` makes its first assignment. -/
  | sceneAssign (packet : ToS_SingleModeSceneEnter)
  /-- It sends the player list. -/
  | sceneList
  /-- Its loop over the islands, after the one with name `last`. -/
  | sceneIslands (last : Option CString)
  /-- Its loop over the shines. -/
  | sceneShines (next : ℕ)
  /-- Its loop over the toads. -/
  | sceneToads (next : ℕ)
  /-- Its loop over the shards. -/
  | sceneShards (next : ℕ)

/-- A detached thread. -/
structure Task where
  /-- The `Client*` it was started with. -/
  ptr : ℕ
  /-- The number of the record that was there when it was started. -/
  serial : ℕ
  /-- What it does next. -/
  work : Work

/-- The server with its detached threads. Records are numbered in the order in
which they are made, so that two of them at one place can be told apart. -/
structure TaskSystem where
  /-- The server. -/
  server : Server
  /-- Number of the record last made at each place. -/
  serials : ℕ → ℕ
  /-- How many records were made. -/
  connections : ℕ
  /-- The running threads. -/
  tasks : List Task
  /-- Whether an upload thread holds `mSaveDataMutex`. -/
  saveDataMutex : Bool

/-- What can happen next. -/
inductive TaskAction where
  /-- The event loop takes an event. -/
  | event (event : ENetEvent)
  /-- The thread at a position of the list makes a step. -/
  | task (index : ℕ)

/-- The island after the one with name `last`, in the order of the map. -/
def nextIsland (map : ScenarioMap) (last : Option CString) : Option (CString × ℤ) :=
  match last with
  | none => map.toList.head?
  | some name => map.toList.find? fun island => compare name island.1 == .lt

/-- One turn of a loop over a stored list: send the packet of the next element,
or go on to what follows the loop. -/
def loopStep {α : Type} (s : Server) (node : ClientNode) (next : Option α)
    (packet : α → ClientBound) (again : Work) (after : Option Work) :
    List Effect × Option Work :=
  match next with
  | some a => (s.sendPacket node.client (packet a), some again)
  | none => ([], after)

/-- One step of a thread on its record: the server after it, what it does to
the outside, and what it does next unless it has ended. -/
def workStep (s : Server) (node : ClientNode) :
    Work → Option (Server × List Effect × Option Work)
  | .uploadLock => some (s, [], some (.uploadChunk firstChunk))
  | .uploadChunk i => (uploadSaveThread s.mSaveData i).map fun chunk =>
    (s, s.sendPacket node.client (.saveDataChunk chunk),
      some (if h : i.val + 1 < 8 then .uploadChunk ⟨i.val + 1, h⟩ else .uploadUnlock))
  | .uploadUnlock => some (s, [], none)
  | .sceneAssign packet =>
    some ((handleSingleModeSceneEnter s node packet).1, [], some .sceneList)
  | .sceneList =>
    some (s, Server.sendPacketToAll (.playerList (sceneEnterList s)), some (.sceneIslands none))
  | .sceneIslands last =>
    match nextIsland s.mSaveData.islandToScenarioMap last with
    | some island =>
      some (s, s.sendPacket node.client (replayScenario island),
        some (.sceneIslands (some island.1)))
    | none => some (s, [], some (.sceneShines 0))
  | .sceneShines next =>
    some (s, loopStep s node s.mSaveData.collectedGoalItems[next]?
      (replayGoalItem s.mSaveData.numCollectedGoalItems) (.sceneShines (next + 1))
      (some (.sceneToads 0)))
  | .sceneToads next =>
    some (s, loopStep s node s.mSaveData.unlockedToads[next]? replayToad
      (.sceneToads (next + 1)) (some (.sceneShards 0)))
  | .sceneShards next =>
    some (s, loopStep s node s.mSaveData.collectedShards[next]? replayShard
      (.sceneShards (next + 1)) none)

/-- Whether a step waits for the mutex. -/
def waits (mutex : Bool) : Work → Bool
  | .uploadLock => mutex
  | _ => false

/-- Whether the mutex is held after a step. -/
def mutexAfter (mutex : Bool) : Work → Bool
  | .uploadLock => true
  | .uploadUnlock => false
  | _ => mutex

/-- The record of a thread is the one it was started with, and in the table. -/
def RecordAlive (sys : TaskSystem) (task : Task) : Prop :=
  sys.serials task.ptr = task.serial ∧ ∃ node ∈ sys.server.mClients, node.ptr = task.ptr

instance (sys : TaskSystem) (task : Task) : Decidable (RecordAlive sys task) :=
  inferInstanceAs (Decidable (_ ∧ _))

/-- The threads that a handled packet starts. -/
def started (serials : ℕ → ℕ) (packet : ServerBound) (effects : List Effect) : List Task :=
  effects.filterMap fun
    | .spawnUpload ptr => some ⟨ptr, serials ptr, .uploadLock⟩
    | .spawnSceneEnter ptr =>
      match packet with
      | .singleModeSceneEnter packet => some ⟨ptr, serials ptr, .sceneAssign packet⟩
      | _ => none
    | _ => none

/-- Whether a packet was handled up to the commit of an upload, which takes
the mutex. -/
def takesMutex (packet : ServerBound) (effects : List Effect) : Bool :=
  match packet with
  | .saveDataChunk _ => !(savedValues effects).isEmpty
  | _ => false

/-- The server after a packet was taken: a scene entry changes nothing before
its thread makes a step. -/
def afterPacket (before after : Server) : ServerBound → Server
  | .singleModeSceneEnter _ => before
  | _ => after

/-- The event loop takes an event. A new record is put at a place that no other
record keeps. -/
def eventStep (sys : TaskSystem) : ENetEvent → Option TaskSystem
  | .connect peer ptr =>
    if ∀ node ∈ sys.server.mClients,
        node.hash ≠ calcEnetAddressHashCode peer.address → node.ptr ≠ ptr then
      some { sys with
        server := onConnect sys.server peer ptr
        serials := Function.update sys.serials ptr sys.connections
        connections := sys.connections + 1 }
    else none
  | .receive peer packet now =>
    (onReceive sys.server peer packet now).bind fun result =>
      if takesMutex packet result.2 && sys.saveDataMutex then none
      else some { sys with
        server := afterPacket sys.server result.1 packet
        tasks := sys.tasks ++ started sys.serials packet result.2 }
  | .disconnect peer => some { sys with server := (onDisconnect sys.server peer).1 }

/-- A thread makes a step. One whose record is gone reads freed memory, and
nothing is said of what it does then. -/
def taskStep (sys : TaskSystem) (index : ℕ) : Option TaskSystem :=
  (sys.tasks[index]?).bind fun task =>
    if RecordAlive sys task ∧ waits sys.saveDataMutex task.work = false then
      (nodeAt sys.server task.ptr).bind fun node =>
        (workStep sys.server node task.work).map fun result =>
          { sys with
            server := result.1
            tasks := match result.2.2 with
              | some work => sys.tasks.set index { task with work := work }
              | none => sys.tasks.eraseIdx index
            saveDataMutex := mutexAfter sys.saveDataMutex task.work }
    else none

/-- The step function of the server with its threads. -/
def step (sys : TaskSystem) : TaskAction → Option TaskSystem
  | .event event => eventStep sys event
  | .task index => taskStep sys index

/-- A server that nobody has connected to. -/
def start (data : ServerSaveData) : TaskSystem := ⟨Server.fresh data, fun _ => 0, 0, [], false⟩

/-- The thread that makes a step has the record it was started with. -/
def StepsOnLiveRecord (sys : TaskSystem) : TaskAction → Prop
  | .event _ => True
  | .task index => ∀ task ∈ sys.tasks[index]?, RecordAlive sys task

instance (sys : TaskSystem) : ∀ action, Decidable (StepsOnLiveRecord sys action)
  | .event _ => inferInstanceAs (Decidable True)
  | .task index =>
    match h : sys.tasks[index]? with
    | some task => decidable_of_iff (RecordAlive sys task) (by simp [StepsOnLiveRecord, h])
    | none => isTrue (by simp [StepsOnLiveRecord, h])

/-- The condition on an event: it erases no record that a running thread
holds. -/
def SparesTasks (sys : TaskSystem) : TaskAction → Prop
  | .event event => ∀ node ∈ sys.server.mClients, Erases event node →
    ∀ task ∈ sys.tasks, task.ptr ≠ node.ptr
  | .task _ => True

instance (event : ENetEvent) (node : ClientNode) : Decidable (Erases event node) :=
  match event with
  | .connect _ _ => inferInstanceAs (Decidable (_ = _))
  | .receive _ _ _ => inferInstanceAs (Decidable False)
  | .disconnect _ => inferInstanceAs (Decidable (_ = _))

instance (sys : TaskSystem) : ∀ action, Decidable (SparesTasks sys action)
  | .event _ => List.decidableBAll _ _
  | .task _ => inferInstanceAs (Decidable True)

/-- Every running thread has its record. -/
def TasksAlive (sys : TaskSystem) : Prop := ∀ task ∈ sys.tasks, RecordAlive sys task

/-- A packet starts threads on the record of its sender only. -/
theorem started_ptr {s t : Server} {node : ClientNode} {packet : ServerBound} {now : ℕ}
    {effects : List Effect} (serials : ℕ → ℕ)
    (h : handlePacket s node packet now = some (t, effects)) :
    ∀ task ∈ started serials packet effects,
      task.ptr = node.ptr ∧ task.serial = serials node.ptr := by
  intro task hmem
  obtain ⟨effect, heffect, htask⟩ := List.mem_filterMap.mp hmem
  -- only a greeting and a scene that is entered start a thread
  cases handlePacket_effects h effect heffect with
  | upload packet =>
    cases htask
    exact ⟨rfl, rfl⟩
  | sceneEnter packet =>
    cases htask
    exact ⟨rfl, rfl⟩
  | greeted _ _ _ => cases htask
  | shine _ _ _ _ => cases htask
  | relayed _ _ _ _ => cases htask
  | saved _ _ => cases htask

/-- A record stays alive while its node is kept and its place is not reused. -/
theorem RecordAlive.keep {sys next : TaskSystem} {task : Task} (h : RecordAlive sys task)
    (hserial : next.serials task.ptr = sys.serials task.ptr)
    (hkeep : ∀ node ∈ sys.server.mClients, node.ptr = task.ptr →
      ∃ kept ∈ next.server.mClients, kept.ptr = task.ptr) : RecordAlive next task := by
  obtain ⟨hs, node, hnode, hptr⟩ := h
  exact ⟨hserial.trans hs, hkeep node hnode hptr⟩

/-- A received packet starts threads on records of the table only. -/
theorem started_onReceive {s t : Server} {peer : ENetPeer} {packet : ServerBound} {now : ℕ}
    {effects : List Effect} (serials : ℕ → ℕ)
    (h : onReceive s peer packet now = some (t, effects)) :
    ∀ task ∈ started serials packet effects,
      task.serial = serials task.ptr ∧ ∃ node ∈ s.mClients, node.ptr = task.ptr := by
  intro task hmem
  rcases onReceive_cases h with ⟨-, hnone⟩ | ⟨node, hdispatched, hhandle⟩
  · -- a packet that is dropped starts no thread
    have hempty : started serials packet effects = [] := by rcases hnone with rfl | rfl <;> rfl
    rw [hempty] at hmem
    exact absurd hmem List.not_mem_nil
  · obtain ⟨hptr, hserial⟩ := started_ptr serials hhandle task hmem
    rw [hptr]
    exact ⟨hserial, node, (find?_mem hdispatched.1).1, rfl⟩

/-- A received packet keeps all places of records. -/
theorem exists_ptr_onReceive {s t : Server} {peer : ENetPeer} {packet : ServerBound} {now : ℕ}
    {effects : List Effect} (h : onReceive s peer packet now = some (t, effects)) (ptr : ℕ) :
    (∃ node ∈ (afterPacket s t packet).mClients, node.ptr = ptr) ↔
      ∃ node ∈ s.mClients, node.ptr = ptr := by
  have hafter : (∃ node ∈ t.mClients, node.ptr = ptr) ↔ ∃ node ∈ s.mClients, node.ptr = ptr := by
    rcases onReceive_cases h with ⟨rfl, -⟩ | ⟨node, -, hhandle⟩
    · exact Iff.rfl
    · have hclients := (handlePacket_table hhandle).1
      rw [← List.mem_map, ← List.mem_map, hclients, modify_ptrs]
  unfold afterPacket
  split
  · exact Iff.rfl
  · exact hafter

/-- An event that spares the running threads leaves each thread its record. -/
theorem tasksAlive_event {sys next : TaskSystem} {event : ENetEvent} (h : TasksAlive sys)
    (hguard : SparesTasks sys (.event event)) (hstep : eventStep sys event = some next) :
    TasksAlive next := by
  cases event with
  | connect peer ptr =>
    simp only [eventStep] at hstep
    split at hstep
    · rename_i hplace
      cases hstep
      intro task htask
      -- the record of a running thread is not under the new hash, so it keeps its place
      have hother : ∀ node ∈ sys.server.mClients, node.ptr = task.ptr →
          node.hash ≠ calcEnetAddressHashCode peer.address :=
        fun node hnode hptr he => hguard node hnode he task htask hptr.symm
      have hne : task.ptr ≠ ptr := by
        obtain ⟨-, node, hnode, hptr⟩ := h task htask
        rw [← hptr]
        exact hplace node hnode (hother node hnode hptr)
      refine (h task htask).keep (Function.update_of_ne hne _ _) fun node hnode hptr => ?_
      exact ⟨node, mem_onConnect_of_mem hnode (hother node hnode hptr), hptr⟩
    · cases hstep
  | receive peer packet now =>
    obtain ⟨⟨t, effects⟩, hreceive, hnext⟩ := Option.bind_eq_some_iff.mp hstep
    have hplaces := exists_ptr_onReceive hreceive
    dsimp only at hnext
    split at hnext
    · cases hnext
    · cases hnext
      have hkeep : ∀ task, RecordAlive sys task → RecordAlive
          { sys with
            server := afterPacket sys.server t packet
            tasks := sys.tasks ++ started sys.serials packet effects } task :=
        fun task halive => halive.keep rfl fun node hnode hptr =>
          (hplaces task.ptr).mpr ⟨node, hnode, hptr⟩
      intro task htask
      rcases List.mem_append.mp htask with hold | hnew
      · exact hkeep task (h task hold)
      · obtain ⟨hserial, hplace⟩ := started_onReceive sys.serials hreceive task hnew
        exact hkeep task ⟨hserial.symm, hplace⟩
  | disconnect peer =>
    cases hstep
    intro task htask
    refine (h task htask).keep rfl fun node hnode hptr => ?_
    have hother : node.hash ≠ calcEnetAddressHashCode peer.address :=
      fun he => hguard node hnode he task htask hptr.symm
    exact ⟨node, mem_onDisconnect_of_mem hnode hother, hptr⟩

/-- A thread's own step moves no record. -/
theorem workStep_ptrs {s t : Server} {node : ClientNode} {work : Work}
    {result : List Effect × Option Work} (h : workStep s node work = some (t, result)) :
    t.mClients.map ClientNode.ptr = s.mClients.map ClientNode.ptr := by
  cases work with
  | uploadChunk i =>
    obtain ⟨chunk, -, he⟩ := Option.map_eq_some_iff.mp h
    cases he
    rfl
  | sceneAssign packet =>
    cases h
    exact modify_ptrs s _ _
  | sceneIslands last =>
    simp only [workStep] at h
    split at h <;> cases h <;> rfl
  | _ =>
    cases h
    rfl

/-- A step of one thread leaves every thread its record. -/
theorem tasksAlive_task {sys next : TaskSystem} {index : ℕ} (h : TasksAlive sys)
    (hstep : taskStep sys index = some next) : TasksAlive next := by
  obtain ⟨task, htask, hstep⟩ := Option.bind_eq_some_iff.mp hstep
  split at hstep
  · obtain ⟨node, -, hstep⟩ := Option.bind_eq_some_iff.mp hstep
    obtain ⟨⟨t, effects, rest⟩, hwork, rfl⟩ := Option.map_eq_some_iff.mp hstep
    have hptrs := workStep_ptrs hwork
    have hkeep : ∀ other, RecordAlive sys other → ∀ tasks mutex, RecordAlive
        { sys with server := t, tasks := tasks, saveDataMutex := mutex } other := by
      intro other halive tasks mutex
      refine halive.keep rfl fun kept hkept hptr => ?_
      rw [← List.mem_map, hptrs, List.mem_map]
      exact ⟨kept, hkept, hptr⟩
    have hself : RecordAlive sys task := h task (List.mem_of_getElem? htask)
    intro other hother
    dsimp only at hother
    cases rest with
    | none => exact hkeep other (h other (List.mem_of_mem_eraseIdx hother)) _ _
    | some work =>
      rcases List.mem_or_eq_of_mem_set hother with hold | rfl
      · exact hkeep other (h other hold) _ _
      · exact hkeep { task with work := work } hself _ _
  · cases hstep

/-- In every run in which no event erases a record that a running thread holds,
every step of a thread is made on the record it was started with, which is in
the table. -/
theorem tasks_step_on_live_records (data : ServerSaveData) (actions : List TaskAction)
    (hguard : Along SparesTasks step (start data) actions) :
    Along StepsOnLiveRecord step (start data) actions := by
  have hstart : TasksAlive (start data) := fun task htask => absurd htask List.not_mem_nil
  have hkeeps : ∀ sys action next, TasksAlive sys → SparesTasks sys action →
      step sys action = some next → TasksAlive next := by
    intro sys action next halive hspares hstep
    cases action with
    | event event => exact tasksAlive_event halive hspares hstep
    | task index => exact tasksAlive_task halive hstep
  refine along_of_invariant hkeeps ?_ hstart hguard
  intro sys action halive _
  cases action with
  | event event => trivial
  | task index =>
    intro task htask
    exact halive task (List.mem_of_getElem? htask)

/-- Two clients greet, the second one enters the scene, and the first one goes
after its upload has ended. -/
def uploadsAndScene : List TaskAction :=
  [.event (.connect (peerAt 1) 1), .event (greetingOf 1), .task 0, .task 0,
    .event (.connect (peerAt 2) 2), .task 0, .task 0, .task 0, .task 0, .task 0, .task 0, .task 0,
    .event (greetingOf 2), .event (.receive (peerAt 2) (.singleModeSceneEnter ⟨1⟩) 0), .task 2,
    .task 0, .task 0, .event (.disconnect (peerAt 1)), .task 1, .task 1, .task 0]

/-- All steps of that run are made, each on a live record. -/
theorem tasks_step_on_live_records_two :
    (run step (start (.fresh (Buffer.zero sharedSaveCapacity))) uploadsAndScene).isSome = true ∧
      Along StepsOnLiveRecord step (start (.fresh (Buffer.zero sharedSaveCapacity)))
        uploadsAndScene :=
  ⟨by decide, tasks_step_on_live_records (.fresh (Buffer.zero sharedSaveCapacity)) _ (by decide)⟩

/-- A client greets, receives a chunk and goes: its upload thread steps on a
record that is erased. -/
theorem upload_outlives_record :
    ¬Along StepsOnLiveRecord step (start (.fresh (Buffer.zero sharedSaveCapacity)))
      [.event (.connect (peerAt 1) 1), .event (greetingOf 1), .task 0, .task 0,
        .event (.disconnect (peerAt 1)), .task 0] := by
  decide

end BfMultiplayer.BackgroundTasks

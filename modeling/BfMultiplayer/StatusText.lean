import BfMultiplayer.BlockHeap
import BfMultiplayer.GuardedRuns
import Mathlib.Data.List.Induction
import Mathlib.Data.List.Perm.Basic
import Mathlib.Data.List.Nodup
import Mathlib.Data.List.ReduceOption
import Mathlib.Algebra.Order.Group.Nat

/-!
# The status text

A scene has a pane for the last three messages, such as who has joined. A message is
copied to the heap and moves up with every later one; after 361 frames without a message
an empty one is logged. The pane is updated in the frame behind a message. The network
thread logs messages while the game runs frames, and they share no lock: their calls are
taken apart where the other thread can come in between. Where no two calls overlap, each
copy is deleted once, with `delete` although it is of `new[]`, except for those that a
scene leaves behind: up to three. Where calls overlap, one copy can be deleted twice.
-/

namespace BfMultiplayer.StatusText

open BlockHeap GuardedRuns

/-- What a block is allocated with. -/
inductive Operator where
  /-- `new`. -/
  | new
  /-- `new[]`. -/
  | newArray
  deriving DecidableEq

/-- The heap, which takes every live block back, whatever it is of. -/
structure TextHeap where
  /-- The blocks. -/
  heap : Heap Operator
  /-- How many blocks of `new[]` were given to `delete`. -/
  mismatched : ℕ

/-- The live blocks. -/
abbrev TextHeap.live (heap : TextHeap) : List (Block Operator) := heap.heap.live

/-- A string of `char16_t`, without the zero behind it. -/
abbrev Text := List UInt16

/-- A message and the block it was copied to. -/
structure Message where
  /-- The block. -/
  block : Block Operator
  /-- The text. -/
  text : Text
  deriving DecidableEq

/-- `MultiplayerStatusText`, with the pane of its layout. -/
structure MultiplayerStatusText where
  /-- The oldest text. -/
  mTexts0 : Option Message
  /-- The one behind it. -/
  mTexts1 : Option Message
  /-- The newest. -/
  mTexts2 : Option Message
  /-- `getNerveStep` in the next execution. -/
  step : ℕ
  /-- What the pane was set to. -/
  pane : Option Text
  deriving DecidableEq

/-- The constructor. -/
def MultiplayerStatusText.constructed : MultiplayerStatusText := ⟨none, none, none, 0, none⟩

/-- The size of `buffer`. -/
def sizeofBuffer : ℕ := 1024

/-- `'\n'`. -/
def newline : UInt16 := 10

/-- Append a text and a newline to the buffer; undefined behind its end, and for a block that is
not live. -/
def appendText (heap : TextHeap) (buffer : Text) : Option Message → Option Text
  | none => some buffer
  | some message =>
    if message.block ∈ heap.live ∧ buffer.length + message.text.length < sizeofBuffer then
      some (buffer ++ message.text ++ [newline])
    else none

/-- `updatePane`: what the pane is set to. -/
def updatePane (heap : TextHeap) (status : MultiplayerStatusText) : Option Text := do
  let buffer ← appendText heap [] status.mTexts0
  let buffer ← appendText heap buffer status.mTexts1
  let buffer ← appendText heap buffer status.mTexts2
  if buffer.length < sizeofBuffer then some buffer else none

/-- `delete`, unless the pointer is null; undefined for a block that is not live. -/
def deleteText (heap : TextHeap) : Option Message → Option TextHeap
  | none => some heap
  | some message =>
    match heap.heap.free message.block.allocator ⟨message.block, 0⟩ with
    | .ok blocks =>
      some ⟨blocks, heap.mismatched + if message.block.allocator = .new then 0 else 1⟩
    | _ => none

/-- A copy of a text, unless the pointer is null. -/
def dupText (heap : TextHeap) : Option Text → TextHeap × Option Message
  | none => (heap, none)
  | some text =>
    (⟨heap.heap.alloc .newArray, heap.mismatched⟩, some ⟨heap.heap.nextBlock .newArray, text⟩)

/-- `log` behind the deletion. -/
def logCopy (heap : TextHeap) (status : MultiplayerStatusText) (msg : Option Text) :
    TextHeap × MultiplayerStatusText :=
  let (heap, dup) := dupText heap msg
  (heap, { status with
    mTexts0 := status.mTexts1, mTexts1 := status.mTexts2, mTexts2 := dup, step := 0 })

/-- `log`. -/
def log (heap : TextHeap) (status : MultiplayerStatusText) (msg : Option Text) :
    Option (TextHeap × MultiplayerStatusText) := do
  let heap ← deleteText heap status.mTexts0
  some (logCopy heap status msg)

/-- The first part of `exeWait`. -/
def firstStep (heap : TextHeap) (status : MultiplayerStatusText) : Option MultiplayerStatusText :=
  if status.step = 0 then
    (updatePane heap status).map fun buffer => { status with pane := some buffer }
  else some status

/-- The other part, and the step of the nerve behind it. -/
def lastStep (heap : TextHeap) (status : MultiplayerStatusText) :
    Option (TextHeap × MultiplayerStatusText) :=
  if status.step = 360 then log heap status none
  else some (heap, { status with step := status.step + 1 })

/-- `exeWait`. -/
def exeWait (heap : TextHeap) (status : MultiplayerStatusText) :
    Option (TextHeap × MultiplayerStatusText) := do
  let status ← firstStep heap status
  lastStep heap status

/-- The heap of the texts, and the status text of the manager. -/
structure StatusTexts where
  /-- `getPeepaHeap`. -/
  heap : TextHeap
  /-- `mStatusText`. -/
  mStatusText : Option MultiplayerStatusText

/-- What is called. -/
inductive StatusEvent where
  /-- `initAfterPlacement` of a scene. -/
  | initAfterPlacement
  /-- `destroyStatusText`, in the destructor of a scene. -/
  | destroyStatusText
  /-- `execute`, once a frame. -/
  | execute
  /-- A message is logged, where there is a status text. -/
  | log (msg : Text)
  deriving DecidableEq

/-- Go on with a status text and the heap, where there is one. -/
def StatusTexts.withStatus (texts : StatusTexts)
    (f : TextHeap → MultiplayerStatusText → Option (TextHeap × MultiplayerStatusText)) :
    Option StatusTexts :=
  match texts.mStatusText with
  | none => some texts
  | some status => (f texts.heap status).map fun result => ⟨result.1, some result.2⟩

/-- A whole call. -/
def statusCall (texts : StatusTexts) : StatusEvent → Option StatusTexts
  | .initAfterPlacement => some ⟨texts.heap, some .constructed⟩
  | .destroyStatusText => some ⟨texts.heap, none⟩
  | .execute => texts.withStatus exeWait
  | .log msg => texts.withStatus fun heap status => log heap status (some msg)

/-- Where a thread is. -/
inductive StatusPc where
  /-- In no call. -/
  | idle
  /-- In front of a call. -/
  | before (event : StatusEvent)
  /-- In `exeWait`, behind its first part. -/
  | updated
  /-- In `log`, in front of `delete`. -/
  | deleting (msg : Option Text)
  /-- In front of `mTexts[0] = nullptr`. -/
  | clearing (msg : Option Text)
  /-- In front of the copy. -/
  | copying (msg : Option Text)
  /-- In front of `mTexts[0] = mTexts[1]`. -/
  | shifting0 (dup : Option Message)
  /-- In front of `mTexts[1] = mTexts[2]`. -/
  | shifting1 (dup : Option Message)
  /-- In front of `mTexts[2] = dup`. -/
  | storing (dup : Option Message)
  /-- In front of `setNerve`. -/
  | settingNerve
  deriving DecidableEq

/-- The first test of `log`. -/
def testText (status : MultiplayerStatusText) (msg : Option Text) : StatusPc :=
  if status.mTexts0.isSome then .deleting msg else .copying msg

/-- The next part of a call on a status text; undefined for what is none. -/
def partOf (heap : TextHeap) (status : MultiplayerStatusText) :
    StatusPc → Option (TextHeap × MultiplayerStatusText × StatusPc)
  | .before .execute => (firstStep heap status).map fun status => (heap, status, .updated)
  | .before (.log msg) => some (heap, status, testText status (some msg))
  | .updated =>
    if status.step = 360 then some (heap, status, testText status none)
    else some (heap, { status with step := status.step + 1 }, .idle)
  | .deleting msg =>
    (deleteText heap status.mTexts0).map fun heap => (heap, status, .clearing msg)
  | .clearing msg => some (heap, { status with mTexts0 := none }, .copying msg)
  | .copying msg =>
    let (heap, dup) := dupText heap msg
    some (heap, status, .shifting0 dup)
  | .shifting0 dup => some (heap, { status with mTexts0 := status.mTexts1 }, .shifting1 dup)
  | .shifting1 dup => some (heap, { status with mTexts1 := status.mTexts2 }, .storing dup)
  | .storing dup => some (heap, { status with mTexts2 := dup }, .settingNerve)
  | .settingNerve => some (heap, { status with step := 0 }, .idle)
  | _ => none

/-- The next part of a call; undefined on a status text that was deleted meanwhile. -/
def statusPart (texts : StatusTexts) : StatusPc → Option (StatusTexts × StatusPc)
  | .before .initAfterPlacement => some (⟨texts.heap, some .constructed⟩, .idle)
  | .before .destroyStatusText => some (⟨texts.heap, none⟩, .idle)
  | .before event =>
    match texts.mStatusText with
    | none => some (texts, .idle)
    | some status =>
      (partOf texts.heap status (.before event)).map fun r => (⟨r.1, some r.2.1⟩, r.2.2)
  | pc =>
    texts.mStatusText.bind fun status =>
      (partOf texts.heap status pc).map fun r => (⟨r.1, some r.2.1⟩, r.2.2)

/-- The texts and the two threads. -/
structure StatusSystem where
  /-- The texts. -/
  texts : StatusTexts
  /-- Where the game thread is. -/
  game : StatusPc
  /-- Where the network thread is. -/
  network : StatusPc

/-- The system, or what a part has left that is undefined. -/
inductive StatusState where
  /-- The system. -/
  | running (sys : StatusSystem)
  /-- A block was deleted or read that is not live, or the buffer was left. -/
  | failed

/-- What can happen next. -/
inductive StatusAction where
  /-- A thread comes to a call: the network thread to a message, the game to the others. -/
  | call (event : StatusEvent)
  /-- The next part of the game thread. -/
  | gamePart
  /-- The next part of the network thread. -/
  | networkPart
  deriving DecidableEq

/-- The step function. -/
def statusStep : StatusState → StatusAction → Option StatusState
  | .failed, _ => none
  | .running sys, .call (.log msg) =>
    if sys.network = .idle then some (.running { sys with network := .before (.log msg) }) else none
  | .running sys, .call event =>
    if sys.game = .idle then some (.running { sys with game := .before event }) else none
  | .running sys, .gamePart =>
    if sys.game = .idle then none
    else
      match statusPart sys.texts sys.game with
      | none => some .failed
      | some (texts, pc) => some (.running { sys with texts := texts, game := pc })
  | .running sys, .networkPart =>
    if sys.network = .idle then none
    else
      match statusPart sys.texts sys.network with
      | none => some .failed
      | some (texts, pc) => some (.running { sys with texts := texts, network := pc })

/-- Both threads in no call. -/
def StatusSystem.idle (texts : StatusTexts) : StatusSystem := ⟨texts, .idle, .idle⟩

/-- No two calls overlap. -/
def Apart : StatusState → Prop
  | .running sys => sys.game = .idle ∨ sys.network = .idle
  | .failed => True

/-- The calls of a run, in the order in which they begin. -/
def callsOf (actions : List StatusAction) : List StatusEvent :=
  actions.filterMap fun
    | .call event => some event
    | _ => none

/-- The texts, from the oldest on. -/
def MultiplayerStatusText.texts (status : MultiplayerStatusText) : List (Option Text) :=
  [status.mTexts0.map Message.text, status.mTexts1.map Message.text,
    status.mTexts2.map Message.text]

/-- One line for each text. -/
def linesOf (texts : List (Option Text)) : Text :=
  texts.flatMap fun
    | none => []
    | some text => text ++ [newline]

/-- The last three of some messages, behind empty ones. -/
def lastThree (entries : List (Option Text)) : List (Option Text) :=
  (List.replicate 3 none ++ entries).drop entries.length

/-- Frames without a message. -/
def quietFrames (n : ℕ) : List StatusEvent := List.replicate n .execute

/-- A scene that begins, and messages with the number of frames behind each of them. -/
def session (gap : ℕ) (calls : List (Text × ℕ)) : List StatusEvent :=
  .initAfterPlacement :: quietFrames gap ++
    calls.flatMap fun call => .log call.1 :: quietFrames call.2

/-- The messages, with an empty one for every 361 frames without any. -/
def entriesOf (gap : ℕ) (calls : List (Text × ℕ)) : List (Option Text) :=
  List.replicate (gap / 361) none ++
    calls.flatMap fun call => some call.1 :: List.replicate (call.2 / 361) none

/-! ### What the pane shows -/

/-- With a newer message the oldest one is gone. -/
theorem lastThree_append (entries : List (Option Text)) (entry : Option Text) :
    lastThree (entries ++ [entry]) = (lastThree entries).tail ++ [entry] := by
  unfold lastThree
  rw [List.length_append, List.length_singleton, ← List.append_assoc, List.tail_drop,
    List.drop_append_of_le_length]
  rw [List.length_append, List.length_replicate]
  omega

/-- What a text adds to the buffer. -/
theorem appendText_eq {heap : TextHeap} {buffer buffer' : Text} {message : Option Message}
    (h : appendText heap buffer message = some buffer') :
    buffer' = buffer ++ linesOf [message.map Message.text] := by
  cases message with
  | none =>
    cases h
    exact (List.append_nil _).symm
  | some message =>
    rw [appendText, Option.ite_none_right_eq_some, Option.some.injEq] at h
    rw [← h.2, List.append_assoc]
    simp [linesOf]

/-- The pane is set to the lines of the texts. -/
theorem updatePane_eq {heap : TextHeap} {status : MultiplayerStatusText} {buffer : Text}
    (h : updatePane heap status = some buffer) : buffer = linesOf status.texts := by
  obtain ⟨first, hfirst, h⟩ := Option.bind_eq_some_iff.mp h
  obtain ⟨second, hsecond, h⟩ := Option.bind_eq_some_iff.mp h
  obtain ⟨third, hthird, h⟩ := Option.bind_eq_some_iff.mp h
  rw [Option.ite_none_right_eq_some, Option.some.injEq] at h
  rw [← h.2, appendText_eq hthird, appendText_eq hsecond, appendText_eq hfirst]
  simp [linesOf, MultiplayerStatusText.texts]

/-- What a message does to the texts. -/
theorem log_spec {heap heap' : TextHeap} {status status' : MultiplayerStatusText}
    {msg : Option Text} (h : log heap status msg = some (heap', status')) :
    status'.texts = status.texts.tail ++ [msg] ∧ status'.step = 0 ∧
      status'.pane = status.pane := by
  obtain ⟨deleted, -, h⟩ := Option.bind_eq_some_iff.mp h
  cases h
  refine ⟨?_, rfl, rfl⟩
  cases msg <;> rfl

/-- What the first part of a frame does to them. -/
theorem firstStep_spec {heap : TextHeap} {status shown : MultiplayerStatusText}
    (h : firstStep heap status = some shown) :
    shown.pane = (if status.step = 0 then some (linesOf status.texts) else status.pane) ∧
      shown.texts = status.texts ∧ shown.step = status.step := by
  unfold firstStep at h
  by_cases hfirst : status.step = 0
  · rw [if_pos hfirst] at h ⊢
    obtain ⟨buffer, hbuffer, rfl⟩ := Option.map_eq_some_iff.mp h
    exact ⟨congrArg some (updatePane_eq hbuffer), rfl, rfl⟩
  · rw [if_neg hfirst] at h ⊢
    cases h
    exact ⟨rfl, rfl, rfl⟩

/-- What a frame does to them. -/
theorem exeWait_spec {heap heap' : TextHeap} {status status' : MultiplayerStatusText}
    (h : exeWait heap status = some (heap', status')) :
    status'.pane = (if status.step = 0 then some (linesOf status.texts) else status.pane) ∧
      status'.texts = (if status.step = 360 then status.texts.tail ++ [none] else status.texts) ∧
      status'.step = if status.step = 360 then 0 else status.step + 1 := by
  obtain ⟨shown, hfirst, h⟩ := Option.bind_eq_some_iff.mp h
  obtain ⟨hpane, htexts, hstep⟩ := firstStep_spec hfirst
  unfold lastStep at h
  rw [hstep] at h
  by_cases hlast : status.step = 360
  · rw [if_pos hlast] at h
    obtain ⟨hnext, hzero, hkept⟩ := log_spec h
    rw [if_pos hlast, if_pos hlast, hnext, htexts]
    exact ⟨hkept.trans hpane, rfl, hzero⟩
  · rw [if_neg hlast] at h
    cases h
    rw [if_neg hlast, if_neg hlast]
    exact ⟨hpane, htexts, rfl⟩

/-- Where the status text is after some frames without a message. -/
structure After (entries : List (Option Text)) (n : ℕ) (status : MultiplayerStatusText) : Prop where
  /-- The texts are the last three, with an empty one for every 361 frames. -/
  texts : status.texts = lastThree (entries ++ List.replicate (n / 361) none)
  /-- The step counts the frames behind the last of these. -/
  step : status.step = n % 361
  /-- The pane shows what the texts were before the last frame. -/
  pane : ∀ k, n = k + 1 →
    status.pane = some (linesOf (lastThree (entries ++ List.replicate (k / 361) none)))

/-- One more frame. -/
theorem After.execute {entries : List (Option Text)} {n : ℕ} {heap heap' : TextHeap}
    {status status' : MultiplayerStatusText} (h : After entries n status)
    (hstep : exeWait heap status = some (heap', status')) : After entries (n + 1) status' := by
  obtain ⟨hpane, htexts, hnext⟩ := exeWait_spec hstep
  rw [h.step] at hpane htexts hnext
  constructor
  · rw [htexts]
    by_cases hlast : n % 361 = 360
    · have hmore : (n + 1) / 361 = n / 361 + 1 := by omega
      rw [if_pos hlast, hmore, List.replicate_succ', ← List.append_assoc, lastThree_append, h.texts]
    · have hsame : (n + 1) / 361 = n / 361 := by omega
      rw [if_neg hlast, hsame, h.texts]
  · rw [hnext]
    split <;> omega
  · intro k hk
    obtain rfl : n = k := Nat.succ.inj hk
    rw [hpane]
    by_cases hfirst : n % 361 = 0
    · rw [if_pos hfirst, h.texts]
    · -- the texts have not changed since the last frame
      rw [if_neg hfirst, h.pane (n - 1) (by omega)]
      have hsame : (n - 1) / 361 = n / 361 := by omega
      rw [hsame]

/-- Some more frames. -/
theorem After.frames {entries : List (Option Text)} {n : ℕ} {sys sys' : StatusTexts}
    {status : MultiplayerStatusText} (hsys : sys.mStatusText = some status)
    (h : After entries 0 status) (hrun : run statusCall sys (quietFrames n) = some sys') :
    ∃ status', sys'.mStatusText = some status' ∧ After entries n status' := by
  induction n generalizing sys' with
  | zero =>
    cases hrun
    exact ⟨status, hsys, h⟩
  | succ n ih =>
    rw [quietFrames, List.replicate_succ', run_append, Option.bind_eq_some_iff] at hrun
    obtain ⟨mid, hmid, hlast⟩ := hrun
    obtain ⟨before, hbefore, hafter⟩ := ih hmid
    rw [run_cons, Option.bind_eq_some_iff] at hlast
    obtain ⟨last, hstep, hend⟩ := hlast
    cases hend
    rw [statusCall, StatusTexts.withStatus, hbefore] at hstep
    obtain ⟨⟨heap, status'⟩, hexe, rfl⟩ := Option.map_eq_some_iff.mp hstep
    exact ⟨status', rfl, hafter.execute hexe⟩

/-- A message, and frames without another one. -/
theorem After.log {entries : List (Option Text)} {n k : ℕ} {sys sys' : StatusTexts}
    {status : MultiplayerStatusText} {msg : Text} (hsys : sys.mStatusText = some status)
    (h : After entries n status)
    (hrun : run statusCall sys (.log msg :: quietFrames k) = some sys') :
    ∃ status', sys'.mStatusText = some status' ∧
      After (entries ++ List.replicate (n / 361) none ++ [some msg]) k status' := by
  rw [run_cons, Option.bind_eq_some_iff] at hrun
  obtain ⟨mid, hstep, hframes⟩ := hrun
  rw [statusCall, StatusTexts.withStatus, hsys] at hstep
  obtain ⟨⟨heap, logged⟩, hlog, rfl⟩ := Option.map_eq_some_iff.mp hstep
  obtain ⟨htexts, hzero, -⟩ := log_spec hlog
  refine After.frames rfl ⟨?_, hzero, fun k hk => ?_⟩ hframes
  · rw [htexts, h.texts, Nat.zero_div, List.replicate_zero, List.append_nil, lastThree_append]
  · cases hk

/-- A longer session. -/
theorem session_append (gap : ℕ) (calls : List (Text × ℕ)) (call : Text × ℕ) :
    session gap (calls ++ [call]) = session gap calls ++ (.log call.1 :: quietFrames call.2) := by
  simp [session]

/-- Its messages. -/
theorem entriesOf_append (gap : ℕ) (calls : List (Text × ℕ)) (call : Text × ℕ) :
    entriesOf gap (calls ++ [call]) =
      entriesOf gap calls ++ [some call.1] ++ List.replicate (call.2 / 361) none := by
  simp [entriesOf]

/-- Where the status text is after a session. -/
theorem session_after {sys sys' : StatusTexts} {gap : ℕ} {calls : List (Text × ℕ)}
    (hrun : run statusCall sys (session gap calls) = some sys') :
    ∃ status entries n, sys'.mStatusText = some status ∧ After entries n status ∧
      entries ++ List.replicate (n / 361) none = entriesOf gap calls := by
  induction calls using List.reverseRecOn generalizing sys' with
  | nil =>
    rw [session, List.flatMap_nil, List.append_nil, run_cons, Option.bind_eq_some_iff] at hrun
    obtain ⟨begun, hbegin, hframes⟩ := hrun
    cases hbegin
    have hnew : After [] 0 .constructed := ⟨rfl, rfl, fun _ hk => by cases hk⟩
    obtain ⟨status, hstatus, hafter⟩ := After.frames rfl hnew hframes
    refine ⟨status, [], gap, hstatus, hafter, ?_⟩
    rw [entriesOf, List.flatMap_nil, List.append_nil, List.nil_append]
  | append_singleton calls call ih =>
    rw [session_append, run_append, Option.bind_eq_some_iff] at hrun
    obtain ⟨mid, hmid, hrest⟩ := hrun
    obtain ⟨status, entries, n, hstatus, hafter, hentries⟩ := ih hmid
    obtain ⟨status', hstatus', hafter'⟩ := hafter.log hstatus hrest
    refine ⟨status', _, call.2, hstatus', hafter', ?_⟩
    rw [hentries, entriesOf_append]

/-- The pane after a session shows the last three messages, as they were before the last frame. -/
theorem pane_after_session {texts texts' : StatusTexts} {gap : ℕ} {calls : List (Text × ℕ)}
    {msg : Text} {k : ℕ}
    (hrun : run statusCall texts (session gap (calls ++ [(msg, k + 1)])) = some texts') :
    ∃ status, texts'.mStatusText = some status ∧
      status.pane = some (linesOf (lastThree (entriesOf gap (calls ++ [(msg, k)])))) := by
  rw [session_append, run_append, Option.bind_eq_some_iff] at hrun
  obtain ⟨mid, hmid, hrest⟩ := hrun
  obtain ⟨status, entries, n, hstatus, hafter, hentries⟩ := session_after hmid
  obtain ⟨status', hstatus', hafter'⟩ := hafter.log hstatus hrest
  refine ⟨status', hstatus', ?_⟩
  rw [hafter'.pane k rfl, hentries, entriesOf_append]

/-! ### The blocks of the texts -/

/-- A message that always fits, with two others, into the buffer. -/
def Short : StatusEvent → Prop
  | .log msg => msg.length ≤ 340
  | _ => True

/-- The texts are short. -/
def MultiplayerStatusText.Fits (status : MultiplayerStatusText) : Prop :=
  ∀ slot ∈ [status.mTexts0, status.mTexts1, status.mTexts2], ∀ message ∈ slot,
    message.text.length ≤ 340

/-- The blocks of some texts. -/
def blocksOf (slots : List (Option Message)) : List (Block Operator) :=
  slots.reduceOption.map Message.block

/-- The blocks of the texts. -/
def MultiplayerStatusText.blocks (status : MultiplayerStatusText) : List (Block Operator) :=
  blocksOf [status.mTexts0, status.mTexts1, status.mTexts2]

/-- The blocks of the status text, if there is one. -/
def StatusTexts.blocks (sys : StatusTexts) : List (Block Operator) :=
  match sys.mStatusText with
  | none => []
  | some status => status.blocks

/-- A short text fits behind short ones. -/
theorem appendText_short {heap : TextHeap} {buffer : Text} {message : Option Message} {n : ℕ}
    (hbuffer : buffer.length ≤ n) (hn : n + 341 < sizeofBuffer)
    (hmessage : ∀ found ∈ message, found.block ∈ heap.live ∧ found.text.length ≤ 340) :
    ∃ buffer', appendText heap buffer message = some buffer' ∧ buffer'.length ≤ n + 341 := by
  cases message with
  | none => exact ⟨buffer, rfl, by omega⟩
  | some message =>
    obtain ⟨hlive, hshort⟩ := hmessage message rfl
    rw [appendText, if_pos ⟨hlive, by omega⟩]
    refine ⟨_, rfl, ?_⟩
    rw [List.length_append, List.length_append, List.length_singleton]
    omega

/-- Short texts do not overflow the buffer. -/
theorem updatePane_short {heap : TextHeap} {status : MultiplayerStatusText} (h : status.Fits)
    (hlive : ∀ b ∈ status.blocks, b ∈ heap.live) :
    ∃ buffer, updatePane heap status = some buffer := by
  have hslot : ∀ slot ∈ [status.mTexts0, status.mTexts1, status.mTexts2], ∀ message ∈ slot,
      message.block ∈ heap.live ∧ message.text.length ≤ 340 := by
    intro slot hslot message hmessage
    refine ⟨hlive _ (List.mem_map.mpr ⟨message, ?_, rfl⟩), h slot hslot message hmessage⟩
    exact List.reduceOption_mem_iff.mpr (hmessage ▸ hslot)
  have hempty : ([] : Text).length ≤ 0 := Nat.le_refl 0
  obtain ⟨first, hfirst, hlength⟩ := appendText_short hempty (by decide)
    (hslot status.mTexts0 (by simp))
  obtain ⟨second, hsecond, hlength⟩ := appendText_short hlength (by decide)
    (hslot status.mTexts1 (by simp))
  obtain ⟨third, hthird, hlength⟩ := appendText_short hlength (by decide)
    (hslot status.mTexts2 (by simp))
  have hend : third.length < sizeofBuffer := Nat.lt_of_le_of_lt hlength (by decide)
  exact ⟨third, Option.bind_eq_some_iff.mpr ⟨first, hfirst, Option.bind_eq_some_iff.mpr
    ⟨second, hsecond, Option.bind_eq_some_iff.mpr ⟨third, hthird, if_pos hend⟩⟩⟩⟩

/-- A status text has three blocks at most. -/
theorem blocksOf_length (slots : List (Option Message)) :
    (blocksOf slots).length ≤ slots.length := by
  rw [blocksOf, List.length_map]
  exact List.reduceOption_length_le slots

/-- The live blocks and the mismatched deletions, less the numbers of blocks. -/
def TextHeap.balance (heap : TextHeap) : ℤ := heap.live.length + heap.mismatched - heap.heap.next

/-- The block of the oldest text is deleted, and no other one. -/
theorem deleteText_spec {heap : TextHeap} {slot : Option Message} {others : List (Block Operator)}
    (hperm : heap.live.Perm (blocksOf [slot] ++ others)) (hnodup : heap.live.Nodup)
    (hcopied : ∀ b ∈ blocksOf [slot], b.allocator = .newArray) :
    ∃ heap', deleteText heap slot = some heap' ∧ heap'.live.Perm others ∧ heap'.live.Nodup ∧
      heap'.balance = heap.balance := by
  cases slot with
  | none => exact ⟨heap, rfl, hperm, hnodup, rfl⟩
  | some message =>
    have hperm' : heap.live.Perm (message.block :: others) := hperm
    have hlive : message.block ∈ heap.live := hperm'.mem_iff.mpr List.mem_cons_self
    have hnot : message.block ∉ others := (List.nodup_cons.mp (hperm'.nodup hnodup)).1
    have harray : message.block.allocator = .newArray := hcopied _ List.mem_cons_self
    have hothers : (message.block :: others).filter (fun b => decide (b ≠ message.block)) =
        others := by
      rw [List.filter_cons_of_neg (by simp), List.filter_eq_self]
      intro b hb
      exact decide_eq_true fun he => hnot (he ▸ hb)
    have hleft : (heap.live.filter fun b => decide (b ≠ message.block)).Perm others := by
      rw [← hothers]
      exact hperm'.filter _
    rw [deleteText, Heap.free, if_pos ⟨hlive, rfl, rfl⟩, harray]
    refine ⟨_, rfl, hleft, hnodup.filter _, ?_⟩
    have hlength := hleft.length_eq
    have hbefore : heap.live.length = others.length + 1 := hperm'.length_eq
    simp only [TextHeap.balance, TextHeap.live, reduceCtorEq, if_false] at hlength hbefore ⊢
    omega

/-- A new block is one more. -/
theorem dupText_spec {heap : TextHeap} {others : List (Block Operator)} (msg : Option Text)
    (hperm : heap.live.Perm others) (hnodup : heap.live.Nodup) :
    (dupText heap msg).1.live.Perm (blocksOf [(dupText heap msg).2] ++ others) ∧
      (dupText heap msg).1.live.Nodup ∧
      (∀ message ∈ (dupText heap msg).2,
        some message.text = msg ∧ message.block.allocator = .newArray) ∧
      (dupText heap msg).1.balance = heap.balance := by
  cases msg with
  | none => exact ⟨hperm, hnodup, fun message h => (by cases h), rfl⟩
  | some text =>
    refine ⟨hperm.cons _, List.nodup_cons.mpr ⟨nextBlock_notMem heap.heap _, hnodup⟩, ?_, ?_⟩
    · rintro message ⟨⟩
      exact ⟨rfl, rfl⟩
    · have hlength : (heap.heap.alloc .newArray).live.length = heap.live.length + 1 := rfl
      have hnext : (heap.heap.alloc .newArray).next = heap.heap.next + 1 := rfl
      simp only [TextHeap.balance, dupText, TextHeap.live] at hlength ⊢
      omega

/-- The texts are short, and their blocks are live, with some others. -/
structure Owns (others : List (Block Operator)) (balance : ℤ) (heap : TextHeap)
    (status : MultiplayerStatusText) : Prop where
  /-- Every live block is that of one text, or another one. -/
  blocks : heap.live.Perm (status.blocks ++ others)
  /-- No block is live twice. -/
  nodup : heap.live.Nodup
  /-- The texts fit into the buffer. -/
  fits : status.Fits
  /-- Their blocks are of `new[]`. -/
  copied : ∀ b ∈ status.blocks, b.allocator = .newArray
  /-- All deletions were mismatched. -/
  balance_eq : heap.balance = balance

variable {others : List (Block Operator)} {balance : ℤ} {heap : TextHeap}
  {status : MultiplayerStatusText}

/-- The blocks of the texts, the oldest one taken apart. -/
theorem blocks_eq (status : MultiplayerStatusText) :
    status.blocks = blocksOf [status.mTexts0] ++ blocksOf [status.mTexts1, status.mTexts2] := by
  rw [MultiplayerStatusText.blocks, blocksOf, blocksOf, blocksOf, ← List.map_append,
    ← List.reduceOption_append]
  rfl

/-- A short message is logged without an error. -/
theorem Owns.log (h : Owns others balance heap status) {msg : Option Text}
    (hmsg : ∀ text ∈ msg, text.length ≤ 340) :
    ∃ heap' status', StatusText.log heap status msg = some (heap', status') ∧
      Owns others balance heap' status' := by
  have hfirst : heap.live.Perm (blocksOf [status.mTexts0] ++
      (blocksOf [status.mTexts1, status.mTexts2] ++ others)) := by
    rw [← List.append_assoc, ← blocks_eq]
    exact h.blocks
  have hcopied := h.copied
  rw [blocks_eq] at hcopied
  obtain ⟨deleted, hdelete, hrest, hnodup, hbalance⟩ := deleteText_spec hfirst h.nodup
    fun b hb => hcopied b (List.mem_append_left _ hb)
  obtain ⟨hdup, hnodup', htext, hbalance'⟩ := dupText_spec msg hrest hnodup
  have hblocks : (logCopy deleted status msg).2.blocks =
      blocksOf [status.mTexts1, status.mTexts2] ++ blocksOf [(dupText deleted msg).2] := by
    rw [MultiplayerStatusText.blocks, blocksOf, blocksOf, blocksOf, ← List.map_append,
      ← List.reduceOption_append]
    rfl
  refine ⟨(logCopy deleted status msg).1, (logCopy deleted status msg).2,
    Option.bind_eq_some_iff.mpr ⟨deleted, hdelete, rfl⟩, ?_, hnodup', ?_, ?_,
    (hbalance'.trans hbalance).trans h.balance_eq⟩
  · rw [hblocks]
    refine hdup.trans ?_
    rw [← List.append_assoc]
    exact List.Perm.append_right others List.perm_append_comm
  · intro slot hslot message hmessage
    simp only [List.mem_cons, List.not_mem_nil, or_false] at hslot
    rcases hslot with rfl | rfl | rfl
    · exact h.fits status.mTexts1 (by simp) message hmessage
    · exact h.fits status.mTexts2 (by simp) message hmessage
    · exact hmsg message.text (htext message hmessage).1.symm
  · rw [hblocks]
    intro b hb
    rcases List.mem_append.mp hb with hold | hnew
    · exact hcopied b (List.mem_append_right _ hold)
    · obtain ⟨message, hmessage, rfl⟩ := List.mem_map.mp hnew
      have hdupped := List.reduceOption_mem_iff.mp hmessage
      exact (htext message (List.mem_singleton.mp hdupped).symm).2

/-- A frame goes without an error. -/
theorem Owns.execute (h : Owns others balance heap status) :
    ∃ heap' status', exeWait heap status = some (heap', status') ∧
      Owns others balance heap' status' := by
  have hfirst : ∃ pane, firstStep heap status = some { status with pane := pane } := by
    unfold firstStep
    split
    · obtain ⟨buffer, hbuffer⟩ := updatePane_short h.fits
        fun b hb => h.blocks.mem_iff.mpr (List.mem_append_left _ hb)
      exact ⟨some buffer, by rw [hbuffer]; rfl⟩
    · exact ⟨status.pane, rfl⟩
  obtain ⟨pane, hfirst⟩ := hfirst
  have hshown : Owns others balance heap { status with pane := pane } :=
    ⟨h.blocks, h.nodup, h.fits, h.copied, h.balance_eq⟩
  by_cases hlast : status.step = 360
  · have hnone : ∀ text ∈ (none : Option Text), text.length ≤ 340 := fun _ h => nomatch h
    obtain ⟨heap', status', hlog, howns⟩ := hshown.log hnone
    refine ⟨heap', status', Option.bind_eq_some_iff.mpr ⟨_, hfirst, ?_⟩, howns⟩
    rw [lastStep, if_pos hlast]
    exact hlog
  · refine ⟨heap, _, Option.bind_eq_some_iff.mpr ⟨_, hfirst, if_neg hlast⟩, ?_⟩
    exact ⟨h.blocks, h.nodup, h.fits, h.copied, h.balance_eq⟩

/-- What holds after some scenes, on a heap that had some blocks before. -/
structure SceneBlocks (before : List (Block Operator)) (balance : ℤ) (scenes : ℕ)
    (texts : StatusTexts) : Prop where
  /-- No block is live twice. -/
  nodup : texts.heap.live.Nodup
  /-- The blocks of before are live, those of the texts, and at most three of each scene. -/
  blocks : ∃ left, texts.heap.live.Perm (texts.blocks ++ (left ++ before)) ∧
    left.length + (if texts.mStatusText.isSome then 3 else 0) ≤ 3 * scenes
  /-- The texts fit into the buffer. -/
  fits : ∀ status ∈ texts.mStatusText, status.Fits
  /-- Their blocks are of `new[]`. -/
  copied : ∀ b ∈ texts.blocks, b.allocator = .newArray
  /-- All deletions were mismatched. -/
  balance_eq : texts.heap.balance = balance

variable {before : List (Block Operator)} {scenes : ℕ} {texts : StatusTexts}

/-- A scene that ends leaves its blocks behind. -/
theorem SceneBlocks.left (h : SceneBlocks before balance scenes texts) :
    ∃ left, texts.heap.live.Perm (left ++ before) ∧ left.length ≤ 3 * scenes := by
  obtain ⟨left, hperm, hlength⟩ := h.blocks
  refine ⟨texts.blocks ++ left, by rwa [List.append_assoc], ?_⟩
  rw [List.length_append]
  unfold StatusTexts.blocks
  cases hstatus : texts.mStatusText with
  | none =>
    rw [hstatus] at hlength
    show 0 + left.length ≤ 3 * scenes
    rw [Nat.zero_add]
    exact hlength
  | some status =>
    rw [hstatus] at hlength
    have hthree : status.blocks.length ≤ 3 := blocksOf_length _
    simp only [Option.isSome_some, if_true] at hlength
    show status.blocks.length + left.length ≤ 3 * scenes
    omega

/-- A call on the status text that keeps what it owns. -/
theorem SceneBlocks.withStatus (h : SceneBlocks before balance scenes texts)
    {f : TextHeap → MultiplayerStatusText → Option (TextHeap × MultiplayerStatusText)}
    (hf : ∀ others heap status, Owns others balance heap status →
      ∃ heap' status', f heap status = some (heap', status') ∧
        Owns others balance heap' status') :
    ∃ texts', texts.withStatus f = some texts' ∧ SceneBlocks before balance scenes texts' := by
  obtain ⟨left, hperm, hlength⟩ := h.blocks
  have hcopied := h.copied
  unfold StatusTexts.withStatus
  unfold StatusTexts.blocks at hperm hcopied
  cases hstatus : texts.mStatusText with
  | none => exact ⟨texts, rfl, h⟩
  | some status =>
    rw [hstatus] at hperm hlength hcopied
    obtain ⟨heap', status', hcall, howns⟩ := hf _ texts.heap status
      ⟨hperm, h.nodup, h.fits status hstatus, hcopied, h.balance_eq⟩
    refine ⟨⟨heap', some status'⟩, Option.map_eq_some_iff.mpr ⟨_, hcall, rfl⟩, howns.nodup,
      ⟨left, howns.blocks, hlength⟩, ?_, howns.copied, howns.balance_eq⟩
    rintro found ⟨⟩
    exact howns.fits

/-- A call goes without an error, and only a scene that begins adds blocks that may be left
behind. -/
theorem SceneBlocks.call (h : SceneBlocks before balance scenes texts) {event : StatusEvent}
    (hshort : Short event) :
    ∃ texts', statusCall texts event = some texts' ∧
      SceneBlocks before balance (scenes + [event].count .initAfterPlacement) texts' := by
  cases event with
  | initAfterPlacement =>
    obtain ⟨left, hperm, hlength⟩ := h.left
    refine ⟨_, rfl, h.nodup, ⟨left, hperm, ?_⟩, ?_, fun b hb => (nomatch hb),
      h.balance_eq⟩
    · simp only [Option.isSome_some, if_true, List.count_singleton_self]
      omega
    · rintro status ⟨⟩ slot hslot message hmessage
      simp only [MultiplayerStatusText.constructed, List.mem_cons, List.not_mem_nil, or_self,
        or_false] at hslot
      rw [hslot] at hmessage
      cases hmessage
  | destroyStatusText =>
    obtain ⟨left, hperm, hlength⟩ := h.left
    exact ⟨_, rfl, h.nodup, ⟨left, hperm, hlength⟩, fun status hstatus => (nomatch hstatus),
      fun b hb => (nomatch hb), h.balance_eq⟩
  | execute => exact h.withStatus fun _ _ _ howns => howns.execute
  | log msg =>
    refine h.withStatus fun _ _ _ howns => howns.log ?_
    rintro text ⟨⟩
    exact hshort

/-- Whole calls go without an error. -/
theorem SceneBlocks.calls (h : SceneBlocks before balance scenes texts)
    {events : List StatusEvent} (hshort : ∀ event ∈ events, Short event) :
    ∃ texts', run statusCall texts events = some texts' ∧
      SceneBlocks before balance (scenes + events.count .initAfterPlacement) texts' := by
  induction events generalizing scenes texts with
  | nil => exact ⟨texts, rfl, h⟩
  | cons event events ih =>
    obtain ⟨mid, hcall, hmid⟩ := h.call (hshort event List.mem_cons_self)
    obtain ⟨last, hlast, hend⟩ :=
      ih hmid fun other hother => hshort other (List.mem_cons_of_mem _ hother)
    refine ⟨last, by rw [run_cons, hcall, Option.bind_some, hlast], ?_⟩
    rw [← List.singleton_append, List.count_append, ← Nat.add_assoc]
    exact hend

/-! ### Calls that do not overlap -/

/-- What is left of a call on a status text. -/
def finishOf (heap : TextHeap) (status : MultiplayerStatusText) :
    StatusPc → Option (TextHeap × MultiplayerStatusText)
  | .before .execute => exeWait heap status
  | .before (.log msg) => log heap status (some msg)
  | .updated => lastStep heap status
  | .deleting msg => log heap status msg
  | .clearing msg => some (logCopy heap status msg)
  | .copying msg => some (logCopy heap status msg)
  | .shifting0 dup => some (heap, { status with
      mTexts0 := status.mTexts1, mTexts1 := status.mTexts2, mTexts2 := dup, step := 0 })
  | .shifting1 dup => some (heap, { status with
      mTexts1 := status.mTexts2, mTexts2 := dup, step := 0 })
  | .storing dup => some (heap, { status with mTexts2 := dup, step := 0 })
  | .settingNerve => some (heap, { status with step := 0 })
  | .idle => some (heap, status)
  | _ => none

/-- What is left of a call. -/
def finish (texts : StatusTexts) : StatusPc → Option StatusTexts
  | .idle => some texts
  | .before event => statusCall texts event
  | pc => texts.mStatusText.bind fun status =>
      (finishOf texts.heap status pc).map fun result => ⟨result.1, some result.2⟩

/-- The first test of `log` leaves what `log` does. -/
theorem finishOf_testText (heap : TextHeap) (status : MultiplayerStatusText) (msg : Option Text) :
    finishOf heap status (testText status msg) = log heap status msg := by
  unfold testText log
  cases htext : status.mTexts0 with
  | none => rfl
  | some message =>
    show StatusText.log heap status msg = _
    rw [log, htext]

/-- A part leaves what is left of the call, on a status text. -/
theorem finishOf_part (heap : TextHeap) (status : MultiplayerStatusText) {pc : StatusPc}
    (hpc : pc ≠ .idle) :
    finishOf heap status pc =
      (partOf heap status pc).bind fun r => finishOf r.1 r.2.1 r.2.2 := by
  cases pc with
  | idle => exact absurd rfl hpc
  | before event =>
    cases event with
    | execute =>
      rw [partOf, Option.bind_map]
      rfl
    | log msg => exact (finishOf_testText heap status (some msg)).symm
    | _ => rfl
  | updated =>
    rw [partOf, finishOf, lastStep]
    split
    · exact (finishOf_testText heap status none).symm
    · rfl
  | deleting msg =>
    rw [partOf, Option.bind_map]
    rfl
  | _ => rfl

/-- The first test of `log` is no beginning. -/
theorem testText_begun (status : MultiplayerStatusText) (msg : Option Text) (event : StatusEvent) :
    testText status msg ≠ .before event := by
  unfold testText
  split <;> exact nofun

/-- A part leads to no beginning. -/
theorem partOf_begun {heap heap' : TextHeap} {status status' : MultiplayerStatusText}
    {pc pc' : StatusPc} (h : partOf heap status pc = some (heap', status', pc'))
    (event : StatusEvent) : pc' ≠ .before event := by
  rintro rfl
  unfold partOf at h
  split at h
  case h_1 | h_4 =>
    obtain ⟨_, -, hnext⟩ := Option.map_eq_some_iff.mp h
    cases hnext
  case h_2 =>
    simp only [Option.some.injEq, Prod.mk.injEq] at h
    exact testText_begun _ _ _ h.2.2
  case h_3 =>
    split at h
    · simp only [Option.some.injEq, Prod.mk.injEq] at h
      exact testText_begun _ _ _ h.2.2
    · cases h
  all_goals cases h

/-- A call that has begun on a status text goes on with it. -/
theorem finish_begun (heap : TextHeap) (status : MultiplayerStatusText) {pc : StatusPc}
    (hbegun : ∀ event, pc ≠ .before event) :
    finish ⟨heap, some status⟩ pc =
      (finishOf heap status pc).map fun result => ⟨result.1, some result.2⟩ := by
  cases pc with
  | before event => exact absurd rfl (hbegun event)
  | _ => rfl

/-- A part on a status text leaves what is left of the call. -/
theorem finish_partOf (heap : TextHeap) (status : MultiplayerStatusText) {pc : StatusPc}
    (hpc : pc ≠ .idle) :
    ((finishOf heap status pc).map fun result => (⟨result.1, some result.2⟩ : StatusTexts)) =
      ((partOf heap status pc).map fun r =>
        ((⟨r.1, some r.2.1⟩ : StatusTexts), r.2.2)).bind fun r => finish r.1 r.2 := by
  rw [finishOf_part heap status hpc]
  cases hpart : partOf heap status pc with
  | none => rfl
  | some r => exact (finish_begun r.1 r.2.1 (partOf_begun hpart)).symm

/-- A part leaves what is left of the call. -/
theorem finish_part (texts : StatusTexts) {pc : StatusPc} (hpc : pc ≠ .idle) :
    finish texts pc = (statusPart texts pc).bind fun r => finish r.1 r.2 := by
  obtain ⟨heap, mStatusText⟩ := texts
  cases pc with
  | idle => exact absurd rfl hpc
  | before event =>
    cases event with
    | initAfterPlacement => rfl
    | destroyStatusText => rfl
    | execute =>
      cases mStatusText with
      | none => rfl
      | some status => exact finish_partOf heap status hpc
    | log msg =>
      cases mStatusText with
      | none => rfl
      | some status => exact finish_partOf heap status hpc
  | _ =>
    cases mStatusText with
    | none => rfl
    | some status => exact finish_partOf heap status hpc

/-- The thread that is in a call. -/
def StatusSystem.active (sys : StatusSystem) : StatusPc :=
  if sys.network = .idle then sys.game else sys.network

/-- What a run has done is what its calls do one after another, once the last is finished. -/
def Serial (texts : StatusTexts) (past : List StatusAction) : StatusState → Prop
  | .running sys => finish sys.texts sys.active = run statusCall texts (callsOf past)
  | .failed => run statusCall texts (callsOf past) = none

variable {texts : StatusTexts} {past : List StatusAction}

/-- A call that begins is the next one. -/
theorem serial_call {sys next : StatusSystem} {event : StatusEvent}
    (h : Serial texts past (.running sys)) (hidle : sys.active = .idle)
    (hnext : next.texts = sys.texts) (hbegun : next.active = .before event) :
    Serial texts (past ++ [.call event]) (.running next) := by
  have hcalls : callsOf (past ++ [.call event]) = callsOf past ++ [event] :=
    List.filterMap_append
  have hdone : run statusCall texts (callsOf past) = some sys.texts := by
    rw [← h, hidle, finish]
  rw [Serial, hnext, hbegun, hcalls, run_append, hdone, Option.bind_some, run_cons, finish]
  cases statusCall sys.texts event <;> rfl

/-- A part goes on with the call. -/
theorem serial_part {sys : StatusSystem} {a : StatusAction} (h : Serial texts past (.running sys))
    (ha : callsOf [a] = []) (hactive : sys.active ≠ .idle)
    (put : StatusTexts → StatusPc → StatusSystem)
    (hput : ∀ texts pc, (put texts pc).texts = texts ∧ (put texts pc).active = pc)
    {next : StatusState}
    (hnext : next = match statusPart sys.texts sys.active with
      | none => .failed
      | some (texts, pc) => .running (put texts pc)) :
    Serial texts (past ++ [a]) next := by
  have hcalls : callsOf (past ++ [a]) = callsOf past := by
    rw [callsOf, List.filterMap_append, ← callsOf, ← callsOf, ha, List.append_nil]
  have hfinish := finish_part sys.texts hactive
  rw [Serial, hfinish] at h
  subst hnext
  cases hpart : statusPart sys.texts sys.active with
  | none =>
    rw [hpart] at h
    show run statusCall texts (callsOf (past ++ [a])) = none
    rw [hcalls]
    exact h.symm
  | some r =>
    obtain ⟨rest, pc⟩ := r
    rw [hpart] at h
    show finish (put rest pc).texts (put rest pc).active = run statusCall texts _
    rw [hcalls, (hput rest pc).1, (hput rest pc).2]
    exact h

/-- A call of the game begins behind all others. -/
theorem serial_gameCall {sys : StatusSystem} {event : StatusEvent} {next : StatusState}
    (h : Serial texts past (.running sys)) (ht : Apart next)
    (hstep : (if sys.game = .idle then some (StatusState.running { sys with game := .before event })
      else none) = some next) : Serial texts (past ++ [.call event]) next := by
  split at hstep <;> cases hstep
  rename_i hgame
  have hnetwork : sys.network = .idle := ht.resolve_left nofun
  exact serial_call h (by rw [StatusSystem.active, if_pos hnetwork, hgame]) rfl
    (by rw [StatusSystem.active, if_pos hnetwork])

/-- A step without an overlap keeps the calls in a row. -/
theorem serial_step {s next : StatusState} {a : StatusAction} (h : Serial texts past s)
    (hs : Apart s) (ht : Apart next) (hstep : statusStep s a = some next) :
    Serial texts (past ++ [a]) next := by
  cases s with
  | failed => cases hstep
  | running sys =>
    cases a with
    | call event =>
      cases event with
      | log msg =>
        rw [statusStep] at hstep
        split at hstep <;> cases hstep
        rename_i hnetwork
        have hgame : sys.game = .idle := ht.resolve_right nofun
        exact serial_call h (by rw [StatusSystem.active, if_pos hnetwork, hgame]) rfl
          (if_neg nofun)
      | initAfterPlacement => exact serial_gameCall h ht hstep
      | destroyStatusText => exact serial_gameCall h ht hstep
      | execute => exact serial_gameCall h ht hstep
    | gamePart =>
      rw [statusStep] at hstep
      split at hstep
      · cases hstep
      · rename_i hgame
        have hnetwork : sys.network = .idle := hs.resolve_left hgame
        have hactive : sys.active = sys.game := if_pos hnetwork
        refine serial_part h rfl (by rw [hactive]; exact hgame)
          (fun texts pc => { sys with texts := texts, game := pc })
          (fun texts pc => ⟨rfl, if_pos hnetwork⟩) ?_
        rw [hactive]
        cases hpart : statusPart sys.texts sys.game with
        | none =>
          rw [hpart] at hstep
          exact (Option.some.inj hstep).symm
        | some r =>
          rw [hpart] at hstep
          exact (Option.some.inj hstep).symm
    | networkPart =>
      rw [statusStep] at hstep
      split at hstep
      · cases hstep
      · rename_i hnetwork
        have hgame : sys.game = .idle := hs.resolve_right hnetwork
        have hactive : sys.active = sys.network := if_neg hnetwork
        refine serial_part h rfl (by rw [hactive]; exact hnetwork)
          (fun texts pc => { sys with texts := texts, network := pc })
          (fun texts pc => ⟨rfl, ?_⟩) ?_
        · rw [StatusSystem.active]
          split
          · rename_i hidle
            exact hgame.trans hidle.symm
          · rfl
        rw [hactive]
        cases hpart : statusPart sys.texts sys.network with
        | none =>
          rw [hpart] at hstep
          exact (Option.some.inj hstep).symm
        | some r =>
          rw [hpart] at hstep
          exact (Option.some.inj hstep).symm

/-- A run without an overlap does what its calls do one after another. -/
theorem run_serial {actions : List StatusAction} {s : StatusState}
    (hapart : Throughout Apart statusStep (.running (.idle texts)) actions)
    (hrun : run statusStep (.running (.idle texts)) actions = some s) :
    Serial texts actions s := by
  have hkeeps : ∀ past s a t, Serial texts past s → Apart s → Apart t → True →
      statusStep s a = some t → Serial texts (past ++ [a]) t :=
    fun _ _ _ _ h hs ht _ hstep => serial_step h hs ht hstep
  have hstart : Serial texts [] (.running (.idle texts)) := rfl
  exact run_history hkeeps hstart hapart (fun _ _ => trivial) hrun

/-- In every run of the two threads in which no two calls overlap, the pane of a scene shows
the last three messages, where every 361 frames without one count as an empty message, as they
were before the last frame. -/
theorem pane_shows (texts : StatusTexts) (actions : List StatusAction) (gap : ℕ)
    (calls : List (Text × ℕ)) (msg : Text) (k : ℕ)
    (hcalls : callsOf actions = session gap (calls ++ [(msg, k + 1)]))
    (hapart : Throughout Apart statusStep (.running (.idle texts)) actions) (after : StatusTexts)
    (hrun : run statusStep (.running (.idle texts)) actions = some (.running (.idle after))) :
    ∃ status, after.mStatusText = some status ∧
      status.pane = some (linesOf (lastThree (entriesOf gap (calls ++ [(msg, k)])))) := by
  have hserial : some after = run statusCall texts (callsOf actions) := run_serial hapart hrun
  rw [hcalls] at hserial
  exact pane_after_session hserial.symm

/-- Calls apart can be told in each state. -/
instance decidableApart : (s : StatusState) → Decidable (Apart s)
  | .running _ => inferInstanceAs (Decidable (_ ∨ _))
  | .failed => isTrue trivial

/-- A call of the game, and its parts. -/
def gameCall (event : StatusEvent) (parts : ℕ) : List StatusAction :=
  .call event :: List.replicate parts .gamePart

/-- A message of the network thread, and its parts. -/
def networkCall (msg : Text) (parts : ℕ) : List StatusAction :=
  .call (.log msg) :: List.replicate parts .networkPart

/-- Two messages in a row, and three frames. -/
def twoMessages : List StatusAction :=
  gameCall .initAfterPlacement 1 ++ gameCall .execute 2 ++ networkCall [97] 6 ++
    networkCall [98] 6 ++ gameCall .execute 2 ++ gameCall .execute 2 ++ gameCall .execute 2

/-- The pane shows both. -/
theorem pane_shows_two : ∃ after status,
    run statusStep (.running (.idle ⟨⟨.empty, 0⟩, none⟩)) twoMessages =
      some (.running (.idle after)) ∧ after.mStatusText = some status ∧
      status.pane = some [97, 10, 98, 10] := by
  have hrun : ∃ after, run statusStep (.running (.idle ⟨⟨.empty, 0⟩, none⟩)) twoMessages =
      some (.running (.idle after)) := ⟨_, rfl⟩
  obtain ⟨after, hrun⟩ := hrun
  obtain ⟨status, hstatus, hpane⟩ := pane_shows ⟨⟨.empty, 0⟩, none⟩ twoMessages 1 [([97], 0)] [98] 2
    (by decide) (by decide +kernel) after hrun
  exact ⟨after, status, hrun, hstatus, hpane⟩

/-- In every run of the two threads in which no two calls overlap and all messages are short,
nothing fails: no block is deleted twice or read behind its deletion, none is deleted that is no
copy of a message, and no message overflows the buffer. All deletions are by `delete` of blocks
of `new[]`, and at most three blocks of each scene are left behind. -/
theorem status_text_blocks (heap : Heap Operator) (hheap : heap.live.Nodup)
    (actions : List StatusAction) (hshort : ∀ event ∈ callsOf actions, Short event)
    (hapart : Throughout Apart statusStep (.running (.idle ⟨⟨heap, 0⟩, none⟩)) actions)
    (s : StatusState)
    (hrun : run statusStep (.running (.idle ⟨⟨heap, 0⟩, none⟩)) actions = some s) :
    s ≠ .failed ∧ ∀ after, s = .running (.idle after) →
      (∀ b ∈ heap.live, b ∈ after.heap.live) ∧
      heap.live.length + after.heap.heap.next =
        after.heap.live.length + after.heap.mismatched + heap.next ∧
      after.heap.live.length ≤
        heap.live.length + 3 * (callsOf actions).count .initAfterPlacement := by
  have hstart : SceneBlocks heap.live (TextHeap.balance ⟨heap, 0⟩) 0 ⟨⟨heap, 0⟩, none⟩ :=
    ⟨hheap, ⟨[], List.Perm.refl _, Nat.le_refl 0⟩, fun _ h => (nomatch h), fun _ h => (nomatch h),
      rfl⟩
  obtain ⟨done, hdone, hblocks⟩ := hstart.calls hshort
  have hserial := run_serial hapart hrun
  refine ⟨?_, ?_⟩
  · rintro rfl
    cases hserial.symm.trans hdone
  · rintro after rfl
    cases Option.some.inj ((show some after = _ from hserial).trans hdone)
    obtain ⟨left, hperm, hlength⟩ := hblocks.left
    rw [Nat.zero_add] at hlength
    refine ⟨fun b hb => hperm.mem_iff.mpr (List.mem_append_right _ hb), ?_, ?_⟩
    · have hbalance := hblocks.balance_eq
      simp only [TextHeap.balance, TextHeap.live] at hbalance ⊢
      omega
    · rw [hperm.length_eq, List.length_append, Nat.add_comm]
      exact Nat.add_le_add_left hlength _

/-- Four messages in two scenes; the first scene has left its two behind. -/
def twoScenes : List StatusAction :=
  gameCall .initAfterPlacement 1 ++ networkCall [97] 6 ++ gameCall .execute 2 ++
    networkCall [98] 6 ++ gameCall .destroyStatusText 1 ++ gameCall .execute 1 ++
    gameCall .initAfterPlacement 1 ++ networkCall [99] 6 ++ networkCall [100] 6

/-- Four blocks are left. -/
theorem status_text_blocks_two : ∃ after : StatusTexts,
    run statusStep (.running (.idle ⟨⟨.empty, 0⟩, none⟩)) twoScenes =
      some (.running (.idle after)) ∧ after.heap.live.length ≤ 6 := by
  have hrun : ∃ after, run statusStep (.running (.idle ⟨⟨.empty, 0⟩, none⟩)) twoScenes =
      some (.running (.idle after)) := ⟨_, rfl⟩
  obtain ⟨after, hrun⟩ := hrun
  have hblocks := status_text_blocks .empty List.nodup_nil twoScenes (by simp [twoScenes,
    callsOf, gameCall, networkCall, Short]) (by decide +kernel) _ hrun
  exact ⟨after, hrun, (hblocks.2 after rfl).2.2⟩

/-- Whether a part was undefined. -/
def StatusState.isFailed : StatusState → Bool
  | .failed => true
  | _ => false

-- The empty message of frame 361 overlaps with one of the network thread: both have tested
-- `mTexts[0]` before one of them deletes it, so that it is deleted twice.
example : (run statusStep (.running (.idle ⟨⟨.empty, 0⟩, none⟩))
    (gameCall .initAfterPlacement 1 ++ networkCall [97] 6 ++ networkCall [98] 6 ++
      networkCall [99] 6 ++ (List.replicate 360 (gameCall .execute 2)).flatten ++
      gameCall .execute 2 ++ networkCall [100] 1 ++ [.gamePart, .networkPart])).any
    StatusState.isFailed = true := by decide +kernel

end BfMultiplayer.StatusText

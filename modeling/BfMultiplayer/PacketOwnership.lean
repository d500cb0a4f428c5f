import BfMultiplayer.BlockHeap
import BfMultiplayer.DecoderBounds

/-!
# The blocks of packets

A packet object owns the blocks that its class frees in its destructor. An
outgoing array frees the entries it has allocated; a log packet frees the text
it is given, which is a line inside of a block of the log. A received packet is
freed without its destructor, so the text and the entries that `read` has
allocated stay behind. A handler may keep a block of its own for a queue or a
list, and a client that aborts sends a log packet first. The lines of the log
are kept on purpose and the blocks of ENet packets are ENet's, so neither counts.
-/

namespace BfMultiplayer.PacketOwnership

open BlockHeap Channels PacketCodec DecoderBounds

/-- The allocators. -/
inductive Allocator where
  /-- `PENET_MALLOC` and `PENET_FREE`: the ENet heap of the client, `buddyMalloc` of the server. -/
  | enetHeap
  /-- `operator new`, of `new`, `new[]` and the containers. -/
  | new
  /-- `sLogHeap`. -/
  | logHeap
  deriving DecidableEq

/-- The log keeps its lines. -/
def KeptOnPurpose (a : Allocator) : Prop := a = .logHeap

instance : DecidablePred KeptOnPurpose := fun a => inferInstanceAs (Decidable (a = .logHeap))

/-- The two programs. -/
inductive Side where
  | client
  | server
  deriving DecidableEq

/-- `PacketHandlerEntry`, without the handler. -/
structure PacketHandlerEntry where
  /-- The channel. -/
  type : ChannelType
  /-- Whether the handler runs on a thread of its own. -/
  useSeparateThread : Bool := false

/-- `sEntries`. -/
def sEntries : Side → List PacketHandlerEntry
  | .client =>
    [⟨.ToC_PlayerList, false⟩, ⟨.ToC_PuppetPose, false⟩, ⟨.ToC_Action, false⟩,
      ⟨.ToC_PlayerFigureChange, false⟩, ⟨.ToC_GoalItemInfo, false⟩, ⟨.ToC_PhaseUnlock, false⟩,
      ⟨.ToC_ScenarioUpdate, false⟩, ⟨.ToC_DisasterModeControllerInternalUpdate, false⟩,
      ⟨.ToC_SyncClockUpdate, false⟩, ⟨.ToC_MiscMapSync, false⟩, ⟨.ToC_JumpFlip, false⟩,
      ⟨.ToC_CheatPacket, false⟩, ⟨.SaveDataChunk, false⟩]
  | .server =>
    [⟨.ToS_Hello, false⟩, ⟨.ToS_Log, false⟩, ⟨.ToS_SingleModeSceneEnter, true⟩,
      ⟨.ToS_PuppetPose, false⟩, ⟨.ToS_Action, false⟩, ⟨.ToS_PlayerFigureChange, false⟩,
      ⟨.ToS_GoalItemInfo, false⟩, ⟨.ToS_PhaseUnlock, false⟩, ⟨.ToS_ScenarioUpdate, false⟩,
      ⟨.ToS_DisasterModeControllerInternalUpdate, false⟩, ⟨.ToS_MiscMapSync, false⟩,
      ⟨.ToS_JumpFlip, false⟩, ⟨.SaveDataChunk, false⟩]

/-- `AllocSource`. -/
inductive AllocSource where
  | Ctor
  | New
  deriving DecidableEq

/-- A packet object, as far as its destructor looks at it. -/
inductive PacketObject where
  /-- A `DataPacket`. -/
  | data
  /-- An `ArrayPacket`. -/
  | array (mEntries : Pointer Allocator) (mAllocSource : AllocSource)
  /-- A `ToS_Log`. -/
  | log (mData : Pointer Allocator)

/-- A packet that a program sends. One without entries or without a text aborts in `build`. -/
inductive Outgoing where
  /-- An object of a `DataPacket` class. -/
  | data (T : ChannelType)
  /-- `ArrayPacket(numEntries, entries)`. -/
  | arrayCtor (numEntries : UInt32) (entries : Pointer Allocator)
  /-- `ArrayPacket(numEntries)`. -/
  | arrayNew (numEntries : UInt32)
  /-- `pe::log`, `pe::warn` or `pe::err` with the formatted text. -/
  | log (logType : UInt8) (text : Packets.CString)

/-- A packet with the state of the link when it is sent. -/
structure Sending where
  /-- The packet. -/
  packet : Outgoing
  /-- `NetClient::isConnected`. -/
  isConnected : Bool
  /-- Whether `sendPacket` passes its checks of the peer. -/
  sends : Bool

/-- The destructor of a packet. -/
def destroy (packet : PacketObject) (heap : Heap Allocator) : Outcome Allocator :=
  match packet with
  | .data => .ok heap
  | .array mEntries .New => heap.free .new mEntries
  | .array _ .Ctor => .ok heap
  | .log mData => heap.free .enetHeap mData

/-- The allocator of the buffer of `sendPacket`. -/
def bufferAllocator : Side → Allocator
  | .client => .enetHeap
  | .server => .new

/-- `sendPacket`: the packet is built into a buffer, which ENet copies. -/
def sendPacket (side : Side) (sends : Bool) (heap : Heap Allocator) : Outcome Allocator :=
  if sends then
    (heap.alloc (bufferAllocator side)).free (bufferAllocator side)
      ⟨heap.nextBlock (bufferAllocator side), 0⟩
  else .ok heap

/-- `addLog`: the type and the text lie in one block, and the answer points to the text. -/
def addLog (heap : Heap Allocator) : Pointer Allocator × Heap Allocator :=
  (⟨heap.nextBlock .logHeap, 1⟩, heap.alloc .logHeap)

/-- `pe::log`, `pe::warn` and `pe::err`. -/
def peLog (side : Side) (isConnected sends : Bool) (heap : Heap Allocator) : Outcome Allocator :=
  let (msg, heap) := addLog heap
  if isConnected then (sendPacket side sends heap).andThen (destroy (.log msg))
  else .ok heap

/-- Construct a packet, send it and destroy it. -/
def lifetime (side : Side) (sending : Sending) (heap : Heap Allocator) : Outcome Allocator :=
  match sending.packet with
  | .data _ => (sendPacket side sending.sends heap).andThen (destroy .data)
  | .arrayCtor _ entries =>
    (sendPacket side sending.sends heap).andThen (destroy (.array entries .Ctor))
  | .arrayNew _ =>
    (sendPacket side sending.sends (heap.alloc .new)).andThen
      (destroy (.array ⟨heap.nextBlock .new, 0⟩ .New))
  | .log _ _ => peLog side sending.isConnected sending.sends heap

/-- `PENET_ABORT`: the client calls `pe::err` before it stops. -/
def penetAbort (side : Side) (isConnected sends : Bool) (heap : Heap Allocator) :
    Outcome Allocator :=
  match side with
  | .client => (peLog side isConnected sends heap).andThen fun _ => .aborted
  | .server => .aborted

/-- What a handler does with blocks, but for those that it frees again itself. -/
inductive HandlerCall where
  /-- A packet is sent. -/
  | send (sending : Sending)
  /-- A block is kept, for an entry of `mActionQueue`, a node of a map or a first element. -/
  | keep
  /-- The elements of a list move to a larger block, and the old one is freed. -/
  | grow (old : Pointer Allocator)

/-- A call of a handler. -/
def HandlerCall.run (side : Side) (call : HandlerCall) (heap : Heap Allocator) :
    Outcome Allocator :=
  match call with
  | .send sending => lifetime side sending heap
  | .keep => .ok (heap.alloc .new)
  | .grow old => (heap.free .new old).andThen fun after => .ok (after.alloc .new)

/-- A handler, as its calls one after the other. -/
def handler (side : Side) : List HandlerCall → Heap Allocator → Outcome Allocator
  | [], heap => .ok heap
  | call :: calls, heap => (call.run side heap).andThen (handler side calls)

/-- What `read` allocates beside the object. -/
def readBlocks (T : ChannelType) (heap : Heap Allocator) : Heap Allocator :=
  match family T with
  | .data _ => heap
  | .log => heap.alloc .enetHeap
  | .array _ _ => heap.alloc .new

/-- Bytes that arrive on a channel, and what the program does with them. -/
structure Reception where
  /-- The channel. -/
  type : ChannelType
  /-- The bytes. -/
  data : List UInt8
  /-- What the handler does. -/
  calls : List HandlerCall
  /-- `NetClient::isConnected` when the program aborts. -/
  isConnected : Bool
  /-- Whether `sendPacket` passes its checks of the peer then. -/
  sends : Bool

/-- `PacketHandler::handlePacket` with the handler of the channel. A decoder that reads
outside of the received bytes goes on with what it finds there. -/
def handleRegistered (vtable : VTables) (fresh : Fresh) (side : Side) (r : Reception)
    (heap : Heap Allocator) : Outcome Allocator :=
  if aborts (readPacket vtable fresh r.type r.data) then
    penetAbort side r.isConnected r.sends (heap.alloc .enetHeap)
  else
    (handler side r.calls (readBlocks r.type (heap.alloc .enetHeap))).andThen fun after =>
      after.free .enetHeap ⟨heap.nextBlock .enetHeap, 0⟩

/-- `handlePacket` of a program; a handler with a thread of its own works on a copy of the
bytes. -/
def handlePacket (vtable : VTables) (fresh : Fresh) (side : Side) (r : Reception)
    (heap : Heap Allocator) : Outcome Allocator :=
  match (sEntries side).find? fun entry => decide (entry.type = r.type) with
  | none => penetAbort side r.isConnected r.sends heap
  | some entry =>
    if entry.useSeparateThread then
      (handleRegistered vtable fresh side r (heap.alloc .enetHeap)).andThen
        fun after => after.free .enetHeap ⟨heap.nextBlock .enetHeap, 0⟩
    else handleRegistered vtable fresh side r heap

/-- A use of a packet. -/
inductive PacketUse where
  /-- Bytes arrive, and the handler of their channel runs. -/
  | receive (r : Reception)
  /-- A packet is constructed, sent and destroyed. -/
  | send (sending : Sending)

/-- The rule of ownership: a received packet leaves the live blocks as they were, and an
outgoing one frees blocks of its own only. -/
def FollowsOwnership (vtable : VTables) (fresh : Fresh) (side : Side) (heap : Heap Allocator) :
    PacketUse → Prop
  | .receive r =>
    (handlePacket vtable fresh side r heap).Safe (SameBlocks KeptOnPurpose heap)
  | .send sending =>
    (lifetime side sending heap).Safe fun after => ∀ b ∈ heap.live, b ∈ after.live

/-- A log packet is constructed. -/
def Sending.IsLogPacket (sending : Sending) : Prop :=
  match sending.packet with
  | .log _ _ => sending.isConnected = true
  | _ => False

/-- The class is a `DataPacket`. -/
def IsDataPacket (T : ChannelType) : Prop :=
  match family T with
  | .data _ => True
  | _ => False

instance (T : ChannelType) : Decidable (IsDataPacket T) := by
  unfold IsDataPacket
  cases family T <;> infer_instance

/-- A call of a handler keeps no block and sends no log packet. -/
def HandlerCall.KeepsNothing : HandlerCall → Prop
  | .send sending => ¬sending.IsLogPacket
  | _ => False

/-- The program has a handler for the channel, and the decoder accepts the bytes. -/
def Accepts (side : Side) (r : Reception) : Prop :=
  r.type ∈ (sEntries side).map PacketHandlerEntry.type ∧ ¬Rejects r.type r.data

/-- The condition: no log packet is sent, also by a client that aborts; and what is accepted is
a `DataPacket` whose handler keeps no block. -/
def FreesWhatItOwns (side : Side) : PacketUse → Prop
  | .receive r =>
    (Accepts side r → IsDataPacket r.type ∧ ∀ call ∈ r.calls, call.KeepsNothing) ∧
      (¬Accepts side r → side = .client → r.isConnected = false)
  | .send sending => ¬sending.IsLogPacket

/-- What may be left behind by a handler. -/
def IsNew (a : Allocator) : Prop := a = .new

/-- A packet object is none of it. -/
theorem enetHeap_not_isNew : ¬IsNew .enetHeap := fun he => nomatch he

/-- `sendPacket` returns and leaves the live blocks. -/
theorem sendPacket_givesBack (side : Side) (sends : Bool) (heap : Heap Allocator) :
    ∃ after, sendPacket side sends heap = .ok after ∧ GivesBack KeptOnPurpose heap after := by
  unfold sendPacket
  split
  · exact GivesBack.freed (GivesBack.refl _)
  · exact ⟨heap, rfl, GivesBack.refl heap⟩

/-- A log packet frees its text, which is no block of the ENet heap. -/
theorem peLog_connected (side : Side) (sends : Bool) (heap : Heap Allocator) :
    peLog side true sends heap = .wrongFree := by
  obtain ⟨sent, hsent, -⟩ := sendPacket_givesBack side sends (heap.alloc .logHeap)
  dsimp only [peLog, addLog]
  rw [if_pos rfl, hsent]
  exact free_of_ne sent fun he => nomatch he

/-- Without a connection a line is added to the log. -/
theorem peLog_disconnected (side : Side) (sends : Bool) (heap : Heap Allocator) :
    peLog side false sends heap = .ok (heap.alloc .logHeap) :=
  rfl

/-- An abort is safe unless a client is connected. -/
theorem penetAbort_safe_iff (side : Side) (isConnected sends : Bool) (heap : Heap Allocator)
    (P : Heap Allocator → Prop) :
    (penetAbort side isConnected sends heap).Safe P ↔ (side = .client → isConnected = false) := by
  cases side with
  | server => exact iff_of_true trivial fun h => nomatch h
  | client =>
    dsimp only [penetAbort]
    cases isConnected with
    | false =>
      rw [peLog_disconnected]
      exact iff_of_true trivial fun _ => rfl
    | true =>
      rw [peLog_connected]
      exact iff_of_false id fun h => nomatch h rfl

/-- Nothing comes behind an abort. -/
theorem penetAbort_andThen (side : Side) (isConnected sends : Bool) (heap : Heap Allocator)
    (rest : Heap Allocator → Outcome Allocator) :
    (penetAbort side isConnected sends heap).andThen rest =
      penetAbort side isConnected sends heap := by
  cases side with
  | server => rfl
  | client =>
    dsimp only [penetAbort]
    cases isConnected with
    | false =>
      rw [peLog_disconnected]
      rfl
    | true =>
      rw [peLog_connected]
      rfl

/-- An outgoing packet that is no log packet leaves the live blocks. -/
theorem lifetime_givesBack (side : Side) {sending : Sending} (h : ¬sending.IsLogPacket)
    (heap : Heap Allocator) :
    ∃ after, lifetime side sending heap = .ok after ∧ GivesBack KeptOnPurpose heap after := by
  unfold lifetime
  cases hpacket : sending.packet with
  | data T =>
    obtain ⟨sent, hsent, hback⟩ := sendPacket_givesBack side sending.sends heap
    dsimp only
    rw [hsent]
    exact ⟨sent, rfl, hback⟩
  | arrayCtor numEntries entries =>
    obtain ⟨sent, hsent, hback⟩ := sendPacket_givesBack side sending.sends heap
    dsimp only
    rw [hsent]
    exact ⟨sent, rfl, hback⟩
  | arrayNew numEntries =>
    obtain ⟨sent, hsent, hback⟩ := sendPacket_givesBack side sending.sends (heap.alloc .new)
    dsimp only
    rw [hsent]
    exact hback.freed
  | log logType text =>
    have hidle : sending.isConnected = false := by
      rw [Sending.IsLogPacket, hpacket] at h
      exact Bool.eq_false_iff.mpr h
    dsimp only
    rw [hidle, peLog_disconnected]
    exact ⟨_, rfl, GivesBack.kept heap rfl⟩

/-- A log packet frees something wrong. -/
theorem lifetime_log (side : Side) {sending : Sending} (h : sending.IsLogPacket)
    (heap : Heap Allocator) : lifetime side sending heap = .wrongFree := by
  unfold lifetime
  cases hpacket : sending.packet with
  | log logType text =>
    have hconnected : sending.isConnected = true := by
      rwa [Sending.IsLogPacket, hpacket] at h
    dsimp only
    rw [hconnected, peLog_connected]
  | data T => rw [Sending.IsLogPacket, hpacket] at h; exact h.elim
  | arrayCtor numEntries entries => rw [Sending.IsLogPacket, hpacket] at h; exact h.elim
  | arrayNew numEntries => rw [Sending.IsLogPacket, hpacket] at h; exact h.elim

/-- A call that keeps nothing returns and leaves the live blocks. -/
theorem run_givesBack (side : Side) {call : HandlerCall} (h : call.KeepsNothing)
    (heap : Heap Allocator) :
    ∃ after, call.run side heap = .ok after ∧ GivesBack KeptOnPurpose heap after := by
  cases call with
  | send sending => exact lifetime_givesBack side h heap
  | keep => exact h.elim
  | grow old => exact h.elim

/-- Another call frees something wrong or leaves a block behind. -/
theorem run_spoils (side : Side) {call : HandlerCall} (h : ¬call.KeepsNothing)
    {start heap : Heap Allocator} (hle : start.next ≤ heap.next) :
    (call.run side heap).Spoils (Leaves IsNew start) := by
  cases call with
  | send sending =>
    dsimp only [HandlerCall.run]
    rw [lifetime_log side (not_not.mp h)]
    trivial
  | keep => exact Leaves.alloc hle rfl
  | grow old =>
    rw [HandlerCall.run]
    rcases free_cases heap .new old with ⟨after, hafter, hnext⟩ | hwrong
    · rw [hafter]
      exact Leaves.alloc (hle.trans (Nat.le_of_eq hnext.symm)) rfl
    · rw [hwrong]
      trivial

/-- A handler that keeps nothing returns and leaves the live blocks. -/
theorem handler_givesBack (side : Side) {calls : List HandlerCall}
    (h : ∀ call ∈ calls, call.KeepsNothing) (heap : Heap Allocator) :
    ∃ after, handler side calls heap = .ok after ∧ GivesBack KeptOnPurpose heap after := by
  induction calls generalizing heap with
  | nil => exact ⟨heap, rfl, GivesBack.refl heap⟩
  | cons call calls ih =>
    have hrest : ∀ other ∈ calls, other.KeepsNothing :=
      fun other hother => h other (List.mem_cons_of_mem call hother)
    obtain ⟨mid, hmid, hhead⟩ := run_givesBack side (h call List.mem_cons_self) heap
    obtain ⟨after, hafter, htail⟩ := ih hrest mid
    rw [handler, hmid]
    exact ⟨after, hafter, hhead.trans htail⟩

/-- Whatever a handler does, a block that was left behind before stays. -/
theorem handler_leaves (side : Side) (calls : List HandlerCall) {start heap : Heap Allocator}
    (h : Leaves IsNew start heap) : (handler side calls heap).Spoils (Leaves IsNew start) := by
  induction calls generalizing heap with
  | nil => exact h
  | cons call calls ih =>
    refine Outcome.Spoils.andThen ?_ fun _ => ih
    by_cases hcall : call.KeepsNothing
    · obtain ⟨mid, hmid, hback⟩ := run_givesBack side hcall heap
      rw [hmid]
      exact h.givesBack hback
    · exact run_spoils side hcall h.next_le

/-- A handler with another call frees something wrong or leaves a block behind. -/
theorem handler_spoils (side : Side) {calls : List HandlerCall}
    (h : ¬∀ call ∈ calls, call.KeepsNothing) {start heap : Heap Allocator}
    (hle : start.next ≤ heap.next) :
    (handler side calls heap).Spoils (Leaves IsNew start) := by
  induction calls generalizing heap with
  | nil => exact absurd (fun call hmem => absurd hmem List.not_mem_nil) h
  | cons call calls ih =>
    by_cases hcall : call.KeepsNothing
    · obtain ⟨mid, hmid, hback⟩ := run_givesBack side hcall heap
      rw [handler, hmid]
      refine ih (fun hrest => h fun other hother => ?_) (Nat.le_trans hle hback.next_le)
      rcases List.mem_cons.mp hother with rfl | htail
      · exact hcall
      · exact hrest other htail
    · exact (run_spoils side hcall hle).andThen fun _ => handler_leaves side calls

/-- Bytes that the decoder rejects abort the program. -/
theorem handleRegistered_of_rejects {vtable : VTables} {fresh : Fresh} {side : Side}
    {r : Reception} (h : Rejects r.type r.data) (heap : Heap Allocator) :
    handleRegistered vtable fresh side r heap =
      penetAbort side r.isConnected r.sends (heap.alloc .enetHeap) := by
  rw [handleRegistered, if_pos ((readPacket_aborts_iff vtable fresh r.type r.data).mpr h)]

/-- Other bytes are handled, and the object is freed. -/
theorem handleRegistered_of_not_rejects {vtable : VTables} {fresh : Fresh} {side : Side}
    {r : Reception} (h : ¬Rejects r.type r.data) (heap : Heap Allocator) :
    handleRegistered vtable fresh side r heap =
      (handler side r.calls (readBlocks r.type (heap.alloc .enetHeap))).andThen fun after =>
        after.free .enetHeap ⟨heap.nextBlock .enetHeap, 0⟩ := by
  rw [handleRegistered, if_neg fun haborts =>
    h ((readPacket_aborts_iff vtable fresh r.type r.data).mp haborts)]

/-- Numbers are not used again by `read`. -/
theorem next_le_readBlocks (T : ChannelType) (heap : Heap Allocator) :
    heap.next ≤ (readBlocks T (heap.alloc .enetHeap)).next := by
  unfold readBlocks
  split
  · exact Nat.le_succ heap.next
  · exact Nat.le_add_right heap.next 2
  · exact Nat.le_add_right heap.next 2

/-- A `DataPacket` whose handler keeps nothing leaves the live blocks. -/
theorem handleRegistered_givesBack {vtable : VTables} {fresh : Fresh} {side : Side}
    {r : Reception} (h : ¬Rejects r.type r.data) (hdata : IsDataPacket r.type)
    (hcalls : ∀ call ∈ r.calls, call.KeepsNothing) (heap : Heap Allocator) :
    ∃ after, handleRegistered vtable fresh side r heap = .ok after ∧
      GivesBack KeptOnPurpose heap after := by
  have hblocks : readBlocks r.type (heap.alloc .enetHeap) = heap.alloc .enetHeap := by
    rw [IsDataPacket] at hdata
    rw [readBlocks]
    cases hfamily : family r.type with
    | data members => rfl
    | log => rw [hfamily] at hdata; exact hdata.elim
    | array entry maxSize => rw [hfamily] at hdata; exact hdata.elim
  obtain ⟨mid, hmid, hback⟩ := handler_givesBack side hcalls (heap.alloc .enetHeap)
  rw [handleRegistered_of_not_rejects h, hblocks, hmid]
  exact hback.freed

/-- The text or the entries of a received packet stay behind. -/
theorem handleRegistered_leaks {vtable : VTables} {fresh : Fresh} {side : Side}
    {r : Reception} (h : ¬Rejects r.type r.data) (hdata : ¬IsDataPacket r.type)
    (hcalls : ∀ call ∈ r.calls, call.KeepsNothing) (heap : Heap Allocator) :
    ∃ after, handleRegistered vtable fresh side r heap = .ok after ∧
      ¬SameBlocks KeptOnPurpose heap after := by
  have hblocks : ∃ c, ¬KeptOnPurpose c ∧
      readBlocks r.type (heap.alloc .enetHeap) = (heap.alloc .enetHeap).alloc c := by
    rw [IsDataPacket] at hdata
    rw [readBlocks]
    cases hfamily : family r.type with
    | data members => rw [hfamily] at hdata; exact (hdata trivial).elim
    | log => exact ⟨.enetHeap, by decide, rfl⟩
    | array entry maxSize => exact ⟨.new, by decide, rfl⟩
  obtain ⟨c, hc, hblocks⟩ := hblocks
  obtain ⟨mid, hmid, hback⟩ := handler_givesBack side hcalls ((heap.alloc .enetHeap).alloc c)
  rw [handleRegistered_of_not_rejects h, hblocks, hmid]
  exact GivesBack.leaked hc hback

/-- A handler that does not keep to the condition is seen behind `handlePacket`. -/
theorem handleRegistered_spoils {vtable : VTables} {fresh : Fresh} {side : Side} {r : Reception}
    (h : ¬Rejects r.type r.data) (hcalls : ¬∀ call ∈ r.calls, call.KeepsNothing)
    {start heap : Heap Allocator} (hle : start.next ≤ heap.next) :
    (handleRegistered vtable fresh side r heap).Spoils (Leaves IsNew start) := by
  rw [handleRegistered_of_not_rejects h]
  have hstart := Nat.le_trans hle (next_le_readBlocks r.type heap)
  exact (handler_spoils side hcalls hstart).andThen fun _ hleft =>
    hleft.free enetHeap_not_isNew _

/-- A handler on a thread of its own handles a `DataPacket`. -/
theorem isDataPacket_of_separateThread {side : Side} {entry : PacketHandlerEntry}
    (hmem : entry ∈ sEntries side) (h : entry.useSeparateThread = true) :
    IsDataPacket entry.type := by
  have hall : ∀ side, ∀ entry ∈ sEntries side, entry.useSeparateThread = true →
      IsDataPacket entry.type := by
    intro side
    cases side <;> decide
  exact hall side entry hmem h

/-- The entry that is found is the one of the channel. -/
theorem entry_of_find? {side : Side} {T : ChannelType} {entry : PacketHandlerEntry}
    (h : (sEntries side).find? (fun entry => decide (entry.type = T)) = some entry) :
    entry ∈ sEntries side ∧ entry.type = T := by
  have hfound := List.find?_some h
  exact ⟨List.mem_of_find?_eq_some h, by simpa only [decide_eq_true_eq] using hfound⟩

/-- A handler runs on the bytes of a packet or on a copy of them. -/
theorem handlePacket_of_find? {vtable : VTables} {fresh : Fresh} {side : Side} {r : Reception}
    {heap : Heap Allocator} {entry : PacketHandlerEntry}
    (h : (sEntries side).find? (fun entry => decide (entry.type = r.type)) = some entry) :
    handlePacket vtable fresh side r heap =
      if entry.useSeparateThread then
        (handleRegistered vtable fresh side r (heap.alloc .enetHeap)).andThen
          fun after => after.free .enetHeap ⟨heap.nextBlock .enetHeap, 0⟩
      else handleRegistered vtable fresh side r heap := by
  rw [handlePacket, h]

/-- A packet that is accepted leaves the live blocks exactly when it is a `DataPacket` whose
handler keeps nothing. -/
theorem handlePacket_safe_iff {vtable : VTables} {fresh : Fresh} {side : Side} {r : Reception}
    {heap : Heap Allocator} {entry : PacketHandlerEntry}
    (h : (sEntries side).find? (fun entry => decide (entry.type = r.type)) = some entry)
    (hread : ¬Rejects r.type r.data) :
    (handlePacket vtable fresh side r heap).Safe (SameBlocks KeptOnPurpose heap) ↔
      IsDataPacket r.type ∧ ∀ call ∈ r.calls, call.KeepsNothing := by
  obtain ⟨hmem, htype⟩ := entry_of_find? h
  rw [handlePacket_of_find? h]
  by_cases hcalls : ∀ call ∈ r.calls, call.KeepsNothing
  · by_cases hdata : IsDataPacket r.type
    · refine iff_of_true ?_ ⟨hdata, hcalls⟩
      split
      · obtain ⟨mid, hmid, hback⟩ :=
          handleRegistered_givesBack hread hdata hcalls (heap.alloc .enetHeap)
        obtain ⟨after, hafter, hfreed⟩ := hback.freed
        rw [hmid, Outcome.andThen, hafter]
        exact hfreed.toSameBlocks
      · obtain ⟨after, hafter, hback⟩ := handleRegistered_givesBack hread hdata hcalls heap
        rw [hafter]
        exact hback.toSameBlocks
    · refine iff_of_false ?_ fun hboth => hdata hboth.1
      have hthread : ¬entry.useSeparateThread = true :=
        fun hthread => hdata (htype ▸ isDataPacket_of_separateThread hmem hthread)
      obtain ⟨after, hafter, hleak⟩ := handleRegistered_leaks hread hdata hcalls heap
      rw [if_neg hthread, hafter]
      exact hleak
  · refine iff_of_false ?_ fun hboth => hcalls hboth.2
    have hnew : ∀ after, Leaves IsNew heap after → ¬SameBlocks KeptOnPurpose heap after :=
      fun after => Leaves.not_sameBlocks fun a ha hkept => nomatch ha.symm.trans hkept
    refine Outcome.Spoils.not_safe ?_ hnew
    split
    · exact (handleRegistered_spoils hread hcalls (Nat.le_succ heap.next)).andThen
        fun _ hleft => hleft.free enetHeap_not_isNew _
    · exact handleRegistered_spoils hread hcalls (Nat.le_refl heap.next)

/-- An accepted packet has an entry with its handler. -/
theorem find?_of_accepts {side : Side} {r : Reception} (h : Accepts side r) :
    ∃ entry, (sEntries side).find? (fun entry => decide (entry.type = r.type)) = some entry := by
  obtain ⟨entry, hentry, htype⟩ := List.mem_map.mp h.1
  refine Option.isSome_iff_exists.mp (List.find?_isSome.mpr ⟨entry, hentry, ?_⟩)
  exact decide_eq_true htype

/-- A packet without a handler, or one that the decoder rejects, aborts the program. -/
theorem handlePacket_aborts_iff {vtable : VTables} {fresh : Fresh} {side : Side} {r : Reception}
    (h : ¬Accepts side r) {heap : Heap Allocator} (P : Heap Allocator → Prop) :
    (handlePacket vtable fresh side r heap).Safe P ↔ (side = .client → r.isConnected = false) := by
  cases hfind : (sEntries side).find? fun entry => decide (entry.type = r.type) with
  | none =>
    rw [handlePacket, hfind]
    exact penetAbort_safe_iff side r.isConnected r.sends heap P
  | some entry =>
    have hregistered : r.type ∈ (sEntries side).map PacketHandlerEntry.type :=
      List.mem_map.mpr ⟨entry, entry_of_find? hfind⟩
    have hrejects : Rejects r.type r.data := not_not.mp fun hread => h ⟨hregistered, hread⟩
    rw [handlePacket_of_find? hfind]
    split
    · rw [handleRegistered_of_rejects hrejects, penetAbort_andThen]
      exact penetAbort_safe_iff side r.isConnected r.sends _ P
    · rw [handleRegistered_of_rejects hrejects]
      exact penetAbort_safe_iff side r.isConnected r.sends _ P

/-- A use of a packet follows the rule of ownership exactly when no log packet is sent, also by
a client that aborts, and what is accepted is a `DataPacket` whose handler keeps no block. -/
theorem ownership_iff (vtable : VTables) (fresh : Fresh) (side : Side) (heap : Heap Allocator)
    (use : PacketUse) :
    FollowsOwnership vtable fresh side heap use ↔ FreesWhatItOwns side use := by
  cases use with
  | receive r =>
    dsimp only [FollowsOwnership, FreesWhatItOwns]
    by_cases haccepts : Accepts side r
    · obtain ⟨entry, hfind⟩ := find?_of_accepts haccepts
      rw [handlePacket_safe_iff hfind haccepts.2]
      exact ⟨fun h => ⟨fun _ => h, fun hnot => absurd haccepts hnot⟩, fun h => h.1 haccepts⟩
    · rw [handlePacket_aborts_iff haccepts]
      exact ⟨fun h => ⟨fun hyes => absurd hyes haccepts, fun _ => h⟩, fun h => h.2 haccepts⟩
  | send sending =>
    dsimp only [FollowsOwnership, FreesWhatItOwns]
    by_cases hlog : sending.IsLogPacket
    · rw [lifetime_log side hlog heap]
      exact iff_of_false id fun h => h hlog
    · obtain ⟨after, hafter, hback⟩ := lifetime_givesBack side hlog heap
      rw [hafter]
      exact iff_of_true hback.survive hlog

/-- An empty player list that the client receives leaves its entries behind, so does a log
packet that the server receives with its text, and a log packet that the client sends frees
a line of the log in the ENet heap. -/
theorem list_and_log_break_ownership :
    ¬FollowsOwnership (fun _ => ByteBuffer.Buffer.zero 8) (fun _ => ByteBuffer.Buffer.zero _)
        .client .empty (.receive ⟨.ToC_PlayerList, [0, 0, 0, 0], [], true, true⟩) ∧
      ¬FollowsOwnership (fun _ => ByteBuffer.Buffer.zero 8) (fun _ => ByteBuffer.Buffer.zero _)
        .server .empty (.receive ⟨.ToS_Log, [0, 65, 0], [], true, true⟩) ∧
      ¬FollowsOwnership (fun _ => ByteBuffer.Buffer.zero 8) (fun _ => ByteBuffer.Buffer.zero _)
        .client .empty (.send ⟨.log 0 [65], true, true⟩) := by
  refine ⟨?_, ?_, ?_⟩
  · intro h
    have hleft : SameBlocks KeptOnPurpose .empty _ := h
    exact absurd (hleft.only ⟨.new, 1⟩ (by decide)) (by decide)
  · intro h
    have hleft : SameBlocks KeptOnPurpose .empty _ := h
    exact absurd (hleft.only ⟨.enetHeap, 1⟩ (by decide)) (by decide)
  · exact fun h => h

end BfMultiplayer.PacketOwnership

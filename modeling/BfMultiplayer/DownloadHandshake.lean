import BfMultiplayer.GuardedRuns
import BfMultiplayer.SaveChunkRules

/-!
# Downloading the save while connecting

The menu waits for the network thread to be connected and clears the download
buffer in the first frame of its next state. By then the network thread may
have greeted the server and handled chunks, and the server sends each chunk
once. While the connection stays up, a download ends with all flags set exactly
when no chunk was handled before that frame.
-/

namespace BfMultiplayer.DownloadHandshake

open ByteBuffer Packets ServerState ServerHandlers SaveChunkRules GuardedRuns

/-- The states of the menu on the way to a connection. -/
inductive TopMenuNerve where
  /-- `exeConnect`. -/
  | connect
  /-- `exeDownloadSave`, before its first frame or after it. -/
  | downloadSave (isFirstStep : Bool)
  /-- `exeConnectEnd`. -/
  | connectEnd
  deriving DecidableEq

/-- The states of the network thread while the connection stays up. -/
inductive NetClientNerve where
  /-- `NetClient::exeConnect`. -/
  | connect
  /-- `NetClient::exeService`, before its first step or after it. -/
  | service (isFirstStep : Bool)
  deriving DecidableEq

/-- A connecting client and the upload thread the server starts for it. -/
structure Handshake where
  /-- State of the menu. -/
  menu : TopMenuNerve
  /-- State of the network thread. -/
  net : NetClientNerve
  /-- The static variables of the download. -/
  sync : SaveDataSync
  /-- A `ToS_Hello` is on its way. -/
  hello : Bool
  /-- The server has started its upload thread. -/
  uploading : Bool
  /-- How many chunks the upload thread has sent. -/
  sent : ℕ
  /-- The chunks on their way, oldest first. -/
  inFlight : List SaveDataChunk
  /-- How many chunks were handled. -/
  handled : ℕ
  /-- How many of them before the first frame of `exeDownloadSave`. -/
  early : ℕ

/-- What can happen next. -/
inductive HandshakeAction where
  /-- The game thread runs a frame of the menu. -/
  | frame
  /-- The network thread sees the connection. -/
  | connected
  /-- The first step of `exeService`. -/
  | greet
  /-- The server handles the greeting. -/
  | serveGreet
  /-- The upload thread sends its next chunk of the save as it is then. -/
  | sendChunk (data : ServerSaveData)
  /-- The network thread handles the next chunk. -/
  | handle

/-- `NetClient::isConnected`. -/
def isConnected : NetClientNerve → Bool
  | .connect => false
  | .service _ => true

/-- The flag that `exeDownloadSave` computes from the chunk flags. -/
def isComplete (st : SaveDataSync) : Bool :=
  (List.finRange 8).all fun i => st.sCachedSaveFileAck i

/-- One frame of the menu. -/
def menuFrame (hs : Handshake) : Handshake :=
  match hs.menu with
  | .connect => if isConnected hs.net then { hs with menu := .downloadSave true } else hs
  | .downloadSave isFirstStep =>
    let sync := if isFirstStep then resetSaveDataBuffer else hs.sync
    { hs with
      sync := sync
      menu := if isComplete sync then .connectEnd else .downloadSave false }
  | .connectEnd => hs

/-- The first frame of `exeDownloadSave` is over. -/
def pastFirstFrame : TopMenuNerve → Bool
  | .connect => false
  | .downloadSave isFirstStep => !isFirstStep
  | .connectEnd => true

/-- One step of the game thread, the network thread or the server. -/
def handshakeStep (hs : Handshake) : HandshakeAction → Option Handshake
  | .frame => some (menuFrame hs)
  | .connected =>
    if hs.net = .connect then some { hs with net := .service true } else none
  | .greet =>
    if hs.net = .service true then some { hs with net := .service false, hello := true }
    else none
  | .serveGreet =>
    if hs.hello = true then some { hs with hello := false, uploading := true } else none
  | .sendChunk data =>
    if h : hs.uploading = true ∧ hs.sent < 8 then
      (uploadSaveThread data ⟨hs.sent, h.2⟩).map fun chunk =>
        { hs with sent := hs.sent + 1, inFlight := hs.inFlight ++ [chunk] }
    else none
  | .handle =>
    match hs.net, hs.inFlight with
    | .service false, chunk :: inFlight =>
      (handle_SaveDataChunk hs.sync chunk).map fun sync =>
        { hs with
          sync := sync
          inFlight := inFlight
          handled := hs.handled + 1
          early := hs.early + if pastFirstFrame hs.menu then 0 else 1 }
    | _, _ => none

/-- A client whose menu begins to connect, with what an earlier download left. -/
def Handshake.start (sync : SaveDataSync) : Handshake :=
  ⟨.connect, .connect, sync, false, false, 0, [], 0, 0⟩

/-- Everything is delivered, the menu waits for the chunks, and a flag is not
set. -/
def Handshake.Lost (hs : Handshake) : Prop :=
  hs.handled = 8 ∧ pastFirstFrame hs.menu = true ∧ ∃ i, hs.sync.sCachedSaveFileAck i = false

instance (hs : Handshake) : Decidable hs.Lost := inferInstanceAs (Decidable (_ ∧ _ ∧ _))

/-- The condition on a step: chunks are handled after the first frame of
`exeDownloadSave`. -/
def HandledAfterReset (hs : Handshake) : HandshakeAction → Prop
  | .handle => pastFirstFrame hs.menu = true
  | _ => True

instance (hs : Handshake) : ∀ action, Decidable (HandledAfterReset hs action)
  | .handle => inferInstanceAs (Decidable (_ = _))
  | .frame => inferInstanceAs (Decidable True)
  | .connected => inferInstanceAs (Decidable True)
  | .greet => inferInstanceAs (Decidable True)
  | .serveGreet => inferInstanceAs (Decidable True)
  | .sendChunk _ => inferInstanceAs (Decidable True)

/-- Chunks in order from one index on, as an upload thread sends them. -/
def InOrder : ℕ → List SaveDataChunk → Prop
  | _, [] => True
  | k, chunk :: chunks =>
    chunk.chunkIndex = k ∧ chunk.size.toNat ≤ sSaveDataChunkSize ∧ InOrder (k + 1) chunks

/-- What holds along a handshake. -/
structure HandshakeInv (hs : Handshake) : Prop where
  /-- The chunks on their way follow those that were handled. -/
  inOrder : InOrder hs.handled hs.inFlight
  /-- They are the rest of those that were sent. -/
  sent : hs.handled + hs.inFlight.length = hs.sent
  /-- No more than eight are sent. -/
  bounded : hs.sent ≤ 8
  /-- No more are handled early than at all. -/
  early : hs.early ≤ hs.handled
  /-- Before the reset all of them are early. -/
  before : pastFirstFrame hs.menu = false → hs.early = hs.handled
  /-- After it the flags are those of the later ones. -/
  after : pastFirstFrame hs.menu = true →
    ∀ i : Fin 8, hs.sync.sCachedSaveFileAck i = true ↔ hs.early ≤ i.val ∧ i.val < hs.handled

/-- The next chunk in order goes to the end. -/
theorem InOrder.append {k : ℕ} {chunks : List SaveDataChunk} {chunk : SaveDataChunk}
    (h : InOrder k chunks) (hindex : chunk.chunkIndex = (k + chunks.length : ℕ))
    (hsize : chunk.size.toNat ≤ sSaveDataChunkSize) : InOrder k (chunks ++ [chunk]) := by
  induction chunks generalizing k with
  | nil => exact ⟨hindex, hsize, trivial⟩
  | cons first chunks ih =>
    obtain ⟨hfirst, hfirstSize, hrest⟩ := h
    refine ⟨hfirst, hfirstSize, ih hrest ?_⟩
    rw [hindex, List.length_cons]
    omega

/-- A handled chunk of an upload sets its flag and no other. -/
theorem handle_SaveDataChunk_ack {st next : SaveDataSync} {chunk : SaveDataChunk} {i : Fin 8}
    (h : handle_SaveDataChunk st chunk = some next) (hindex : chunk.chunkIndex = i.val)
    (hsize : chunk.size.toNat ≤ sSaveDataChunkSize) :
    next.sCachedSaveFileAck = Function.update st.sCachedSaveFileAck i true := by
  have hslot : chunkSlot chunk = some i := chunkSlot_eq_some_iff.mpr hindex
  have hfits : ¬chunk.size.toNat > sSaveDataChunkSize := by omega
  simp only [handle_SaveDataChunk, hslot, if_neg hfits] at h
  obtain ⟨buffer, -, rfl⟩ := Option.map_eq_some_iff.mp h
  rfl

/-- A frame of the menu keeps the invariant: the first one of
`exeDownloadSave` clears the flags, and all chunks handled so far are early. -/
theorem handshakeInv_frame {hs : Handshake} (h : HandshakeInv hs) : HandshakeInv (menuFrame hs) := by
  unfold menuFrame
  cases hmenu : hs.menu with
  | connect =>
    have hearly := h.before (by rw [hmenu]; rfl)
    dsimp only
    split
    · exact ⟨h.inOrder, h.sent, h.bounded, h.early, fun _ => hearly, fun hp => by cases hp⟩
    · exact h
  | downloadSave isFirstStep =>
    cases isFirstStep with
    | true =>
      have hearly := h.before (by rw [hmenu]; rfl)
      refine ⟨h.inOrder, h.sent, h.bounded, h.early, fun _ => hearly, fun _ i => ?_⟩
      dsimp only [if_true, resetSaveDataBuffer]
      refine iff_of_false Bool.false_ne_true fun hi => ?_
      omega
    | false =>
      have hpast : pastFirstFrame hs.menu = true := by rw [hmenu]; rfl
      have hnext : pastFirstFrame
          (if isComplete hs.sync = true then .connectEnd else .downloadSave false) = true := by
        split <;> rfl
      refine ⟨h.inOrder, h.sent, h.bounded, h.early, fun hp => ?_, fun _ => h.after hpast⟩
      cases hnext.symm.trans hp
  | connectEnd => exact h

/-- The next chunk that is sent keeps the invariant. -/
theorem handshakeInv_sendChunk {hs : Handshake} (h : HandshakeInv hs) {chunk : SaveDataChunk}
    (hindex : chunk.chunkIndex = hs.sent) (hsize : chunk.size.toNat ≤ sSaveDataChunkSize)
    (hopen : hs.sent < 8) :
    HandshakeInv { hs with sent := hs.sent + 1, inFlight := hs.inFlight ++ [chunk] } := by
  have hsent := h.sent
  refine ⟨h.inOrder.append ?_ hsize, ?_, hopen, h.early, h.before, h.after⟩
  · rw [hsent]
    exact hindex
  · dsimp only
    rw [List.length_append, List.length_singleton]
    omega

/-- The oldest chunk that is handled keeps the invariant: it is early before the
reset and sets its flag after it. -/
theorem handshakeInv_handle {hs : Handshake} (h : HandshakeInv hs) {chunk : SaveDataChunk}
    {inFlight : List SaveDataChunk} (hflight : hs.inFlight = chunk :: inFlight)
    {sync : SaveDataSync} (hhandle : handle_SaveDataChunk hs.sync chunk = some sync) :
    HandshakeInv { hs with
      sync := sync
      inFlight := inFlight
      handled := hs.handled + 1
      early := hs.early + if pastFirstFrame hs.menu then 0 else 1 } := by
  have horder := h.inOrder
  have hsent := h.sent
  have hbounded := h.bounded
  have hearly := h.early
  rw [hflight] at horder hsent
  rw [List.length_cons] at hsent
  obtain ⟨hindex, hsize, hrest⟩ := horder
  have hlt : hs.handled < 8 := by omega
  have hack := handle_SaveDataChunk_ack (i := ⟨hs.handled, hlt⟩) hhandle hindex hsize
  refine ⟨hrest, by dsimp only; omega, hbounded, ?_, fun hp => ?_, fun hp i => ?_⟩
  · dsimp only
    split <;> omega
  · have hbefore := h.before hp
    dsimp only at hp ⊢
    rw [hp, if_neg Bool.false_ne_true]
    omega
  · dsimp only at hp ⊢
    rw [hp, if_pos rfl, hack, Nat.add_zero]
    by_cases hi : i = ⟨hs.handled, hlt⟩
    · rw [hi, Function.update_self]
      refine iff_of_true rfl ?_
      dsimp only
      omega
    · have hv : i.val ≠ hs.handled := fun he => hi (Fin.ext he)
      rw [Function.update_of_ne hi, h.after hp i]
      omega

/-- A step keeps the invariant. -/
theorem handshakeInv_step {hs next : Handshake} {action : HandshakeAction} (h : HandshakeInv hs)
    (hstep : handshakeStep hs action = some next) : HandshakeInv next := by
  cases action with
  | frame =>
    cases hstep
    exact handshakeInv_frame h
  | connected =>
    simp only [handshakeStep] at hstep
    split at hstep <;> cases hstep
    exact ⟨h.inOrder, h.sent, h.bounded, h.early, h.before, h.after⟩
  | greet =>
    simp only [handshakeStep] at hstep
    split at hstep <;> cases hstep
    exact ⟨h.inOrder, h.sent, h.bounded, h.early, h.before, h.after⟩
  | serveGreet =>
    simp only [handshakeStep] at hstep
    split at hstep <;> cases hstep
    exact ⟨h.inOrder, h.sent, h.bounded, h.early, h.before, h.after⟩
  | sendChunk data =>
    simp only [handshakeStep] at hstep
    split at hstep
    · rename_i hopen
      obtain ⟨chunk, hchunk, rfl⟩ := Option.map_eq_some_iff.mp hstep
      obtain ⟨hindex, -, hsize, -⟩ := uploadChunk_spec hchunk
      exact handshakeInv_sendChunk h hindex hsize hopen.2
    · cases hstep
  | handle =>
    simp only [handshakeStep] at hstep
    split at hstep
    · rename_i chunk inFlight _ hflight
      obtain ⟨sync, hhandle, rfl⟩ := Option.map_eq_some_iff.mp hstep
      exact handshakeInv_handle h hflight hhandle
    · cases hstep

/-- No chunk is early in the steps that meet the condition. -/
theorem early_of_handledAfterReset {hs next : Handshake} {action : HandshakeAction}
    (hstep : handshakeStep hs action = some next) (hguard : HandledAfterReset hs action) :
    next.early = hs.early := by
  cases action with
  | frame =>
    cases hstep
    unfold menuFrame
    split
    · split <;> rfl
    · rfl
    · rfl
  | handle =>
    have hp : pastFirstFrame hs.menu = true := hguard
    simp only [handshakeStep, hp, if_true, Nat.add_zero] at hstep
    split at hstep
    · obtain ⟨sync, -, rfl⟩ := Option.map_eq_some_iff.mp hstep
      rfl
    · cases hstep
  | sendChunk data =>
    simp only [handshakeStep] at hstep
    split at hstep
    · obtain ⟨chunk, -, rfl⟩ := Option.map_eq_some_iff.mp hstep
      rfl
    · cases hstep
  | _ =>
    simp only [handshakeStep] at hstep
    split at hstep <;> cases hstep
    rfl

/-- A step that breaks the condition handles an early chunk. -/
theorem early_of_not_handledAfterReset {hs next : Handshake} {action : HandshakeAction}
    (hstep : handshakeStep hs action = some next) (hguard : ¬HandledAfterReset hs action) :
    hs.early < next.early := by
  cases action with
  | handle =>
    have hp : ¬pastFirstFrame hs.menu = true := hguard
    simp only [handshakeStep, if_neg hp] at hstep
    split at hstep
    · obtain ⟨sync, -, rfl⟩ := Option.map_eq_some_iff.mp hstep
      exact Nat.lt_succ_self hs.early
    · cases hstep
  | _ => exact absurd trivial hguard

/-- In every run with all eight chunks handled and the menu past the first frame
of `exeDownloadSave`, all flags are set exactly when no chunk was handled before
that frame. -/
theorem download_kept_iff (sync : SaveDataSync) (actions : List HandshakeAction) (hs : Handshake)
    (hrun : run handshakeStep (.start sync) actions = some hs) (hhandled : hs.handled = 8)
    (hpast : pastFirstFrame hs.menu = true) :
    ¬hs.Lost ↔ Along HandledAfterReset handshakeStep (.start sync) actions := by
  have hstart : HandshakeInv (.start sync) :=
    ⟨trivial, rfl, Nat.zero_le 8, le_rfl, fun _ => rfl, fun hp => by cases hp⟩
  have hinv := run_invariant_of_step (fun _ _ _ => handshakeInv_step) hstart hrun
  have hkeeps : ∀ before action after, handshakeStep before action = some after →
      HandledAfterReset before action → after.early = before.early :=
    fun _ _ _ => early_of_handledAfterReset
  have hcount := (count_eq_iff_along hkeeps
    (fun _ _ _ => early_of_not_handledAfterReset) hrun).2
  have hflags := hinv.after hpast
  rw [← hcount]
  constructor
  · intro hkept
    by_contra hearly
    have hfirst : hs.sync.sCachedSaveFileAck 0 = false := by
      rw [← Bool.not_eq_true, hflags 0]
      intro h
      exact hearly (Nat.le_zero.mp h.1)
    exact hkept ⟨hhandled, hpast, 0, hfirst⟩
  · intro hearly hlost
    obtain ⟨-, -, i, hi⟩ := hlost
    have hset := (hflags i).mpr ⟨by rw [hearly]; exact Nat.zero_le _, by rw [hhandled]; exact i.isLt⟩
    rw [hset] at hi
    cases hi

/-- A save for concrete runs. -/
def someSave : ServerSaveData := .fresh (Buffer.zero sharedSaveCapacity)

/-- The menu runs its first frame before the greeting is sent. -/
def frameFirst : List HandshakeAction :=
  [.connected, .frame, .frame, .greet, .serveGreet, .sendChunk someSave, .sendChunk someSave,
    .handle, .frame, .sendChunk someSave, .sendChunk someSave, .sendChunk someSave,
    .sendChunk someSave, .sendChunk someSave, .sendChunk someSave, .handle, .handle, .handle,
    .handle, .handle, .handle, .handle, .frame]

/-- Then nothing is lost, and the menu goes on. -/
theorem download_kept_frame_first :
    ∃ hs, run handshakeStep (.start resetSaveDataBuffer) frameFirst = some hs ∧
      hs.menu = .connectEnd ∧ ¬hs.Lost := by
  have hrun : ∃ hs, run handshakeStep (.start resetSaveDataBuffer) frameFirst = some hs ∧
      hs.menu = .connectEnd ∧ hs.handled = 8 ∧ pastFirstFrame hs.menu = true :=
    run_reaches (by decide)
  obtain ⟨hs, hhs, hend, hhandled, hpast⟩ := hrun
  exact ⟨hs, hhs, hend,
    (download_kept_iff resetSaveDataBuffer _ hs hhs hhandled hpast).mpr (by decide)⟩

/-- The network thread connects, greets and handles a chunk between two frames
of the menu, whose next state then clears the flag of that chunk. -/
theorem early_chunk_is_lost :
    ∃ hs, run handshakeStep (.start resetSaveDataBuffer)
        [.frame, .connected, .greet, .serveGreet, .sendChunk someSave, .handle, .frame, .frame,
          .sendChunk someSave, .sendChunk someSave, .sendChunk someSave, .sendChunk someSave,
          .sendChunk someSave, .sendChunk someSave, .sendChunk someSave, .handle, .handle,
          .handle, .handle, .handle, .handle, .handle] = some hs ∧ hs.Lost :=
  run_reaches (by decide)

end BfMultiplayer.DownloadHandshake

import BfMultiplayer.GuardedRuns
import BfMultiplayer.SavePasses

/-!
# What a client uploads

The game thread replaces the save and requests an upload, the network thread
stores chunks into the same buffer, and the upload thread reads the buffer and
its size anew for each of its eight chunks, with pauses in between and without
a lock. A pass that nothing is written into, where it has already sent, uploads
one save, provided that the size of its last chunk is the rest of the save.
-/

namespace BfMultiplayer.UploadSnapshot

open ByteBuffer Packets ServerHandlers SaveChunkRules GuardedRuns SavePasses

/-- The save that the game hands to the write hook. -/
structure SaveDataSequenceWrite where
  /-- Its size. -/
  mSaveBufferSize : ℕ
  /-- Its bytes. -/
  mSaveBuffer : Buffer mSaveBufferSize

/-- `saveDataSequenceWriteHook` in server mode, apart from the cache file, and
whether it requests an upload; undefined when the copy leaves the buffer. -/
def saveDataSequenceWriteHook (st : SaveDataSync) (save : SaveDataSequenceWrite) :
    Option (SaveDataSync × Bool) :=
  if save.mSaveBufferSize = 0 then some (st, false)
  else (memcpy st.sCachedSaveFileWorkBuffer 0 save.mSaveBuffer 0 save.mSaveBufferSize).map
    fun buffer => ({ st with
      sCachedSaveFileWorkBuffer := buffer
      sCachedSaveFileSize := save.mSaveBufferSize }, true)

/-- The save as the upload thread reads it. -/
def cachedSave (st : SaveDataSync) : SaveValue cachedSaveCapacity :=
  ⟨st.sCachedSaveFileWorkBuffer, st.sCachedSaveFileSize⟩

/-- A client with its upload thread. -/
structure UploadSystem where
  /-- The static variables. -/
  sync : SaveDataSync
  /-- The event of the upload thread is signaled. -/
  mEvent : Bool
  /-- The loop of the upload thread. -/
  loop : UploadLoop cachedSaveCapacity

/-- What can happen next. -/
inductive UploadAction where
  /-- The game writes a save. -/
  | write (save : SaveDataSequenceWrite)
  /-- The network thread handles a chunk. -/
  | chunk (packet : SaveDataChunk)
  /-- The upload thread is woken by its event. -/
  | wake
  /-- The upload thread sends its next chunk. -/
  | send

/-- The static variables change, during a pass or not. -/
def UploadSystem.put (sys : UploadSystem) (sync : SaveDataSync) : UploadSystem :=
  { sys with sync := sync, loop := sys.loop.observe (cachedSave sync) }

/-- One step of one of the three threads. -/
def uploadStep (sys : UploadSystem) : UploadAction → Option UploadSystem
  | .write save => (saveDataSequenceWriteHook sys.sync save).map fun result =>
    { sys.put result.1 with mEvent := sys.mEvent || result.2 }
  | .chunk packet => (handle_SaveDataChunk sys.sync packet).map sys.put
  | .wake =>
    if sys.mEvent = true ∧ sys.loop.pass.isNone = true then
      some { sys with mEvent := false, loop := sys.loop.enter (cachedSave sys.sync) }
    else none
  | .send => (sys.loop.send (cachedSave sys.sync)).map fun loop => { sys with loop := loop }

/-- A client whose upload thread waits. -/
def UploadSystem.start (sync : SaveDataSync) : UploadSystem := ⟨sync, false, .waiting⟩

/-- The condition on a step: a write does not change a byte that the running
pass has sent, and the size of a last chunk is the rest of the save. -/
def KeepsPass (sys : UploadSystem) : UploadAction → Prop
  | .write save => sys.loop.KeepsSent sys.sync.sCachedSaveFileWorkBuffer save.mSaveBuffer 0
    save.mSaveBufferSize
  | .chunk packet => ∀ slot ∈ chunkSlot packet, packet.size.toNat ≤ sSaveDataChunkSize →
    sys.loop.KeepsSent sys.sync.sCachedSaveFileWorkBuffer packet.data (sSaveDataChunkSize * slot)
      packet.size.toNat
  | .wake => True
  | .send => sys.loop.EndsExact sys.sync.sCachedSaveFileSize

instance (sys : UploadSystem) : ∀ action, Decidable (KeepsPass sys action)
  | .write _ => inferInstanceAs (Decidable (sys.loop.KeepsSent _ _ _ _))
  | .chunk packet => inferInstanceAs (Decidable (∀ slot ∈ chunkSlot packet, _))
  | .wake => inferInstanceAs (Decidable True)
  | .send => inferInstanceAs (Decidable (sys.loop.EndsExact _))

/-- A write under the condition keeps the bytes that the running pass sent. -/
theorem hook_keeps {st next : SaveDataSync} {request : Bool} {save : SaveDataSequenceWrite}
    {sent : List SaveDataChunk} (h : saveDataSequenceWriteHook st save = some (next, request))
    (hkeep : KeepsSent st.sCachedSaveFileWorkBuffer sent save.mSaveBuffer 0
      save.mSaveBufferSize) : ∀ j < sSaveDataChunkSize * sent.length,
      byteAt next.sCachedSaveFileWorkBuffer j = byteAt st.sCachedSaveFileWorkBuffer j := by
  unfold saveDataSequenceWriteHook at h
  split at h
  · cases h
    exact fun _ _ => rfl
  · obtain ⟨buffer, hcopy, he⟩ := Option.map_eq_some_iff.mp h
    cases he
    exact byteAt_of_keepsSent hcopy hkeep

/-- So does a chunk. -/
theorem chunk_keeps {st next : SaveDataSync} {packet : SaveDataChunk} {sent : List SaveDataChunk}
    (h : handle_SaveDataChunk st packet = some next)
    (hkeep : ∀ slot ∈ chunkSlot packet, packet.size.toNat ≤ sSaveDataChunkSize →
      KeepsSent st.sCachedSaveFileWorkBuffer sent packet.data (sSaveDataChunkSize * slot)
        packet.size.toNat) : ∀ j < sSaveDataChunkSize * sent.length,
      byteAt next.sCachedSaveFileWorkBuffer j = byteAt st.sCachedSaveFileWorkBuffer j := by
  unfold handle_SaveDataChunk at h
  split at h
  · cases h
    exact fun _ _ => rfl
  · rename_i slot hslot
    split at h
    · cases h
      exact fun _ _ => rfl
    · obtain ⟨buffer, hcopy, he⟩ := Option.map_eq_some_iff.mp h
      cases he
      exact byteAt_of_keepsSent hcopy (hkeep slot hslot (by omega))

/-- A step under the condition keeps the loop sound. -/
theorem sound_step {sys next : UploadSystem} {action : UploadAction}
    (h : sys.loop.Sound (cachedSave sys.sync)) (hguard : KeepsPass sys action)
    (hstep : uploadStep sys action = some next) : next.loop.Sound (cachedSave next.sync) := by
  cases action with
  | write save =>
    obtain ⟨⟨sync, request⟩, hhook, rfl⟩ := Option.map_eq_some_iff.mp hstep
    exact h.observe fun pass hpass => hook_keeps hhook (hguard pass hpass)
  | chunk packet =>
    obtain ⟨sync, hhandle, rfl⟩ := Option.map_eq_some_iff.mp hstep
    exact h.observe fun pass hpass => chunk_keeps hhandle fun slot hslot hsize =>
      hguard slot hslot hsize pass hpass
  | wake =>
    simp only [uploadStep] at hstep
    split at hstep
    · cases hstep
      exact h.enter
    · cases hstep
  | send =>
    obtain ⟨loop, hsend, rfl⟩ := Option.map_eq_some_iff.mp hstep
    exact h.send hguard hsend

/-- In every run in which nothing is written over what the running pass has
sent with other bytes, and the size of each last chunk is the rest of the save,
each pass of the upload loop sends the slices of one save that was current
during the pass. -/
theorem upload_is_snapshot (sync : SaveDataSync) (actions : List UploadAction)
    (sys : UploadSystem) (hguard : Along KeepsPass uploadStep (.start sync) actions)
    (hrun : run uploadStep (.start sync) actions = some sys) :
    ∀ pass ∈ sys.loop.ended, pass.Snapshot := by
  have hstart : (UploadSystem.start sync).loop.Sound (cachedSave sync) := UploadLoop.sound_waiting _
  have hkeeps : ∀ sys action next, sys.loop.Sound (cachedSave sys.sync) → KeepsPass sys action →
      uploadStep sys action = some next → next.loop.Sound (cachedSave next.sync) :=
    fun _ _ _ => sound_step
  exact (run_invariant hkeeps hstart hguard hrun).ended

/-- A save of one byte more than seven full chunks, filled with one byte. -/
def filledSave (byte : UInt8) : SaveDataSequenceWrite := ⟨59137, fun _ => byte⟩

/-- One byte at the beginning of the sixth chunk. -/
def behindChunk : SaveDataChunk := ⟨5, 1, Buffer.zero sSaveDataChunkSize⟩

/-- A pass, with a write before its first chunk and a chunk that arrives behind
it. -/
theorem upload_is_snapshot_one :
    ∃ sys, run uploadStep (.start resetSaveDataBuffer)
        [.write (filledSave 0), .wake, .write (filledSave 1), .send, .chunk behindChunk, .send,
          .send, .send, .send, .send, .send, .send] = some sys ∧
      sys.loop.ended.length = 1 ∧ ∀ pass ∈ sys.loop.ended, pass.Snapshot := by
  have hrun : ∃ sys, run uploadStep (.start resetSaveDataBuffer)
      [.write (filledSave 0), .wake, .write (filledSave 1), .send, .chunk behindChunk, .send,
        .send, .send, .send, .send, .send, .send] = some sys ∧ sys.loop.ended.length = 1 :=
    run_reaches (by decide)
  obtain ⟨sys, hsys, hone⟩ := hrun
  exact ⟨sys, hsys, hone, upload_is_snapshot resetSaveDataBuffer _ sys (by decide) hsys⟩

/-- The game writes another save after the first chunk of a pass: the pass
sends one chunk of the old save and seven of the new one. -/
theorem write_tears_upload :
    ∃ sys, run uploadStep (.start resetSaveDataBuffer)
        [.write (filledSave 0), .wake, .send, .write (filledSave 1), .send, .send, .send, .send,
          .send, .send, .send] = some sys ∧ ∃ pass ∈ sys.loop.ended, ¬pass.Snapshot := by
  have hrun : ∃ sys, run uploadStep (.start resetSaveDataBuffer)
      [.write (filledSave 0), .wake, .send, .write (filledSave 1), .send, .send, .send, .send,
        .send, .send, .send] = some sys ∧ ∃ pass ∈ sys.loop.ended, pass.Torn :=
    run_reaches (by decide)
  obtain ⟨sys, hsys, pass, hpass, htorn⟩ := hrun
  exact ⟨sys, hsys, pass, hpass, Pass.not_snapshot_of_torn htorn⟩

end BfMultiplayer.UploadSnapshot

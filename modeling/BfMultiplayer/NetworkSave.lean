import BfMultiplayer.MenuConnection
import BfMultiplayer.SaveTransfer

/-!
# The save that the scene loads

What the scene loads from the server is the beginning of a complete download, put
together from the chunks that were handled after the last address was accepted, where no
chunk is handled while a download is reset or its file is written.
-/

namespace BfMultiplayer.NetworkSave

open ByteBuffer Packets ServerState ServerHandlers SaveChunkRules SaveTransfer ServerAddress
  TopMenuScene MenuConnection GuardedRuns

/-- The step accepts an address. -/
def accepts : MenuAction → Bool
  | .keyboardDone closed str =>
    match enterIpCallback closed str with
    | .connect _ _ => true
    | _ => false
  | _ => false

/-- The chunk a step handles. -/
def chunkOf : MenuAction → Option SaveDataChunk
  | .handle packet => some packet
  | _ => none

/-- The chunks that steps handle. -/
def handled (actions : List MenuAction) : List SaveDataChunk := actions.filterMap chunkOf

/-- The state of a download that was reset and has handled what came after, with no
address accepted since. -/
def Fresh (past : List MenuAction) (sync : SaveDataSync) : Prop :=
  ∃ before during, past = before ++ during ∧ (∀ a ∈ during, accepts a = false) ∧
    run handle_SaveDataChunk resetSaveDataBuffer (handled during) = some sync

/-- The bytes of a download with all flags set, from steps that accept no address. -/
def Downloaded (past : List MenuAction) (file : List UInt8) : Prop :=
  ∃ before during after sync, past = before ++ during ++ after ∧
    (∀ a ∈ during, accepts a = false) ∧
    run handle_SaveDataChunk resetSaveDataBuffer (handled during) = some sync ∧
    (∀ i, sync.sCachedSaveFileAck i = true) ∧
    file = firstBytes sync.sCachedSaveFileWorkBuffer sync.sCachedSaveFileSize

/-- A download stays one. -/
theorem Downloaded.snoc {past : List MenuAction} {file : List UInt8} (h : Downloaded past file)
    (a : MenuAction) : Downloaded (past ++ [a]) file := by
  obtain ⟨before, during, after, sync, rfl, hrest⟩ := h
  exact ⟨before, during, after ++ [a], sync, List.append_assoc _ _ _, hrest⟩

/-- A fresh state after one more step. -/
theorem Fresh.snoc {past : List MenuAction} {sync next : SaveDataSync} {a : MenuAction}
    (h : Fresh past sync) (ha : accepts a = false)
    (hnext : run handle_SaveDataChunk sync (handled [a]) = some next) :
    Fresh (past ++ [a]) next := by
  obtain ⟨before, during, rfl, hquiet, hrun⟩ := h
  refine ⟨before, during ++ [a], List.append_assoc _ _ _, fun b hb => ?_, ?_⟩
  · rcases List.mem_append.mp hb with hold | hnew
    · exact hquiet b hold
    · rw [List.mem_singleton.mp hnew]
      exact ha
  · rw [handled, List.filterMap_append, run_append, ← handled, hrun]
    exact hnext

/-- The state right after a reset is fresh. -/
theorem fresh_reset (past : List MenuAction) : Fresh past resetSaveDataBuffer :=
  ⟨past, [], (List.append_nil past).symm, List.forall_mem_nil _, rfl⟩

/-- A fresh state with all flags set is a complete download. -/
theorem Fresh.downloaded {past : List MenuAction} {sync : SaveDataSync} (h : Fresh past sync)
    (hack : ∀ i, sync.sCachedSaveFileAck i = true) :
    Downloaded past (firstBytes sync.sCachedSaveFileWorkBuffer sync.sCachedSaveFileSize) := by
  obtain ⟨before, during, rfl, hquiet, hrun⟩ := h
  exact ⟨before, during, [], sync, (List.append_nil _).symm, hquiet, hrun, hack, rfl⟩

variable {Seen : Prop} {s next : MenuSystem}

/-- What is still to come of a handled chunk. -/
def finishChunk (sync : SaveDataSync) : ChunkPc → Option SaveDataSync
  | .idle => some sync
  | .copy slot packet =>
    (memcpy sync.sCachedSaveFileWorkBuffer (sSaveDataChunkSize * slot) packet.data 0
      packet.size.toNat).map fun buffer =>
        ⟨buffer, Function.update sync.sCachedSaveFileAck slot true, sync.sCachedSaveFileSize⟩
  | .acknowledge slot =>
    some { sync with sCachedSaveFileAck := Function.update sync.sCachedSaveFileAck slot true }

/-- In no chunk. -/
theorem isIdle_iff {chunk : ChunkPc} : chunk.isIdle = true ↔ chunk = .idle := by
  cases chunk <;> simp [ChunkPc.isIdle]

/-- The first part begins the handler. -/
theorem finish_handleChunk (hidle : s.chunk = .idle) (packet : SaveDataChunk) :
    finishChunk (handleChunk s packet).sync (handleChunk s packet).chunk =
      handle_SaveDataChunk s.sync packet := by
  unfold handleChunk handle_SaveDataChunk
  cases chunkSlot packet with
  | none =>
    dsimp only
    rw [hidle, finishChunk]
  | some slot =>
    dsimp only
    by_cases hsize : packet.size.toNat > sSaveDataChunkSize
    · rw [if_pos hsize, if_pos hsize, hidle, finishChunk]
    · rw [if_neg hsize, if_neg hsize]
      rfl

/-- The next parts go on with it. -/
theorem finish_handleResume (h : handleResume s = some next) :
    finishChunk next.sync next.chunk = finishChunk s.sync s.chunk := by
  unfold handleResume at h
  split at h
  · cases h
  · rename_i slot packet hchunk
    obtain ⟨buffer, hcopy, rfl⟩ := Option.map_eq_some_iff.mp h
    rw [hchunk, finishChunk, hcopy]
    rfl
  · rename_i slot hchunk
    cases h
    rw [hchunk]
    rfl

/-- A chunk that leaves the network thread in none changes nothing. -/
theorem handleChunk_idle {packet : SaveDataChunk}
    (h : (handleChunk s packet).chunk.isIdle = true) : handleChunk s packet = s := by
  unfold handleChunk at h ⊢
  split
  · rfl
  · rename_i slot hslot
    rw [hslot] at h
    dsimp only at h ⊢
    split
    · rfl
    · rename_i hsize
      rw [if_neg hsize] at h
      cases h

/-- In the reset of a download, or in the write of the file. -/
def inBuffer : FramePc → Bool
  | .resetAck _ => true
  | .resetSize _ => true
  | .writing _ => true
  | _ => false

/-- No chunk is handled while the menu resets the download or writes the file. -/
def Apart (s : MenuSystem) : Prop := inBuffer s.pc = true → s.chunk.isIdle = true

/-- In a frame of `exeDownloadSave` behind its first step. -/
def inDownload : FramePc → Bool
  | .downloadCheck => true
  | .readAck _ _ => true
  | _ => false

/-- The first step of `exeDownloadSave` is over. -/
def PastReset (s : MenuSystem) : Prop :=
  inDownload s.pc = true ∨ s.menu.nerve = .downloadSave ∧ 0 < s.menu.mStep

/-- The bytes that a read of a download gives, as far as it is long enough for the read. -/
def LoadedFrom (past : List MenuAction) (bytes : List UInt8) : Prop :=
  ∃ file, Downloaded past file ∧
    (mSaveBufferSize ≤ file.length → bytes = file.take mSaveBufferSize)

/-- They stay so. -/
theorem LoadedFrom.snoc {past : List MenuAction} {bytes : List UInt8} (h : LoadedFrom past bytes)
    (a : MenuAction) : LoadedFrom (past ++ [a]) bytes := by
  obtain ⟨file, hfile, hbytes⟩ := h
  exact ⟨file, hfile.snoc a, hbytes⟩

/-- The hook reads a download. -/
theorem Downloaded.loadedFrom {past : List MenuAction} {file : List UInt8}
    (h : Downloaded past file) (left : List UInt8) : LoadedFrom past (readFile file left) :=
  ⟨file, h, fun hlong => if_pos hlong⟩

/-- What holds of the download along a run whose chunks are apart from its resets. -/
structure DownloadInv (past : List MenuAction) (s : MenuSystem) : Prop where
  /-- In `exeDownloadSave` the download is fresh, once its chunk is handled. -/
  fresh : PastReset s → ∀ final, finishChunk s.sync s.chunk = some final → Fresh past final
  /-- A reset has cleared the buffer. -/
  cleared : ∀ lost, s.pc = .resetAck lost ∨ s.pc = .resetSize lost →
    s.sync.sCachedSaveFileWorkBuffer = Buffer.zero cachedSaveCapacity
  /-- And then the flags. -/
  unset : ∀ lost, s.pc = .resetSize lost → s.sync.sCachedSaveFileAck = fun _ => false
  /-- The file that is written is a download. -/
  writing : ∀ size, s.pc = .writing size →
    Downloaded past (firstBytes s.sync.sCachedSaveFileWorkBuffer size)
  /-- In `exeConnectEnd` it is the file. -/
  ended : s.menu.nerve = .connectEnd → Downloaded past s.remote
  /-- In `exeLoadNetworkSave`, too. -/
  loading : ∀ first, s.scene = .loadNetworkSave first → Downloaded past s.remote
  /-- What was read there is a download. -/
  read : s.scene = .loadNetworkSave false → ∀ bytes, s.sequence = .done bytes →
    LoadedFrom past bytes
  /-- What was loaded is a download. -/
  loaded : ∀ bytes, s.loaded = some bytes → LoadedFrom past bytes

variable {past : List MenuAction}

/-- The past grows. -/
theorem DownloadInv.snoc (h : DownloadInv past s) {a : MenuAction}
    (hfresh : PastReset s → ∀ final, finishChunk s.sync s.chunk = some final →
      Fresh (past ++ [a]) final) : DownloadInv (past ++ [a]) s where
  fresh := hfresh
  cleared := h.cleared
  unset := h.unset
  writing := fun size hw => (h.writing size hw).snoc a
  ended := fun hn => (h.ended hn).snoc a
  loading := fun first hs => (h.loading first hs).snoc a
  read := fun hs bytes hb => (h.read hs bytes hb).snoc a
  loaded := fun bytes hb => (h.loaded bytes hb).snoc a

/-- It grows by a step that accepts no address and begins no chunk. -/
theorem DownloadInv.extend (h : DownloadInv past s) {a : MenuAction} (ha : accepts a = false)
    (hchunk : chunkOf a = none) : DownloadInv (past ++ [a]) s :=
  h.snoc fun hp final hfinal =>
    (h.fresh hp final hfinal).snoc ha (by rw [handled, List.filterMap_cons_none hchunk]; rfl)

/-- What a step leaves that has nothing to do with the download. -/
structure SameDownload (s next : MenuSystem) : Prop where
  /-- The buffer, the flags and the size. -/
  sync : next.sync = s.sync
  /-- The chunk. -/
  chunk : next.chunk = s.chunk
  /-- The file. -/
  remote : next.remote = s.remote
  /-- The scene. -/
  scene : next.scene = s.scene
  /-- The save data sequence. -/
  sequence : next.sequence = s.sequence
  /-- What was loaded. -/
  loaded : next.loaded = s.loaded

/-- The menu goes on without the download. -/
theorem DownloadInv.of_same (h : DownloadInv past s) (hsame : SameDownload s next)
    (hpc : inBuffer next.pc = false) (hreset : PastReset next → PastReset s)
    (hend : next.menu.nerve = .connectEnd → s.menu.nerve = .connectEnd) :
    DownloadInv past next where
  fresh := by
    rw [hsame.sync, hsame.chunk]
    exact fun hp => h.fresh (hreset hp)
  cleared := by
    rintro lost (hp | hp) <;> rw [hp] at hpc <;> cases hpc
  unset := by
    intro lost hp
    rw [hp] at hpc
    cases hpc
  writing := by
    intro size hw
    rw [hw] at hpc
    cases hpc
  ended := by
    rw [hsame.remote]
    exact fun hn => h.ended (hend hn)
  loading := by
    rw [hsame.remote, hsame.scene]
    exact h.loading
  read := by
    rw [hsame.scene, hsame.sequence]
    exact h.read
  loaded := by
    rw [hsame.loaded]
    exact h.loaded

/-- A menu between frames that does not use the client is in no download. -/
theorem not_pastReset (hpc : inDownload s.pc = false) (hquiet : s.menu.nerve.usesClient = false) :
    ¬PastReset s := by
  rintro (hp | ⟨hn, -⟩)
  · rw [hpc] at hp
    cases hp
  · rw [hn] at hquiet
    cases hquiet

/-- A menu without the client, in a scene of the game, is in no download. -/
theorem download_outside (hpc : inBuffer s.pc = false) (hdownload : inDownload s.pc = false)
    (hquiet : s.menu.nerve.usesClient = false)
    (hscene : ∀ first, s.scene ≠ .loadNetworkSave first)
    (hloaded : ∀ bytes, s.loaded = some bytes → LoadedFrom past bytes) : DownloadInv past s where
  fresh := fun hp => absurd hp (not_pastReset hdownload hquiet)
  cleared := by
    rintro lost (hp | hp) <;> rw [hp] at hpc <;> cases hpc
  unset := by
    intro lost hp
    rw [hp] at hpc
    cases hpc
  writing := by
    intro size hw
    rw [hw] at hpc
    cases hpc
  ended := by
    intro hn
    rw [hn] at hquiet
    cases hquiet
  loading := fun first hs => absurd hs (hscene first)
  read := fun hs => absurd hs (hscene false)
  loaded := hloaded

/-- The menu goes on to a nerve without the client. -/
theorem DownloadInv.of_quiet (h : DownloadInv past s) (hsame : SameDownload s next)
    (hpc : inBuffer next.pc = false) (hdownload : inDownload next.pc = false)
    (hquiet : next.menu.nerve.usesClient = false) : DownloadInv past next := by
  refine h.of_same hsame hpc (fun hp => absurd hp (not_pastReset hdownload hquiet)) fun hn => ?_
  rw [hn] at hquiet
  cases hquiet

/-- A frame of the menu at a nerve without the client does nothing to the download. -/
theorem menuFrame_quiet {pad : PadInput} (h : MenuInv Seen s)
    (hquiet : s.menu.nerve.usesClient = false) (hframe : menuFrame s pad = some next) :
    SameDownload s next ∧ next.pc = .idle ∧ next.menu.nerve.usesClient = false := by
  have hmenu : QuietMenu { s.menu with mStep := max s.menu.mStep 0 } := ⟨h.good.withStep _, hquiet⟩
  unfold menuFrame at hframe
  dsimp only at hframe
  split at hframe
  · obtain ⟨menu, hexe, rfl⟩ := Option.map_eq_some_iff.mp hframe
    exact ⟨⟨rfl, rfl, rfl, rfl, rfl, rfl⟩, rfl, (exeCharSelect_quiet hmenu hexe).quiet⟩
  · obtain ⟨menu, hexe, rfl⟩ := Option.map_eq_some_iff.mp hframe
    exact ⟨⟨rfl, rfl, rfl, rfl, rfl, rfl⟩, rfl, (exeCharSelectBack_quiet hmenu hexe).quiet⟩
  · cases hframe
    exact ⟨⟨rfl, rfl, rfl, rfl, rfl, rfl⟩, rfl, (exeModeSelect_quiet pad hmenu).quiet⟩
  · obtain ⟨menu, hexe, rfl⟩ := Option.map_eq_some_iff.mp hframe
    exact ⟨⟨rfl, rfl, rfl, rfl, rfl, rfl⟩, rfl, (exeModeSelectOut_quiet hmenu hexe).quiet⟩
  · cases hframe
    exact ⟨⟨rfl, rfl, rfl, rfl, rfl, rfl⟩, rfl, hquiet⟩
  · rename_i hnerve
    rw [hnerve] at hquiet
    cases hquiet
  · rename_i hnerve
    rw [hnerve] at hquiet
    cases hquiet
  · rename_i hnerve
    rw [hnerve] at hquiet
    cases hquiet
  · cases hframe

/-- The first part of a reset. -/
theorem DownloadInv.resetBuffer (h : DownloadInv past s) (lost : Bool) (hstep : ¬PastReset s)
    (hend : s.menu.nerve ≠ .connectEnd) : DownloadInv past (s.resetBuffer lost) where
  fresh := by
    rintro (hp | hp)
    · cases hp
    · exact absurd (Or.inr hp) hstep
  cleared := fun _ _ => rfl
  unset := fun _ hp => nomatch hp
  writing := fun _ hw => nomatch hw
  ended := fun hn => absurd hn hend
  loading := h.loading
  read := h.read
  loaded := h.loaded

/-- A frame of the menu keeps what holds of the download. -/
theorem download_menuFrame {pad : PadInput} (h : DownloadInv past s) (hmenu : MenuInv Seen s)
    (hpc : s.pc = .idle) (hframe : menuFrame s pad = some next) : DownloadInv past next := by
  cases hquiet : s.menu.nerve.usesClient with
  | false =>
    obtain ⟨hsame, hnext, hnerve⟩ := menuFrame_quiet hmenu hquiet hframe
    exact h.of_quiet hsame (by rw [hnext]; rfl) (by rw [hnext]; rfl) hnerve
  | true =>
    unfold menuFrame at hframe
    dsimp only at hframe
    split at hframe <;> rename_i hnerve <;> rw [hnerve] at hquiet
    any_goals cases hquiet
    · have hdownload : ∀ t : MenuSystem, t.menu.nerve = s.menu.nerve → inDownload t.pc = false →
          ¬PastReset t := by
        rintro t ht hpc (hp | ⟨hp, -⟩)
        · rw [hpc] at hp
          cases hp
        · rw [ht, hnerve] at hp
          cases hp
      split at hframe <;> cases hframe
      · exact h.of_same ⟨rfl, rfl, rfl, rfl, rfl, rfl⟩ rfl
          (fun hp => absurd hp (hdownload _ rfl rfl)) id
      · exact h.of_same ⟨rfl, rfl, rfl, rfl, rfl, rfl⟩ rfl
          (fun hp => absurd hp (hdownload _ rfl rfl)) id
    · split at hframe <;> cases hframe
      · rename_i hstep
        have hmoved : DownloadInv past
            { s with menu := { s.menu with mStep := max s.menu.mStep 0 } } := { h with
          fresh := fun hp => h.fresh (hp.imp_right fun hp => ⟨hp.1, by
            have := hp.2
            dsimp only at this
            omega⟩) }
        have hnot : ¬PastReset { s with menu := { s.menu with mStep := max s.menu.mStep 0 } } := by
          rintro (hp | ⟨-, hp⟩)
          · rw [show s.pc = .idle from hpc] at hp
            cases hp
          · rw [show max s.menu.mStep 0 = 0 from hstep] at hp
            exact absurd hp (Int.lt_irrefl 0)
        exact hmoved.resetBuffer false hnot (by rw [hnerve]; decide)
      · rename_i hstep
        refine h.of_same ⟨rfl, rfl, rfl, rfl, rfl, rfl⟩ rfl (fun _ => Or.inr ⟨hnerve, ?_⟩) id
        omega
    · cases hframe
      refine h.of_same ⟨rfl, rfl, rfl, rfl, rfl, rfl⟩ rfl ?_ id
      rintro (hp | ⟨hp, -⟩)
      · cases hp
      · cases hnerve.symm.trans hp

/-- The last part of a reset makes the download fresh. -/
theorem DownloadInv.resetDone (h : DownloadInv past s) (hidle : s.chunk = .idle) {lost : Bool}
    (hpc : s.pc = .resetSize lost) {pc : FramePc} (hnext : inDownload pc = true) :
    DownloadInv past { s with sync := { s.sync with sCachedSaveFileSize := 0 }, pc := pc } where
  fresh := by
    intro _ final hfinal
    dsimp only at hfinal
    rw [hidle, finishChunk, h.cleared lost (Or.inr hpc), h.unset lost hpc] at hfinal
    cases hfinal
    exact fresh_reset past
  cleared := by
    rintro lost' (hp | hp) <;> cases hp <;> cases hnext
  unset := by
    intro lost' hp
    cases hp
    cases hnext
  writing := by
    intro size hw
    cases hw
    cases hnext
  ended := h.ended
  loading := h.loading
  read := h.read
  loaded := h.loaded

/-- All flags are set. -/
theorem DownloadInv.complete (h : DownloadInv past s) (hidle : s.chunk = .idle)
    (hdownload : inDownload s.pc = true) (hack : ∀ i, s.sync.sCachedSaveFileAck i = true) :
    DownloadInv past { s with pc := .writing s.sync.sCachedSaveFileSize } where
  fresh := fun _ => h.fresh (Or.inl hdownload)
  cleared := by
    rintro lost (hp | hp) <;> cases hp
  unset := fun _ hp => nomatch hp
  writing := by
    intro size hw
    cases hw
    exact (h.fresh (Or.inl hdownload) s.sync (by rw [hidle, finishChunk])).downloaded hack
  ended := h.ended
  loading := h.loading
  read := h.read
  loaded := h.loaded

/-- The file is written. -/
theorem DownloadInv.written (h : DownloadInv past s) {size : ℕ} (hpc : s.pc = .writing size) :
    DownloadInv past ({ s with
      remote := firstBytes s.sync.sCachedSaveFileWorkBuffer size }.endFrame
        (s.menu.setNerve .connectEnd)) where
  fresh := by
    rintro (hp | ⟨hp, -⟩) <;> cases hp
  cleared := by
    rintro lost (hp | hp) <;> cases hp
  unset := fun _ hp => nomatch hp
  writing := fun _ hw => nomatch hw
  ended := fun _ => h.writing size hpc
  loading := fun _ _ => h.writing size hpc
  read := h.read
  loaded := h.loaded

/-- The next part of a frame keeps what holds of the download. -/
theorem download_menuResume (h : DownloadInv past s) (hmenu : MenuInv Seen s) (hapart : Apart s)
    (hnext : Apart next) (hframe : menuResume s = some next) : DownloadInv past next := by
  unfold menuResume at hframe
  split at hframe
  · cases hframe
  · obtain ⟨t, hleft, rfl⟩ := Option.map_eq_some_iff.mp hframe
    obtain ⟨-, rfl⟩ := disconnect_eq_some_iff.mp hleft
    rename_i download hpc
    cases download with
    | false => exact h.of_quiet ⟨rfl, rfl, rfl, rfl, rfl, rfl⟩ rfl rfl rfl
    | true =>
      have hmoved : DownloadInv past
          { s with net := .stall, menu := s.menu.setNerve .modeSelect } :=
        h.of_quiet ⟨rfl, rfl, rfl, rfl, rfl, rfl⟩ (by rw [hpc]; rfl) (by rw [hpc]; rfl) rfl
      exact hmoved.resetBuffer true (not_pastReset (by rw [hpc]; rfl) rfl) nofun
  · rename_i hpc
    split at hframe <;> cases hframe
    · refine h.of_same ⟨rfl, rfl, rfl, rfl, rfl, rfl⟩ rfl ?_ nofun
      rintro (hp | ⟨-, hp⟩)
      · cases hp
      · exact absurd (show (0 : ℤ) < 0 from hp) (Int.lt_irrefl 0)
    · refine h.of_same ⟨rfl, rfl, rfl, rfl, rfl, rfl⟩ rfl ?_ id
      rintro (hp | ⟨hp, -⟩)
      · cases hp
      · exact absurd hp (hmenu.checking hpc)
  · rename_i lost hpc
    cases hframe
    have hstep := (hmenu.resetting lost (Or.inl hpc)).1
    exact { h with
      fresh := fun hp => by
        rcases hp with hp | hp
        · cases hp
        · exact absurd hp.2 (Int.not_lt.mpr hstep)
      cleared := fun _ _ => h.cleared lost (Or.inl hpc)
      unset := fun _ _ => rfl
      writing := nofun }
  · rename_i lost hpc
    cases hframe
    have hidle := isIdle_iff.mp (hapart (by rw [hpc]; rfl))
    refine h.resetDone hidle hpc ?_
    split <;> rfl
  · rename_i hpc
    have hdownload : PastReset s := Or.inl (by rw [hpc]; rfl)
    split at hframe <;> cases hframe
    · exact h.of_same ⟨rfl, rfl, rfl, rfl, rfl, rfl⟩ rfl (fun _ => hdownload) id
    · exact h.of_same ⟨rfl, rfl, rfl, rfl, rfl, rfl⟩ rfl (fun _ => hdownload) id
  · rename_i k isComplete hpc
    have hdownload : inDownload s.pc = true := by rw [hpc]; rfl
    split at hframe
    · cases hframe
      exact h.of_same ⟨rfl, rfl, rfl, rfl, rfl, rfl⟩ rfl (fun _ => Or.inl hdownload) id
    · rename_i hk
      split at hframe <;> cases hframe
      · rename_i hcomplete
        refine h.complete (isIdle_iff.mp (hnext rfl)) hdownload fun i => ?_
        exact hmenu.acks k (by rw [hpc, hcomplete]) i (by omega)
      · exact h.of_same ⟨rfl, rfl, rfl, rfl, rfl, rfl⟩ rfl (fun _ => Or.inl hdownload) id
  · rename_i size hpc
    cases hframe
    exact h.written hpc
  · cases hframe
    refine h.of_same ⟨rfl, rfl, rfl, rfl, rfl, rfl⟩ rfl (fun hp => Or.inr ?_) id
    exact hp.resolve_left nofun
  · obtain ⟨t, hleft, rfl⟩ := Option.map_eq_some_iff.mp hframe
    obtain ⟨-, rfl⟩ := disconnect_eq_some_iff.mp hleft
    refine h.of_same ⟨rfl, rfl, rfl, rfl, rfl, rfl⟩ rfl (fun hp => Or.inr ?_) id
    exact hp.resolve_left nofun

/-- A frame of the scene keeps what holds of the download. -/
theorem download_sceneFrame {nerve : SceneNerve} (h : DownloadInv past s)
    (hframe : sceneFrame s nerve = some next) : DownloadInv past next := by
  unfold sceneFrame at hframe
  split at hframe
  · split at hframe
    · split at hframe <;> cases hframe
      rename_i hgame
      refine { h with loading := fun first hs => ?_, read := fun hs => ?_ }
      all_goals
        rw [show nerve = .loadNetworkSave _ from hs] at hgame
        cases hgame
    · split at hframe <;> cases hframe
      · rename_i hend
        exact { h with loading := fun _ _ => h.ended hend, read := nofun }
      · exact h
  · rename_i hscene
    split at hframe <;> cases hframe
    exact { h with loading := fun _ _ => h.loading true hscene, read := nofun }
  · rename_i hscene
    split at hframe <;> cases hframe
    · rename_i mSaveBuffer hdone
      refine { h with loading := nofun, read := nofun, loaded := fun bytes hb => ?_ }
      cases hb
      exact h.read hscene _ hdone
    · exact h
  · cases hframe

/-- So does the hook of the read. -/
theorem download_sequenceRead {left : List UInt8} (h : DownloadInv past s)
    (hmenu : MenuInv Seen s) (hread : sequenceRead s left = some next) : DownloadInv past next := by
  unfold sequenceRead at hread
  split at hread <;> cases hread
  · exact { h with read := nofun }
  · rename_i hmode
    refine { h with read := fun hs => ?_ }
    cases hmenu.reading hs _ hmode
  · refine { h with read := fun hs bytes hb => ?_ }
    cases hb
    exact (h.loading false hs).loadedFrom left

/-- The parts of a chunk keep what holds of the download when they are apart from a reset. -/
theorem DownloadInv.handles (h : DownloadInv past s) {a : MenuAction}
    (hhandles : HandlesChunk s next) (hapart : inBuffer s.pc = true → next = s)
    (hfresh : PastReset s → ∀ final, finishChunk next.sync next.chunk = some final →
      Fresh (past ++ [a]) final) : DownloadInv (past ++ [a]) next := by
  cases hbuffer : inBuffer s.pc with
  | true =>
    have hsame := hapart hbuffer
    subst hsame
    exact h.snoc hfresh
  | false =>
    have hnot : ∀ pc, s.pc = pc → inBuffer pc ≠ true := by
      rintro pc rfl hp
      cases hbuffer.symm.trans hp
    rw [hhandles.rest]
    exact {
      fresh := hfresh
      cleared := fun lost hp => by
        rcases hp with hp | hp <;> exact absurd rfl (hnot _ hp)
      unset := fun lost hp => absurd rfl (hnot _ hp)
      writing := fun size hw => absurd rfl (hnot _ hw)
      ended := fun hn => (h.ended hn).snoc a
      loading := fun first hs => (h.loading first hs).snoc a
      read := fun hs bytes hb => (h.read hs bytes hb).snoc a
      loaded := fun bytes hb => (h.loaded bytes hb).snoc a }

/-- The first part. -/
theorem download_handle (h : DownloadInv past s) (hidle : s.chunk = .idle)
    (packet : SaveDataChunk) (hnext : Apart (handleChunk s packet)) :
    DownloadInv (past ++ [.handle packet]) (handleChunk s packet) := by
  refine h.handles (handleChunk_handles s packet) (fun hbuffer => ?_) fun hp final hfinal => ?_
  · refine handleChunk_idle (hnext ?_)
    rw [(handleChunk_handles s packet).rest]
    exact hbuffer
  · rw [finish_handleChunk hidle] at hfinal
    refine (h.fresh hp s.sync (by rw [hidle, finishChunk])).snoc rfl ?_
    change run handle_SaveDataChunk s.sync [packet] = some final
    rw [run_cons, hfinal]
    rfl

/-- The next parts. -/
theorem download_handleResume (h : DownloadInv past s) (hapart : Apart s)
    (hresume : handleResume s = some next) : DownloadInv (past ++ [.handleResume]) next := by
  refine h.handles (handleResume_handles hresume) (fun hbuffer => ?_) fun hp final hfinal => ?_
  · rw [handleResume, isIdle_iff.mp (hapart hbuffer)] at hresume
    cases hresume
  · rw [finish_handleResume hresume] at hfinal
    refine (h.fresh hp final hfinal).snoc rfl ?_
    rfl

/-- A call back of the keyboard keeps what holds of the download. -/
theorem download_keyboardDone (h : DownloadInv past s) (hmenu : MenuInv Seen s)
    (hkey : s.keyboard = .shown) (closed : Bool) (str : EnteredText) :
    DownloadInv (past ++ [.keyboardDone closed str]) (keyboardDone s closed str) := by
  obtain ⟨hnerve, hpc, -⟩ := hmenu.keyboard (by rw [hkey]; decide)
  have hnot : ¬PastReset s := not_pastReset (by rw [hpc]; rfl) (by rw [hnerve]; rfl)
  have hnow : DownloadInv (past ++ [.keyboardDone closed str]) s :=
    h.snoc fun hp => absurd hp hnot
  unfold keyboardDone
  split
  · exact hnow.of_quiet ⟨rfl, rfl, rfl, rfl, rfl, rfl⟩ (by rw [hpc]; rfl) (by rw [hpc]; rfl) rfl
  · exact hnow
  · refine hnow.of_quiet ⟨rfl, rfl, rfl, rfl, rfl, rfl⟩ (by rw [hpc]; rfl) (by rw [hpc]; rfl) ?_
    rw [hnerve]
    rfl

/-- A step apart from the chunks keeps what holds of the download. -/
theorem download_step {a : MenuAction} (h : DownloadInv past s) (hmenu : MenuInv Seen s)
    (hapart : Apart s) (hnext : Apart next) (hstep : menuStep s a = some next) :
    DownloadInv (past ++ [a]) next := by
  cases a with
  | keyboardDone closed str =>
    simp only [menuStep] at hstep
    split at hstep <;> cases hstep
    exact download_keyboardDone h hmenu ‹_› closed str
  | handle packet =>
    simp only [menuStep] at hstep
    split at hstep <;> cases hstep
    rename_i hnet
    exact download_handle h (isIdle_iff.mp hnet.2) packet hnext
  | handleResume => exact download_handleResume h hapart hstep
  | gameMenu step =>
    have hnow := h.extend (a := .gameMenu step) rfl rfl
    simp only [menuStep] at hstep
    split at hstep <;> cases hstep
    rename_i hgame
    obtain ⟨hpc, hnerve⟩ := hgame
    have hquiet : s.menu.nerve.usesClient = false := by
      revert hnerve
      cases s.menu.nerve <;> simp [MenuNerve.isGame, MenuNerve.usesClient]
    exact hnow.of_quiet ⟨rfl, rfl, rfl, rfl, rfl, rfl⟩ (by rw [hpc]; rfl) (by rw [hpc]; rfl)
      (gameMenuStep_quiet step ⟨hmenu.good, hquiet⟩).quiet
  | gameScene nerve =>
    have hnow := h.extend (a := .gameScene nerve) rfl rfl
    simp only [menuStep] at hstep
    split at hstep <;> cases hstep
    rename_i hgame
    refine { hnow with loading := fun first hs => ?_, read := fun hs => ?_ }
    all_goals
      have hnerve := hgame.2.2.2
      rw [show nerve = .loadNetworkSave _ from hs] at hnerve
      cases hnerve
  | appear menu scene =>
    have hnow := h.extend (a := .appear menu scene) rfl rfl
    simp only [menuStep] at hstep
    split at hstep <;> cases hstep
    exact download_outside rfl rfl rfl (fun _ hs => by cases hs) hnow.loaded
  | menuFrame pad =>
    simp only [menuStep] at hstep
    split at hstep
    · exact download_menuFrame (h.extend rfl rfl) hmenu ‹_› hstep
    · cases hstep
  | menuResume => exact download_menuResume (h.extend rfl rfl) hmenu hapart hnext hstep
  | sceneFrame nerve =>
    simp only [menuStep] at hstep
    split at hstep
    · exact download_sceneFrame (h.extend rfl rfl) hstep
    · cases hstep
  | sequenceRead left => exact download_sequenceRead (h.extend rfl rfl) hmenu hstep
  | keyboardResume =>
    have hnow := h.extend (a := .keyboardResume) rfl rfl
    simp only [menuStep] at hstep
    split at hstep <;> cases hstep
    rename_i hkey
    obtain ⟨-, hpc, -⟩ := hmenu.keyboard (by rw [hkey]; decide)
    refine hnow.of_same ⟨rfl, rfl, rfl, rfl, rfl, rfl⟩ (by rw [hpc]; rfl) ?_ ?_
    · rintro (hp | ⟨hp, -⟩)
      · exact Or.inl hp
      · cases hp
    · intro hn
      cases hn
  | stalled =>
    have hnow := h.extend (a := .stalled) rfl rfl
    simp only [menuStep] at hstep
    split at hstep <;> cases hstep
    exact { hnow with }
  | connected =>
    have hnow := h.extend (a := .connected) rfl rfl
    simp only [menuStep] at hstep
    split at hstep <;> cases hstep
    exact { hnow with }
  | disconnected =>
    have hnow := h.extend (a := .disconnected) rfl rfl
    simp only [menuStep] at hstep
    split at hstep <;> cases hstep
    exact { hnow with }

/-- A menu at a nerve of the game is in no download. -/
theorem download_start (sync : SaveDataSync) (remote gameData : List UInt8) :
    DownloadInv [] (.start sync remote gameData) :=
  download_outside rfl rfl rfl (fun _ hs => by cases hs) (fun _ hb => by cases hb)

/-- And a run apart from the chunks reaches it with what holds of the download. -/
theorem run_download {sync : SaveDataSync} {remote gameData : List UInt8}
    {actions : List MenuAction}
    (hapart : Throughout Apart menuStep (.start sync remote gameData) actions)
    (hrun : run menuStep (.start sync remote gameData) actions = some s) :
    DownloadInv actions s := by
  have hkeeps : ∀ past s a t, MenuInv True s ∧ DownloadInv past s → Apart s → Apart t → True →
      menuStep s a = some t → MenuInv True t ∧ DownloadInv (past ++ [a]) t :=
    fun _ _ _ _ h hs ht _ hstep =>
      ⟨inv_step h.1 (fun _ => trivial) hstep, download_step h.2 h.1 hs ht hstep⟩
  exact (run_history hkeeps ⟨inv_start sync remote gameData, download_start sync remote gameData⟩
    hapart (fun _ _ => trivial) hrun).2

/-- In every run that handles no chunk while a download is reset or its file is written, what
the scene loads from the server is a complete download, as far as the read goes: all eight flags
are set, and the bytes are those of the chunks handled since a reset, with no address accepted
in between. -/
theorem loaded_is_download (sync : SaveDataSync) (remote gameData : List UInt8)
    (actions : List MenuAction)
    (hapart : Throughout Apart menuStep (.start sync remote gameData) actions) (s : MenuSystem)
    (hrun : run menuStep (.start sync remote gameData) actions = some s) (bytes : List UInt8)
    (hloaded : s.loaded = some bytes) : LoadedFrom actions bytes :=
  (run_download hapart hrun).loaded bytes hloaded

/-- A size of a save. -/
def someSize : ℕ := 65548

/-- A chunk of a save of zero bytes. -/
def zeroChunk (i : Fin 8) : SaveDataChunk := ⟨i, chunkSize someSize i, Buffer.zero _⟩

/-- On to a complete download that the scene loads. -/
def toLoaded : List MenuAction :=
  toDownload ++
    (List.finRange 8).flatMap (fun i => [.handle (zeroChunk i), .handleResume, .handleResume]) ++
    List.replicate 11 .menuResume ++
    [.sceneFrame .topMenuEnd, .sceneFrame .topMenuEnd, .sequenceRead [], .sequenceRead [],
      .sceneFrame .topMenuEnd]

/-- Chunks apart from resets can be told in each state. -/
instance decidableApart (s : MenuSystem) : Decidable (Apart s) :=
  inferInstanceAs (Decidable (_ → _))

/-- The run loads a save. -/
theorem toLoaded_loads : ∃ s, run menuStep (.start resetSaveDataBuffer [] []) toLoaded = some s ∧
    s.loaded.isSome = true := run_reaches (by decide +kernel)

/-- Its chunks are apart from the reset and the write. -/
theorem toLoaded_apart : Throughout Apart menuStep (.start resetSaveDataBuffer [] []) toLoaded := by
  decide +kernel

/-- What it loads is a complete download. -/
theorem loaded_is_download_zero : ∃ bytes, LoadedFrom toLoaded bytes := by
  obtain ⟨s, hrun, hsome⟩ := toLoaded_loads
  obtain ⟨bytes, hloaded⟩ := Option.isSome_iff_exists.mp hsome
  exact ⟨bytes, loaded_is_download resetSaveDataBuffer [] [] toLoaded toLoaded_apart s hrun bytes
    hloaded⟩

/-- Chunks that are all cut from one save, until all flags are set, are the save. -/
theorem download_eq_save {cap : ℕ} {save : Buffer cap} {saveSize : ℕ}
    {chunks : List SaveDataChunk} {sync : SaveDataSync} (hbuffer : sharedSaveCapacity ≤ cap)
    (hlow : sSaveDataChunkSize * 7 ≤ saveSize) (hcap : saveSize ≤ sharedSaveCapacity)
    (hcut : ∀ packet ∈ chunks, ∃ i, uploadChunk save saveSize i = some packet)
    (hrun : run handle_SaveDataChunk resetSaveDataBuffer chunks = some sync)
    (hack : ∀ i, sync.sCachedSaveFileAck i = true) :
    firstBytes sync.sCachedSaveFileWorkBuffer sync.sCachedSaveFileSize =
      firstBytes save saveSize := by
  have hinv : ClientInv save saveSize sync := by
    refine run_invariant (P := fun _ packet => ∃ i, uploadChunk save saveSize i = some packet)
      ?_ (clientInv_start save saveSize) (along_of_at fun first a rest _ hchunks _ => ?_) hrun
    · rintro st packet next hst ⟨i, hi⟩ hhandle
      refine (clientInv_step (i := i) hst ?_).1
      rw [clientTransfer, hi]
      exact hhandle
    · refine hcut a ?_
      rw [hchunks]
      exact List.mem_append_right _ List.mem_cons_self
  have hsum := (sum_sizeField_eq_iff hcap).mpr hlow
  have hsize : sync.sCachedSaveFileSize = saveSize := by
    rw [hinv.size, ackedSum_of_full hack, hsum]
  have hbytes := hinv.held.sameBytes hack
  rw [hsum] at hbytes
  rw [hsize]
  have hcached : sharedSaveCapacity ≤ cachedSaveCapacity := by decide
  exact (firstBytes_eq_iff (hcap.trans hcached) (hcap.trans hbuffer)).mpr hbytes

/-- Where all chunks of such a run are cut from one save that is long enough for the read, what
the scene loads is the beginning of that save. -/
theorem loaded_is_server_save {cap : ℕ} (save : Buffer cap) (saveSize : ℕ)
    (hbuffer : sharedSaveCapacity ≤ cap) (hlow : mSaveBufferSize ≤ saveSize)
    (hcap : saveSize ≤ sharedSaveCapacity) (sync : SaveDataSync) (remote gameData : List UInt8)
    (actions : List MenuAction)
    (hcut : ∀ packet ∈ handled actions, ∃ i, uploadChunk save saveSize i = some packet)
    (hapart : Throughout Apart menuStep (.start sync remote gameData) actions)
    (s : MenuSystem) (hrun : run menuStep (.start sync remote gameData) actions = some s)
    (bytes : List UInt8) (hloaded : s.loaded = some bytes) :
    bytes = (firstBytes save saveSize).take mSaveBufferSize := by
  obtain ⟨file, hfile, hbytes⟩ := (run_download hapart hrun).loaded bytes hloaded
  obtain ⟨before, during, after, download, hparts, -, hdownload, hack, rfl⟩ := hfile
  have hfull : sSaveDataChunkSize * 7 ≤ mSaveBufferSize := by decide
  have hsave := download_eq_save hbuffer (hfull.trans hlow) hcap (fun packet hpacket => by
    refine hcut packet ?_
    rw [hparts, handled, List.filterMap_append, List.filterMap_append]
    exact List.mem_append_left _ (List.mem_append_right _ hpacket)) hdownload hack
  rw [hsave] at hbytes
  refine hbytes ?_
  rw [length_firstBytes save (hcap.trans hbuffer)]
  exact hlow

/-- The chunks of a save of zero bytes. -/
theorem uploadChunk_zero (i : Fin 8) :
    uploadChunk (Buffer.zero sharedSaveCapacity) someSize i = some (zeroChunk i) := by
  have hlow : sSaveDataChunkSize * 7 ≤ someSize := by decide
  have hcap : someSize ≤ sharedSaveCapacity := by decide
  obtain ⟨hinside, hfits⟩ := sizeField_inside hlow hcap i
  have hcopy : memcpy (Buffer.zero sSaveDataChunkSize) 0 (Buffer.zero sharedSaveCapacity)
      (sSaveDataChunkSize * i) (sizeField someSize i) =
        some (Buffer.zero sSaveDataChunkSize) := by
    rw [memcpy_eq_some (by omega) hinside]
    congr 1
    funext j
    unfold blit Buffer.zero
    split <;> rfl
  rw [uploadChunk, ← sizeField, hcopy]
  rfl

/-- A save of zero bytes is loaded up to the end of the read. -/
theorem loaded_is_server_save_zero : ∃ s bytes,
    run menuStep (.start resetSaveDataBuffer [] []) toLoaded = some s ∧ s.loaded = some bytes ∧
      bytes = (firstBytes (Buffer.zero sharedSaveCapacity) someSize).take mSaveBufferSize := by
  obtain ⟨s, hrun, hsome⟩ := toLoaded_loads
  obtain ⟨bytes, hloaded⟩ := Option.isSome_iff_exists.mp hsome
  refine ⟨s, bytes, hrun, hloaded, ?_⟩
  refine loaded_is_server_save (Buffer.zero sharedSaveCapacity) someSize le_rfl (by decide)
    (by decide) resetSaveDataBuffer [] [] toLoaded (fun packet hpacket => ?_) toLoaded_apart s hrun
    bytes hloaded
  have hchunks : handled toLoaded = (List.finRange 8).map zeroChunk := by rfl
  rw [hchunks] at hpacket
  obtain ⟨i, -, rfl⟩ := List.mem_map.mp hpacket
  exact ⟨i, uploadChunk_zero i⟩

end BfMultiplayer.NetworkSave

import BfMultiplayer.TopMenuScene

/-!
# The connection of the menu and its title

The client is stalled wherever the menu does not use it, apart from the moments between
a call that changes the connection and the nerve or mode it belongs to. Once the menu has
seen a connection, the scene leaves its title for a complete download only, or when it
appears again, so that after a download that failed the single player mode cannot be
started.
-/

namespace BfMultiplayer.MenuConnection

open AsciiText ByteBuffer Packets SaveChunkRules ServerAddress TopMenuScene GuardedRuns

/-- No nerve that the menu goes on to by itself uses the client. -/
structure GoodNerves (menu : TopMenuExt) : Prop where
  /-- Behind the selection of a character. -/
  afterCharSelect : ∀ nerve, menu.mNextNerveAfterCharSelect = some nerve → nerve.usesClient = false
  /-- Back from it. -/
  backCharSelect : ∀ nerve, menu.mNerveBackCharSelect = some nerve → nerve.usesClient = false
  /-- Behind the selection of a mode. -/
  afterModeSelect : ∀ nerve, menu.mNextNerveAfterModeSelect = some nerve → nerve.usesClient = false

/-- A menu that does not use the client, and does not go on to a nerve that does. -/
structure QuietMenu (menu : TopMenuExt) : Prop extends GoodNerves menu where
  /-- Where it is. -/
  quiet : menu.nerve.usesClient = false

/-- A menu that sets a nerve. -/
theorem GoodNerves.setNerve {menu : TopMenuExt} {nerve : MenuNerve} (h : GoodNerves menu) :
    GoodNerves (menu.setNerve nerve) :=
  ⟨h.afterCharSelect, h.backCharSelect, h.afterModeSelect⟩

/-- A menu that sets a nerve without the client. -/
theorem GoodNerves.quiet {menu : TopMenuExt} {nerve : MenuNerve} (h : GoodNerves menu)
    (hnerve : nerve.usesClient = false) : QuietMenu (menu.setNerve nerve) :=
  ⟨h.setNerve, hnerve⟩

/-- A menu that sets a nerve it has kept. -/
theorem GoodNerves.quiet? {menu next : TopMenuExt} {nerve : Option MenuNerve}
    (h : GoodNerves menu) (hnerve : ∀ n, nerve = some n → n.usesClient = false)
    (hset : menu.setNerve? nerve = some next) : QuietMenu next := by
  obtain ⟨n, hn, rfl⟩ := Option.map_eq_some_iff.mp hset
  exact h.quiet (hnerve n hn)

/-- `exeCharSelect` does not use the client. -/
theorem exeCharSelect_quiet {menu next : TopMenuExt} {pad : PadInput} (h : QuietMenu menu)
    (hexe : exeCharSelect menu pad = some next) : QuietMenu next := by
  unfold exeCharSelect at hexe
  split at hexe
  · cases hexe
    exact h.toGoodNerves.quiet rfl
  · split at hexe
    · exact h.toGoodNerves.quiet? h.afterCharSelect hexe
    · cases hexe
      exact h

/-- Nor does `exeCharSelectBack`. -/
theorem exeCharSelectBack_quiet {menu next : TopMenuExt} (h : QuietMenu menu)
    (hexe : exeCharSelectBack menu = some next) : QuietMenu next := by
  unfold exeCharSelectBack at hexe
  split at hexe
  · exact h.toGoodNerves.quiet? h.backCharSelect hexe
  · cases hexe
    exact h

/-- Nor does `exeModeSelect`. -/
theorem exeModeSelect_quiet {menu : TopMenuExt} (pad : PadInput) (h : QuietMenu menu) :
    QuietMenu (exeModeSelect menu pad) := by
  unfold exeModeSelect
  split
  · refine GoodNerves.quiet ?_ rfl
    split
    · refine ⟨h.afterCharSelect, ?_, ?_⟩
      all_goals
        intro nerve hnerve
        cases hnerve
        rfl
    · refine ⟨?_, ?_, ?_⟩
      all_goals
        intro nerve hnerve
        cases hnerve
        rfl
  · exact h

/-- Nor does `exeModeSelectOut`. -/
theorem exeModeSelectOut_quiet {menu next : TopMenuExt} (h : QuietMenu menu)
    (hexe : exeModeSelectOut menu = some next) : QuietMenu next := by
  unfold exeModeSelectOut at hexe
  split at hexe
  · exact h.toGoodNerves.quiet? h.afterModeSelect hexe
  · cases hexe
    exact h

/-- Nor does the game's own menu. -/
theorem gameMenuStep_quiet {menu : TopMenuExt} (step : GameMenuStep) (h : QuietMenu menu) :
    QuietMenu (gameMenuStep menu step) := by
  cases step with
  | setCharSelectNerve nrv =>
    refine GoodNerves.quiet ⟨fun nerve hnerve => ?_, h.backCharSelect, h.afterModeSelect⟩ rfl
    cases hnerve
    rfl
  | _ => exact h.toGoodNerves.quiet rfl

/-- The loop over the flags of a frame of `exeDownloadSave` has found them all. -/
def AllSeen (s : MenuSystem) : Prop :=
  ∃ k, 8 ≤ k ∧ s.pc = .readAck k true ∧ ∀ i, s.sync.sCachedSaveFileAck i = true

/-- Some frame has found all flags set. -/
def Completed (start : MenuSystem) (past : List MenuAction) : Prop :=
  ∃ before after s, past = before ++ after ∧ run menuStep start before = some s ∧ AllSeen s

/-- No thread is between two calls that change the connection and a nerve. -/
structure Settled (keyboard : KeyboardPc) (pc : FramePc) : Prop where
  /-- Not the keyboard behind an address. -/
  keyboard : keyboard ≠ .connecting
  /-- Not the game in `appear`, in front of the mode. -/
  appearMode : pc ≠ .appearMode
  /-- Nor behind it. -/
  appearDisconnect : pc ≠ .appearDisconnect

/-- What holds within a frame of the menu, where `Seen` says that a frame has found all flags. -/
structure FrameInv (Seen : Prop) (s : MenuSystem) : Prop where
  /-- In `exeConnect` no download has begun. -/
  checking : s.pc = .connectCheck → s.menu.nerve ≠ .downloadSave
  /-- A reset is part of a first step. -/
  resetting : ∀ lost, s.pc = .resetAck lost ∨ s.pc = .resetSize lost →
    s.menu.mStep ≤ 0 ∧ (lost = true → s.menu.nerve.usesClient = false)
  /-- The flags that were read are set if all were. -/
  acks : ∀ k, s.pc = .readAck k true → ∀ i : Fin 8, i.val < k → s.sync.sCachedSaveFileAck i = true
  /-- The file is written when all flags are set. -/
  writing : ∀ size, s.pc = .writing size → Seen ∧ ∀ i, s.sync.sCachedSaveFileAck i = true
  /-- A scene that appears is at a nerve of the game. -/
  appearing : s.pc = .appearMode → ∃ id, s.scene = .game id

/-- What holds in every reachable state. -/
structure MenuInv (Seen : Prop) (s : MenuSystem) : Prop extends FrameInv Seen s where
  /-- The kept nerves do not use the client. -/
  good : GoodNerves s.menu
  /-- A keyboard is used in `exeEnterIp` only, behind its first step. -/
  keyboard : s.keyboard ≠ .hidden → s.menu.nerve = .enterIp ∧ s.pc = .idle ∧ 0 < s.menu.mStep
  /-- The client is stalled where the menu does not use it. -/
  stalled : Settled s.keyboard s.pc → s.menu.nerve.usesClient = false → s.net = .stall
  /-- In `exeConnectEnd` all flags were set. -/
  ended : s.menu.nerve = .connectEnd → Seen
  /-- In `exeLoadNetworkSave` too, and it reads what was downloaded. -/
  loading : ∀ first, s.scene = .loadNetworkSave first → s.mode = .Server ∧ Seen
  /-- The hook reads what was downloaded, too. -/
  reading : s.scene = .loadNetworkSave false → ∀ mode, s.sequence = .reading mode → mode = .Server

/-- More may have been seen. -/
theorem MenuInv.mono {Seen Seen' : Prop} {s : MenuSystem} (h : MenuInv Seen s)
    (hseen : Seen → Seen') : MenuInv Seen' s :=
  { h with
    writing := fun size hs => ⟨hseen (h.writing size hs).1, (h.writing size hs).2⟩
    ended := fun hn => hseen (h.ended hn)
    loading := fun first hs => ⟨(h.loading first hs).1, hseen (h.loading first hs).2⟩ }

variable {Seen : Prop} {s next : MenuSystem}

/-- Between frames, and at the end of `appear`, nothing is asked of the frame. -/
theorem frameInv_between (hpc : s.pc = .idle ∨ s.pc = .appearDisconnect) : FrameInv Seen s := by
  rcases hpc with hpc | hpc
  all_goals exact
    { checking := fun hc => by cases hpc.symm.trans hc
      resetting := fun _ hp => by rcases hp with hp | hp <;> cases hpc.symm.trans hp
      acks := fun _ hk => by cases hpc.symm.trans hk
      writing := fun _ hw => by cases hpc.symm.trans hw
      appearing := fun ha => by cases hpc.symm.trans ha }

/-- No keyboard is used outside `exeEnterIp`. -/
theorem MenuInv.no_keyboard (h : MenuInv Seen s) {nerve : MenuNerve} (hnerve : s.menu.nerve = nerve)
    (hne : nerve ≠ .enterIp) : s.keyboard = .hidden := by
  by_contra hkey
  exact hne (hnerve.symm.trans (h.keyboard hkey).1)

/-- No keyboard is used within a frame. -/
theorem MenuInv.no_keyboard_in_frame (h : MenuInv Seen s) (hpc : s.pc ≠ .idle) :
    s.keyboard = .hidden := by
  by_contra hkey
  exact hpc (h.keyboard hkey).2.1

/-- Between frames and without a keyboard nothing is between two calls. -/
theorem settled_of_idle (hpc : s.pc = .idle) (hkey : s.keyboard = .hidden) :
    Settled s.keyboard s.pc := by
  rw [hpc, hkey]
  exact ⟨by decide, by decide, by decide⟩

/-- A menu between frames that does not use the client moves without it. -/
theorem MenuInv.move (h : MenuInv Seen s) {menu : TopMenuExt} {pc : FramePc}
    (hquiet : s.menu.nerve.usesClient = false) (hkey : s.keyboard = .hidden) (hs : s.pc = .idle)
    (hpc : pc = .idle) (hnext : QuietMenu menu) :
    MenuInv Seen { s with menu := menu, pc := pc } := by
  subst hpc
  exact { h with
    toFrameInv := frameInv_between (Or.inl rfl)
    good := hnext.toGoodNerves
    keyboard := fun hk => absurd hkey hk
    stalled := fun _ _ => h.stalled (settled_of_idle hs hkey) hquiet
    ended := fun hn => by
      have hq := hnext.quiet
      rw [show menu.nerve = .connectEnd from hn] at hq
      cases hq }

/-- The step of a nerve does not matter. -/
theorem GoodNerves.withStep {menu : TopMenuExt} (h : GoodNerves menu) (step : ℤ) :
    GoodNerves { menu with mStep := step } :=
  ⟨h.afterCharSelect, h.backCharSelect, h.afterModeSelect⟩

/-- A frame at a nerve without the client. -/
theorem MenuInv.endQuiet (h : MenuInv Seen s) (hpc : s.pc = .idle) {nerve : MenuNerve} {step : ℤ}
    {menu : TopMenuExt} (hnerve : s.menu.nerve = nerve) (hquiet : nerve.usesClient = false)
    (hne : nerve ≠ .enterIp)
    (hnext : QuietMenu { s.menu with mStep := step } → QuietMenu menu) :
    MenuInv Seen (s.endFrame menu) := by
  have hq : s.menu.nerve.usesClient = false := by rw [hnerve, hquiet]
  have hmoved := hnext ⟨h.good.withStep step, hq⟩
  exact h.move hq (h.no_keyboard hnerve hne) hpc rfl
    ⟨hmoved.toGoodNerves.withStep _, hmoved.quiet⟩

/-- A frame of `exeEnterIp`, which shows the keyboard in its first step. -/
theorem inv_enterIp (h : MenuInv Seen s) (hpc : s.pc = .idle) (hnerve : s.menu.nerve = .enterIp) :
    MenuInv Seen ({ s with
      keyboard := if max s.menu.mStep 0 = 0 then .shown else s.keyboard }.endFrame
        { s.menu with mStep := max s.menu.mStep 0 }) where
  toFrameInv := frameInv_between (Or.inl rfl)
  good := h.good.withStep _
  keyboard := fun _ => ⟨hnerve, rfl, by dsimp only [MenuSystem.endFrame]; omega⟩
  stalled := by
    intro hsettled hquiet
    refine h.stalled ⟨fun hk => ?_, fun hp => ?_, fun hp => ?_⟩ hquiet
    · have hstep : ¬max s.menu.mStep 0 = 0 := by
        have hlate := (h.keyboard (by rw [hk]; decide)).2.2
        omega
      exact hsettled.keyboard ((if_neg hstep).trans hk)
    · cases hpc.symm.trans hp
    · cases hpc.symm.trans hp
  ended := h.ended
  loading := h.loading
  reading := h.reading

/-- The menu goes on at its nerve. -/
theorem MenuInv.stay (h : MenuInv Seen s) (hkey : s.keyboard = .hidden) {step : ℤ} {pc : FramePc}
    {sync : SaveDataSync}
    (hsettled : Settled s.keyboard pc → Settled s.keyboard s.pc)
    (hcheck : pc = .connectCheck → s.menu.nerve ≠ .downloadSave)
    (hreset : ∀ lost, pc = .resetAck lost ∨ pc = .resetSize lost →
      step ≤ 0 ∧ (lost = true → s.menu.nerve.usesClient = false))
    (hacks : ∀ k, pc = .readAck k true → ∀ i : Fin 8, i.val < k →
      sync.sCachedSaveFileAck i = true)
    (hwriting : ∀ size, pc = .writing size → Seen ∧ ∀ i, sync.sCachedSaveFileAck i = true)
    (happear : pc ≠ .appearMode) :
    MenuInv Seen { s with menu := { s.menu with mStep := step }, pc := pc, sync := sync } :=
  { h with
    appearing := fun ha => absurd ha happear
    good := h.good.withStep _
    keyboard := fun hk => absurd hkey hk
    stalled := fun hs hq => h.stalled (hsettled hs) hq
    checking := hcheck
    resetting := hreset
    acks := hacks
    writing := hwriting }

/-- It goes on between the parts that are about the download. -/
theorem MenuInv.stayAt (h : MenuInv Seen s) (hkey : s.keyboard = .hidden) {step : ℤ} {pc : FramePc}
    {sync : SaveDataSync} (hsettled : Settled s.keyboard s.pc)
    (hpc : pc = .idle ∨ pc = .downloadCheck ∨ ∃ download, pc = .disconnecting download) :
    MenuInv Seen { s with menu := { s.menu with mStep := step }, pc := pc, sync := sync } := by
  refine h.stay hkey (fun _ => hsettled) ?_ ?_ ?_ ?_ ?_
  all_goals obtain rfl | rfl | ⟨download, rfl⟩ := hpc
  all_goals simp

/-- It begins the loop over the flags. -/
theorem MenuInv.startLoop (h : MenuInv Seen s) (hkey : s.keyboard = .hidden)
    (hsettled : Settled s.keyboard s.pc) {sync : SaveDataSync} :
    MenuInv Seen { s with pc := .readAck 0 true, sync := sync } := by
  refine h.stay hkey (fun _ => hsettled) (fun hc => nomatch hc) (fun _ hp => by simp at hp)
    (fun k hk i hi => ?_) (fun _ hw => nomatch hw) (fun ha => nomatch ha)
  cases hk
  exact absurd hi (Nat.not_lt_zero _)

/-- The menu disconnects and goes back to the selection of a mode. -/
theorem MenuInv.leave (h : MenuInv Seen s) (hkey : s.keyboard = .hidden) {menu : TopMenuExt}
    (hgood : GoodNerves menu) {pc : FramePc} {sync : SaveDataSync}
    (hpc : pc = .connectCheck ∨ pc = .resetAck true) :
    MenuInv Seen { s with
      menu := menu.setNerve .modeSelect
      pc := pc
      net := .stall
      sync := sync } := by
  refine { h with
    good := hgood.setNerve
    keyboard := fun hk => absurd hkey hk
    stalled := fun _ _ => rfl
    checking := fun _ hn => nomatch hn
    resetting := fun lost _ => ⟨(by decide : (-1 : ℤ) ≤ 0), fun _ => rfl⟩
    acks := fun k hk => ?_
    writing := fun size hw => ?_
    appearing := fun ha => ?_
    ended := fun hn => nomatch hn }
  · rcases hpc with rfl | rfl <;> cases hk
  · rcases hpc with rfl | rfl <;> cases hw
  · rcases hpc with rfl | rfl <;> cases ha

/-- What a connection that is given up leaves. -/
theorem disconnect_eq_some_iff {t : MenuSystem} :
    s.disconnect = some t ↔ s.chunk.isIdle = true ∧ t = { s with net := .stall } := by
  unfold MenuSystem.disconnect
  split
  · rename_i hidle
    exact ⟨fun h => ⟨hidle, (Option.some.inj h).symm⟩, fun h => by rw [h.2]⟩
  · rename_i hbusy
    exact ⟨fun h => (by cases h), fun h => absurd h.1 hbusy⟩

/-- A frame of the menu keeps the invariant. -/
theorem inv_menuFrame {pad : PadInput} (h : MenuInv Seen s) (hpc : s.pc = .idle)
    (hframe : menuFrame s pad = some next) : MenuInv Seen next := by
  unfold menuFrame at hframe
  dsimp only at hframe
  split at hframe
  · rename_i hnerve
    obtain ⟨menu, hexe, rfl⟩ := Option.map_eq_some_iff.mp hframe
    exact h.endQuiet hpc hnerve rfl (by decide) fun hq => exeCharSelect_quiet hq hexe
  · rename_i hnerve
    obtain ⟨menu, hexe, rfl⟩ := Option.map_eq_some_iff.mp hframe
    exact h.endQuiet hpc hnerve rfl (by decide) fun hq => exeCharSelectBack_quiet hq hexe
  · rename_i hnerve
    cases hframe
    exact h.endQuiet hpc hnerve rfl (by decide) fun hq => exeModeSelect_quiet pad hq
  · rename_i hnerve
    obtain ⟨menu, hexe, rfl⟩ := Option.map_eq_some_iff.mp hframe
    exact h.endQuiet hpc hnerve rfl (by decide) fun hq => exeModeSelectOut_quiet hq hexe
  · rename_i hnerve
    cases hframe
    exact inv_enterIp h hpc hnerve
  · rename_i hnerve
    have hkey : s.keyboard = .hidden := h.no_keyboard hnerve (by decide)
    have hdownload : s.menu.nerve ≠ .downloadSave := by rw [hnerve]; decide
    split at hframe
    · cases hframe
      exact h.stayAt hkey (settled_of_idle hpc hkey) (Or.inr (Or.inr ⟨false, rfl⟩))
    · cases hframe
      refine h.stay hkey (fun _ => settled_of_idle hpc hkey) (fun _ => hdownload) ?_ ?_ ?_ ?_
      all_goals simp
  · rename_i hnerve
    have hkey : s.keyboard = .hidden := h.no_keyboard hnerve (by decide)
    split at hframe
    · rename_i hstep
      cases hframe
      refine h.stay hkey (fun _ => settled_of_idle hpc hkey) (fun hc => nomatch hc) ?_
        (fun _ hk => nomatch hk) (fun _ hw => nomatch hw) (fun ha => nomatch ha)
      refine fun lost hp => ⟨hstep.le, fun hlost => ?_⟩
      rcases hp with hp | hp <;> cases hp
      cases hlost
    · cases hframe
      exact h.stayAt hkey (settled_of_idle hpc hkey) (Or.inr (Or.inl rfl))
  · rename_i hnerve
    have hkey : s.keyboard = .hidden := h.no_keyboard hnerve (by decide)
    cases hframe
    exact h.stayAt hkey (settled_of_idle hpc hkey) (Or.inl rfl)
  · cases hframe

/-- `exeConnect` has seen the connection. -/
theorem inv_seen (h : MenuInv Seen s) (hkey : s.keyboard = .hidden) :
    MenuInv Seen ({ s with mode := .Server }.endFrame (s.menu.setNerve .downloadSave)) :=
  { h with
    toFrameInv := frameInv_between (Or.inl rfl)
    good := h.good.setNerve.withStep _
    keyboard := fun hk => absurd hkey hk
    stalled := fun _ hq => nomatch hq
    ended := fun hn => nomatch hn
    loading := fun first hs => ⟨rfl, (h.loading first hs).2⟩ }

/-- `exeDownloadSave` writes the file. -/
theorem inv_written (h : MenuInv Seen s) (hkey : s.keyboard = .hidden) (hseen : Seen)
    (remote : List UInt8) :
    MenuInv Seen ({ s with remote := remote }.endFrame (s.menu.setNerve .connectEnd)) :=
  { h with
    toFrameInv := frameInv_between (Or.inl rfl)
    good := h.good.setNerve.withStep _
    keyboard := fun hk => absurd hkey hk
    stalled := fun _ hq => nomatch hq
    ended := fun _ => hseen }

/-- Within a frame the menu is settled. -/
theorem MenuInv.in_frame (h : MenuInv Seen s) {pc : FramePc} (hpc : s.pc = pc) (hne : pc ≠ .idle)
    (hmode : pc ≠ .appearMode) (hdisconnect : pc ≠ .appearDisconnect) :
    s.keyboard = .hidden ∧ Settled s.keyboard s.pc := by
  subst hpc
  have hkey := h.no_keyboard_in_frame hne
  refine ⟨hkey, ?_, hmode, hdisconnect⟩
  rw [hkey]
  decide

/-- A scene that appears sets the mode. -/
theorem inv_appearMode (h : MenuInv Seen s) (hpc : s.pc = .appearMode) :
    MenuInv Seen { s with mode := .Local, pc := .appearDisconnect } :=
  { h with
    toFrameInv := frameInv_between (Or.inr rfl)
    keyboard := fun hk => absurd (h.no_keyboard_in_frame (by rw [hpc]; decide)) hk
    stalled := fun hs => absurd rfl hs.appearDisconnect
    loading := fun first hs => by
      obtain ⟨id, hgame⟩ := h.appearing hpc
      cases hgame.symm.trans hs }

/-- It disconnects. -/
theorem inv_appearDisconnect (h : MenuInv Seen s) (hpc : s.pc = .appearDisconnect) :
    MenuInv Seen { s with net := .stall, pc := .idle } :=
  { h with
    toFrameInv := frameInv_between (Or.inl rfl)
    keyboard := fun hk => absurd (h.no_keyboard_in_frame (by rw [hpc]; decide)) hk
    stalled := fun _ _ => rfl }

/-- The next part of a frame keeps the invariant. -/
theorem inv_menuResume (h : MenuInv Seen s) (hall : AllSeen s → Seen)
    (hframe : menuResume s = some next) : MenuInv Seen next := by
  unfold menuResume at hframe
  split at hframe
  · cases hframe
  · rename_i download hpc
    obtain ⟨hkey, -⟩ := h.in_frame hpc (by simp) (by simp) (by simp)
    obtain ⟨t, hleft, rfl⟩ := Option.map_eq_some_iff.mp hframe
    obtain ⟨-, rfl⟩ := disconnect_eq_some_iff.mp hleft
    cases download with
    | false => exact h.leave hkey h.good (Or.inl rfl)
    | true => exact h.leave hkey h.good (Or.inr rfl)
  · rename_i hpc
    obtain ⟨hkey, hsettled⟩ := h.in_frame hpc (by simp) (by simp) (by simp)
    split at hframe
    · cases hframe
      exact inv_seen h hkey
    · cases hframe
      exact h.stayAt hkey hsettled (Or.inl rfl)
  · rename_i lost hpc
    obtain ⟨hkey, hsettled⟩ := h.in_frame hpc (by simp) (by simp) (by simp)
    cases hframe
    refine h.stay hkey (fun _ => hsettled) (fun hc => nomatch hc) (fun lost' hp => ?_)
      (fun _ hk => nomatch hk) (fun _ hw => nomatch hw) (fun ha => nomatch ha)
    rcases hp with hp | hp <;> cases hp
    exact h.resetting lost (Or.inl hpc)
  · rename_i lost hpc
    obtain ⟨hkey, hsettled⟩ := h.in_frame hpc (by simp) (by simp) (by simp)
    cases hframe
    cases lost with
    | false => exact h.stayAt hkey hsettled (Or.inr (Or.inl rfl))
    | true => exact h.startLoop hkey hsettled
  · rename_i hpc
    obtain ⟨hkey, hsettled⟩ := h.in_frame hpc (by simp) (by simp) (by simp)
    split at hframe
    · cases hframe
      exact h.startLoop hkey hsettled
    · cases hframe
      exact h.stayAt hkey hsettled (Or.inr (Or.inr ⟨true, rfl⟩))
  · rename_i k isComplete hpc
    obtain ⟨hkey, hsettled⟩ := h.in_frame hpc (by simp) (by simp) (by simp)
    split at hframe
    · rename_i hk
      cases hframe
      refine h.stay hkey (fun _ => hsettled) (fun hc => nomatch hc) (fun _ hp => by simp at hp)
        (fun k' hk' i hi => ?_) (fun _ hw => nomatch hw) (fun ha => nomatch ha)
      simp only [FramePc.readAck.injEq, Bool.and_eq_true] at hk'
      obtain ⟨rfl, hsofar, hflag⟩ := hk'
      rcases Nat.lt_succ_iff_lt_or_eq.mp hi with hlt | heq
      · exact h.acks k (by rw [hpc, hsofar]) i hlt
      · rw [show i = ⟨k, hk⟩ from Fin.ext heq]
        exact hflag
    · rename_i hk
      split at hframe
      · rename_i hcomplete
        have hflags : ∀ i, s.sync.sCachedSaveFileAck i = true := fun i =>
          h.acks k (by rw [hpc, hcomplete]) i (by omega)
        cases hframe
        exact h.stay hkey (fun _ => hsettled) (fun hc => nomatch hc) (fun _ hp => by simp at hp)
          (fun _ hk => nomatch hk)
          (fun _ _ => ⟨hall ⟨k, Nat.not_lt.mp hk, by rw [hpc, hcomplete], hflags⟩, hflags⟩)
          (fun ha => nomatch ha)
      · cases hframe
        exact h.stayAt hkey hsettled (Or.inl rfl)
  · rename_i size hpc
    have hkey : s.keyboard = .hidden := h.no_keyboard_in_frame (by simp [hpc])
    cases hframe
    exact inv_written h hkey (h.writing size hpc).1 _
  · rename_i hpc
    cases hframe
    exact inv_appearMode h hpc
  · rename_i hpc
    obtain ⟨t, hleft, rfl⟩ := Option.map_eq_some_iff.mp hframe
    obtain ⟨-, rfl⟩ := disconnect_eq_some_iff.mp hleft
    have hdone := inv_appearDisconnect h hpc
    exact hdone

/-- A frame of the scene keeps the invariant. -/
theorem inv_sceneFrame {nerve : SceneNerve} (h : MenuInv Seen s) (hpc : s.pc = .idle)
    (hframe : sceneFrame s nerve = some next) : MenuInv Seen next := by
  have hnot : s.pc ≠ .appearMode := by rw [hpc]; decide
  unfold sceneFrame at hframe
  split at hframe
  · split at hframe
    · split at hframe
      · rename_i hgame
        cases hframe
        refine { h with
          appearing := fun ha => absurd ha hnot
          loading := fun first hs => ?_
          reading := fun hs => ?_ }
        all_goals
          rw [show nerve = .loadNetworkSave _ from hs] at hgame
          cases hgame
      · cases hframe
    · rename_i hmode
      split at hframe
      · rename_i hend
        cases hframe
        exact { h with
          appearing := fun ha => absurd ha hnot
          loading := fun _ _ => ⟨hmode, h.ended hend⟩
          reading := fun hs => nomatch hs }
      · cases hframe
        exact h
  · rename_i hscene
    split at hframe
    · cases hframe
    · cases hframe
    · cases hframe
      exact { h with
        appearing := fun ha => absurd ha hnot
        loading := fun _ _ => h.loading true hscene
        reading := fun _ _ hr => nomatch hr }
  · split at hframe
    · cases hframe
      exact { h with
        appearing := fun ha => absurd ha hnot
        loading := fun first hs => nomatch hs
        reading := fun hs => nomatch hs }
    · cases hframe
      exact h
  · cases hframe

/-- The read of the save data thread keeps the invariant. -/
theorem inv_sequenceRead {left : List UInt8} (h : MenuInv Seen s)
    (hread : sequenceRead s left = some next) : MenuInv Seen next := by
  unfold sequenceRead at hread
  split at hread
  · cases hread
    refine { h with reading := fun hs mode hmode => ?_ }
    cases hmode
    exact (h.loading false hs).1
  · cases hread
    exact { h with reading := fun _ _ hr => nomatch hr }
  · cases hread
    exact { h with reading := fun _ _ hr => nomatch hr }
  · cases hread

/-- A scene that appears keeps the invariant. -/
theorem inv_appear (h : MenuInv Seen s) (hkey : s.keyboard = .hidden) (menu : GameNerve)
    (scene : ℕ) :
    MenuInv Seen { s with
      menu := s.menu.setNerve (.game menu)
      scene := .game scene
      pc := .appearMode } :=
  { h with
    good := h.good.setNerve
    keyboard := fun hk => absurd hkey hk
    stalled := fun hs => absurd rfl hs.appearMode
    checking := fun hc => nomatch hc
    resetting := fun _ hp => by simp at hp
    acks := fun _ hk => nomatch hk
    writing := fun _ hw => nomatch hw
    ended := fun hn => nomatch hn
    loading := fun first hs => nomatch hs
    appearing := fun _ => ⟨scene, rfl⟩
    reading := fun hs => nomatch hs }

/-- A call back of the keyboard keeps the invariant. -/
theorem inv_keyboardDone (h : MenuInv Seen s) (hkey : s.keyboard = .shown) (closed : Bool)
    (str : EnteredText) : MenuInv Seen (keyboardDone s closed str) := by
  obtain ⟨hnerve, hpc, hstep⟩ := h.keyboard (by rw [hkey]; decide)
  have hquiet : s.net = .stall := by
    refine h.stalled ?_ (by rw [hnerve]; rfl)
    rw [hkey, hpc]
    exact ⟨by decide, by decide, by decide⟩
  unfold keyboardDone
  split
  · exact { h with
      toFrameInv := frameInv_between (Or.inl hpc)
      good := h.good.setNerve
      keyboard := fun hk => absurd rfl hk
      stalled := fun _ _ => hquiet
      ended := fun hn => nomatch hn }
  · exact h
  · exact { h with
      keyboard := fun _ => ⟨hnerve, hpc, hstep⟩
      stalled := fun hs => absurd rfl hs.keyboard }

/-- So does its next part. -/
theorem inv_keyboardResume (h : MenuInv Seen s) (hkey : s.keyboard = .connecting) :
    MenuInv Seen { s with keyboard := .hidden, menu := s.menu.setNerve .connect } := by
  obtain ⟨-, hpc, -⟩ := h.keyboard (by rw [hkey]; decide)
  exact { h with
    toFrameInv := frameInv_between (Or.inl hpc)
    good := h.good.setNerve
    keyboard := fun hk => absurd rfl hk
    stalled := fun _ hq => nomatch hq
    ended := fun hn => nomatch hn }

/-- The parts of a handled chunk change the download only, where set flags stay set. -/
structure HandlesChunk (s next : MenuSystem) : Prop where
  /-- The rest stays. -/
  rest : next = { s with sync := next.sync, chunk := next.chunk }
  /-- The flags. -/
  acks : ∀ i, s.sync.sCachedSaveFileAck i = true → next.sync.sCachedSaveFileAck i = true

/-- They keep the invariant. -/
theorem inv_handles (h : MenuInv Seen s) (hhandles : HandlesChunk s next) : MenuInv Seen next := by
  rw [hhandles.rest]
  exact { h with
    acks := fun k hk i hi => hhandles.acks i (h.acks k hk i hi)
    writing := fun size hw => ⟨(h.writing size hw).1,
      fun i => hhandles.acks i ((h.writing size hw).2 i)⟩ }

/-- The first part of a chunk. -/
theorem handleChunk_handles (s : MenuSystem) (packet : SaveDataChunk) :
    HandlesChunk s (handleChunk s packet) := by
  unfold handleChunk
  split
  · exact ⟨rfl, fun _ h => h⟩
  · split
    · exact ⟨rfl, fun _ h => h⟩
    · exact ⟨rfl, fun _ h => h⟩

/-- The next parts. -/
theorem handleResume_handles (h : handleResume s = some next) : HandlesChunk s next := by
  unfold handleResume at h
  split at h
  · cases h
  · obtain ⟨buffer, -, rfl⟩ := Option.map_eq_some_iff.mp h
    exact ⟨rfl, fun _ h => h⟩
  · cases h
    refine ⟨rfl, fun i hi => ?_⟩
    dsimp only
    rw [Function.update_apply]
    split
    · rfl
    · exact hi

/-- A connection that changes keeps the invariant when a stalled client stays so. -/
theorem inv_net (h : MenuInv Seen s) {net : ClientNerve} (hnet : s.net = .stall → net = .stall) :
    MenuInv Seen { s with net := net } :=
  { h with stalled := fun hs hq => hnet (h.stalled hs hq) }

/-- A step keeps the invariant. -/
theorem inv_step {a : MenuAction} (h : MenuInv Seen s) (hall : AllSeen s → Seen)
    (hstep : menuStep s a = some next) : MenuInv Seen next := by
  cases a with
  | gameMenu step =>
    simp only [menuStep] at hstep
    split at hstep <;> cases hstep
    rename_i hgame
    obtain ⟨hpc, hnerve⟩ := hgame
    have hquiet : s.menu.nerve.usesClient = false ∧ s.menu.nerve ≠ .enterIp := by
      revert hnerve
      cases s.menu.nerve <;> simp [MenuNerve.isGame, MenuNerve.usesClient]
    exact h.move hquiet.1 (h.no_keyboard rfl hquiet.2) hpc hpc
      (gameMenuStep_quiet step ⟨h.good, hquiet.1⟩)
  | gameScene nerve =>
    simp only [menuStep] at hstep
    split at hstep <;> cases hstep
    rename_i hgame
    refine { h with
      appearing := fun ha => nomatch hgame.1.symm.trans ha
      loading := fun first hs => ?_
      reading := fun hs => ?_ }
    all_goals
      have hnerve := hgame.2.2.2
      rw [show nerve = .loadNetworkSave _ from hs] at hnerve
      cases hnerve
  | appear menu scene =>
    simp only [menuStep] at hstep
    split at hstep <;> cases hstep
    rename_i hidle
    exact inv_appear h hidle.2 menu scene
  | menuFrame pad =>
    simp only [menuStep] at hstep
    split at hstep
    · exact inv_menuFrame h ‹_› hstep
    · cases hstep
  | menuResume => exact inv_menuResume h hall hstep
  | sceneFrame nerve =>
    simp only [menuStep] at hstep
    split at hstep
    · exact inv_sceneFrame h ‹_› hstep
    · cases hstep
  | keyboardDone closed str =>
    simp only [menuStep] at hstep
    split at hstep <;> cases hstep
    exact inv_keyboardDone h ‹_› closed str
  | keyboardResume =>
    simp only [menuStep] at hstep
    split at hstep <;> cases hstep
    exact inv_keyboardResume h ‹_›
  | sequenceRead left => exact inv_sequenceRead h hstep
  | connected =>
    simp only [menuStep] at hstep
    split at hstep <;> cases hstep
    rename_i hnet
    exact inv_net h fun hstall => nomatch hnet.1.symm.trans hstall
  | disconnected =>
    simp only [menuStep] at hstep
    split at hstep <;> cases hstep
    rename_i hnet
    exact inv_net h fun hstall => nomatch hnet.1.symm.trans hstall
  | stalled =>
    simp only [menuStep] at hstep
    split at hstep <;> cases hstep
    exact inv_net h fun _ => rfl
  | handle packet =>
    simp only [menuStep] at hstep
    split at hstep <;> cases hstep
    exact inv_handles h (handleChunk_handles s packet)
  | handleResume => exact inv_handles h (handleResume_handles hstep)

/-- A menu at a nerve of the game. -/
theorem inv_start (sync : SaveDataSync) (remote gameData : List UInt8) :
    MenuInv Seen (.start sync remote gameData) where
  toFrameInv := frameInv_between (Or.inl rfl)
  good := ⟨fun _ h => (by cases h), fun _ h => (by cases h), fun _ h => (by cases h)⟩
  keyboard := fun hk => absurd rfl hk
  stalled := fun _ _ => rfl
  ended := fun hn => nomatch hn
  loading := fun first hs => nomatch hs
  reading := fun hs => nomatch hs

variable {past : List MenuAction}

/-- A frame that has found all flags stays in the past. -/
theorem Completed.snoc {start : MenuSystem} (h : Completed start past) (a : MenuAction) :
    Completed start (past ++ [a]) := by
  obtain ⟨before, after, s, rfl, hrest⟩ := h
  exact ⟨before, after ++ [a], s, List.append_assoc _ _ _, hrest⟩

/-- A state that was reached, with what holds in it. -/
structure Reached (start : MenuSystem) (past : List MenuAction) (s : MenuSystem) : Prop where
  /-- By the past. -/
  run_eq : run menuStep start past = some s
  /-- What holds there. -/
  inv : MenuInv (Completed start past) s

/-- A step reaches the next state. -/
theorem Reached.step {start : MenuSystem} {a : MenuAction} (h : Reached start past s)
    (hstep : menuStep s a = some next) : Reached start (past ++ [a]) next where
  run_eq := by
    rw [run_append, h.run_eq, Option.bind_some, run_cons, hstep]
    rfl
  inv := by
    refine inv_step (h.inv.mono fun hseen => hseen.snoc a) (fun hall => ?_) hstep
    exact ⟨past, [a], s, rfl, h.run_eq, hall⟩

/-- Every run reaches its end so. -/
theorem reached {sync : SaveDataSync} {remote gameData : List UInt8} {actions : List MenuAction}
    (hrun : run menuStep (.start sync remote gameData) actions = some s) :
    Reached (.start sync remote gameData) actions s := by
  have hkeeps : ∀ past s a t, Reached (.start sync remote gameData) past s → True → True → True →
      menuStep s a = some t → Reached (.start sync remote gameData) (past ++ [a]) t :=
    fun _ _ _ _ h _ _ _ hstep => h.step hstep
  have hstart : Reached (.start sync remote gameData) [] (.start sync remote gameData) :=
    ⟨rfl, inv_start sync remote gameData⟩
  exact run_history hkeeps hstart (throughout_of_forall (fun _ => trivial) _ _)
    (fun _ _ => trivial) hrun

/-- The step lets the scene appear. -/
def appears : MenuAction → Bool
  | .appear _ _ => true
  | _ => false

/-- What a frame of the menu leaves alone. -/
structure LeavesScene (s next : MenuSystem) : Prop where
  /-- The scene. -/
  scene : next.scene = s.scene
  /-- The frames of the game's own title. -/
  titleFrames : next.titleFrames = s.titleFrames
  /-- The mode of the server. -/
  mode : s.mode = .Server → next.mode = .Server
  /-- No scene appears. -/
  appears : next.pc ≠ .appearMode

/-- The first part of a frame of the menu. -/
theorem menuFrame_leavesScene {pad : PadInput} (h : menuFrame s pad = some next) :
    LeavesScene s next := by
  unfold menuFrame at h
  dsimp only at h
  split at h
  case h_1 | h_2 | h_4 =>
    obtain ⟨menu, -, rfl⟩ := Option.map_eq_some_iff.mp h
    exact ⟨rfl, rfl, id, nofun⟩
  case h_6 | h_7 =>
    split at h <;> cases h <;> exact ⟨rfl, rfl, id, nofun⟩
  all_goals
    cases h
    try exact ⟨rfl, rfl, id, nofun⟩

/-- The next parts. -/
theorem menuResume_leavesScene (hpc : s.pc ≠ .appearMode) (h : menuResume s = some next) :
    LeavesScene s next := by
  unfold menuResume at h
  split at h
  case h_2 download _ =>
    obtain ⟨t, hleft, rfl⟩ := Option.map_eq_some_iff.mp h
    obtain ⟨-, rfl⟩ := disconnect_eq_some_iff.mp hleft
    cases download <;> exact ⟨rfl, rfl, id, nofun⟩
  case h_3 =>
    split at h <;> cases h
    · exact ⟨rfl, rfl, fun _ => rfl, nofun⟩
    · exact ⟨rfl, rfl, id, nofun⟩
  case h_5 lost _ =>
    cases h
    cases lost <;> exact ⟨rfl, rfl, id, nofun⟩
  case h_6 =>
    split at h <;> cases h <;> exact ⟨rfl, rfl, id, nofun⟩
  case h_7 =>
    split at h
    · cases h
      exact ⟨rfl, rfl, id, nofun⟩
    · split at h <;> cases h <;> exact ⟨rfl, rfl, id, nofun⟩
  case h_9 happear => exact absurd happear hpc
  case h_10 =>
    obtain ⟨t, hleft, rfl⟩ := Option.map_eq_some_iff.mp h
    obtain ⟨-, rfl⟩ := disconnect_eq_some_iff.mp hleft
    exact ⟨rfl, rfl, id, nofun⟩
  all_goals
    cases h
    try exact ⟨rfl, rfl, id, nofun⟩

/-- What holds from a title in server mode on, until the scene appears again. -/
structure TitleInv (start : MenuSystem) (frames : ℕ) (past : List MenuAction) (s : MenuSystem) :
    Prop extends Reached start past s where
  /-- The mode stays. -/
  server : s.mode = .Server
  /-- No scene appears. -/
  appears : s.pc ≠ .appearMode
  /-- The game's own `exeSingleModeTitle` does not run. -/
  frames_eq : s.titleFrames = frames
  /-- The scene leaves the title when all flags were set. -/
  left : s.scene = .singleModeTitle ∨ Completed start past

variable {start : MenuSystem} {frames : ℕ} {a : MenuAction}

/-- A step that leaves the scene alone. -/
theorem TitleInv.leavesScene (h : TitleInv start frames past s)
    (hnext : Reached start (past ++ [a]) next) (hleaves : LeavesScene s next) :
    TitleInv start frames (past ++ [a]) next where
  toReached := hnext
  server := hleaves.mode h.server
  appears := hleaves.appears
  frames_eq := hleaves.titleFrames.trans h.frames_eq
  left := h.left.imp (fun htitle => hleaves.scene.trans htitle) fun hseen => hseen.snoc a

/-- A frame of the scene in server mode. -/
theorem TitleInv.sceneFrame {nerve : SceneNerve} (h : TitleInv start frames past s)
    (hnext : Reached start (past ++ [a]) next) (hframe : sceneFrame s nerve = some next) :
    TitleInv start frames (past ++ [a]) next := by
  have hseen : s.scene ≠ .singleModeTitle → Completed start (past ++ [a]) :=
    fun hscene => (h.left.resolve_left hscene).snoc a
  unfold TopMenuScene.sceneFrame at hframe
  split at hframe
  · rename_i hscene
    rw [h.server] at hframe
    dsimp only at hframe
    split at hframe <;> cases hframe
    · exact ⟨hnext, rfl, h.appears, h.frames_eq, Or.inr (hnext.inv.loading true rfl).2⟩
    · exact ⟨hnext, h.server, h.appears, h.frames_eq, Or.inl hscene⟩
  · rename_i hscene
    split at hframe <;> cases hframe
    exact ⟨hnext, h.server, h.appears, h.frames_eq, Or.inr (hseen (by rw [hscene]; decide))⟩
  · rename_i hscene
    split at hframe <;> cases hframe <;>
      exact ⟨hnext, h.server, h.appears, h.frames_eq, Or.inr (hseen (by rw [hscene]; decide))⟩
  · cases hframe

/-- A step without an appearing scene keeps what holds in server mode. -/
theorem TitleInv.step (h : TitleInv start frames past s) (ha : MenuConnection.appears a = false)
    (hstep : menuStep s a = some next) : TitleInv start frames (past ++ [a]) next := by
  have hnext := h.toReached.step hstep
  have hsame : LeavesScene s next → TitleInv start frames (past ++ [a]) next :=
    h.leavesScene hnext
  have hhandles : HandlesChunk s next → TitleInv start frames (past ++ [a]) next := by
    intro hhandles
    have hrest := hhandles.rest
    exact hsame ⟨by rw [hrest], by rw [hrest], fun hmode => by rw [hrest]; exact hmode,
      by rw [hrest]; exact h.appears⟩
  cases a with
  | appear menu scene => cases ha
  | gameScene nerve =>
    simp only [menuStep] at hstep
    split at hstep <;> cases hstep
    rename_i hgame
    exact ⟨hnext, h.server, h.appears, h.frames_eq,
      Or.inr ((h.left.resolve_left hgame.2.2.1).snoc _)⟩
  | sceneFrame nerve =>
    simp only [menuStep] at hstep
    split at hstep
    · exact h.sceneFrame hnext hstep
    · cases hstep
  | menuFrame pad =>
    simp only [menuStep] at hstep
    split at hstep
    · exact hsame (menuFrame_leavesScene hstep)
    · cases hstep
  | menuResume => exact hsame (menuResume_leavesScene h.appears hstep)
  | handle packet =>
    simp only [menuStep] at hstep
    split at hstep <;> cases hstep
    exact hhandles (handleChunk_handles s packet)
  | handleResume => exact hhandles (handleResume_handles hstep)
  | keyboardDone closed str =>
    simp only [menuStep] at hstep
    split at hstep <;> cases hstep
    unfold keyboardDone at hsame hnext ⊢
    split at hsame <;> exact hsame ⟨rfl, rfl, id, h.appears⟩
  | sequenceRead left =>
    simp only [menuStep, sequenceRead] at hstep
    split at hstep <;> cases hstep <;> exact hsame ⟨rfl, rfl, id, h.appears⟩
  | _ =>
    simp only [menuStep] at hstep
    split at hstep <;> cases hstep
    exact hsame ⟨rfl, rfl, id, h.appears⟩

/-- In every run, from a title of the scene on that the menu has come to with a connection, and
while the scene does not appear again, the game's own title never runs, and the scene leaves its
title only after a frame of the menu that has found all eight flags set. -/
theorem server_mode_keeps_title (sync : SaveDataSync) (remote gameData : List UInt8)
    (actions rest : List MenuAction) (s t : MenuSystem)
    (hrun : run menuStep (.start sync remote gameData) actions = some s) (hmode : s.mode = .Server)
    (hscene : s.scene = .singleModeTitle) (hrest : run menuStep s rest = some t)
    (happear : ∀ a ∈ rest, appears a = false) :
    t.mode = .Server ∧ t.titleFrames = s.titleFrames ∧
      (t.scene = .singleModeTitle ∨
        Completed (.start sync remote gameData) (actions ++ rest)) := by
  have hreached := reached hrun
  have hpc : s.pc ≠ .appearMode := by
    intro happears
    obtain ⟨id, hgame⟩ := hreached.inv.appearing happears
    cases hscene.symm.trans hgame
  have hstart : TitleInv (.start sync remote gameData) s.titleFrames actions s :=
    ⟨hreached, hmode, hpc, rfl, Or.inl hscene⟩
  have hinv := run_history (fun _ _ _ _ h _ _ ha hstep => h.step ha hstep) hstart
    (throughout_of_forall (fun _ => trivial) _ _) happear hrest
  exact ⟨hinv.server, hinv.frames_eq, hinv.left⟩

/-- An address. -/
def someAddress : EnteredText := ⟨ascii "10.0.0.1:7089", by decide +kernel, by decide +kernel⟩

/-- No button. -/
def noInput : PadInput := ⟨false, false, false⟩

/-- The button of the server, or of any character. -/
def decided : PadInput := ⟨false, true, false⟩

/-- From the title over the selections and an address to the first part of `exeConnect`. -/
def toConnect : List MenuAction :=
  [.gameScene .singleModeTitle, .gameMenu .setModeSelectNerve, .menuFrame decided] ++
    List.replicate 16 (.menuFrame noInput) ++
    [.menuFrame decided, .menuFrame noInput, .keyboardDone false someAddress, .keyboardResume,
      .menuFrame noInput]

/-- On to the end of the reset of the download. -/
def toDownload : List MenuAction :=
  toConnect ++ [.connected, .menuResume, .menuFrame noInput, .menuResume, .menuResume]

/-- To a lost connection: the menu is back at the selection of a mode. -/
def toLost : List MenuAction :=
  toDownload ++ [.disconnected] ++ List.replicate 13 .menuResume

/-- The button of a single player, and the frames to its title. -/
def thenSinglePlayer : List MenuAction :=
  .menuFrame ⟨false, true, true⟩ :: List.replicate 16 (.menuFrame noInput) ++
    [.sceneFrame .topMenuEnd, .sceneFrame .topMenuEnd]

/-- After a lost connection a single player comes to a title that does not run. -/
theorem server_mode_keeps_title_lost : ∃ s t,
    run menuStep (.start resetSaveDataBuffer [] []) toLost = some s ∧
      run menuStep s thenSinglePlayer = some t ∧ t.menu.nerve = .game .singleModeTitle ∧
      t.titleFrames = s.titleFrames := by
  have hlost : ∃ s, run menuStep (.start resetSaveDataBuffer [] []) toLost = some s ∧
      s.mode = .Server ∧ s.scene = .singleModeTitle ∧
      (run menuStep s thenSinglePlayer).any
        (fun t => decide (t.menu.nerve = .game .singleModeTitle)) = true :=
    run_reaches (by decide +kernel)
  obtain ⟨s, hrun, hmode, hscene, hany⟩ := hlost
  obtain ⟨t, hrest, hnerve⟩ := run_reaches hany
  have hkeeps := server_mode_keeps_title resetSaveDataBuffer [] [] toLost thenSinglePlayer s t hrun
    hmode hscene hrest (by decide)
  exact ⟨s, t, hrun, hrest, hnerve, hkeeps.2.1⟩

end BfMultiplayer.MenuConnection

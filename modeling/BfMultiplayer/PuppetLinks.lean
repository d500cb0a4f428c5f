import BfMultiplayer.PlayerSlots

/-!
# The links between players and puppets

A puppet clears the link of its player when it is destroyed, through a pointer
into the array of the players. A list replaces the players and links the puppets
it picks; a puppet that it does not pick keeps its pointer into the array, to a
slot that is empty or belongs to a player with another puppet. The links are one
to one in exactly the runs whose lists pick every puppet that has a player.
-/

namespace BfMultiplayer.PuppetLinks

open Packets GuardedRuns TwoWayLinks PlayerSlots

/-- A choice of puppets, by the player type and the index into the pools. -/
abbrev Pick := UInt8 → ℕ → Option ℕ

/-- The choice among the Plessies. -/
def raidonAt (mgr : MultiplayerManager) : Pick := fun _ idx => mgr.mRaidonPuppetPool[idx]?

/-- What a list picks: an entry of another user picks at its place among these. -/
def picked (mgr : MultiplayerManager) (pick : Pick) (packet : List PlayerListDataEntry) :
    List (Option ℕ) :=
  if mgr.mPuppetsReady then
    (packet.filter fun entry => !isLocal mgr.uid entry).zipIdx.map fun item =>
      pick item.1.playerType item.2
  else []

/-- The owners and their objects are linked one to one, and destroying an object clears the
link of its own owner and no other. -/
structure LinkedOneToOne (owners : List (Owner ℕ ℕ)) (objs : Objects ℕ ℕ)
    (destroyed : ℕ → List (Owner ℕ ℕ)) : Prop where
  /-- The two directions agree. -/
  linked : Linked owners objs
  /-- Destroying clears the own link. -/
  clearsOwn : ∀ p ∈ objs.live, destroyed p = owners.map fun owner =>
    if objs.owner p = some owner.address ∧ owner.object = some p then ⟨owner.address, none⟩
    else owner

instance (owners : List (Owner ℕ ℕ)) (objs : Objects ℕ ℕ) (destroyed : ℕ → List (Owner ℕ ℕ)) :
    Decidable (LinkedOneToOne owners objs destroyed) :=
  decidable_of_iff
    (Linked owners objs ∧ ∀ p ∈ objs.live, destroyed p = owners.map fun owner =>
      if objs.owner p = some owner.address ∧ owner.object = some p then ⟨owner.address, none⟩
      else owner)
    ⟨fun h => ⟨h.1, h.2⟩, fun h => ⟨h.linked, h.clearsOwn⟩⟩

/-- The players are linked one to one to their puppets and to their Plessies. -/
structure PuppetsLinked (mgr : MultiplayerManager) : Prop where
  /-- The puppets. -/
  players : LinkedOneToOne (playerOwners mgr.mPlayers) mgr.playerPuppets
    fun p => playerOwners (destroyPlayerPuppet mgr p).mPlayers
  /-- The Plessies. -/
  raidons : LinkedOneToOne (raidonOwners mgr.mPlayers) mgr.raidonPuppets
    fun p => raidonOwners (destroyRaidonPuppet mgr p).mPlayers

instance (mgr : MultiplayerManager) : Decidable (PuppetsLinked mgr) :=
  decidable_of_iff
    (LinkedOneToOne (playerOwners mgr.mPlayers) mgr.playerPuppets
        (fun p => playerOwners (destroyPlayerPuppet mgr p).mPlayers) ∧
      LinkedOneToOne (raidonOwners mgr.mPlayers) mgr.raidonPuppets
        fun p => raidonOwners (destroyRaidonPuppet mgr p).mPlayers)
    ⟨fun h => ⟨h.1, h.2⟩, fun h => ⟨h.players, h.raidons⟩⟩

/-- A list picks every live puppet that has a player. -/
def PicksLinked (mgr : MultiplayerManager) (pick : Pick) (objs : Objects ℕ ℕ)
    (packet : List PlayerListDataEntry) : Prop :=
  ∀ p ∈ objs.live, (objs.owner p).isSome → some p ∈ picked mgr pick packet

/-- The condition on a step: a list picks every live puppet, and every live Plessie, that
has a player. -/
def RelistsLinked (mgr : MultiplayerManager) : SlotAction → Prop
  | .playerList packet slots => SlotsFor packet slots →
    PicksLinked mgr mgr.puppetAt mgr.playerPuppets packet ∧
      PicksLinked mgr (raidonAt mgr) mgr.raidonPuppets packet
  | _ => True

/-- The players lie in different slots, and the pools hold different puppets. -/
structure SlotInv (mgr : MultiplayerManager) : Prop where
  /-- The slots. -/
  slots : (mgr.mPlayers.map Element.address).Nodup
  /-- The puppets. -/
  puppets : mgr.mPuppetPools.flatten.Nodup
  /-- The Plessies. -/
  raidons : mgr.mRaidonPuppetPool.Nodup

/-- The objects that the rounds of the loop link to the slots. -/
def linkedObjects (mgr : MultiplayerManager) (pick : Pick) :
    ℕ → List ((PlayerListDataEntry × ℕ) × ℕ) → List (Owner ℕ ℕ)
  | _, [] => []
  | idx, item :: items =>
    ⟨item.1.2, if !isLocal mgr.uid item.1.1 && mgr.mPuppetsReady then
      pick item.1.1.playerType idx else none⟩ ::
    linkedObjects mgr pick (nextIdx mgr idx item.1.1) items

/-- A pick never answers with one object at two indices. -/
def PicksOnce (pick : Pick) : Prop :=
  ∀ one other idx idx' p, pick one idx = some p → pick other idx' = some p → idx = idx'

/-- The objects that the loop links through one of the two pointers of a player. -/
theorem owners_placed {mgr : MultiplayerManager} {size : ℕ} {pick : Pick}
    {object : Element → Option ℕ}
    (hobject : ∀ idx item, object (placedAt mgr size idx item) =
      if !isLocal mgr.uid item.1.1 && mgr.mPuppetsReady then pick item.1.1.playerType idx else none)
    (idx : ℕ) (items : List ((PlayerListDataEntry × ℕ) × ℕ)) :
    (placed mgr size idx items).map
        (fun player => (⟨player.address, object player⟩ : Owner ℕ ℕ)) =
      linkedObjects mgr pick idx items := by
  induction items generalizing idx with
  | nil => rfl
  | cons item items ih =>
    rw [placed, linkedObjects, List.map_cons, ih, hobject, address_placedAt]

/-- The puppets that the loop links. -/
theorem playerOwners_placed (mgr : MultiplayerManager) (size idx : ℕ)
    (items : List ((PlayerListDataEntry × ℕ) × ℕ)) :
    playerOwners (placed mgr size idx items) = linkedObjects mgr mgr.puppetAt idx items := by
  refine owners_placed (fun idx item => ?_) idx items
  unfold placedAt
  split <;> rfl

/-- The Plessies that the loop links. -/
theorem raidonOwners_placed (mgr : MultiplayerManager) (size idx : ℕ)
    (items : List ((PlayerListDataEntry × ℕ) × ℕ)) :
    raidonOwners (placed mgr size idx items) = linkedObjects mgr (raidonAt mgr) idx items := by
  refine owners_placed (fun idx item => ?_) idx items
  unfold placedAt
  split <;> rfl

/-- What the loop links is what the list picks. -/
theorem mem_linkedObjects (mgr : MultiplayerManager) (pick : Pick) (idx p : ℕ)
    (items : List ((PlayerListDataEntry × ℕ) × ℕ)) :
    some p ∈ (linkedObjects mgr pick idx items).map Owner.object ↔
      mgr.mPuppetsReady = true ∧
        some p ∈ (((items.map fun item => item.1.1).filter
          fun entry => !isLocal mgr.uid entry).zipIdx idx).map
            fun item => pick item.1.playerType item.2 := by
  induction items generalizing idx with
  | nil => simp only [linkedObjects, List.map_nil, List.not_mem_nil, List.filter_nil,
      List.zipIdx_nil, and_false]
  | cons item items ih =>
    rw [linkedObjects, List.map_cons, List.map_cons, List.mem_cons, ih, nextIdx]
    by_cases hready : mgr.mPuppetsReady = true
    · by_cases hlocal : isLocal mgr.uid item.1.1 = true
      · simp only [hready, hlocal, Bool.not_true, Bool.false_and, Bool.false_eq_true, if_false,
          reduceCtorEq, false_or, true_and, List.filter_cons]
      · simp only [hready, hlocal, Bool.not_false, Bool.and_true, if_true, true_and,
          List.filter_cons, List.zipIdx_cons, List.map_cons, List.mem_cons]
    · simp only [hready, Bool.and_false, Bool.false_eq_true, if_false, reduceCtorEq, false_or,
        false_and]

/-- What the loop links from an index on, it picks at that index or a later one. -/
theorem index_of_linkedObjects {mgr : MultiplayerManager} {pick : Pick} {idx p : ℕ}
    {items : List ((PlayerListDataEntry × ℕ) × ℕ)} {owner : Owner ℕ ℕ}
    (hmem : owner ∈ linkedObjects mgr pick idx items) (hp : p ∈ owner.object) :
    ∃ playerType idx', idx ≤ idx' ∧ pick playerType idx' = some p := by
  induction items generalizing idx with
  | nil => exact absurd hmem List.not_mem_nil
  | cons item items ih =>
    rcases List.mem_cons.mp hmem with rfl | htail
    · obtain ⟨-, hpick⟩ := Option.ite_none_right_eq_some.mp hp
      exact ⟨item.1.1.playerType, idx, Nat.le_refl idx, hpick⟩
    · obtain ⟨playerType, idx', hle, hpick⟩ := ih htail
      have hnext : idx ≤ nextIdx mgr idx item.1.1 := by
        unfold nextIdx
        split <;> omega
      exact ⟨playerType, idx', by omega, hpick⟩

/-- The loop links no object twice. -/
theorem distinct_linkedObjects {mgr : MultiplayerManager} {pick : Pick} (hpick : PicksOnce pick)
    (idx : ℕ) (items : List ((PlayerListDataEntry × ℕ) × ℕ)) :
    DistinctObjects (linkedObjects mgr pick idx items) := by
  induction items generalizing idx with
  | nil => exact List.Pairwise.nil
  | cons item items ih =>
    refine List.pairwise_cons.mpr ⟨fun other hother p hp hp' => ?_, ih _⟩
    obtain ⟨hremote, hhead⟩ := Option.ite_none_right_eq_some.mp hp
    obtain ⟨playerType, idx', hle, htail⟩ := index_of_linkedObjects hother hp'
    have hsame := hpick _ _ _ _ _ hhead htail
    rw [nextIdx, if_pos hremote] at hle
    omega

/-- A list without repetitions has an element at one index only. -/
theorem index_unique {pool : List ℕ} (h : pool.Nodup) {idx idx' p : ℕ}
    (hat : pool[idx]? = some p) (hat' : pool[idx']? = some p) : idx = idx' := by
  have hlt : idx < pool.length := (List.getElem?_eq_some_iff.mp hat).1
  exact (List.getElem?_inj hlt h).mp (hat.trans hat'.symm)

/-- The pools of the characters answer with a puppet at one index only. -/
theorem picksOnce_puppetAt {mgr : MultiplayerManager} (h : mgr.mPuppetPools.flatten.Nodup) :
    PicksOnce mgr.puppetAt := by
  intro one other idx idx' p hone hother
  obtain ⟨pool, hpool, hat⟩ := Option.bind_eq_some_iff.mp hone
  obtain ⟨pool', hpool', hat'⟩ := Option.bind_eq_some_iff.mp hother
  have hflat := List.nodup_flatten.mp h
  have hmem : pool ∈ mgr.mPuppetPools := List.mem_of_getElem? hpool
  by_cases hsame : pool = pool'
  · rw [← hsame] at hat'
    exact index_unique (hflat.1 pool hmem) hat hat'
  · have hsymm : Std.Symm (@List.Disjoint ℕ) := ⟨fun _ _ hab => hab.symm⟩
    have hdisjoint : pool.Disjoint pool' :=
      hflat.2.forall hmem (List.mem_of_getElem? hpool') hsame
    exact absurd (List.mem_of_getElem? hat') (hdisjoint (List.mem_of_getElem? hat))

/-- The pool of the Plessies answers with one at one index only. -/
theorem picksOnce_raidonAt {mgr : MultiplayerManager} (h : mgr.mRaidonPuppetPool.Nodup) :
    PicksOnce (raidonAt mgr) :=
  fun _ _ _ _ _ hone hother => index_unique h hone hother

/-- Destroying a puppet clears the link at its player's address. -/
theorem playerOwners_clearPuppet (players : List Element) (mPlayerData : Option ℕ) :
    playerOwners (clearPuppet players mPlayerData) = unlink (playerOwners players) mPlayerData := by
  rw [playerOwners, clearPuppet, unlink, playerOwners, List.map_map, List.map_map]
  refine List.map_congr_left fun player _ => ?_
  rw [Function.comp_apply, Function.comp_apply]
  split <;> rfl

/-- Destroying a Plessie clears the link at its player's address. -/
theorem raidonOwners_clearRaidonPuppet (players : List Element) (mPlayerData : Option ℕ) :
    raidonOwners (clearRaidonPuppet players mPlayerData) =
      unlink (raidonOwners players) mPlayerData := by
  rw [raidonOwners, clearRaidonPuppet, unlink, raidonOwners, List.map_map, List.map_map]
  refine List.map_congr_left fun player _ => ?_
  rw [Function.comp_apply, Function.comp_apply]
  split <;> rfl

/-- In different slots, the links in both directions decide alone. -/
theorem puppetsLinked_iff {mgr : MultiplayerManager}
    (hslots : (mgr.mPlayers.map Element.address).Nodup) :
    PuppetsLinked mgr ↔ Linked (playerOwners mgr.mPlayers) mgr.playerPuppets ∧
      Linked (raidonOwners mgr.mPlayers) mgr.raidonPuppets := by
  have hplayers : ((playerOwners mgr.mPlayers).map Owner.address).Nodup := by
    rw [playerOwners, List.map_map]
    exact hslots
  have hraidons : ((raidonOwners mgr.mPlayers).map Owner.address).Nodup := by
    rw [raidonOwners, List.map_map]
    exact hslots
  constructor
  · exact fun h => ⟨h.players.linked, h.raidons.linked⟩
  · rintro ⟨hp, hr⟩
    refine ⟨⟨hp, fun p hlive => ?_⟩, ⟨hr, fun p hlive => ?_⟩⟩
    · rw [destroyPlayerPuppet, playerOwners_clearPuppet]
      exact hp.unlink_eq hplayers hlive
    · rw [destroyRaidonPuppet, raidonOwners_clearRaidonPuppet]
      exact hr.unlink_eq hraidons hlive

/-- The slots stay different, and so do the puppets of the pools. -/
theorem slotInv_step {mgr next : MultiplayerManager} {action : SlotAction} (h : SlotInv mgr)
    (hnext : slotStep mgr action = some next) : SlotInv next := by
  cases action with
  | playerList packet slots =>
    obtain ⟨hslots, hhandled⟩ := Option.ite_none_right_eq_some.mp hnext
    cases hhandled
    have haddress := map_address_listed mgr hslots
    rw [handlePlayerListPacket_eq]
    exact ⟨haddress.symm ▸ hslots.2, h.puppets, h.raidons⟩
  | initPuppets pools raidonPool =>
    obtain ⟨hfresh, hcreated⟩ := Option.ite_none_right_eq_some.mp hnext
    cases hcreated
    exact ⟨h.slots, hfresh.nodup.1, hfresh.nodup.2⟩
  | destroyScene =>
    cases hnext
    rw [destroyScene_eq]
    have haddress := map_clearedPlayers (f := Element.address) (fun _ _ _ => rfl) mgr
    exact ⟨haddress.symm ▸ h.slots, h.puppets, h.raidons⟩

/-- The objects of the links that a list makes are those it picks. -/
theorem linked_handle_iff (mgr : MultiplayerManager) {pick : Pick} (hpick : PicksOnce pick)
    {packet : List PlayerListDataEntry} {slots : List ℕ} (hslots : SlotsFor packet slots)
    (objs : Objects ℕ ℕ) :
    Linked (linkedObjects mgr pick 0 (rounds packet slots))
        (link objs (linkedObjects mgr pick 0 (rounds packet slots))) ↔
      PicksLinked mgr pick objs packet := by
  rw [linked_link_iff (distinct_linkedObjects hpick 0 _)]
  refine forall_congr' fun p => imp_congr_right fun _ => imp_congr_right fun _ => ?_
  rw [mem_linkedObjects, map_entry_rounds hslots, picked]
  by_cases hready : mgr.mPuppetsReady = true
  · rw [if_pos hready]
    exact and_iff_right hready
  · rw [if_neg hready]
    exact iff_of_false (fun hboth => hready hboth.1) List.not_mem_nil

/-- A list that arrives leaves the links one to one exactly when it picks every puppet that
has a player. -/
theorem puppetsLinked_handle {mgr : MultiplayerManager} (h : SlotInv mgr)
    {packet : List PlayerListDataEntry} {slots : List ℕ} (hslots : SlotsFor packet slots) :
    PuppetsLinked (handlePlayerListPacket mgr packet slots) ↔
      PicksLinked mgr mgr.puppetAt mgr.playerPuppets packet ∧
        PicksLinked mgr (raidonAt mgr) mgr.raidonPuppets packet := by
  have haddress := map_address_listed mgr hslots
  have hplayers := linked_handle_iff mgr (picksOnce_puppetAt h.puppets) hslots mgr.playerPuppets
  have hraidons := linked_handle_iff mgr (picksOnce_raidonAt h.raidons) hslots mgr.raidonPuppets
  rw [handlePlayerListPacket_eq, puppetsLinked_iff (haddress.symm ▸ hslots.2), ← hplayers,
    ← hraidons]
  dsimp only
  rw [listed, playerOwners_placed, raidonOwners_placed]

/-- A scene's new puppets have no players. -/
theorem puppetsLinked_initPuppets {mgr : MultiplayerManager} (hinv : SlotInv mgr)
    (h : PuppetsLinked mgr) (pools : List (List ℕ)) (raidonPool : List ℕ) :
    PuppetsLinked (initPuppets mgr pools raidonPool) := by
  have hslots : ((initPuppets mgr pools raidonPool).mPlayers.map Element.address).Nodup :=
    hinv.slots
  exact (puppetsLinked_iff hslots).mpr
    ⟨h.players.linked.create pools.flatten, h.raidons.linked.create raidonPool⟩

/-- The destruction of the scene takes no puppet to a second player. -/
theorem distinct_clearedPlayers {mgr : MultiplayerManager}
    (h : DistinctObjects (playerOwners mgr.mPlayers)) :
    DistinctObjects (playerOwners (clearedPlayers mgr)) := by
  refine clearedPlayers_induction (P := fun players => DistinctObjects (playerOwners players))
    (fun players mPlayerData ih => ?_) (fun players mPlayerData ih => ?_) h
  · rw [playerOwners_clearPuppet]
    exact ih.unlink mPlayerData
  · have hkept : playerOwners (clearRaidonPuppet players mPlayerData) = playerOwners players :=
      map_clearRaidonPuppet (fun _ _ => rfl) players mPlayerData
    rw [hkept]
    exact ih

/-- The destruction of the scene takes no Plessie to a second player. -/
theorem distinct_clearedRaidons {mgr : MultiplayerManager}
    (h : DistinctObjects (raidonOwners mgr.mPlayers)) :
    DistinctObjects (raidonOwners (clearedPlayers mgr)) := by
  refine clearedPlayers_induction (P := fun players => DistinctObjects (raidonOwners players))
    (fun players mPlayerData ih => ?_) (fun players mPlayerData ih => ?_) h
  · have hkept : raidonOwners (clearPuppet players mPlayerData) = raidonOwners players :=
      map_clearPuppet (fun _ _ => rfl) players mPlayerData
    rw [hkept]
    exact ih
  · rw [raidonOwners_clearRaidonPuppet]
    exact ih.unlink mPlayerData

/-- The destruction of the scene takes all puppets and keeps the players apart. -/
theorem puppetsLinked_destroyScene {mgr : MultiplayerManager} (hinv : SlotInv mgr)
    (h : PuppetsLinked mgr) : PuppetsLinked (destroyScene mgr) := by
  have haddress := map_clearedPlayers (f := Element.address) (fun _ _ _ => rfl) mgr
  rw [destroyScene_eq, puppetsLinked_iff (haddress.symm ▸ hinv.slots)]
  exact ⟨⟨fun _ hlive => absurd hlive List.not_mem_nil,
      distinct_clearedPlayers h.players.linked.distinct⟩,
    ⟨fun _ hlive => absurd hlive List.not_mem_nil,
      distinct_clearedRaidons h.raidons.linked.distinct⟩⟩

/-- In exactly the runs whose lists pick every puppet that has a player, the players are
linked one to one to their puppets in every state. -/
theorem puppets_linked_iff (uid : Uid) (actions : List SlotAction) :
    Throughout PuppetsLinked slotStep (.start uid) actions ↔
      Along RelistsLinked slotStep (.start uid) actions := by
  have hstart : SlotInv (.start uid) := ⟨List.nodup_nil, List.nodup_nil, List.nodup_nil⟩
  refine throughout_iff_along_of_invariant (fun _ _ _ => slotInv_step) ?_ ?_ hstart ?_
  · intro mgr action next hinv hlinked hnext
    cases action with
    | playerList packet slots =>
      obtain ⟨hslots, hhandled⟩ := Option.ite_none_right_eq_some.mp hnext
      cases hhandled
      rw [puppetsLinked_handle hinv hslots]
      exact ⟨fun h _ => h, fun h => h hslots⟩
    | initPuppets pools raidonPool =>
      obtain ⟨-, hcreated⟩ := Option.ite_none_right_eq_some.mp hnext
      cases hcreated
      exact iff_of_true (puppetsLinked_initPuppets hinv hlinked pools raidonPool) trivial
    | destroyScene =>
      cases hnext
      exact iff_of_true (puppetsLinked_destroyScene hinv hlinked) trivial
  · intro mgr action hnone
    cases action with
    | playerList packet slots =>
      intro hslots
      rw [slotStep, if_pos hslots] at hnone
      cases hnone
    | initPuppets pools raidonPool => trivial
    | destroyScene => trivial
  · refine (puppetsLinked_iff hstart.slots).mpr ⟨?_, ?_⟩
    · exact ⟨fun _ hlive => absurd hlive List.not_mem_nil, List.Pairwise.nil⟩
    · exact ⟨fun _ hlive => absurd hlive List.not_mem_nil, List.Pairwise.nil⟩

/-- The pools of a scene, with its puppets numbered. -/
def numberedPools : List (List ℕ) :=
  (List.range 5).map fun playerType => (List.range sMaxPlayers).map fun i => 10 * playerType + i

/-- User 2 is shown by puppet 0 and then changes to another character, which is shown by
puppet 20: puppet 0 still has the player, and destroying it clears the player's link to
puppet 20. -/
theorem old_puppet_clears_new_link :
    ∃ mgr, run slotStep (.start ⟨1, 0⟩)
        [.initPuppets numberedPools (List.range sMaxPlayers),
          .playerList [entryOf 1 0, entryOf 2 0] [0, 1],
          .playerList [entryOf 1 0, entryOf 2 2] [0, 1]] = some mgr ∧
      0 ∈ mgr.playerPuppets.live ∧ mgr.playerPuppets.owner 0 = some 1 ∧
      playerOwners mgr.mPlayers = [⟨0, none⟩, ⟨1, some 20⟩] ∧
      playerOwners (destroyPlayerPuppet mgr 0).mPlayers = [⟨0, none⟩, ⟨1, none⟩] ∧
      ¬PuppetsLinked mgr :=
  run_reaches (by decide)

end BfMultiplayer.PuppetLinks

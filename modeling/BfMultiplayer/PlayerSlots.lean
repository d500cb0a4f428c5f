import BfMultiplayer.GuardedRuns
import BfMultiplayer.ListFacts
import BfMultiplayer.Roster
import BfMultiplayer.TwoWayLinks

/-!
# The slots of the players

The players of the last list lie in the slots of an object array, and other
objects point into it: `mLocalPlayer` to the client's own player, each puppet to
the player it shows. A list empties the array and fills it again, in slots that
the array chooses, and the pointers are what the loop over the list makes of
them. A pool answers with no puppet where it has none at an index; a player type
without a pool, which the source reads past its array, finds no puppet either.
-/

namespace BfMultiplayer.PlayerSlots

open Packets GuardedRuns ListFacts TwoWayLinks

/-- `MultiplayerManager::sMaxPlayers`. -/
def sMaxPlayers : ℕ := 5

/-- `PlayerData`, as far as the list sets it. -/
structure PlayerData where
  /-- The entry it was made from. -/
  mListData : PlayerListDataEntry
  /-- The puppet that shows the player. -/
  mPlayerPuppet : Option ℕ
  /-- The Plessie that the puppet surfs on. -/
  mRaidonPuppet : Option ℕ
  /-- Whether this player is the host. -/
  mIsHostClient : Bool

/-- An element of `mPlayers`. -/
structure Element where
  /-- The slot it lies in. -/
  address : ℕ
  /-- The player. -/
  data : PlayerData

/-- `MultiplayerManager`, with the puppets of the scene. -/
structure MultiplayerManager where
  /-- `util::getCurrentUserUid`, the user of this client. -/
  uid : Uid
  /-- The players of the last list. -/
  mPlayers : List Element
  /-- Pointer to the client's own player. -/
  mLocalPlayer : Option ℕ
  /-- Whether the scene has its puppets. -/
  mPuppetsReady : Bool
  /-- The puppets of each character. -/
  mPuppetPools : List (List ℕ)
  /-- The Plessies. -/
  mRaidonPuppetPool : List ℕ
  /-- The live `PlayerPuppet`s with their `mPlayerData`. -/
  playerPuppets : Objects ℕ ℕ
  /-- The live `RaidonPuppet`s with their `mPlayerData`. -/
  raidonPuppets : Objects ℕ ℕ

/-- The manager before the first list and the first scene. -/
def MultiplayerManager.start (uid : Uid) : MultiplayerManager :=
  ⟨uid, [], none, false, [], [], .none, .none⟩

/-- The puppet at an index of a character's pool. -/
def MultiplayerManager.puppetAt (mgr : MultiplayerManager) (playerType : UInt8) (idx : ℕ) :
    Option ℕ :=
  (mgr.mPuppetPools[playerType.toNat]?).bind fun pool => pool[idx]?

/-- `PlayerData::isLocal`. -/
def isLocal (uid : Uid) (entry : PlayerListDataEntry) : Bool := entry.user = uid

/-- One round of the loop over a list of a given size: the manager and
`puppetPoolIdx`, for an entry, the slot it gets and its place in the list. -/
def emplacePlayer (size : ℕ) (loop : MultiplayerManager × ℕ)
    (item : (PlayerListDataEntry × ℕ) × ℕ) : MultiplayerManager × ℕ :=
  let mgr := loop.1
  let entry := item.1.1
  let slot := item.1.2
  let host := item.2 + 1 == size
  if isLocal mgr.uid entry then
    ({ mgr with
        mPlayers := mgr.mPlayers ++ [⟨slot, ⟨entry, none, none, host⟩⟩]
        mLocalPlayer := some slot }, loop.2)
  else if mgr.mPuppetsReady then
    let puppet := mgr.puppetAt entry.playerType loop.2
    let raidonPuppet := mgr.mRaidonPuppetPool[loop.2]?
    ({ mgr with
        mPlayers := mgr.mPlayers ++ [⟨slot, ⟨entry, puppet, raidonPuppet, host⟩⟩]
        playerPuppets := mgr.playerPuppets.setOwner puppet slot
        raidonPuppets := mgr.raidonPuppets.setOwner raidonPuppet slot }, loop.2 + 1)
  else
    ({ mgr with mPlayers := mgr.mPlayers ++ [⟨slot, ⟨entry, none, none, host⟩⟩] }, loop.2)

/-- The rounds of the loop: each entry with the slot it gets and its place in the list. -/
def rounds (packet : List PlayerListDataEntry) (slots : List ℕ) :
    List ((PlayerListDataEntry × ℕ) × ℕ) :=
  (packet.zip slots).zipIdx

/-- `handlePlayerListPacket`, where the array answers with the given slots. -/
def handlePlayerListPacket (mgr : MultiplayerManager) (packet : List PlayerListDataEntry)
    (slots : List ℕ) : MultiplayerManager :=
  ((rounds packet slots).foldl (emplacePlayer packet.length) ({ mgr with mPlayers := [] }, 0)).1

/-- `initPuppets`, where the puppets are created at the given addresses. -/
def initPuppets (mgr : MultiplayerManager) (pools : List (List ℕ)) (raidonPool : List ℕ) :
    MultiplayerManager :=
  { mgr with
    mPuppetPools := pools
    mRaidonPuppetPool := raidonPool
    mPuppetsReady := true
    playerPuppets := mgr.playerPuppets.create pools.flatten
    raidonPuppets := mgr.raidonPuppets.create raidonPool }

/-- `setPuppet(nullptr)` on the player at an address, if it is one of `mPlayers`. -/
def clearPuppet (players : List Element) (mPlayerData : Option ℕ) : List Element :=
  players.map fun player =>
    if mPlayerData = some player.address then
      { player with data := { player.data with mPlayerPuppet := none } }
    else player

/-- `setRaidonPuppet(nullptr)` on the player at an address, if it is one of `mPlayers`. -/
def clearRaidonPuppet (players : List Element) (mPlayerData : Option ℕ) : List Element :=
  players.map fun player =>
    if mPlayerData = some player.address then
      { player with data := { player.data with mRaidonPuppet := none } }
    else player

/-- `PlayerPuppet::~PlayerPuppet`. -/
def destroyPlayerPuppet (mgr : MultiplayerManager) (puppet : ℕ) : MultiplayerManager :=
  { mgr with
    mPlayers := clearPuppet mgr.mPlayers (mgr.playerPuppets.owner puppet)
    playerPuppets := { mgr.playerPuppets with live := mgr.playerPuppets.live.erase puppet } }

/-- `RaidonPuppet::~RaidonPuppet`. -/
def destroyRaidonPuppet (mgr : MultiplayerManager) (puppet : ℕ) : MultiplayerManager :=
  { mgr with
    mPlayers := clearRaidonPuppet mgr.mPlayers (mgr.raidonPuppets.owner puppet)
    raidonPuppets := { mgr.raidonPuppets with live := mgr.raidonPuppets.live.erase puppet } }

/-- `sceneDestroyHook`: `deinitPuppets`, then the scene destroys its puppets. -/
def destroyScene (mgr : MultiplayerManager) : MultiplayerManager :=
  let mgr := { mgr with mPuppetsReady := false }
  let mgr := mgr.playerPuppets.live.foldl destroyPlayerPuppet mgr
  mgr.raidonPuppets.live.foldl destroyRaidonPuppet mgr

/-- What `execute` calls on a player. -/
inductive PlayerCall where
  /-- `update` on the player at an address. -/
  | update (player : ℕ)
  /-- `updateLocal` on the player at an address. -/
  | updateLocal (player : ℕ)
  deriving DecidableEq

/-- `execute`, as the calls it makes on players. -/
def execute (mgr : MultiplayerManager) : List PlayerCall :=
  mgr.mPlayers.map (fun player => .update player.address) ++
    mgr.mLocalPlayer.toList.map .updateLocal

/-- A step of the client. -/
inductive SlotAction where
  /-- A list arrives; the array gives its entries the slots. -/
  | playerList (packet : List PlayerListDataEntry) (slots : List ℕ)
  /-- A scene creates its puppets at new addresses. -/
  | initPuppets (pools : List (List ℕ)) (raidonPool : List ℕ)
  /-- The scene is destroyed. -/
  | destroyScene

/-- The slots are those of different elements, one for each entry. -/
def SlotsFor (packet : List PlayerListDataEntry) (slots : List ℕ) : Prop :=
  slots.length = packet.length ∧ slots.Nodup

instance (packet : List PlayerListDataEntry) (slots : List ℕ) : Decidable (SlotsFor packet slots) :=
  inferInstanceAs (Decidable (_ ∧ _))

/-- The puppets of a scene: `sMaxPlayers` of each character and as many Plessies,
created where no live one is. -/
structure FreshPuppets (mgr : MultiplayerManager) (pools : List (List ℕ))
    (raidonPool : List ℕ) : Prop where
  /-- There are five characters. -/
  characters : pools.length = 5
  /-- Each pool is filled. -/
  filled : ∀ pool ∈ raidonPool :: pools, pool.length = sMaxPlayers
  /-- The puppets are different. -/
  nodup : pools.flatten.Nodup ∧ raidonPool.Nodup
  /-- None of them is live. -/
  fresh : (∀ p ∈ pools.flatten, p ∉ mgr.playerPuppets.live) ∧
    ∀ p ∈ raidonPool, p ∉ mgr.raidonPuppets.live

instance (mgr : MultiplayerManager) (pools : List (List ℕ)) (raidonPool : List ℕ) :
    Decidable (FreshPuppets mgr pools raidonPool) :=
  decidable_of_iff
    (pools.length = 5 ∧ (∀ pool ∈ raidonPool :: pools, pool.length = sMaxPlayers) ∧
      (pools.flatten.Nodup ∧ raidonPool.Nodup) ∧
      (∀ p ∈ pools.flatten, p ∉ mgr.playerPuppets.live) ∧
      ∀ p ∈ raidonPool, p ∉ mgr.raidonPuppets.live)
    ⟨fun h => ⟨h.1, h.2.1, h.2.2.1, h.2.2.2⟩,
      fun h => ⟨h.characters, h.filled, h.nodup, h.fresh⟩⟩

/-- The step function. -/
def slotStep (mgr : MultiplayerManager) : SlotAction → Option MultiplayerManager
  | .playerList packet slots =>
    if SlotsFor packet slots then some (handlePlayerListPacket mgr packet slots) else none
  | .initPuppets pools raidonPool =>
    if FreshPuppets mgr pools raidonPool then some (initPuppets mgr pools raidonPool) else none
  | .destroyScene => some (destroyScene mgr)

/-- The entry of the user with a number, who plays a character. -/
def entryOf (user : ℕ) (playerType : UInt8) : PlayerListDataEntry :=
  ⟨⟨UInt64.ofNat user, 0⟩, ByteBuffer.Buffer.zero 33, playerType, 0, false, false⟩

/-- Index into the pools after an entry. -/
def nextIdx (mgr : MultiplayerManager) (idx : ℕ) (entry : PlayerListDataEntry) : ℕ :=
  if !isLocal mgr.uid entry && mgr.mPuppetsReady then idx + 1 else idx

/-- The element a round of the loop appends. -/
def placedAt (mgr : MultiplayerManager) (size idx : ℕ) (item : (PlayerListDataEntry × ℕ) × ℕ) :
    Element :=
  let host := item.2 + 1 == size
  if !isLocal mgr.uid item.1.1 && mgr.mPuppetsReady then
    ⟨item.1.2, ⟨item.1.1, mgr.puppetAt item.1.1.playerType idx, mgr.mRaidonPuppetPool[idx]?, host⟩⟩
  else ⟨item.1.2, ⟨item.1.1, none, none, host⟩⟩

/-- The elements the loop appends from an index into the pools on. -/
def placed (mgr : MultiplayerManager) (size : ℕ) :
    ℕ → List ((PlayerListDataEntry × ℕ) × ℕ) → List Element
  | _, [] => []
  | idx, item :: items =>
    placedAt mgr size idx item :: placed mgr size (nextIdx mgr idx item.1.1) items

/-- The local pointer after the loop: the slot of the last own entry, if there is one. -/
def localSlot (uid : Uid) (pointer : Option ℕ) (items : List ((PlayerListDataEntry × ℕ) × ℕ)) :
    Option ℕ :=
  items.foldl (fun pointer item => if isLocal uid item.1.1 then some item.1.2 else pointer) pointer

/-- The players with their puppets. -/
def playerOwners (players : List Element) : List (Owner ℕ ℕ) :=
  players.map fun player => ⟨player.address, player.data.mPlayerPuppet⟩

/-- The players with their Plessies. -/
def raidonOwners (players : List Element) : List (Owner ℕ ℕ) :=
  players.map fun player => ⟨player.address, player.data.mRaidonPuppet⟩

/-- An element lies in the slot its entry is given. -/
theorem address_placedAt (mgr : MultiplayerManager) (size idx : ℕ)
    (item : (PlayerListDataEntry × ℕ) × ℕ) : (placedAt mgr size idx item).address = item.1.2 := by
  unfold placedAt
  split <;> rfl

/-- What one round of the loop does. -/
theorem emplacePlayer_eq (mgr : MultiplayerManager) (size idx : ℕ)
    (item : (PlayerListDataEntry × ℕ) × ℕ) :
    emplacePlayer size (mgr, idx) item =
      ({ mgr with
          mPlayers := mgr.mPlayers ++ [placedAt mgr size idx item]
          mLocalPlayer := if isLocal mgr.uid item.1.1 then some item.1.2 else mgr.mLocalPlayer
          playerPuppets := mgr.playerPuppets.setOwner
            (placedAt mgr size idx item).data.mPlayerPuppet (placedAt mgr size idx item).address
          raidonPuppets := mgr.raidonPuppets.setOwner
            (placedAt mgr size idx item).data.mRaidonPuppet (placedAt mgr size idx item).address },
        nextIdx mgr idx item.1.1) := by
  rw [address_placedAt]
  unfold emplacePlayer placedAt nextIdx
  by_cases hlocal : isLocal mgr.uid item.1.1 = true
  · simp only [hlocal, Bool.not_true, Bool.false_and, if_true, Bool.false_eq_true, if_false,
      Objects.setOwner]
  · by_cases hready : mgr.mPuppetsReady = true
    · simp only [hlocal, hready, Bool.not_false, Bool.and_true, if_true, if_false,
        Bool.false_eq_true]
    · simp only [hlocal, hready, Bool.not_false, Bool.and_false, if_false, Bool.false_eq_true,
        Objects.setOwner]

/-- What the loop over the list does to the manager: it appends the elements, links their
puppets to them and sets the local pointer. -/
theorem foldl_emplacePlayer (mgr : MultiplayerManager) (size idx : ℕ)
    (items : List ((PlayerListDataEntry × ℕ) × ℕ)) (players : List Element) (pointer : Option ℕ)
    (puppets raidons : Objects ℕ ℕ) :
    (items.foldl (emplacePlayer size)
        ({ mgr with
            mPlayers := players, mLocalPlayer := pointer, playerPuppets := puppets
            raidonPuppets := raidons }, idx)).1 =
      { mgr with
        mPlayers := players ++ placed mgr size idx items
        mLocalPlayer := localSlot mgr.uid pointer items
        playerPuppets := link puppets (playerOwners (placed mgr size idx items))
        raidonPuppets := link raidons (raidonOwners (placed mgr size idx items)) } := by
  induction items generalizing idx players pointer puppets raidons with
  | nil =>
    rw [placed, List.append_nil]
    rfl
  | cons item items ih =>
    have hrest := ih (nextIdx mgr idx item.1.1) (players ++ [placedAt mgr size idx item])
      (if isLocal mgr.uid item.1.1 then some item.1.2 else pointer)
      (puppets.setOwner (placedAt mgr size idx item).data.mPlayerPuppet
        (placedAt mgr size idx item).address)
      (raidons.setOwner (placedAt mgr size idx item).data.mRaidonPuppet
        (placedAt mgr size idx item).address)
    rw [List.append_assoc, List.singleton_append] at hrest
    rw [List.foldl_cons, emplacePlayer_eq]
    exact hrest

/-- The elements a list leaves. -/
def listed (mgr : MultiplayerManager) (packet : List PlayerListDataEntry) (slots : List ℕ) :
    List Element :=
  placed mgr packet.length 0 (rounds packet slots)

/-- What a list does to the manager. -/
theorem handlePlayerListPacket_eq (mgr : MultiplayerManager) (packet : List PlayerListDataEntry)
    (slots : List ℕ) :
    handlePlayerListPacket mgr packet slots =
      { mgr with
        mPlayers := listed mgr packet slots
        mLocalPlayer := localSlot mgr.uid mgr.mLocalPlayer (rounds packet slots)
        playerPuppets := link mgr.playerPuppets (playerOwners (listed mgr packet slots))
        raidonPuppets := link mgr.raidonPuppets (raidonOwners (listed mgr packet slots)) } :=
  foldl_emplacePlayer mgr packet.length 0 (rounds packet slots) [] mgr.mLocalPlayer
    mgr.playerPuppets mgr.raidonPuppets

/-- The entries of the rounds are those of the list. -/
theorem map_entry_rounds {packet : List PlayerListDataEntry} {slots : List ℕ}
    (h : SlotsFor packet slots) : (rounds packet slots).map (fun item => item.1.1) = packet := by
  have hzip : (rounds packet slots).map Prod.fst = packet.zip slots := List.zipIdx_map_fst 0 _
  have hfst : (packet.zip slots).map Prod.fst = packet := List.map_fst_zip h.1.symm.le
  have hmap : (rounds packet slots).map (fun item => item.1.1) =
      ((rounds packet slots).map Prod.fst).map Prod.fst := List.map_map.symm
  rw [hmap, hzip, hfst]

/-- The slots of the rounds are those the array has chosen. -/
theorem map_slot_rounds {packet : List PlayerListDataEntry} {slots : List ℕ}
    (h : SlotsFor packet slots) : (rounds packet slots).map (fun item => item.1.2) = slots := by
  have hzip : (rounds packet slots).map Prod.fst = packet.zip slots := List.zipIdx_map_fst 0 _
  have hsnd : (packet.zip slots).map Prod.snd = slots := List.map_snd_zip h.1.le
  have hmap : (rounds packet slots).map (fun item => item.1.2) =
      ((rounds packet slots).map Prod.fst).map Prod.snd := List.map_map.symm
  rw [hmap, hzip, hsnd]

/-- What the entries decide alone: an element has the slot, the entry and the host flag of
its round. -/
theorem map_placed (mgr : MultiplayerManager) (size idx : ℕ)
    (items : List ((PlayerListDataEntry × ℕ) × ℕ)) :
    (placed mgr size idx items).map
        (fun player => (player.address, player.data.mListData, player.data.mIsHostClient)) =
      items.map fun item => (item.1.2, item.1.1, item.2 + 1 == size) := by
  induction items generalizing idx with
  | nil => rfl
  | cons item items ih =>
    have hround : ∀ player, player = placedAt mgr size idx item →
        (player.address, player.data.mListData, player.data.mIsHostClient) =
          (item.1.2, item.1.1, item.2 + 1 == size) := by
      intro player hplayer
      rw [hplayer, placedAt]
      split <;> rfl
    rw [placed, List.map_cons, List.map_cons, ih, hround _ rfl]

/-- The elements of a list lie in the slots the array has chosen. -/
theorem map_address_listed (mgr : MultiplayerManager) {packet : List PlayerListDataEntry}
    {slots : List ℕ} (h : SlotsFor packet slots) :
    (listed mgr packet slots).map Element.address = slots := by
  have hmap := congrArg (List.map Prod.fst)
    (map_placed mgr packet.length 0 (rounds packet slots))
  rw [List.map_map, List.map_map] at hmap
  exact hmap.trans (map_slot_rounds h)

/-- The players of a list are those of the roster. -/
theorem players_roster (mgr : MultiplayerManager) (roster : Roster.MultiplayerManager)
    {packet : List PlayerListDataEntry} {slots : List ℕ} (h : SlotsFor packet slots) :
    (handlePlayerListPacket mgr packet slots).mPlayers.map
        (fun player => (⟨player.data.mListData, player.data.mIsHostClient⟩ : Roster.PlayerData)) =
      (Roster.handlePlayerListPacket roster packet).mPlayers := by
  have hmap := congrArg (List.map fun data : ℕ × PlayerListDataEntry × Bool =>
    (⟨data.2.1, data.2.2⟩ : Roster.PlayerData))
    (map_placed mgr packet.length 0 (rounds packet slots))
  rw [List.map_map, List.map_map] at hmap
  rw [handlePlayerListPacket_eq, Roster.handlePlayerListPacket, Roster.foldl_emplacePlayer_players,
    List.nil_append]
  refine Eq.trans hmap ?_
  have hentries := List.map_fst_zip h.1.symm.le
  have hzip : packet.zipIdx = (rounds packet slots).map (fun item => (item.1.1, item.2)) := by
    conv_lhs => rw [← hentries, List.zipIdx_map]
    rfl
  rw [hzip, List.map_map]
  rfl

/-- Clearing links to puppets changes nothing else of the players. -/
theorem map_clearPuppet {γ : Type*} {f : Element → γ}
    (hf : ∀ player puppet, f { player with data := { player.data with mPlayerPuppet := puppet } } =
      f player) (players : List Element) (mPlayerData : Option ℕ) :
    (clearPuppet players mPlayerData).map f = players.map f :=
  map_change_eq (fun player => hf player none) _ players

/-- Clearing links to Plessies changes nothing else of the players. -/
theorem map_clearRaidonPuppet {γ : Type*} {f : Element → γ}
    (hf : ∀ player puppet, f { player with data := { player.data with mRaidonPuppet := puppet } } =
      f player) (players : List Element) (mPlayerData : Option ℕ) :
    (clearRaidonPuppet players mPlayerData).map f = players.map f :=
  map_change_eq (fun player => hf player none) _ players

/-- Taking every element out of a list leaves nothing. -/
theorem foldl_erase_self (puppets : List ℕ) : puppets.foldl List.erase puppets = [] := by
  induction puppets with
  | nil => rfl
  | cons puppet puppets ih => rw [List.foldl_cons, List.erase_cons_head, ih]

/-- Destroying puppets clears the links of their players. -/
theorem foldl_destroyPlayerPuppet (mgr : MultiplayerManager) (puppets : List ℕ) :
    puppets.foldl destroyPlayerPuppet mgr =
      { mgr with
        mPlayers := puppets.foldl
          (fun players puppet => clearPuppet players (mgr.playerPuppets.owner puppet)) mgr.mPlayers
        playerPuppets := ⟨puppets.foldl List.erase mgr.playerPuppets.live,
          mgr.playerPuppets.owner⟩ } := by
  induction puppets generalizing mgr with
  | nil => rfl
  | cons puppet puppets ih => exact ih (destroyPlayerPuppet mgr puppet)

/-- Destroying Plessies clears the links of their players. -/
theorem foldl_destroyRaidonPuppet (mgr : MultiplayerManager) (puppets : List ℕ) :
    puppets.foldl destroyRaidonPuppet mgr =
      { mgr with
        mPlayers := puppets.foldl
          (fun players puppet => clearRaidonPuppet players (mgr.raidonPuppets.owner puppet))
          mgr.mPlayers
        raidonPuppets := ⟨puppets.foldl List.erase mgr.raidonPuppets.live,
          mgr.raidonPuppets.owner⟩ } := by
  induction puppets generalizing mgr with
  | nil => rfl
  | cons puppet puppets ih => exact ih (destroyRaidonPuppet mgr puppet)

/-- The players after the destruction of the scene. -/
def clearedPlayers (mgr : MultiplayerManager) : List Element :=
  mgr.raidonPuppets.live.foldl
    (fun players puppet => clearRaidonPuppet players (mgr.raidonPuppets.owner puppet))
    (mgr.playerPuppets.live.foldl
      (fun players puppet => clearPuppet players (mgr.playerPuppets.owner puppet)) mgr.mPlayers)

/-- What the destruction of the scene does to the manager. -/
theorem destroyScene_eq (mgr : MultiplayerManager) :
    destroyScene mgr =
      { mgr with
        mPuppetsReady := false
        mPlayers := clearedPlayers mgr
        playerPuppets := ⟨[], mgr.playerPuppets.owner⟩
        raidonPuppets := ⟨[], mgr.raidonPuppets.owner⟩ } := by
  rw [destroyScene]
  dsimp only
  rw [foldl_destroyPlayerPuppet, foldl_destroyRaidonPuppet]
  dsimp only
  rw [foldl_erase_self, foldl_erase_self]
  rfl

/-- What every destructor keeps of the players, the destruction of the scene keeps. -/
theorem clearedPlayers_induction {mgr : MultiplayerManager} {P : List Element → Prop}
    (hpuppet : ∀ players mPlayerData, P players → P (clearPuppet players mPlayerData))
    (hraidon : ∀ players mPlayerData, P players → P (clearRaidonPuppet players mPlayerData))
    (h : P mgr.mPlayers) : P (clearedPlayers mgr) := by
  have hpuppets := List.foldlRecOn (motive := P) mgr.playerPuppets.live
    (fun players puppet => clearPuppet players (mgr.playerPuppets.owner puppet)) h
    fun players ih puppet _ => hpuppet players (mgr.playerPuppets.owner puppet) ih
  exact List.foldlRecOn (motive := P) mgr.raidonPuppets.live
    (fun players puppet => clearRaidonPuppet players (mgr.raidonPuppets.owner puppet)) hpuppets
    fun players ih puppet _ => hraidon players (mgr.raidonPuppets.owner puppet) ih

/-- The destruction of the scene changes the links of the players only. -/
theorem map_clearedPlayers {γ : Type*} {f : Element → γ}
    (hf : ∀ player puppet raidonPuppet, f { player with data := { player.data with
      mPlayerPuppet := puppet, mRaidonPuppet := raidonPuppet } } = f player)
    (mgr : MultiplayerManager) : (clearedPlayers mgr).map f = mgr.mPlayers.map f := by
  refine clearedPlayers_induction (P := fun players => players.map f = mgr.mPlayers.map f)
    (fun players mPlayerData ih => ?_) (fun players mPlayerData ih => ?_) rfl
  · exact (map_clearPuppet (fun player link => hf player link player.data.mRaidonPuppet) _ _).trans ih
  · exact (map_clearRaidonPuppet (fun player link => hf player player.data.mPlayerPuppet link) _
      _).trans ih

end BfMultiplayer.PlayerSlots

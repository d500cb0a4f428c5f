import BfMultiplayer.PlayerSlots

/-!
# The local player is really local

`execute` updates the player behind `mLocalPlayer` as the client's own one. The
loop over a list sets the pointer at an own entry and nothing ever resets it: the
first list without an own entry leaves it on a slot that is empty, or that
belongs to another player by then.
-/

namespace BfMultiplayer.LocalPlayer

open Packets GuardedRuns TwoWayLinks PlayerSlots

/-- A current element with the user's id lies at an address. -/
def OwnElement (mgr : MultiplayerManager) (address : ℕ) : Prop :=
  ∃ player ∈ mgr.mPlayers, player.address = address ∧ isLocal mgr.uid player.data.mListData = true

instance (mgr : MultiplayerManager) (address : ℕ) : Decidable (OwnElement mgr address) :=
  inferInstanceAs (Decidable (∃ player ∈ mgr.mPlayers, _))

/-- The local pointer is null or points to the user's element, and `execute` updates
no other player as the local one. -/
structure LocalPlayerIsOwn (mgr : MultiplayerManager) : Prop where
  /-- Where the pointer points. -/
  pointer : ∀ a ∈ mgr.mLocalPlayer, OwnElement mgr a
  /-- Which players are updated as the local one. -/
  updated : ∀ a, .updateLocal a ∈ execute mgr → OwnElement mgr a

/-- The condition on a step: once the pointer is set, a list names the user. -/
def ListsOwnPlayer (mgr : MultiplayerManager) : SlotAction → Prop
  | .playerList packet slots => SlotsFor packet slots → mgr.mLocalPlayer.isSome →
    mgr.uid ∈ packet.map PlayerListDataEntry.user
  | _ => True

/-- `execute` updates the player behind the pointer as the local one. -/
theorem updateLocal_mem_execute {mgr : MultiplayerManager} {a : ℕ} :
    .updateLocal a ∈ execute mgr ↔ a ∈ mgr.mLocalPlayer := by
  rw [execute, List.mem_append, List.mem_map, List.mem_map]
  constructor
  · rintro (⟨player, -, h⟩ | ⟨b, hb, h⟩)
    · cases h
    · cases h
      exact Option.mem_toList.mp hb
  · exact fun h => Or.inr ⟨a, Option.mem_toList.mpr h, rfl⟩

/-- The pointer decides alone. -/
theorem localPlayerIsOwn_iff {mgr : MultiplayerManager} :
    LocalPlayerIsOwn mgr ↔ ∀ a ∈ mgr.mLocalPlayer, OwnElement mgr a :=
  ⟨fun h => h.pointer, fun h => ⟨h, fun a ha => h a (updateLocal_mem_execute.mp ha)⟩⟩

instance (mgr : MultiplayerManager) : Decidable (LocalPlayerIsOwn mgr) :=
  have : Decidable (∀ a ∈ mgr.mLocalPlayer, OwnElement mgr a) := Option.decidableForallMem _
  decidable_of_iff _ localPlayerIsOwn_iff.symm

/-- An element with the user's id is one of the pairs of address and entry. -/
theorem ownElement_iff {mgr : MultiplayerManager} {a : ℕ} :
    OwnElement mgr a ↔
      (a, true) ∈ mgr.mPlayers.map
        fun player => (player.address, isLocal mgr.uid player.data.mListData) := by
  rw [OwnElement, List.mem_map]
  exact exists_congr fun player => and_congr_right fun _ => Prod.mk_inj.symm

/-- After a list, an element with the user's id comes from a round with an own entry. -/
theorem ownElement_handle {mgr : MultiplayerManager} {packet : List PlayerListDataEntry}
    {slots : List ℕ} {a : ℕ} :
    OwnElement (handlePlayerListPacket mgr packet slots) a ↔
      ∃ item ∈ rounds packet slots, item.1.2 = a ∧ isLocal mgr.uid item.1.1 = true := by
  have hmap := congrArg
    (List.map fun data : ℕ × PlayerListDataEntry × Bool => (data.1, isLocal mgr.uid data.2.1))
    (map_placed mgr packet.length 0 (rounds packet slots))
  rw [List.map_map, List.map_map] at hmap
  have hplayers : (handlePlayerListPacket mgr packet slots).mPlayers.map
      (fun player => (player.address, isLocal mgr.uid player.data.mListData)) =
        (rounds packet slots).map fun item => (item.1.2, isLocal mgr.uid item.1.1) := by
    rw [handlePlayerListPacket_eq]
    exact hmap
  have huid : (handlePlayerListPacket mgr packet slots).uid = mgr.uid := by
    rw [handlePlayerListPacket_eq]
  rw [ownElement_iff, huid, hplayers, List.mem_map]
  exact exists_congr fun item => and_congr_right fun _ => Prod.mk_inj

/-- Rounds without an own entry leave the pointer. -/
theorem localSlot_of_forall {uid : Uid} {pointer : Option ℕ}
    {items : List ((PlayerListDataEntry × ℕ) × ℕ)}
    (h : ∀ item ∈ items, isLocal uid item.1.1 = false) :
    localSlot uid pointer items = pointer := by
  induction items with
  | nil => rfl
  | cons item items ih =>
    have hrest := ih fun other hother => h other (List.mem_cons_of_mem item hother)
    rw [localSlot, List.foldl_cons, h item List.mem_cons_self]
    exact hrest

/-- An own entry among the rounds takes the pointer to the slot of an own entry. -/
theorem localSlot_of_exists {uid : Uid} (pointer : Option ℕ)
    {items : List ((PlayerListDataEntry × ℕ) × ℕ)}
    (h : ∃ item ∈ items, isLocal uid item.1.1 = true) :
    ∃ item ∈ items, isLocal uid item.1.1 = true ∧
      localSlot uid pointer items = some item.1.2 := by
  induction items using List.reverseRecOn with
  | nil =>
    obtain ⟨item, hitem, -⟩ := h
    exact absurd hitem List.not_mem_nil
  | append_singleton items last ih =>
    have hrounds : localSlot uid pointer (items ++ [last]) =
        if isLocal uid last.1.1 then some last.1.2 else localSlot uid pointer items := by
      rw [localSlot, List.foldl_append]
      rfl
    rw [hrounds]
    by_cases hlast : isLocal uid last.1.1 = true
    · exact ⟨last, List.mem_append_right _ (List.mem_singleton_self last), hlast, if_pos hlast⟩
    · obtain ⟨item, hitem, hlocal⟩ := h
      rcases List.mem_append.mp hitem with hinit | hend
      · obtain ⟨own, hown, howner, hslot⟩ := ih ⟨item, hinit, hlocal⟩
        exact ⟨own, List.mem_append_left _ hown, howner, by rw [if_neg hlast]; exact hslot⟩
      · rw [List.mem_singleton.mp hend] at hlocal
        exact absurd hlocal hlast

/-- A list that arrives while the pointer is good leaves it good exactly when it names the
user or finds the pointer null. -/
theorem localPlayerIsOwn_handle {mgr : MultiplayerManager} {packet : List PlayerListDataEntry}
    {slots : List ℕ} (h : SlotsFor packet slots) :
    LocalPlayerIsOwn (handlePlayerListPacket mgr packet slots) ↔
      (mgr.mLocalPlayer.isSome → mgr.uid ∈ packet.map PlayerListDataEntry.user) := by
  have hpointer : (handlePlayerListPacket mgr packet slots).mLocalPlayer =
      localSlot mgr.uid mgr.mLocalPlayer (rounds packet slots) := by
    rw [handlePlayerListPacket_eq]
  have hnamed : mgr.uid ∈ packet.map PlayerListDataEntry.user ↔
      ∃ item ∈ rounds packet slots, isLocal mgr.uid item.1.1 = true := by
    conv_lhs => rw [← map_entry_rounds h, List.map_map, List.mem_map]
    refine exists_congr fun item => and_congr_right fun _ => ?_
    rw [isLocal, decide_eq_true_iff]
    rfl
  rw [localPlayerIsOwn_iff, hpointer, hnamed]
  by_cases hown : ∃ item ∈ rounds packet slots, isLocal mgr.uid item.1.1 = true
  · refine iff_of_true (fun a ha => ?_) fun _ => hown
    obtain ⟨item, hitem, hlocal, hslot⟩ := localSlot_of_exists mgr.mLocalPlayer hown
    rw [hslot] at ha
    exact ownElement_handle.mpr ⟨item, hitem, Option.mem_some_iff.mp ha, hlocal⟩
  · have hnone : ∀ item ∈ rounds packet slots, isLocal mgr.uid item.1.1 = false :=
      fun item hitem => Bool.eq_false_iff.mpr fun hlocal => hown ⟨item, hitem, hlocal⟩
    rw [localSlot_of_forall hnone]
    constructor
    · intro hgood hsome
      obtain ⟨a, ha⟩ := Option.isSome_iff_exists.mp hsome
      obtain ⟨item, hitem, -, hlocal⟩ := ownElement_handle.mp (hgood a ha)
      exact ⟨item, hitem, hlocal⟩
    · intro hnull a ha
      exact absurd (hnull (Option.isSome_iff_exists.mpr ⟨a, ha⟩)) hown

/-- The destruction of the scene leaves the pointer as good as it was. -/
theorem localPlayerIsOwn_destroyScene {mgr : MultiplayerManager} :
    LocalPlayerIsOwn (destroyScene mgr) ↔ LocalPlayerIsOwn mgr := by
  have hplayers := map_clearedPlayers
    (f := fun player => (player.address, isLocal mgr.uid player.data.mListData))
    (fun _ _ _ => rfl) mgr
  rw [localPlayerIsOwn_iff, localPlayerIsOwn_iff, destroyScene_eq]
  refine forall_congr' fun a => imp_congr_right fun _ => ?_
  rw [ownElement_iff, ownElement_iff]
  dsimp only
  rw [hplayers]

/-- In exactly the runs whose lists name the user once the pointer is set, the local player
is null or the user's own in every state. -/
theorem local_player_is_own_iff (uid : Uid) (actions : List SlotAction) :
    Throughout LocalPlayerIsOwn slotStep (.start uid) actions ↔
      Along ListsOwnPlayer slotStep (.start uid) actions := by
  refine throughout_iff_along ?_ ?_ ?_
  · intro mgr action next hgood hnext
    cases action with
    | playerList packet slots =>
      obtain ⟨hslots, hhandled⟩ := Option.ite_none_right_eq_some.mp hnext
      cases hhandled
      rw [localPlayerIsOwn_handle hslots]
      exact ⟨fun h _ => h, fun h => h hslots⟩
    | initPuppets pools raidonPool =>
      obtain ⟨-, hcreated⟩ := Option.ite_none_right_eq_some.mp hnext
      cases hcreated
      exact iff_of_true (localPlayerIsOwn_iff.mpr hgood.pointer) trivial
    | destroyScene =>
      cases hnext
      exact iff_of_true (localPlayerIsOwn_destroyScene.mpr hgood) trivial
  · intro mgr action hnone
    cases action with
    | playerList packet slots =>
      intro hslots
      rw [slotStep, if_pos hslots] at hnone
      cases hnone
    | initPuppets pools raidonPool => trivial
    | destroyScene => trivial
  · exact localPlayerIsOwn_iff.mpr fun a ha => nomatch ha

/-- The client of user 1 is listed in slot 0, then a list names user 2 alone, whom the
array gives the same slot: `execute` updates user 2 as the local player. -/
theorem other_player_is_local :
    ∃ mgr, run slotStep (.start ⟨1, 0⟩)
        [.playerList [entryOf 1 0] [0], .playerList [entryOf 2 0] [0]] = some mgr ∧
      .updateLocal 0 ∈ execute mgr ∧
      mgr.mPlayers.map (fun player => (player.address, player.data.mListData.user)) =
        [(0, ⟨2, 0⟩)] ∧ ¬LocalPlayerIsOwn mgr :=
  run_reaches (by decide)

end BfMultiplayer.LocalPlayer

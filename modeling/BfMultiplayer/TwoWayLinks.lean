import Mathlib.Data.List.Nodup
import Mathlib.Logic.Function.Basic

/-!
# Objects linked to their owners in both directions

An owner points to its object and the object points back. The owners are kept
in a list that is replaced as a whole; the objects live on and keep the owner
they were linked to last. A pass over the new owners therefore leaves the two
directions in agreement exactly when it reaches every object that is linked.
-/

namespace BfMultiplayer.TwoWayLinks

variable {α β : Type*}

/-- An owner, by its address, and the object it is linked to. -/
structure Owner (α β : Type*) where
  /-- Where the owner is. -/
  address : α
  /-- Its object. -/
  object : Option β
  deriving DecidableEq

/-- The live objects, and the owner that each object is linked to. -/
structure Objects (α β : Type*) where
  /-- The objects that exist. -/
  live : List β
  /-- Where the owner of an object is. -/
  owner : β → Option α

/-- There are no objects. -/
def Objects.none : Objects α β := ⟨[], fun _ => Option.none⟩

/-- Link an object, if there is one, to an owner. -/
def Objects.setOwner [DecidableEq β] (objs : Objects α β) (object : Option β) (a : α) :
    Objects α β :=
  match object with
  | some b => { objs with owner := Function.update objs.owner b (some a) }
  | Option.none => objs

/-- Create objects without an owner. -/
def Objects.create [DecidableEq β] (objs : Objects α β) (created : List β) : Objects α β :=
  ⟨objs.live ++ created, fun b => if b ∈ created then Option.none else objs.owner b⟩

/-- Link the objects of some owners to them, one owner after the other. -/
def link [DecidableEq β] (objs : Objects α β) (owners : List (Owner α β)) : Objects α β :=
  owners.foldl (fun objs owner => objs.setOwner owner.object owner.address) objs

/-- Clear the link of the owner at an address. -/
def unlink [DecidableEq α] (owners : List (Owner α β)) (address : Option α) :
    List (Owner α β) :=
  owners.map fun owner => if address = some owner.address then ⟨owner.address, none⟩ else owner

/-- No two owners have an object in common. -/
def DistinctObjects (owners : List (Owner α β)) : Prop :=
  owners.Pairwise fun one other => ∀ b ∈ one.object, b ∉ other.object

/-- The two directions agree. -/
structure Linked (owners : List (Owner α β)) (objs : Objects α β) : Prop where
  /-- The owner of a live object is one of the owners, and is linked to it. -/
  back : ∀ b ∈ objs.live, ∀ a ∈ objs.owner b, ⟨a, some b⟩ ∈ owners
  /-- No object has two owners. -/
  distinct : DistinctObjects owners

instance [DecidableEq β] (owners : List (Owner α β)) : Decidable (DistinctObjects owners) :=
  inferInstanceAs (Decidable (owners.Pairwise _))

instance [DecidableEq α] [DecidableEq β] (owners : List (Owner α β)) (objs : Objects α β) :
    Decidable (Linked owners objs) :=
  decidable_of_iff
    ((∀ b ∈ objs.live, ∀ a ∈ objs.owner b, ⟨a, some b⟩ ∈ owners) ∧ DistinctObjects owners)
    ⟨fun h => ⟨h.1, h.2⟩, fun h => ⟨h.back, h.distinct⟩⟩

section Links

variable [DecidableEq β]

/-- Linking an object leaves which objects live. -/
@[simp] theorem live_setOwner (objs : Objects α β) (object : Option β) (a : α) :
    (objs.setOwner object a).live = objs.live := by
  cases object <;> rfl

/-- A pass over the owners leaves which objects live. -/
@[simp] theorem live_link (objs : Objects α β) (owners : List (Owner α β)) :
    (link objs owners).live = objs.live := by
  induction owners generalizing objs with
  | nil => rfl
  | cons owner owners ih =>
    have hrest := ih (objs.setOwner owner.object owner.address)
    rw [live_setOwner] at hrest
    exact hrest

/-- Linking an object sets its owner. -/
theorem owner_setOwner_self (objs : Objects α β) (b : β) (a : α) :
    (objs.setOwner (some b) a).owner b = some a := by
  simp only [Objects.setOwner, Function.update_self]

/-- Linking one object keeps the owner of the others. -/
theorem owner_setOwner_of_ne {objs : Objects α β} {object : Option β} {a : α} {b : β}
    (h : b ∉ object) : (objs.setOwner object a).owner b = objs.owner b := by
  cases object with
  | none => rfl
  | some c =>
    have hne : b ≠ c := fun he => h (Option.mem_some_iff.mpr he.symm)
    exact Function.update_of_ne hne (some a) objs.owner

/-- An object that no owner has keeps its owner. -/
theorem owner_link_of_forall (objs : Objects α β) {owners : List (Owner α β)} {b : β}
    (h : ∀ owner ∈ owners, b ∉ owner.object) : (link objs owners).owner b = objs.owner b := by
  induction owners generalizing objs with
  | nil => rfl
  | cons owner owners ih =>
    have hhead := h owner List.mem_cons_self
    have hrest := ih (objs.setOwner owner.object owner.address)
      fun other hother => h other (List.mem_cons_of_mem owner hother)
    rw [owner_setOwner_of_ne hhead] at hrest
    exact hrest

/-- An object that is some owner's alone is linked to it. -/
theorem owner_link_of_mem (objs : Objects α β) {owners : List (Owner α β)} {a : α} {b : β}
    (hdistinct : DistinctObjects owners) (hmem : ⟨a, some b⟩ ∈ owners) :
    (link objs owners).owner b = some a := by
  induction owners generalizing objs with
  | nil => exact absurd hmem List.not_mem_nil
  | cons owner owners ih =>
    have hpair := List.pairwise_cons.mp hdistinct
    rcases List.mem_cons.mp hmem with hhead | htail
    · subst hhead
      have hnone : ∀ other ∈ owners, b ∉ other.object :=
        fun other hother => hpair.1 other hother b rfl
      have hrest := owner_link_of_forall (objs.setOwner (some b) a) hnone
      exact hrest.trans (owner_setOwner_self objs b a)
    · exact ih _ hpair.2 htail

/-- After a pass over new owners the two directions agree exactly when every live
object that had an owner is the object of a new one. -/
theorem linked_link_iff {objs : Objects α β} {owners : List (Owner α β)}
    (hdistinct : DistinctObjects owners) :
    Linked owners (link objs owners) ↔
      ∀ b ∈ objs.live, (objs.owner b).isSome → some b ∈ owners.map Owner.object := by
  constructor
  · intro hlinked b hb howner
    by_contra hnot
    have hnone : ∀ owner ∈ owners, b ∉ owner.object :=
      fun owner hmem hobject => hnot (List.mem_map.mpr ⟨owner, hmem, hobject⟩)
    have hkept := owner_link_of_forall objs hnone
    obtain ⟨a, ha⟩ := Option.isSome_iff_exists.mp howner
    have hback := hlinked.back b (by rw [live_link]; exact hb) a (hkept.trans ha)
    exact hnone _ hback rfl
  · intro hreached
    refine ⟨fun b hb a ha => ?_, hdistinct⟩
    rw [live_link] at hb
    have hreach : some b ∈ owners.map Owner.object := by
      by_contra hnot
      have hnone : ∀ owner ∈ owners, b ∉ owner.object :=
        fun owner hmem hobject => hnot (List.mem_map.mpr ⟨owner, hmem, hobject⟩)
      have hkept := owner_link_of_forall objs hnone
      exact hnot (hreached b hb (Option.isSome_iff_exists.mpr ⟨a, hkept.symm.trans ha⟩))
    obtain ⟨owner, hmem, hobject⟩ := List.mem_map.mp hreach
    have howner : owner = ⟨owner.address, some b⟩ := by
      rw [← hobject]
    have hset := owner_link_of_mem objs hdistinct (howner ▸ hmem)
    have haddress : owner.address = a := Option.some.inj (hset.symm.trans ha)
    rw [haddress] at howner
    exact howner ▸ hmem

/-- New objects have no owner, so the directions go on to agree. -/
theorem Linked.create {objs : Objects α β} {owners : List (Owner α β)}
    (h : Linked owners objs) (created : List β) : Linked owners (objs.create created) := by
  refine ⟨fun b hb a ha => ?_, h.distinct⟩
  by_cases hnew : b ∈ created
  · simp only [Objects.create, if_pos hnew, Option.mem_def, reduceCtorEq] at ha
  · simp only [Objects.create, if_neg hnew] at ha
    have hlive := (List.mem_append.mp hb).resolve_right hnew
    exact h.back b hlive a ha

end Links

/-- Clearing a link takes no object to a second owner. -/
theorem DistinctObjects.unlink [DecidableEq α] {owners : List (Owner α β)} (h : DistinctObjects owners)
    (address : Option α) : DistinctObjects (unlink owners address) := by
  refine List.pairwise_map.mpr (h.imp ?_)
  intro one other hapart b hone hother
  split at hone
  · cases hone
  · split at hother
    · cases hother
    · exact hapart b hone hother

/-- Where the directions agree, the owner of a live object is linked to that object:
clearing the link of its owner clears no other link. -/
theorem Linked.object_eq {objs : Objects α β} {owners : List (Owner α β)} (h : Linked owners objs)
    (haddress : (owners.map Owner.address).Nodup) {b : β} (hb : b ∈ objs.live)
    {owner : Owner α β} (hmem : owner ∈ owners) (howner : objs.owner b = some owner.address) :
    owner.object = some b := by
  have hback := h.back b hb owner.address howner
  have hsame : (⟨owner.address, some b⟩ : Owner α β) = owner :=
    List.inj_on_of_nodup_map haddress hback hmem rfl
  rw [← hsame]

/-- Where the directions agree, clearing the link of the owner of a live object clears a
link to that object, and no other. -/
theorem Linked.unlink_eq [DecidableEq α] [DecidableEq β] {objs : Objects α β}
    {owners : List (Owner α β)} (h : Linked owners objs)
    (haddress : (owners.map Owner.address).Nodup) {b : β} (hb : b ∈ objs.live) :
    unlink owners (objs.owner b) = owners.map fun owner =>
      if objs.owner b = some owner.address ∧ owner.object = some b then ⟨owner.address, none⟩
      else owner := by
  refine List.map_congr_left fun owner hmem => ?_
  by_cases howner : objs.owner b = some owner.address
  · rw [if_pos howner, if_pos ⟨howner, h.object_eq haddress hb hmem howner⟩]
  · rw [if_neg howner, if_neg fun hboth => howner hboth.1]

end BfMultiplayer.TwoWayLinks

import Mathlib.Tactic.Common
import Mathlib.Data.List.Basic

/-!
# Live blocks of several allocators

A heap is the list of its live blocks, each of the allocator that produced it.
Freeing is right for the start of a live block of the same allocator, and an
error otherwise. A computation is judged by the heap that it leaves, unless it
aborts; allocating before and freeing after a part that keeps the live blocks
keeps them as well.
-/

namespace BfMultiplayer.BlockHeap

variable {α : Type*}

/-- A block, which has a number no other block ever has. -/
structure Block (α : Type*) where
  /-- The allocator that produced it. -/
  allocator : α
  /-- Its number. -/
  id : ℕ
  deriving DecidableEq

/-- A pointer into a block. -/
structure Pointer (α : Type*) where
  /-- The block. -/
  block : Block α
  /-- How far behind its start. -/
  offset : ℕ
  deriving DecidableEq

/-- The live blocks, and the number of the next one. -/
structure Heap (α : Type*) where
  /-- The live blocks. -/
  live : List (Block α)
  /-- The number of the next block. -/
  next : ℕ
  /-- The next block is a new one. -/
  fresh : ∀ b ∈ live, b.id < next

/-- A heap without blocks. -/
def Heap.empty : Heap α := ⟨[], 0, fun _ h => absurd h List.not_mem_nil⟩

/-- The block that is allocated next. -/
def Heap.nextBlock (heap : Heap α) (a : α) : Block α := ⟨a, heap.next⟩

/-- The heap after an allocation. -/
def Heap.alloc (heap : Heap α) (a : α) : Heap α :=
  ⟨heap.nextBlock a :: heap.live, heap.next + 1, fun b hb => by
    rcases List.mem_cons.mp hb with rfl | hlive
    · exact Nat.lt_succ_self heap.next
    · exact Nat.lt_succ_of_lt (heap.fresh b hlive)⟩

/-- How a computation ends. -/
inductive Outcome (α : Type*) where
  /-- It returns and leaves a heap. -/
  | ok (heap : Heap α)
  /-- The program is aborted. -/
  | aborted
  /-- Something is freed that its allocator has not produced. -/
  | wrongFree

/-- Free the block that a pointer points to the start of. -/
def Heap.free [DecidableEq α] (heap : Heap α) (a : α) (p : Pointer α) : Outcome α :=
  if p.block ∈ heap.live ∧ p.block.allocator = a ∧ p.offset = 0 then
    .ok ⟨heap.live.filter fun b => b ≠ p.block, heap.next,
      fun b hb => heap.fresh b (List.mem_filter.mp hb).1⟩
  else .wrongFree

/-- Go on with the heap that a computation leaves. -/
def Outcome.andThen (outcome : Outcome α) (rest : Heap α → Outcome α) : Outcome α :=
  match outcome with
  | .ok heap => rest heap
  | .aborted => .aborted
  | .wrongFree => .wrongFree

/-- Nothing wrong is freed, and the heap that is left has a property. -/
def Outcome.Safe (P : Heap α → Prop) : Outcome α → Prop
  | .ok heap => P heap
  | .aborted => True
  | .wrongFree => False

/-- Something wrong is freed, or a heap is left that has a property. -/
def Outcome.Spoils (P : Heap α → Prop) : Outcome α → Prop
  | .ok heap => P heap
  | .aborted => False
  | .wrongFree => True

/-- The part behind one that spoils something spoils something as well. -/
theorem Outcome.Spoils.andThen {P Q : Heap α → Prop} {outcome : Outcome α}
    {rest : Heap α → Outcome α} (h : outcome.Spoils P)
    (hrest : ∀ heap, P heap → (rest heap).Spoils Q) : (outcome.andThen rest).Spoils Q := by
  cases outcome with
  | ok heap => exact hrest heap h
  | aborted => exact h.elim
  | wrongFree => trivial

/-- Where something is spoiled it is not safe. -/
theorem Outcome.Spoils.not_safe {P Q : Heap α → Prop} {outcome : Outcome α}
    (h : outcome.Spoils P) (hPQ : ∀ heap, P heap → ¬Q heap) : ¬outcome.Safe Q := by
  cases outcome with
  | ok heap => exact hPQ heap h
  | aborted => exact h.elim
  | wrongFree => exact id

/-- The live blocks are the same, but for new ones of the allocators that keep theirs. -/
structure SameBlocks (keeps : α → Prop) (before after : Heap α) : Prop where
  /-- What was live is live. -/
  survive : ∀ b ∈ before.live, b ∈ after.live
  /-- What is live was live, or is kept. -/
  only : ∀ b ∈ after.live, keeps b.allocator ∨ b ∈ before.live

/-- A part gives back the blocks that it takes. -/
structure GivesBack (keeps : α → Prop) (before after : Heap α) : Prop
    extends SameBlocks keeps before after where
  /-- No number is used again. -/
  next_le : before.next ≤ after.next

/-- A part leaves a block behind, of one of some allocators. -/
structure Leaves (left : α → Prop) (start after : Heap α) : Prop where
  /-- No number is used again. -/
  next_le : start.next ≤ after.next
  /-- The block was not there at the start. -/
  block : ∃ b ∈ after.live, left b.allocator ∧ start.next ≤ b.id

variable {keeps : α → Prop}

/-- Nothing has changed. -/
theorem GivesBack.refl (heap : Heap α) : GivesBack keeps heap heap :=
  ⟨⟨fun _ h => h, fun _ h => Or.inr h⟩, Nat.le_refl heap.next⟩

/-- One part after another. -/
theorem GivesBack.trans {before mid after : Heap α} (h : GivesBack keeps before mid)
    (h' : GivesBack keeps mid after) : GivesBack keeps before after := by
  refine ⟨⟨fun b hb => h'.survive b (h.survive b hb), fun b hb => ?_⟩,
    Nat.le_trans h.next_le h'.next_le⟩
  rcases h'.only b hb with hkept | hmid
  · exact Or.inl hkept
  · exact h.only b hmid

/-- A new block of an allocator that keeps its blocks. -/
theorem GivesBack.kept (heap : Heap α) {a : α} (h : keeps a) :
    GivesBack keeps heap (heap.alloc a) := by
  refine ⟨⟨fun b hb => List.mem_cons_of_mem _ hb, fun b hb => ?_⟩, Nat.le_succ heap.next⟩
  rcases List.mem_cons.mp hb with rfl | hlive
  · exact Or.inl h
  · exact Or.inr hlive

/-- The next block is not live yet. -/
theorem nextBlock_notMem (heap : Heap α) (a : α) : heap.nextBlock a ∉ heap.live :=
  fun hlive => Nat.lt_irrefl heap.next (heap.fresh _ hlive)

/-- A block that is allocated for a part that keeps the live blocks can be freed behind it,
and then all is as before. -/
theorem GivesBack.freed [DecidableEq α] {heap mid : Heap α} {a : α}
    (h : GivesBack keeps (heap.alloc a) mid) :
    ∃ after, mid.free a ⟨heap.nextBlock a, 0⟩ = .ok after ∧ GivesBack keeps heap after := by
  have hlive : heap.nextBlock a ∈ mid.live := h.survive _ List.mem_cons_self
  rw [Heap.free, if_pos ⟨hlive, rfl, rfl⟩]
  refine ⟨_, rfl, ⟨?_, ?_⟩, Nat.le_trans (Nat.le_succ heap.next) h.next_le⟩
  · intro b hb
    have hne : b ≠ heap.nextBlock a := fun he => nextBlock_notMem heap a (he ▸ hb)
    exact List.mem_filter.mpr ⟨h.survive b (List.mem_cons_of_mem _ hb), decide_eq_true hne⟩
  · intro b hb
    have hkept := List.mem_filter.mp hb
    have hne : b ≠ heap.nextBlock a := of_decide_eq_true hkept.2
    rcases h.only b hkept.1 with hkeeps | hbefore
    · exact Or.inl hkeeps
    · exact Or.inr ((List.mem_cons.mp hbefore).resolve_left hne)

/-- A second block that is allocated behind the first and not freed with it is one more
than before. -/
theorem GivesBack.leaked [DecidableEq α] {heap mid : Heap α} {a c : α} (hc : ¬keeps c)
    (h : GivesBack keeps ((heap.alloc a).alloc c) mid) :
    ∃ after, mid.free a ⟨heap.nextBlock a, 0⟩ = .ok after ∧ ¬SameBlocks keeps heap after := by
  have hfirst : heap.nextBlock a ∈ mid.live :=
    h.survive _ (List.mem_cons_of_mem _ List.mem_cons_self)
  have hsecond : (heap.alloc a).nextBlock c ∈ mid.live := h.survive _ List.mem_cons_self
  rw [Heap.free, if_pos ⟨hfirst, rfl, rfl⟩]
  refine ⟨_, rfl, fun hsame => ?_⟩
  have hne : (heap.alloc a).nextBlock c ≠ heap.nextBlock a := by
    intro he
    have hid : heap.next + 1 = heap.next := congrArg Block.id he
    omega
  have hlive := hsame.only _ (List.mem_filter.mpr ⟨hsecond, decide_eq_true hne⟩)
  rcases hlive with hkeeps | hbefore
  · exact hc hkeeps
  · exact nextBlock_notMem (heap.alloc a) c (List.mem_cons_of_mem _ hbefore)

/-- A part leaves its new block. -/
theorem Leaves.alloc {left : α → Prop} {start heap : Heap α} (h : start.next ≤ heap.next) {a : α}
    (ha : left a) : Leaves left start (heap.alloc a) :=
  ⟨Nat.le_trans h (Nat.le_succ heap.next), heap.nextBlock a, List.mem_cons_self, ha, h⟩

/-- A block that was left behind stays while others are given back. -/
theorem Leaves.givesBack {left : α → Prop} {start heap after : Heap α}
    (h : Leaves left start heap) (hback : GivesBack keeps heap after) :
    Leaves left start after := by
  obtain ⟨b, hlive, hleft, hnew⟩ := h.block
  exact ⟨Nat.le_trans h.next_le hback.next_le, b, hback.survive b hlive, hleft, hnew⟩

/-- A block that was left behind stays when one of another allocator is freed. -/
theorem Leaves.free [DecidableEq α] {left : α → Prop} {start heap : Heap α}
    (h : Leaves left start heap) {a : α} (ha : ¬left a) (p : Pointer α) :
    (heap.free a p).Spoils (Leaves left start) := by
  obtain ⟨b, hlive, hleft, hnew⟩ := h.block
  rw [Heap.free]
  by_cases hfree : p.block ∈ heap.live ∧ p.block.allocator = a ∧ p.offset = 0
  · have hne : b ≠ p.block := by
      intro he
      rw [he, hfree.2.1] at hleft
      exact ha hleft
    rw [if_pos hfree]
    exact ⟨h.next_le, b, List.mem_filter.mpr ⟨hlive, decide_eq_true hne⟩, hleft, hnew⟩
  · rw [if_neg hfree]
    trivial

/-- What is left behind was not live, and is not kept. -/
theorem Leaves.not_sameBlocks {left : α → Prop} (hleft : ∀ a, left a → ¬keeps a)
    {heap after : Heap α} (h : Leaves left heap after) : ¬SameBlocks keeps heap after := by
  intro hsame
  obtain ⟨b, hlive, hb, hnew⟩ := h.block
  rcases hsame.only b hlive with hkept | hbefore
  · exact hleft _ hb hkept
  · exact absurd (heap.fresh b hbefore) (Nat.not_lt_of_le hnew)

/-- A block of another allocator is not freed. -/
theorem free_of_ne [DecidableEq α] (heap : Heap α) {a : α} {p : Pointer α}
    (h : p.block.allocator ≠ a) : heap.free a p = .wrongFree := by
  rw [Heap.free, if_neg fun hright => h hright.2.1]

/-- A block is freed, or its pointer is wrong; numbers stay used. -/
theorem free_cases [DecidableEq α] (heap : Heap α) (a : α) (p : Pointer α) :
    (∃ after, heap.free a p = .ok after ∧ after.next = heap.next) ∨
      heap.free a p = .wrongFree := by
  rw [Heap.free]
  by_cases hright : p.block ∈ heap.live ∧ p.block.allocator = a ∧ p.offset = 0
  · rw [if_pos hright]
    exact Or.inl ⟨_, rfl, rfl⟩
  · rw [if_neg hright]
    exact Or.inr rfl

end BfMultiplayer.BlockHeap

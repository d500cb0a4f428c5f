import Mathlib.Tactic.Common
import Mathlib.Data.List.Basic
import Mathlib.Logic.Function.Basic

/-!
# A receiver behind a lossless first-in first-out link

A receiver is its own state and the messages still in flight to it. Its
settled state is the one it reaches after handling all of them. Delivery does
not change the settled state, and a message posted at the end of the link is
the last one it handles. So a claim about the moment when nothing is in flight
is a claim about the settled state, which only posts and local actions change.

The last section is about what is in flight in the other direction: one queue of
each of several senders, of which one at a time gains or loses an item.
-/

namespace BfMultiplayer.Mailbox

/-- A receiver and the messages in flight to it, oldest first. -/
structure Receiver (σ μ : Type*) where
  /-- What the receiver holds now. -/
  state : σ
  /-- What was sent to it and not yet handled. -/
  queue : List μ

variable {σ μ : Type*} {handle : σ → μ → σ}

/-- The state after every message in flight has been handled. -/
def Receiver.settled (handle : σ → μ → σ) (m : Receiver σ μ) : σ := m.queue.foldl handle m.state

/-- Append messages to the link. -/
def Receiver.post (m : Receiver σ μ) (messages : List μ) : Receiver σ μ :=
  { m with queue := m.queue ++ messages }

/-- Handle the oldest message in flight; undefined on an empty link. -/
def Receiver.deliver (handle : σ → μ → σ) (m : Receiver σ μ) : Option (Receiver σ μ) :=
  match m.queue with
  | [] => none
  | message :: queue => some ⟨handle m.state message, queue⟩

/-- Change the receiver's own state, with the link as it is. -/
def Receiver.act (f : σ → σ) (m : Receiver σ μ) : Receiver σ μ := { m with state := f m.state }

/-- On an empty link the receiver is already settled. -/
theorem settled_of_queue_nil {m : Receiver σ μ} (h : m.queue = []) :
    m.settled handle = m.state := by
  rw [Receiver.settled, h, List.foldl_nil]

/-- Posted messages are handled after everything already in flight. -/
theorem settled_post (m : Receiver σ μ) (messages : List μ) :
    (m.post messages).settled handle = messages.foldl handle (m.settled handle) :=
  List.foldl_append ..

/-- Delivery moves along the way to the settled state, which it keeps. -/
theorem settled_deliver {m m' : Receiver σ μ} (h : m.deliver handle = some m') :
    m'.settled handle = m.settled handle := by
  unfold Receiver.deliver at h
  split at h
  · cases h
  · rename_i message queue hq
    cases h
    rw [Receiver.settled, Receiver.settled, hq, List.foldl_cons]

/-- Delivery to one of several receivers keeps what each of them settles at. -/
theorem settled_update_deliver {ι : Type*} [DecidableEq ι] {links : ι → Receiver σ μ} {i : ι}
    {m : Receiver σ μ} (h : (links i).deliver handle = some m) (j : ι) :
    (Function.update links i m j).settled handle = (links j).settled handle := by
  by_cases hj : j = i
  · rw [hj, Function.update_self]
    exact settled_deliver h
  · rw [Function.update_of_ne hj]

/-- What no message changes is the same in the settled state. -/
theorem settled_keeps {τ : Type*} {f : σ → τ} (hkeep : ∀ s message, f (handle s message) = f s)
    (m : Receiver σ μ) : f (m.settled handle) = f m.state := by
  have hfold : ∀ (queue : List μ) (s : σ), f (queue.foldl handle s) = f s := by
    intro queue
    induction queue with
    | nil => exact fun s => rfl
    | cons message queue ih => exact fun s => (ih _).trans (hkeep s message)
  exact hfold m.queue m.state

/-- A relation that every message keeps between two states is kept between
the two settled states behind the same link. -/
theorem settled_act_rel {R : σ → σ → Prop} {f : σ → σ} (m : Receiver σ μ)
    (hf : R (f m.state) m.state)
    (hhandle : ∀ s t message, R s t → R (handle s message) (handle t message)) :
    R ((m.act f).settled handle) (m.settled handle) := by
  have hfold : ∀ (queue : List μ) (s t : σ), R s t → R (queue.foldl handle s) (queue.foldl handle t) := by
    intro queue
    induction queue with
    | nil => exact fun s t h => h
    | cons message queue ih => exact fun s t h => ih _ _ (hhandle s t message h)
  exact hfold m.queue _ _ hf

section Queues

variable {ι α : Type*} [DecidableEq ι] {queues : ι → List α} {i : ι} {oldest item other : α}
  {rest : List α}

/-- Items put at the end of one queue are in that queue, and all others stay. -/
theorem mem_update_append_all {items : List α} {j : ι} :
    other ∈ Function.update queues i (queues i ++ items) j ↔
      other ∈ queues j ∨ j = i ∧ other ∈ items := by
  by_cases hj : j = i
  · rw [hj, Function.update_self, List.mem_append]
    exact or_congr_right (and_iff_right rfl).symm
  · rw [Function.update_of_ne hj]
    exact (or_iff_left fun h => hj h.1).symm

/-- An item put at the end of one queue is in that queue, and all others stay. -/
theorem mem_update_append {j : ι} :
    other ∈ Function.update queues i (queues i ++ [item]) j ↔
      other ∈ queues j ∨ j = i ∧ other = item := by
  rw [mem_update_append_all, List.mem_singleton]

/-- What is left when the oldest item is taken from one queue was there. -/
theorem mem_of_mem_update_tail (h : queues i = oldest :: rest) {j : ι}
    (hmem : other ∈ Function.update queues i rest j) : other ∈ queues j := by
  by_cases hj : j = i
  · rw [hj, Function.update_self] at hmem
    rw [hj, h]
    exact List.mem_cons_of_mem oldest hmem
  · rwa [Function.update_of_ne hj] at hmem

/-- All items but that one stay. -/
theorem mem_update_tail_of_ne (h : queues i = oldest :: rest) {j : ι} (hmem : other ∈ queues j)
    (hne : other ≠ oldest) : other ∈ Function.update queues i rest j := by
  by_cases hj : j = i
  · rw [hj, h] at hmem
    rw [hj, Function.update_self]
    exact List.mem_of_ne_of_mem hne hmem
  · rwa [Function.update_of_ne hj]

end Queues

end BfMultiplayer.Mailbox

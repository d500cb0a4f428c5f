import BfMultiplayer.Mailbox
import Mathlib.Data.Set.Basic

/-!
# Sets that grow through a relay

Parties add items to their sets and tell a relay, which passes every item on to all other
parties. When nothing is in flight all sets have the same items, in whatever order the
parties, the relay and the links have worked. An item that only one party knows was not
sent by another one.
-/

namespace BfMultiplayer.RelayedSets

open Mailbox

variable {ι α : Type*} [DecidableEq ι]

/-- The parties and what is in flight. -/
structure Relay (ι α : Type*) where
  /-- The set of each party. -/
  known : ι → Set α
  /-- The items in flight to the relay, of each party. -/
  requests : ι → List α
  /-- The items in flight to each party. -/
  queues : ι → List α
  /-- The items that were sent to the relay, with their senders. -/
  sent : List (ι × α)

/-- A step of some parties. -/
inductive RelayStep (parties : Set ι) (r r' : Relay ι α) : Prop where
  /-- A party adds items and sends them. -/
  | send (i : ι) (items : List α) (hparty : i ∈ parties)
    (hknown : ∀ j a, a ∈ r'.known j ↔ a ∈ r.known j ∨ j = i ∧ a ∈ items)
    (hrequests : r'.requests = Function.update r.requests i (r.requests i ++ items))
    (hqueues : r'.queues = r.queues) (hsent : r'.sent = r.sent ++ items.map (Prod.mk i))
  /-- The relay passes an item on. -/
  | serve (i : ι) (item : α) (rest : List α) (holdest : r.requests i = item :: rest)
    (hknown : r'.known = r.known) (hrequests : r'.requests = Function.update r.requests i rest)
    (hqueues : ∀ j ∈ parties, r'.queues j = r.queues j ++ if j = i then [] else [item])
    (hsent : r'.sent = r.sent)
  /-- A party adds an item that was passed on. -/
  | deliver (i : ι) (item : α) (rest : List α) (hparty : i ∈ parties)
    (holdest : r.queues i = item :: rest)
    (hknown : ∀ j a, a ∈ r'.known j ↔ a ∈ r.known j ∨ j = i ∧ a = item)
    (hrequests : r'.requests = r.requests) (hqueues : r'.queues = Function.update r.queues i rest)
    (hsent : r'.sent = r.sent)

/-- Nothing is in flight. -/
def Relay.Quiet (parties : Set ι) (r : Relay ι α) : Prop :=
  ∀ i ∈ parties, r.requests i = [] ∧ r.queues i = []

/-- What holds of the sets that have grown from some others. -/
structure RelayInv (parties : Set ι) (start : ι → Set α) (r : Relay ι α) : Prop where
  /-- No item is lost. -/
  begins : ∀ i, start i ⊆ r.known i
  /-- Every other item was sent. -/
  origin : ∀ i ∈ parties, ∀ a ∈ r.known i, a ∈ start i ∨ ∃ q, (q, a) ∈ r.sent
  /-- A sender knows what it sends. -/
  own : ∀ i a, (i, a) ∈ r.sent → i ∈ parties ∧ a ∈ r.known i
  /-- What is in flight to the relay was sent. -/
  requests : ∀ i, ∀ a ∈ r.requests i, (i, a) ∈ r.sent
  /-- So was what is in flight to a party. -/
  queues : ∀ i ∈ parties, ∀ a ∈ r.queues i, ∃ q, (q, a) ∈ r.sent
  /-- What was sent is known or in flight. -/
  told : ∀ q a, (q, a) ∈ r.sent → ∀ i ∈ parties,
    a ∈ r.known i ∨ a ∈ r.queues i ∨ i ≠ q ∧ a ∈ r.requests q

variable {parties : Set ι} {start : ι → Set α} {r r' : Relay ι α}

omit [DecidableEq ι] in
/-- It holds at the start. -/
theorem relayInv_start (hknown : r.known = start) (hrequests : ∀ i, r.requests i = [])
    (hqueues : ∀ i, r.queues i = []) (hsent : r.sent = []) : RelayInv parties start r := by
  constructor
  · rw [hknown]
    exact fun i => subset_rfl
  · rw [hknown]
    exact fun i _ a ha => Or.inl ha
  · rw [hsent]
    exact fun i a ha => absurd ha List.not_mem_nil
  · intro i a ha
    rw [hrequests i] at ha
    exact absurd ha List.not_mem_nil
  · intro i _ a ha
    rw [hqueues i] at ha
    exact absurd ha List.not_mem_nil
  · rw [hsent]
    exact fun q a ha => absurd ha List.not_mem_nil

omit [DecidableEq ι] in
/-- An item was sent before, or it is one of the new ones of a party. -/
theorem mem_sent_append {i q : ι} {a : α} {items : List α} :
    (q, a) ∈ r.sent ++ items.map (Prod.mk i) ↔ (q, a) ∈ r.sent ∨ q = i ∧ a ∈ items := by
  rw [List.mem_append, List.mem_map]
  refine or_congr_right ⟨?_, ?_⟩
  · rintro ⟨item, hitem, he⟩
    cases he
    exact ⟨rfl, hitem⟩
  · rintro ⟨rfl, ha⟩
    exact ⟨a, ha, rfl⟩

/-- Sending keeps the invariant. -/
theorem relayInv_send (hinv : RelayInv parties start r) {i : ι} {items : List α}
    (hparty : i ∈ parties)
    (hknown : ∀ j a, a ∈ r'.known j ↔ a ∈ r.known j ∨ j = i ∧ a ∈ items)
    (hrequests : r'.requests = Function.update r.requests i (r.requests i ++ items))
    (hqueues : r'.queues = r.queues) (hsent : r'.sent = r.sent ++ items.map (Prod.mk i)) :
    RelayInv parties start r' := by
  constructor
  · exact fun j a ha => (hknown j a).mpr (Or.inl (hinv.begins j ha))
  · intro j hj a ha
    rw [hsent]
    rcases (hknown j a).mp ha with hold | ⟨-, hitem⟩
    · exact (hinv.origin j hj a hold).imp_right fun ⟨q, hq⟩ => ⟨q, mem_sent_append.mpr (Or.inl hq)⟩
    · exact Or.inr ⟨i, mem_sent_append.mpr (Or.inr ⟨rfl, hitem⟩)⟩
  · intro j a ha
    rw [hsent] at ha
    rcases mem_sent_append.mp ha with hold | ⟨rfl, hitem⟩
    · exact ⟨(hinv.own j a hold).1, (hknown j a).mpr (Or.inl (hinv.own j a hold).2)⟩
    · exact ⟨hparty, (hknown j a).mpr (Or.inr ⟨rfl, hitem⟩)⟩
  · intro j a ha
    rw [hrequests] at ha
    rw [hsent]
    rcases mem_update_append_all.mp ha with hold | ⟨rfl, hitem⟩
    · exact mem_sent_append.mpr (Or.inl (hinv.requests j a hold))
    · exact mem_sent_append.mpr (Or.inr ⟨rfl, hitem⟩)
  · intro j hj a ha
    rw [hqueues] at ha
    obtain ⟨q, hq⟩ := hinv.queues j hj a ha
    rw [hsent]
    exact ⟨q, mem_sent_append.mpr (Or.inl hq)⟩
  · intro q a ha j hj
    rw [hsent] at ha
    rw [hqueues, hrequests]
    rcases mem_sent_append.mp ha with hold | ⟨rfl, hitem⟩
    · rcases hinv.told q a hold j hj with hknows | hqueued | ⟨hne, hrequest⟩
      · exact Or.inl ((hknown j a).mpr (Or.inl hknows))
      · exact Or.inr (Or.inl hqueued)
      · exact Or.inr (Or.inr ⟨hne, mem_update_append_all.mpr (Or.inl hrequest)⟩)
    · by_cases hself : j = q
      · exact Or.inl ((hknown j a).mpr (Or.inr ⟨hself, hitem⟩))
      · exact Or.inr (Or.inr ⟨hself, mem_update_append_all.mpr (Or.inr ⟨rfl, hitem⟩)⟩)

/-- Passing on keeps the invariant. -/
theorem relayInv_serve (hinv : RelayInv parties start r) {i : ι} {item : α} {rest : List α}
    (holdest : r.requests i = item :: rest) (hknown : r'.known = r.known)
    (hrequests : r'.requests = Function.update r.requests i rest)
    (hqueues : ∀ j ∈ parties, r'.queues j = r.queues j ++ if j = i then [] else [item])
    (hsent : r'.sent = r.sent) : RelayInv parties start r' := by
  have hitem : (i, item) ∈ r.sent := by
    refine hinv.requests i item ?_
    rw [holdest]
    exact List.mem_cons_self
  constructor
  · rw [hknown]
    exact hinv.begins
  · rw [hknown, hsent]
    exact hinv.origin
  · rw [hknown, hsent]
    exact hinv.own
  · rw [hrequests, hsent]
    exact fun j a ha => hinv.requests j a (mem_of_mem_update_tail holdest ha)
  · intro j hj a ha
    rw [hqueues j hj] at ha
    rw [hsent]
    rcases List.mem_append.mp ha with hold | hnew
    · exact hinv.queues j hj a hold
    · split at hnew
      · exact absurd hnew List.not_mem_nil
      · rw [List.mem_singleton.mp hnew]
        exact ⟨i, hitem⟩
  · intro q a ha j hj
    rw [hsent] at ha
    rw [hknown, hqueues j hj, hrequests]
    rcases hinv.told q a ha j hj with hknows | hqueued | ⟨hne, hrequest⟩
    · exact Or.inl hknows
    · exact Or.inr (Or.inl (List.mem_append_left _ hqueued))
    · by_cases hserved : q = i ∧ a = item
      · -- the item leaves the link of its sender for those of all others
        obtain ⟨rfl, rfl⟩ := hserved
        rw [if_neg hne]
        exact Or.inr (Or.inl (List.mem_append_right _ (List.mem_singleton_self _)))
      · refine Or.inr (Or.inr ⟨hne, ?_⟩)
        by_cases hsender : q = i
        · exact mem_update_tail_of_ne holdest hrequest fun he => hserved ⟨hsender, he⟩
        · rwa [Function.update_of_ne hsender]

/-- Delivery keeps the invariant. -/
theorem relayInv_deliver (hinv : RelayInv parties start r) {i : ι} {item : α} {rest : List α}
    (hparty : i ∈ parties) (holdest : r.queues i = item :: rest)
    (hknown : ∀ j a, a ∈ r'.known j ↔ a ∈ r.known j ∨ j = i ∧ a = item)
    (hrequests : r'.requests = r.requests) (hqueues : r'.queues = Function.update r.queues i rest)
    (hsent : r'.sent = r.sent) : RelayInv parties start r' := by
  constructor
  · exact fun j a ha => (hknown j a).mpr (Or.inl (hinv.begins j ha))
  · intro j hj a ha
    rw [hsent]
    rcases (hknown j a).mp ha with hold | ⟨rfl, rfl⟩
    · exact hinv.origin j hj a hold
    · refine Or.inr (hinv.queues j hj a ?_)
      rw [holdest]
      exact List.mem_cons_self
  · intro j a ha
    rw [hsent] at ha
    exact ⟨(hinv.own j a ha).1, (hknown j a).mpr (Or.inl (hinv.own j a ha).2)⟩
  · rw [hrequests, hsent]
    exact hinv.requests
  · rw [hqueues, hsent]
    exact fun j hj a ha => hinv.queues j hj a (mem_of_mem_update_tail holdest ha)
  · intro q a ha j hj
    rw [hsent] at ha
    rw [hqueues, hrequests]
    rcases hinv.told q a ha j hj with hknows | hqueued | hrequest
    · exact Or.inl ((hknown j a).mpr (Or.inl hknows))
    · by_cases hdelivered : j = i ∧ a = item
      · exact Or.inl ((hknown j a).mpr (Or.inr hdelivered))
      · refine Or.inr (Or.inl ?_)
        by_cases hreceiver : j = i
        · exact mem_update_tail_of_ne holdest hqueued fun he => hdelivered ⟨hreceiver, he⟩
        · rwa [Function.update_of_ne hreceiver]
    · exact Or.inr (Or.inr hrequest)

/-- A step keeps the invariant. -/
theorem relayInv_step (hinv : RelayInv parties start r) (hstep : RelayStep parties r r') :
    RelayInv parties start r' := by
  cases hstep with
  | send i items hparty hknown hrequests hqueues hsent =>
    exact relayInv_send hinv hparty hknown hrequests hqueues hsent
  | serve i item rest holdest hknown hrequests hqueues hsent =>
    exact relayInv_serve hinv holdest hknown hrequests hqueues hsent
  | deliver i item rest hparty holdest hknown hrequests hqueues hsent =>
    exact relayInv_deliver hinv hparty holdest hknown hrequests hqueues hsent

omit [DecidableEq ι] in
/-- When nothing is in flight a party knows what it knew and what anybody has sent. -/
theorem known_of_quiet (hinv : RelayInv parties start r) (hquiet : r.Quiet parties) {i : ι}
    (hparty : i ∈ parties) (a : α) :
    a ∈ r.known i ↔ a ∈ start i ∨ ∃ q, (q, a) ∈ r.sent := by
  refine ⟨hinv.origin i hparty a, ?_⟩
  rintro (hstart | ⟨q, hq⟩)
  · exact hinv.begins i hstart
  · rcases hinv.told q a hq i hparty with hknows | hqueued | ⟨-, hrequest⟩
    · exact hknows
    · rw [(hquiet i hparty).2] at hqueued
      exact absurd hqueued List.not_mem_nil
    · rw [(hquiet q (hinv.own q a hq).1).1] at hrequest
      exact absurd hrequest List.not_mem_nil

end BfMultiplayer.RelayedSets

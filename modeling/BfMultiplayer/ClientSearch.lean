import BfMultiplayer.ServerState
import Mathlib.Data.List.Infix
import Mathlib.Data.List.Perm.Basic

/-!
# The search for a client

One pass over the clients takes the first name that equals the query or
contains it. Which of two such names it meets first is up to the order of the
table.
-/

namespace BfMultiplayer.ClientSearch

open Packets ServerState

/-- The bytes of an array or a string up to its first terminator, as functions of C read them. -/
def cstr (bytes : List UInt8) : CString := bytes.takeWhile (· ≠ 0)

/-- The name of a client, as functions of C read it. -/
def nameOf (client : Client) : CString := cstr (List.ofFn client.mName)

/-- `Server::searchClient`, on the clients in iteration order. -/
def searchClient (query : CString) : List ClientNode → Option ClientNode
  | [] => none
  | node :: nodes =>
    if nameOf node.client = query then some node
    else if query <:+: nameOf node.client then some node
    else searchClient query nodes

/-- A client with the name. -/
def Named (query : CString) (clients : List ClientNode) : Prop :=
  ∃ node ∈ clients, nameOf node.client = query

/-- The condition on the table in its order: no name in front of the first one that equals the
query contains it. -/
def ExactFirst (query : CString) (clients : List ClientNode) : Prop :=
  Named query clients →
    ∀ node ∈ clients.takeWhile fun node => nameOf node.client ≠ query,
      ¬query <:+: nameOf node.client

/-- The search takes the first name that contains the query. -/
theorem searchClient_eq_find (query : CString) (clients : List ClientNode) :
    searchClient query clients = clients.find? fun node => query <:+: nameOf node.client := by
  induction clients with
  | nil => rfl
  | cons node clients ih =>
    rw [searchClient]
    split_ifs with hexact hcontains
    · have hcontains : query <:+: nameOf node.client := hexact.symm ▸ List.infix_refl query
      rw [List.find?_cons_of_pos (by simpa using hcontains)]
    · rw [List.find?_cons_of_pos (by simpa using hcontains)]
    · rw [List.find?_cons_of_neg (by simpa using hcontains), ih]

/-- What the search finds has a name that contains the query. -/
theorem searchClient_some {query : CString} {clients : List ClientNode} {node : ClientNode}
    (h : searchClient query clients = some node) :
    node ∈ clients ∧ query <:+: nameOf node.client := by
  rw [searchClient_eq_find] at h
  exact ⟨List.mem_of_find?_eq_some h, by simpa using List.find?_some h⟩

/-- The search finds nothing exactly when no name contains the query. -/
theorem searchClient_none_iff {query : CString} {clients : List ClientNode} :
    searchClient query clients = none ↔ ∀ node ∈ clients, ¬query <:+: nameOf node.client := by
  rw [searchClient_eq_find, List.find?_eq_none]
  refine forall₂_congr fun node _ => ?_
  rw [decide_eq_true_iff]

/-- With a client of the name, the search finds one exactly when no name in front of the first one
contains the query. -/
theorem searchClient_exact_iff {query : CString} {clients : List ClientNode}
    (h : Named query clients) :
    (∃ node, searchClient query clients = some node ∧ nameOf node.client = query) ↔
      ∀ node ∈ clients.takeWhile fun node => nameOf node.client ≠ query,
        ¬query <:+: nameOf node.client := by
  induction clients with
  | nil =>
    obtain ⟨node, hmem, -⟩ := h
    exact absurd hmem List.not_mem_nil
  | cons first clients ih =>
    rw [searchClient]
    by_cases hexact : nameOf first.client = query
    · rw [if_pos hexact, List.takeWhile_cons_of_neg (by simpa using hexact)]
      exact iff_of_true ⟨first, rfl, hexact⟩ fun node hmem => absurd hmem List.not_mem_nil
    · rw [if_neg hexact, List.takeWhile_cons_of_pos (by simpa using hexact)]
      by_cases hcontains : query <:+: nameOf first.client
      · rw [if_pos hcontains]
        refine iff_of_false ?_ fun hall => hall first List.mem_cons_self hcontains
        rintro ⟨node, hfound, hname⟩
        cases hfound
        exact hexact hname
      · have hrest : Named query clients := by
          obtain ⟨node, hmem, hname⟩ := h
          rcases List.mem_cons.mp hmem with rfl | hmem
          · exact absurd hname hexact
          · exact ⟨node, hmem, hname⟩
        rw [if_neg hcontains, ih hrest, List.forall_mem_cons]
        exact (and_iff_right hcontains).symm

end BfMultiplayer.ClientSearch

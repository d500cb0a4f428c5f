import BfMultiplayer.Console

/-!
# The player that a command finds

The command `tpall` moves all players to the one that the search finds, which is the one with
the typed name exactly when no other name in front of it contains the query.
-/

namespace BfMultiplayer.PlayerSearch

open ByteBuffer Packets ServerState SaveFile AsciiText ClientSearch Console

/-- What `tpall` does when it has found a player. -/
def movesTo (s : Server) (player : ClientNode) : List ConsoleEffect :=
  ((s.mClients.filter fun node => node.ptr != player.ptr).map fun node =>
      .teleport node.client.mPeer player.client.mTrans) ++
    [.printf "Teleported all players to %s\n" [.text (nameOf player.client)]]

/-- The search prefers the exact name, and `tpall` never moves to another one. -/
structure PrefersExact (files : SaveFiles) (s : Server) (query : CString) : Prop where
  /-- A client with the name is found when there is one. -/
  named : Named query s.mClients →
    ∃ node ∈ s.mClients, searchClient query s.mClients = some node ∧ nameOf node.client = query
  /-- Else a client whose name contains the query is found when there is one. -/
  contained : ¬Named query s.mClients → (∃ node ∈ s.mClients, query <:+: nameOf node.client) →
    ∃ node ∈ s.mClients, searchClient query s.mClients = some node ∧ query <:+: nameOf node.client
  /-- Else none is. -/
  absent : (∀ node ∈ s.mClients, ¬query <:+: nameOf node.client) →
    searchClient query s.mClients = none
  /-- `tpall` moves to a client with the typed name when there is one. -/
  moves : ∀ command argument player, cstr argument = query →
    tpall files s [command, argument] = .ok (s, movesTo s player) → Named query s.mClients →
    nameOf player.client = query

/-- `tpall` with a player does what the search says. -/
theorem tpall_eq (files : SaveFiles) (s : Server) (command argument : CString) :
    tpall files s [command, argument] =
      match searchClient (cstr argument) s.mClients with
      | none => .ok (s, [.printf "No player found with query \"%s\"\n" [.text (cstr argument)]])
      | some player => .ok (s, movesTo s player) := by
  have hlength : ¬[command, argument].length ≠ 2 := not_not_intro rfl
  have hread : readElement [command, argument] 1 = .ok argument := rfl
  rw [tpall, if_neg hlength, hread]
  dsimp only [bind, Except.bind]
  cases searchClient (cstr argument) s.mClients <;> rfl

/-- The last effect of a move tells the name of the player. -/
theorem movesTo_name {s : Server} {player other : ClientNode}
    (h : movesTo s player = movesTo s other) : nameOf player.client = nameOf other.client := by
  have hlast := congrArg List.getLast? h
  rw [movesTo, movesTo, List.getLast?_concat, List.getLast?_concat] at hlast
  simp only [Option.some.injEq, ConsoleEffect.printf.injEq, List.cons.injEq,
    Argument.text.injEq, and_true, true_and] at hlast
  exact hlast

/-- The search prefers the exact name exactly when no name in front of the first one that equals
the query contains it. -/
theorem prefers_exact_iff (files : SaveFiles) (s : Server) (query : CString) :
    PrefersExact files s query ↔ ExactFirst query s.mClients := by
  constructor
  · intro h hnamed
    obtain ⟨node, -, hfound, hname⟩ := h.named hnamed
    exact (searchClient_exact_iff hnamed).mp ⟨node, hfound, hname⟩
  · intro h
    refine ⟨fun hnamed => ?_, fun _ hsome => ?_, searchClient_none_iff.mpr, ?_⟩
    · obtain ⟨node, hfound, hname⟩ := (searchClient_exact_iff hnamed).mpr (h hnamed)
      exact ⟨node, (searchClient_some hfound).1, hfound, hname⟩
    · cases hfound : searchClient query s.mClients with
      | none =>
        obtain ⟨node, hmem, hcontains⟩ := hsome
        exact absurd hcontains (searchClient_none_iff.mp hfound node hmem)
      | some node =>
        obtain ⟨hmem, hcontains⟩ := searchClient_some hfound
        exact ⟨node, hmem, rfl, hcontains⟩
    · rintro command argument player rfl hmoves hnamed
      obtain ⟨node, hfound, hname⟩ := (searchClient_exact_iff hnamed).mpr (h hnamed)
      rw [tpall_eq, hfound, Except.ok.injEq, Prod.mk.injEq] at hmoves
      rw [← movesTo_name hmoves.2, hname]

/-- In every order of a table the first exact name is met before any other one that contains the
query exactly when there is no such other name. -/
theorem exactFirst_every_order_iff (query : CString) (clients : List ClientNode) :
    (∀ order, order.Perm clients → ExactFirst query order) ↔
      (Named query clients →
        ∀ node ∈ clients, query <:+: nameOf node.client → nameOf node.client = query) := by
  constructor
  · intro h hnamed node hmem hcontains
    by_contra hother
    obtain ⟨before, behind, rfl⟩ := List.append_of_mem hmem
    have hperm : (node :: (before ++ behind)).Perm (before ++ node :: behind) :=
      List.perm_middle.symm
    have hnamed' : Named query (node :: (before ++ behind)) := by
      obtain ⟨client, hclient, hname⟩ := hnamed
      exact ⟨client, hperm.mem_iff.mpr hclient, hname⟩
    have hfirst := h _ hperm hnamed' node
    rw [List.takeWhile_cons_of_pos (by simpa using hother)] at hfirst
    exact hfirst List.mem_cons_self hcontains
  · rintro h order hperm ⟨client, hclient, hname⟩ node hmem hcontains
    have hin : node ∈ clients := hperm.mem_iff.mp ((List.takeWhile_sublist _).mem hmem)
    have hsame := h ⟨client, hperm.mem_iff.mp hclient, hname⟩ node hin hcontains
    have hdiffers := List.mem_takeWhile_imp hmem
    rw [decide_eq_true_iff] at hdiffers
    exact hdiffers hsame

/-- The array of a name. -/
def nickname (text : CString) : Nickname := fun i => text[i.val]?.getD 0

/-- A client with a name. -/
def namedNode (hash : ℕ) (text : CString) : ClientNode where
  hash := hash
  ptr := hash
  client := { mPeer := ⟨hash, ⟨0, 0⟩⟩, mName := nickname text }

/-- A server with the clients Anna and Ann, in this order. -/
def annaFirst : Server :=
  { idleServer with mClients := [namedNode 0 (ascii "Anna"), namedNode 1 (ascii "Ann")] }

/-- The search for Ann finds Anna. -/
theorem ann_finds_anna :
    (searchClient (ascii "Ann") annaFirst.mClients).map (fun node => nameOf node.client) =
        some (ascii "Anna") ∧
      ¬PrefersExact freshFiles annaFirst (ascii "Ann") := by
  have hfound : (searchClient (ascii "Ann") annaFirst.mClients).map
      (fun node => nameOf node.client) = some (ascii "Anna") := by
    decide +kernel
  refine ⟨hfound, fun h => ?_⟩
  have hnamed : Named (ascii "Ann") annaFirst.mClients :=
    ⟨namedNode 1 (ascii "Ann"), List.mem_cons_of_mem _ List.mem_cons_self, by decide +kernel⟩
  obtain ⟨node, -, hsearch, hname⟩ := h.named hnamed
  rw [hsearch, Option.map_some, hname] at hfound
  revert hfound
  decide

end BfMultiplayer.PlayerSearch

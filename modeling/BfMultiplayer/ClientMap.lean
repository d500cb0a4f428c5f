import BfMultiplayer.ClientTable
import BfMultiplayer.GuardedRuns
import BfMultiplayer.ListFacts

/-!
# The client table as a map

Whatever the peers do, no two records have one key or one place, and a record
is kept under the hash of its peer's address, since a connection erases the
record under its hash before it adds its own. So no two records have one peer.
-/

namespace BfMultiplayer.ClientMap

open Packets ServerState ServerHandlers EventLoopRules ClientTable GuardedRuns

/-- What an unordered map of records by the hashes of their peers is. -/
structure Mapped (s : Server) : Prop where
  /-- Distinct keys. -/
  keys : (s.mClients.map ClientNode.hash).Nodup
  /-- Distinct places. -/
  ptrs : (s.mClients.map ClientNode.ptr).Nodup
  /-- A record is kept under the hash of its peer. -/
  hashed : ∀ node ∈ s.mClients, node.hash = calcEnetAddressHashCode node.client.mPeer.address

/-- The record of a connection is allocated at a free place. -/
def Allocates (s : Server) : ENetEvent → Prop
  | .connect _ ptr => ∀ node ∈ s.mClients, node.ptr ≠ ptr
  | _ => True

instance (s : Server) : ∀ event, Decidable (Allocates s event)
  | .connect _ _ => inferInstanceAs (Decidable (∀ node ∈ _, _))
  | .receive _ _ _ => inferInstanceAs (Decidable True)
  | .disconnect _ => inferInstanceAs (Decidable True)

/-- No two records have one peer. -/
theorem Mapped.peers {s : Server} (h : Mapped s) :
    (s.mClients.map fun node => node.client.mPeer).Nodup := by
  have hkeys : s.mClients.map ClientNode.hash =
      (s.mClients.map fun node => node.client.mPeer).map
        fun peer => calcEnetAddressHashCode peer.address := by
    rw [List.map_map]
    exact List.map_congr_left h.hashed
  have hnodup := h.keys
  rw [hkeys] at hnodup
  exact List.Nodup.of_map _ hnodup

/-- Two records with one peer are one. -/
theorem Mapped.eq_of_peer {s : Server} (h : Mapped s) {node other : ClientNode}
    (hnode : node ∈ s.mClients) (hother : other ∈ s.mClients)
    (he : node.client.mPeer = other.client.mPeer) : node = other :=
  List.inj_on_of_nodup_map h.peers hnode hother he

/-- Two records at one place are one. -/
theorem Mapped.eq_of_ptr {s : Server} (h : Mapped s) {node other : ClientNode}
    (hnode : node ∈ s.mClients) (hother : other ∈ s.mClients) (he : node.ptr = other.ptr) :
    node = other :=
  List.inj_on_of_nodup_map h.ptrs hnode hother he

/-- Removing records keeps the table a map. -/
theorem Mapped.filter {s t : Server} (h : Mapped s) {p : ClientNode → Bool}
    (hclients : t.mClients = s.mClients.filter p) : Mapped t := by
  constructor
  · rw [hclients]
    exact h.keys.sublist (List.filter_sublist.map _)
  · rw [hclients]
    exact h.ptrs.sublist (List.filter_sublist.map _)
  · intro node hnode
    rw [hclients] at hnode
    exact h.hashed node (List.mem_of_mem_filter hnode)

/-- Assigning to a record keeps the table a map, as long as its peer stays. -/
theorem Mapped.modify {s t : Server} (h : Mapped s) {ptr : ℕ} {f : Client → Client}
    (hpeer : ∀ record, (f record).mPeer = record.mPeer)
    (hclients : t.mClients = (s.modify ptr f).mClients) : Mapped t := by
  have hmap : ∀ {α : Type} (g : ClientNode → α),
      (∀ node : ClientNode, g { node with client := f node.client } = g node) →
      t.mClients.map g = s.mClients.map g := by
    intro α g hg
    rw [hclients, Server.modify]
    exact ListFacts.map_change_eq hg _ _
  constructor
  · rw [hmap _ fun _ => rfl]
    exact h.keys
  · rw [hmap _ fun _ => rfl]
    exact h.ptrs
  · intro node hnode
    rw [hclients] at hnode
    obtain ⟨old, hold, rfl⟩ := List.mem_map.mp hnode
    split
    · rw [hpeer]
      exact h.hashed old hold
    · exact h.hashed old hold

/-- A handler keeps the peer of a record. -/
theorem assigned_mPeer (packet : ServerBound) (record : Client) :
    (assigned packet record).mPeer = record.mPeer := by
  cases packet <;> rfl

/-- A connection keeps the table a map. -/
theorem Mapped.connect {s : Server} (h : Mapped s) (peer : ENetPeer) {ptr : ℕ}
    (hfresh : ∀ node ∈ s.mClients, node.ptr ≠ ptr) : Mapped (onConnect s peer ptr) := by
  have hclients : (onConnect s peer ptr).mClients =
      ⟨calcEnetAddressHashCode peer.address, ptr, { mPeer := peer }⟩ ::
        s.mClients.filter fun node => node.hash != calcEnetAddressHashCode peer.address := by
    unfold onConnect
    dsimp only
    split
    · rfl
    · rename_i hnone
      have hall : ∀ node ∈ s.mClients,
          (node.hash != calcEnetAddressHashCode peer.address) = true := by
        intro node hnode
        rw [bne_iff_ne]
        intro he
        exact hnone (List.find?_isSome.mpr ⟨node, hnode, beq_iff_eq.mpr he⟩)
      rw [List.filter_eq_self.mpr hall]
  have hrest : Mapped { s with
      mClients := s.mClients.filter (fun node =>
        node.hash != calcEnetAddressHashCode peer.address) } := h.filter rfl
  constructor
  · rw [hclients, List.map_cons, List.nodup_cons]
    refine ⟨fun hmem => ?_, hrest.keys⟩
    obtain ⟨node, hnode, he⟩ := List.mem_map.mp hmem
    exact bne_iff_ne.mp (List.mem_filter.mp hnode).2 he
  · rw [hclients, List.map_cons, List.nodup_cons]
    refine ⟨fun hmem => ?_, hrest.ptrs⟩
    obtain ⟨node, hnode, he⟩ := List.mem_map.mp hmem
    exact hfresh node (List.mem_of_mem_filter hnode) he
  · intro node hnode
    rw [hclients] at hnode
    rcases List.mem_cons.mp hnode with rfl | hmem
    · rfl
    · exact hrest.hashed node hmem

/-- An event keeps the table a map. -/
theorem mapped_step (s : Server) (event : ENetEvent) (t : Server) (h : Mapped s)
    (halloc : Allocates s event) (hstep : serviceStep s event = some t) : Mapped t := by
  obtain ⟨⟨u, effects⟩, hservice, rfl⟩ := Option.map_eq_some_iff.mp hstep
  cases event with
  | connect peer ptr =>
    cases hservice
    exact h.connect peer halloc
  | receive peer packet now =>
    rcases onReceive_cases hservice with ⟨rfl, -⟩ | ⟨node, -, hhandled⟩
    · exact h
    · exact h.modify (assigned_mPeer packet) (handlePacket_table hhandled).1
  | disconnect peer =>
    simp only [exeService, onDisconnect] at hservice
    split at hservice
    · cases hservice
      exact h.filter rfl
    · cases hservice
      exact ⟨h.keys, h.ptrs, h.hashed⟩

/-- An empty table is a map. -/
theorem mapped_fresh (data : ServerSaveData) : Mapped (Server.fresh data) :=
  ⟨List.nodup_nil, List.nodup_nil, fun _ hnode => nomatch hnode⟩

/-- In every reachable state the table is a map. -/
theorem mapped_run {data : ServerSaveData} {events : List ENetEvent} {t : Server}
    (halloc : Along Allocates serviceStep (Server.fresh data) events)
    (hrun : run serviceStep (Server.fresh data) events = some t) : Mapped t :=
  run_invariant mapped_step (mapped_fresh data) halloc hrun

end BfMultiplayer.ClientMap

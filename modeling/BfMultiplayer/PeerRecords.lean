import BfMultiplayer.ClientTable
import BfMultiplayer.GuardedRuns

/-!
# One record for each connected peer

The client table is keyed by a hash of the address, the host xor the port, and
the event loop takes two addresses with one hash for the same client. It treats
each connected peer by its own record exactly as long as no peer connects with
the hash of a connected one.
-/

namespace BfMultiplayer.PeerRecords

open ByteBuffer Packets ServerState ServerHandlers EventLoopRules ClientTable GuardedRuns

/-- What the host and the allocator can produce from peers with different
addresses: a connection takes a free peer slot, an address that no connected
peer has and a free place; everything else comes from a connected peer. -/
def FromPeers (s : Server) : ENetEvent → Prop
  | .connect peer ptr =>
    (∀ other ∈ s.peers, other.slot ≠ peer.slot ∧ other.address ≠ peer.address) ∧
      ∀ node ∈ s.mClients, node.ptr ≠ ptr
  | .receive peer _ _ => peer ∈ s.peers
  | .disconnect peer => peer ∈ s.peers

instance (s : Server) : ∀ event, Decidable (FromPeers s event)
  | .connect _ _ => inferInstanceAs (Decidable (_ ∧ _))
  | .receive _ _ _ => inferInstanceAs (Decidable (_ ∈ _))
  | .disconnect _ => inferInstanceAs (Decidable (_ ∈ _))

/-- The table has, for each connected peer, a record made for that peer. -/
def RecordPerPeer (s : Server) : Prop :=
  ∀ peer ∈ s.peers, (s.find? (calcEnetAddressHashCode peer.address)).map
    (fun node => node.client.mPeer) = some peer

instance (s : Server) : Decidable (RecordPerPeer s) := List.decidableBAll _ _

/-- An event concerns the record of its own peer: a connection leaves what is
found for every connected peer, a packet is handled with the record of its
sender, a disconnection erases the record of its peer at most. -/
def OwnRecordOnly (s : Server) : ENetEvent → Prop
  | .connect peer ptr => ∀ other ∈ s.peers,
    (onConnect s peer ptr).find? (calcEnetAddressHashCode other.address) =
      s.find? (calcEnetAddressHashCode other.address)
  | .receive peer packet _ => ∀ node, Dispatched s peer packet node → node.client.mPeer = peer
  | .disconnect peer => ∀ node ∈ s.mClients, node ∉ (onDisconnect s peer).1.mClients →
    node.client.mPeer = peer

/-- What every step of a run should do. -/
def Respected (s : Server) (event : ENetEvent) : Prop := RecordPerPeer s ∧ OwnRecordOnly s event

/-- Peers with different addresses arise from different slots. -/
theorem FromPeers.arises {s : Server} {event : ENetEvent} (h : FromPeers s event) :
    Arises s event := by
  cases event with
  | connect peer ptr => exact ⟨fun other hother => (h.1 other hother).1, h.2⟩
  | receive peer packet now => exact h
  | disconnect peer => exact h

/-- The table under a well-behaved host has a record for each peer. -/
theorem recordPerPeer_of_tabled {s : Server} (h : Tabled s) : RecordPerPeer s := by
  intro peer hpeer
  obtain ⟨node, -, howns, hfind⟩ := h.find?_peer hpeer
  rw [hfind, Option.map_some, howns]

/-- The table has a new record under the hash of a peer that has connected. -/
theorem find?_onConnect (s : Server) (peer : ENetPeer) (ptr : ℕ) :
    (onConnect s peer ptr).find? (calcEnetAddressHashCode peer.address) =
      some ⟨calcEnetAddressHashCode peer.address, ptr, { mPeer := peer }⟩ := by
  unfold onConnect Server.find?
  exact List.find?_cons_of_pos (beq_self_eq_true _)

/-- While connected peers have different hashes, each event is respected. -/
theorem respected_of_tabled {s : Server} {event : ENetEvent} (h : Tabled s)
    (hpeers : FromPeers s event) (hapart : HashApart s event) : Respected s event := by
  refine ⟨recordPerPeer_of_tabled h, ?_⟩
  cases event with
  | connect peer ptr =>
    intro other hother
    have hne : (calcEnetAddressHashCode peer.address ==
        calcEnetAddressHashCode other.address) = false := by
      rw [beq_eq_false_iff_ne]
      exact (hapart other hother).symm
    rw [onConnect_table h hapart]
    exact List.find?_cons_of_neg (by rw [hne]; exact Bool.false_ne_true)
  | receive peer packet now =>
    intro node hdispatched
    obtain ⟨owner, -, howns, hfind⟩ := h.find?_peer hpeers
    have hsame := hdispatched.1
    rw [hfind, Option.some.injEq] at hsame
    rw [← hsame]
    exact howns
  | disconnect peer =>
    intro node hnode herased
    have htable := onDisconnect_table h hpeers
    dsimp only at htable
    rw [htable] at herased
    by_contra hne
    exact herased (List.mem_filter.mpr ⟨hnode, bne_iff_ne.mpr hne⟩)

/-- A connection that is respected has a hash of its own: otherwise a connected
peer would find the new record in place of its own. -/
theorem hashApart_of_respected {s : Server} {event : ENetEvent} (hpeers : FromPeers s event)
    (h : Respected s event) : HashApart s event := by
  cases event with
  | connect peer ptr =>
    intro other hother he
    have hbefore := h.1 other hother
    have hafter := h.2 other hother
    rw [he, find?_onConnect] at hafter
    rw [he, ← hafter, Option.map_some, Option.some.injEq] at hbefore
    exact (hpeers.1 other hother).1 (by rw [← hbefore])
  | receive peer packet now => trivial
  | disconnect peer => trivial

/-- In every run of the event loop with peers of different addresses, each
connected peer has its own record at all times, and every event concerns the
record of its own peer only, exactly when no peer connects with the hash of a
connected one. -/
theorem record_per_peer_iff (data : ServerSaveData) (events : List ENetEvent)
    (hpeers : Along FromPeers serviceStep (Server.fresh data) events) :
    (Along Respected serviceStep (Server.fresh data) events ∧
      ∀ s, run serviceStep (Server.fresh data) events = some s → RecordPerPeer s) ↔
      Along HashApart serviceStep (Server.fresh data) events := by
  have hkeep : ∀ s event t, Tabled s → FromPeers s event ∧ HashApart s event →
      serviceStep s event = some t → Tabled t := by
    intro s event t hs hguard hstep
    obtain ⟨⟨u, effects⟩, hserve, rfl⟩ := Option.map_eq_some_iff.mp hstep
    exact tabled_step hs hguard.1.arises hguard.2 hserve
  constructor
  · intro h
    exact along_mono (fun s event hboth => hashApart_of_respected hboth.1 hboth.2)
      (along_and hpeers h.1)
  · intro hapart
    have hguard := along_and hpeers hapart
    refine ⟨?_, fun s hrun => ?_⟩
    · exact along_of_invariant hkeep (fun s event hs hboth =>
        respected_of_tabled hs hboth.1 hboth.2) (tabled_fresh data) hguard
    · exact recordPerPeer_of_tabled (run_invariant hkeep (tabled_fresh data) hguard hrun)

/-- Two clients come, greet, and one of them goes. -/
theorem record_per_peer_two :
    Along Respected serviceStep (Server.fresh (.fresh (Buffer.zero sharedSaveCapacity)))
        [.connect (peerAt 1) 1, .connect (peerAt 2) 2, greetingOf 2, greetingOf 1,
          .disconnect (peerAt 1)] ∧
      ∀ s, run serviceStep (Server.fresh (.fresh (Buffer.zero sharedSaveCapacity)))
        [.connect (peerAt 1) 1, .connect (peerAt 2) 2, greetingOf 2, greetingOf 1,
          .disconnect (peerAt 1)] = some s → RecordPerPeer s :=
  (record_per_peer_iff (.fresh (Buffer.zero sharedSaveCapacity)) _ (by decide)).mpr (by decide)

/-- Host 1 at port 2 and host 2 at port 1 have one hash: when the second of them
connects, the first loses its record. -/
theorem swapped_address_takes_record :
    Along FromPeers serviceStep (Server.fresh (.fresh (Buffer.zero sharedSaveCapacity)))
        [.connect ⟨1, ⟨1, 2⟩⟩ 1, .connect ⟨2, ⟨2, 1⟩⟩ 2] ∧
      ∃ s, run serviceStep (Server.fresh (.fresh (Buffer.zero sharedSaveCapacity)))
          [.connect ⟨1, ⟨1, 2⟩⟩ 1, .connect ⟨2, ⟨2, 1⟩⟩ 2] = some s ∧ ¬RecordPerPeer s :=
  ⟨by decide, run_reaches (by decide)⟩

end BfMultiplayer.PeerRecords

import BfMultiplayer.ClientLinks

/-!
# The client table under a well-behaved host

While no two connected peers share an address hash, the table holds exactly one
record for each connected peer. Then an event acts on the table in the obvious
way: a connection adds an empty record, a packet assigns to the record of its
peer, a disconnection removes that record.
-/

namespace BfMultiplayer.ClientTable

open Packets ServerState ServerHandlers EventLoopRules SaveChunkRules ClientLinks

/-- Each connected peer has its own record, at its own hash and place. -/
structure Tabled (s : Server) : Prop extends Linked s where
  /-- No peer is connected twice. -/
  distinct : s.peers.Nodup
  /-- A record is kept under the hash of its peer. -/
  hashed : ∀ node ∈ s.mClients, node.hash = calcEnetAddressHashCode node.client.mPeer.address
  /-- Each connected peer has a record. -/
  hosted : ∀ peer ∈ s.peers, ∃ node ∈ s.mClients, node.client.mPeer = peer
  /-- Connected peers have different hashes. -/
  apart : ∀ p ∈ s.peers, ∀ q ∈ s.peers,
    calcEnetAddressHashCode p.address = calcEnetAddressHashCode q.address → p = q

/-- What the host and the allocator can produce: a connection takes a free peer
slot and a free place, everything else comes from a connected peer. -/
def Arises (s : Server) : ENetEvent → Prop
  | .connect peer ptr =>
    (∀ other ∈ s.peers, other.slot ≠ peer.slot) ∧ ∀ node ∈ s.mClients, node.ptr ≠ ptr
  | .receive peer _ _ => peer ∈ s.peers
  | .disconnect peer => peer ∈ s.peers

instance (s : Server) : ∀ event, Decidable (Arises s event)
  | .connect _ _ => inferInstanceAs (Decidable (_ ∧ _))
  | .receive _ _ _ => inferInstanceAs (Decidable (_ ∈ _))
  | .disconnect _ => inferInstanceAs (Decidable (_ ∈ _))

/-- A new peer's hash is not that of a connected one. -/
def HashApart (s : Server) : ENetEvent → Prop
  | .connect peer _ => ∀ other ∈ s.peers,
    calcEnetAddressHashCode other.address ≠ calcEnetAddressHashCode peer.address
  | _ => True

instance (s : Server) : ∀ event, Decidable (HashApart s event)
  | .connect _ _ => List.decidableBAll _ _
  | .receive _ _ _ => inferInstanceAs (Decidable True)
  | .disconnect _ => inferInstanceAs (Decidable True)

/-- What a packet assigns to the record of its sender. -/
def assigned : ServerBound → Client → Client
  | .hello packet, record =>
    { record with
      mIsGhost := packet.isGhost
      mHasGreeting := true
      mUid := packet.uid
      mName := packet.name }
  | .singleModeSceneEnter packet, record => { record with mPlayerType := packet.playerType }
  | .puppetPose data, record => { record with mTrans := data.trans }
  | _, record => record

/-- Whether a packet of a client passes the greeting check. -/
def admitted (packet : ServerBound) (mHasGreeting : Bool) : Bool :=
  match packet with
  | .hello _ => true
  | _ => mHasGreeting

/-- A record after a packet of some peer. -/
def received (peer : ENetPeer) (packet : ServerBound) (record : Client) : Client :=
  if record.mPeer = peer ∧ admitted packet record.mHasGreeting = true then assigned packet record
  else record

/-- A packet does not change whose record it is. -/
theorem received_mPeer (peer : ENetPeer) (packet : ServerBound) (record : Client) :
    (received peer packet record).mPeer = record.mPeer := by
  unfold received
  split
  · cases packet <;> rfl
  · rfl

/-- A handler assigns to the record of the sender and to no other. -/
theorem handlePacket_table {s t : Server} {node : ClientNode} {packet : ServerBound} {now : ℕ}
    {effects : List Effect} (h : handlePacket s node packet now = some (t, effects)) :
    t.mClients = (s.modify node.ptr (assigned packet)).mClients ∧ t.peers = s.peers := by
  -- most packets assign nothing
  have hid : ∀ {u : Server}, u.mClients = s.mClients → u.peers = s.peers →
      (∀ record, assigned packet record = record) →
      u.mClients = (s.modify node.ptr (assigned packet)).mClients ∧ u.peers = s.peers := by
    intro u hclients hpeers hnone
    refine ⟨?_, hpeers⟩
    have hsame : ∀ other : ClientNode, (if other.ptr = node.ptr then
        { other with client := assigned packet other.client } else other) = other := by
      intro other
      rw [hnone, ite_self]
    simp only [Server.modify, hsame, List.map_id', hclients]
  cases packet with
  | hello packet =>
    cases h
    exact ⟨rfl, rfl⟩
  | singleModeSceneEnter packet =>
    cases h
    exact ⟨rfl, rfl⟩
  | puppetPose data =>
    cases h
    exact ⟨rfl, rfl⟩
  | saveDataChunk packet =>
    obtain ⟨hclients, hpeers⟩ := handleSaveChunk_table h
    exact hid hclients hpeers fun _ => rfl
  | jumpFlip data =>
    simp only [handlePacket, handleJumpFlip, Option.some.injEq] at h
    split at h <;> cases h <;> exact hid rfl rfl fun _ => rfl
  | miscMapSync data =>
    simp only [handlePacket, handleMiscMapSync, Option.some.injEq] at h
    split at h
    · split at h <;> cases h <;> exact hid rfl rfl fun _ => rfl
    · cases h
      exact hid rfl rfl fun _ => rfl
    · cases h
      exact hid rfl rfl fun _ => rfl
  | _ =>
    cases h
    exact hid rfl rfl fun _ => rfl

/-- The record of a connected peer is found under its hash. -/
theorem Tabled.find?_peer {s : Server} (h : Tabled s) {peer : ENetPeer} (hpeer : peer ∈ s.peers) :
    ∃ node ∈ s.mClients, node.client.mPeer = peer ∧
      s.find? (calcEnetAddressHashCode peer.address) = some node := by
  obtain ⟨owner, howner, howns⟩ := h.hosted peer hpeer
  have hsome : (s.find? (calcEnetAddressHashCode peer.address)).isSome := by
    rw [Server.find?, List.find?_isSome]
    exact ⟨owner, howner, by rw [h.hashed owner howner, howns, beq_self_eq_true]⟩
  obtain ⟨node, hfind⟩ := Option.isSome_iff_exists.mp hsome
  obtain ⟨hnode, hhash⟩ := find?_mem hfind
  rw [h.hashed node hnode] at hhash
  exact ⟨node, hnode, h.apart _ (h.connected node hnode) peer hpeer hhash, hfind⟩

/-- A connection adds an empty record. -/
theorem onConnect_table {s : Server} (h : Tabled s) {peer : ENetPeer} {ptr : ℕ}
    (hapart : HashApart s (.connect peer ptr)) :
    onConnect s peer ptr = { s with
      peers := peer :: s.peers
      mClients := ⟨calcEnetAddressHashCode peer.address, ptr, { mPeer := peer }⟩ :: s.mClients } := by
  have hpeers : (s.peers.filter fun other => other != peer) = s.peers := by
    rw [List.filter_eq_self]
    intro other hother
    rw [bne_iff_ne]
    intro he
    exact hapart other hother (by rw [he])
  have hnone : s.mClients.find? (fun node => node.hash == calcEnetAddressHashCode peer.address) =
      none := by
    rw [List.find?_eq_none]
    intro node hnode
    rw [beq_iff_eq, h.hashed node hnode]
    exact hapart _ (h.connected node hnode)
  simp only [onConnect, Server.contains, Server.find?, hnone, Option.isSome_none,
    Bool.false_eq_true, if_false, hpeers]

/-- A packet assigns to the record of its peer. -/
theorem onReceive_table {s t : Server} (h : Tabled s) {peer : ENetPeer} {packet : ServerBound}
    {now : ℕ} {effects : List Effect} (hpeer : peer ∈ s.peers)
    (hreceive : onReceive s peer packet now = some (t, effects)) :
    t.mClients = s.mClients.map (fun node =>
      { node with client := received peer packet node.client }) ∧ t.peers = s.peers := by
  obtain ⟨node, hnode, howns, hfind⟩ := h.find?_peer hpeer
  have hother : ∀ other ∈ s.mClients, other.client.mPeer = peer → other = node :=
    fun other hmem he => h.eq_of_peer hmem hnode (he.trans howns.symm)
  have hdispatched : Dispatched s peer packet node ↔
      admitted packet node.client.mHasGreeting = true := by
    unfold Dispatched
    rw [and_iff_right hfind]
    cases packet with
    | hello packet => exact iff_of_true (Or.inr ⟨packet, rfl⟩) rfl
    | _ => exact or_iff_left fun he => he.elim fun _ h => by cases h
  by_cases hpasses : admitted packet node.client.mHasGreeting = true
  · rw [onReceive_of_dispatched (hdispatched.mpr hpasses)] at hreceive
    obtain ⟨hclients, hpeers⟩ := handlePacket_table hreceive
    refine ⟨?_, hpeers⟩
    rw [hclients, Server.modify]
    refine List.map_congr_left fun other hmem => ?_
    by_cases hptr : other.ptr = node.ptr
    · have he := h.eq_of_ptr hmem hnode hptr
      rw [if_pos hptr, received, he, if_pos ⟨howns, hpasses⟩]
    · have hne : other.client.mPeer ≠ peer := fun he => hptr (by rw [hother other hmem he])
      rw [if_neg hptr, received, if_neg fun hand => hne hand.1]
  · have hdrop : ∀ other, ¬Dispatched s peer packet other := by
      intro other hd
      have he : other = node := by
        have hfound := hd.1
        rw [hfind, Option.some.injEq] at hfound
        exact hfound.symm
      rw [he] at hd
      exact hpasses (hdispatched.mp hd)
    obtain ⟨_, hdropped, -⟩ := onReceive_of_not_dispatched hdrop now
    rw [hdropped] at hreceive
    cases hreceive
    refine ⟨?_, rfl⟩
    have hsame : ∀ other ∈ s.mClients,
        { other with client := received peer packet other.client } = other := by
      intro other hmem
      have hkeep : received peer packet other.client = other.client := by
        rw [received, if_neg]
        intro hand
        rw [hother other hmem hand.1] at hand
        exact hpasses hand.2
      rw [hkeep]
    rw [List.map_congr_left hsame, List.map_id']

/-- A disconnection removes the record of its peer and tells everybody else. -/
theorem onDisconnect_table {s : Server} (h : Tabled s) {peer : ENetPeer} (hpeer : peer ∈ s.peers) :
    let t := { s with
      peers := s.peers.filter fun other => other != peer
      mClients := s.mClients.filter fun node => node.client.mPeer != peer }
    onDisconnect s peer = (t, Server.sendPacketToAll (.playerList (makePlayerListPacket t))) := by
  obtain ⟨node, hnode, howns, hfind⟩ := h.find?_peer hpeer
  have hfilter : (s.mClients.filter fun node =>
      node.hash != calcEnetAddressHashCode peer.address) =
      s.mClients.filter fun node => node.client.mPeer != peer := by
    refine List.filter_congr fun other hmem => ?_
    rw [h.hashed other hmem]
    by_cases he : other.client.mPeer = peer
    · rw [he, bne_self_eq_false, bne_self_eq_false]
    · have hhash : calcEnetAddressHashCode other.client.mPeer.address ≠
          calcEnetAddressHashCode peer.address :=
        fun hh => he (h.apart _ (h.connected other hmem) peer hpeer hh)
      rw [bne_iff_ne.mpr he, bne_iff_ne.mpr hhash]
  have hcontains : (s.mClients.find? fun node =>
      node.hash == calcEnetAddressHashCode peer.address).isSome = true := by
    rw [show s.mClients.find? _ = some node from hfind]
    rfl
  simp only [onDisconnect, Server.contains, Server.find?, hcontains, if_true, Server.erase, hfilter]

/-- The table stays as it is under assignments to its records. -/
theorem Tabled.of_map {s t : Server} (h : Tabled s) {f : Client → Client}
    (hf : ∀ record, (f record).mPeer = record.mPeer) (hpeers : t.peers = s.peers)
    (hclients : t.mClients = s.mClients.map fun node => { node with client := f node.client }) :
    Tabled t := by
  have hmem : ∀ node ∈ t.mClients, ∃ old ∈ s.mClients, node.hash = old.hash ∧
      node.client.mPeer = old.client.mPeer := by
    intro node hnode
    rw [hclients] at hnode
    obtain ⟨old, hold, rfl⟩ := List.mem_map.mp hnode
    exact ⟨old, hold, rfl, hf old.client⟩
  refine ⟨⟨?_, ?_, ?_⟩, ?_, ?_, ?_, ?_⟩
  · rw [hclients, List.map_map]
    exact h.ptrs
  · have hcomp : (fun node : ClientNode => node.client.mPeer) ∘
        (fun node : ClientNode => { node with client := f node.client }) =
          fun node => node.client.mPeer :=
      funext fun node => hf node.client
    rw [hclients, List.map_map, hcomp]
    exact h.peers
  · intro node hnode
    obtain ⟨old, hold, -, hpeer⟩ := hmem node hnode
    rw [hpeers, hpeer]
    exact h.connected old hold
  · rw [hpeers]
    exact h.distinct
  · intro node hnode
    obtain ⟨old, hold, hhash, hpeer⟩ := hmem node hnode
    rw [hhash, hpeer]
    exact h.hashed old hold
  · intro peer hpeer
    rw [hpeers] at hpeer
    obtain ⟨old, hold, howns⟩ := h.hosted peer hpeer
    refine ⟨{ old with client := f old.client }, ?_, (hf old.client).trans howns⟩
    rw [hclients]
    exact List.mem_map_of_mem hold
  · rw [hpeers]
    exact h.apart

/-- A connection keeps the table. -/
theorem tabled_connect {s : Server} {peer : ENetPeer} {ptr : ℕ} (h : Tabled s)
    (hfresh : ∀ node ∈ s.mClients, node.ptr ≠ ptr) (hapart : HashApart s (.connect peer ptr)) :
    Tabled (onConnect s peer ptr) := by
  rw [onConnect_table h hapart]
  have hnew : ∀ node ∈ s.mClients, node.client.mPeer ≠ peer :=
    fun node hnode he => hapart peer (he ▸ h.connected node hnode) rfl
  refine ⟨⟨?_, ?_, ?_⟩, ?_, ?_, ?_, ?_⟩
  · refine List.nodup_cons.mpr ⟨fun hmem => ?_, h.ptrs⟩
    obtain ⟨node, hnode, hptr⟩ := List.mem_map.mp hmem
    exact hfresh node hnode hptr
  · refine List.nodup_cons.mpr ⟨fun hmem => ?_, h.peers⟩
    obtain ⟨node, hnode, he⟩ := List.mem_map.mp hmem
    exact hnew node hnode he
  · intro node hnode
    rcases List.mem_cons.mp hnode with rfl | hnode
    · exact List.mem_cons_self
    · exact List.mem_cons_of_mem _ (h.connected node hnode)
  · exact List.nodup_cons.mpr ⟨fun hmem => hapart peer hmem rfl, h.distinct⟩
  · intro node hnode
    rcases List.mem_cons.mp hnode with rfl | hnode
    · rfl
    · exact h.hashed node hnode
  · intro other hother
    rcases List.mem_cons.mp hother with rfl | hother
    · exact ⟨_, List.mem_cons_self, rfl⟩
    · obtain ⟨node, hnode, howns⟩ := h.hosted other hother
      exact ⟨node, List.mem_cons_of_mem _ hnode, howns⟩
  · intro p hp q hq he
    rcases List.mem_cons.mp hp with rfl | hold
    · rcases List.mem_cons.mp hq with rfl | hold'
      · rfl
      · exact absurd he.symm (hapart q hold')
    · rcases List.mem_cons.mp hq with rfl | hold'
      · exact absurd he (hapart p hold)
      · exact h.apart p hold q hold' he

/-- A disconnection keeps the table. -/
theorem tabled_disconnect {s : Server} {peer : ENetPeer} (h : Tabled s) (hpeer : peer ∈ s.peers) :
    Tabled (onDisconnect s peer).1 := by
  have htable := onDisconnect_table h hpeer
  dsimp only at htable
  rw [htable]
  refine ⟨⟨?_, ?_, ?_⟩, ?_, ?_, ?_, ?_⟩
  · exact h.ptrs.sublist (List.filter_sublist.map _)
  · exact h.peers.sublist (List.filter_sublist.map _)
  · intro node hnode
    obtain ⟨hmem, hne⟩ := List.mem_filter.mp hnode
    exact List.mem_filter.mpr ⟨h.connected node hmem, hne⟩
  · exact h.distinct.filter _
  · intro node hnode
    exact h.hashed node (List.mem_of_mem_filter hnode)
  · intro other hother
    obtain ⟨hmem, hne⟩ := List.mem_filter.mp hother
    obtain ⟨node, hnode, howns⟩ := h.hosted other hmem
    refine ⟨node, List.mem_filter.mpr ⟨hnode, ?_⟩, howns⟩
    rw [howns]
    exact hne
  · intro p hp q hq
    exact h.apart p (List.mem_of_mem_filter hp) q (List.mem_of_mem_filter hq)

/-- An event keeps the table. -/
theorem tabled_step {s t : Server} {event : ENetEvent} {effects : List Effect} (h : Tabled s)
    (harises : Arises s event) (hapart : HashApart s event)
    (hserve : exeService s event = some (t, effects)) : Tabled t := by
  cases event with
  | connect peer ptr =>
    cases hserve
    exact tabled_connect h harises.2 hapart
  | receive peer packet now =>
    obtain ⟨hclients, hpeers⟩ := onReceive_table h harises hserve
    exact h.of_map (received_mPeer peer packet) hpeers hclients
  | disconnect peer =>
    have he : onDisconnect s peer = (t, effects) := Option.some.inj hserve
    have htabled := tabled_disconnect h harises
    rw [he] at htabled
    exact htabled

/-- The connected peers are those with a record. -/
theorem Tabled.peers_perm {s : Server} (h : Tabled s) :
    s.peers.Perm (s.mClients.map fun node => node.client.mPeer) := by
  refine (List.perm_ext_iff_of_nodup h.distinct h.peers).mpr fun peer => ?_
  rw [List.mem_map]
  constructor
  · exact h.hosted peer
  · intro hmem
    obtain ⟨node, hnode, howns⟩ := hmem
    rw [← howns]
    exact h.connected node hnode

/-- A server nobody has connected to. -/
theorem tabled_fresh (data : ServerSaveData) : Tabled (Server.fresh data) :=
  ⟨⟨List.nodup_nil, List.nodup_nil, fun _ h => absurd h List.not_mem_nil⟩, List.nodup_nil,
    fun _ h => absurd h List.not_mem_nil, fun _ h => absurd h List.not_mem_nil,
    fun _ h => absurd h List.not_mem_nil⟩

end BfMultiplayer.ClientTable

import BfMultiplayer.ClientTable
import BfMultiplayer.GuardedRuns

/-!
# Agreement on the roster and the host

Each client takes the player list it was sent last, and it is the host when it
is the last player of that list. The service thread sends the list when the
table changes, but a scene-enter thread builds a list at one moment and sends
it at another: when that list is stale and nothing is sent after it, the
clients keep players that are gone, and possibly none of them is the host. As
long as the last list of all is current, the roster is that of the server and
there is exactly one host whenever everything has been delivered.
-/

namespace BfMultiplayer.Roster

open ByteBuffer Packets ServerState ServerHandlers EventLoopRules Mailbox ClientLinks ClientTable
  GuardedRuns

/-- `PlayerData`, as far as the list sets it. -/
structure PlayerData where
  /-- The entry it was made from. -/
  mListData : PlayerListDataEntry
  /-- Whether this player is the host. -/
  mIsHostClient : Bool

/-- `MultiplayerManager`, as far as the list sets it. -/
structure MultiplayerManager where
  /-- `util::getCurrentUserUid`, the user of this client. -/
  uid : Uid
  /-- The players of the last list. -/
  mPlayers : List PlayerData
  /-- Which of them the pointer is to; a list without an own entry leaves it. -/
  mLocalPlayer : Option ℕ

/-- One round of the loop over a list of a given size. -/
def emplacePlayer (size : ℕ) (mgr : MultiplayerManager) (item : PlayerListDataEntry × ℕ) :
    MultiplayerManager :=
  { mgr with
    mPlayers := mgr.mPlayers ++ [⟨item.1, item.2 + 1 == size⟩]
    mLocalPlayer := if item.1.user = mgr.uid then some item.2 else mgr.mLocalPlayer }

/-- `handlePlayerListPacket`. -/
def handlePlayerListPacket (mgr : MultiplayerManager) (packet : List PlayerListDataEntry) :
    MultiplayerManager :=
  packet.zipIdx.foldl (emplacePlayer packet.length) { mgr with mPlayers := [] }

/-- The host flag of the client's own player. -/
def MultiplayerManager.isHost (mgr : MultiplayerManager) : Bool :=
  match mgr.mLocalPlayer with
  | some i => (mgr.mPlayers[i]?).any PlayerData.mIsHostClient
  | none => false

/-- The users of the last list. -/
def MultiplayerManager.users (mgr : MultiplayerManager) : List Uid :=
  mgr.mPlayers.map fun player => player.mListData.user

/-- The player list a packet carries. -/
def playerList? : ClientBound → Option (List PlayerListDataEntry)
  | .playerList entries => some entries
  | _ => none

/-- The server, the clients behind their peers, and the scene-enter threads with
the lists they have built. -/
structure RosterSystem where
  /-- The server. -/
  server : Server
  /-- The client behind each peer, and the lists in flight to it. -/
  links : ENetPeer → Receiver MultiplayerManager (List PlayerListDataEntry)
  /-- The threads that have not sent their list. -/
  threads : List (Option (List PlayerListDataEntry))

/-- A step of the system. -/
inductive RosterAction where
  /-- A client connects, in whatever state it is. -/
  | connect (peer : ENetPeer) (ptr : ℕ) (mgr : MultiplayerManager)
  /-- The server handles a client's greeting. -/
  | hello (peer : ENetPeer) (name : Nickname) (now : ℕ)
  /-- The server takes a client's scene entry and starts its thread. -/
  | enterScene (peer : ENetPeer) (playerType : UInt8)
  /-- A client disconnects. -/
  | disconnect (peer : ENetPeer)
  /-- A thread builds its list. -/
  | buildList (k : ℕ)
  /-- A thread sends its list. -/
  | sendList (k : ℕ)
  /-- A client handles the oldest list in flight to it. -/
  | deliver (peer : ENetPeer)

/-- Append the lists that some effects send to each peer. -/
def postLists (s : Server)
    (links : ENetPeer → Receiver MultiplayerManager (List PlayerListDataEntry))
    (effects : List Effect) (peer : ENetPeer) :
    Receiver MultiplayerManager (List PlayerListDataEntry) :=
  (links peer).post ((sentTo s peer effects).filterMap playerList?)

/-- The threads that some effects start. -/
def sceneThreads (effects : List Effect) : List (Option (List PlayerListDataEntry)) :=
  effects.filterMap fun
    | .spawnSceneEnter _ => some none
    | _ => none

/-- The service thread takes an event of the host. -/
def serve (sys : RosterSystem) (event : ENetEvent) : Option RosterSystem :=
  if Arises sys.server event then
    (exeService sys.server event).map fun result =>
      ⟨result.1, postLists result.1 sys.links result.2, sys.threads ++ sceneThreads result.2⟩
  else none

/-- The step function. -/
def rosterStep (sys : RosterSystem) : RosterAction → Option RosterSystem
  | .connect peer ptr mgr => (serve sys (.connect peer ptr)).map fun sys =>
      { sys with links := Function.update sys.links peer ⟨mgr, []⟩ }
  | .hello peer name now =>
    serve sys (.receive peer (.hello ⟨(sys.links peer).state.uid, name, false⟩) now)
  | .enterScene peer playerType => serve sys (.receive peer (.singleModeSceneEnter ⟨playerType⟩) 0)
  | .disconnect peer => serve sys (.disconnect peer)
  | .buildList k =>
    match sys.threads[k]? with
    | some none => some { sys with
        threads := sys.threads.set k (some (sceneEnterList sys.server)) }
    | _ => none
  | .sendList k =>
    match sys.threads[k]? with
    | some (some entries) => some { sys with
        links := postLists sys.server sys.links (Server.sendPacketToAll (.playerList entries))
        threads := sys.threads.eraseIdx k }
    | _ => none
  | .deliver peer => ((sys.links peer).deliver handlePlayerListPacket).map fun receiver =>
      { sys with links := Function.update sys.links peer receiver }

/-- A server nobody has connected to. -/
def RosterSystem.start (data : ServerSaveData) : RosterSystem :=
  ⟨Server.fresh data, fun _ => ⟨⟨Uid.zero, [], none⟩, []⟩, []⟩

/-- Every client of the server has greeted. -/
def AllGreeted (s : Server) : Prop := ∀ node ∈ s.mClients, node.client.mHasGreeting = true

instance (s : Server) : Decidable (AllGreeted s) := List.decidableBAll _ _

/-- The users of the current clients of the server. -/
def currentUsers (s : Server) : List Uid := s.mClients.map fun node => node.client.mUid

/-- Every client has greeted, nothing is in flight and no thread is running. -/
def RosterSystem.Quiet (sys : RosterSystem) : Prop :=
  AllGreeted sys.server ∧ (∀ peer ∈ sys.server.peers, (sys.links peer).queue.isEmpty = true) ∧
    sys.threads.isEmpty = true

instance (sys : RosterSystem) : Decidable sys.Quiet := inferInstanceAs (Decidable (_ ∧ _))

/-- The connected clients that are the host. -/
def RosterSystem.hosts (sys : RosterSystem) : List ENetPeer :=
  sys.server.peers.filter fun peer => (sys.links peer).state.isHost

/-- Every connected client lists exactly the current clients of the server, and
one of them is the host. -/
def RosterSystem.Agree (sys : RosterSystem) : Prop :=
  (∀ peer ∈ sys.server.peers, (sys.links peer).state.users.Perm (currentUsers sys.server)) ∧
    (sys.server.peers ≠ [] → sys.hosts.length = 1)

instance (sys : RosterSystem) : Decidable sys.Agree := inferInstanceAs (Decidable (_ ∧ _))

/-- A client greets with another user than the clients that have greeted. -/
def DistinctUsers (sys : RosterSystem) : RosterAction → Prop
  | .hello peer _ _ => ∀ node ∈ sys.server.mClients, node.client.mHasGreeting = true →
    node.client.mPeer ≠ peer → node.client.mUid ≠ (sys.links peer).state.uid
  | _ => True

instance (sys : RosterSystem) : ∀ action, Decidable (DistinctUsers sys action)
  | .hello _ _ _ => List.decidableBAll _ _
  | .connect _ _ _ => inferInstanceAs (Decidable True)
  | .enterScene _ _ => inferInstanceAs (Decidable True)
  | .disconnect _ => inferInstanceAs (Decidable True)
  | .buildList _ => inferInstanceAs (Decidable True)
  | .sendList _ => inferInstanceAs (Decidable True)
  | .deliver _ => inferInstanceAs (Decidable True)

/-- The condition on a step: no new peer has the address hash of a connected
one, and a thread that sends the last list of all, with no other thread to send
one and no greeting to come, sends one of the current clients. -/
def ListsCurrent (sys : RosterSystem) : RosterAction → Prop
  | .connect peer ptr _ => HashApart sys.server (.connect peer ptr)
  | .sendList k => ∀ entries ∈ (sys.threads[k]?).join, (sys.threads.eraseIdx k).isEmpty = true →
    AllGreeted sys.server →
    (entries.map PlayerListDataEntry.user).Perm (currentUsers sys.server)
  | _ => True

instance (sys : RosterSystem) : ∀ action, Decidable (ListsCurrent sys action)
  | .sendList _ => Option.decidableForallMem _
  | .connect peer ptr _ => inferInstanceAs (Decidable (HashApart sys.server (.connect peer ptr)))
  | .hello _ _ _ => inferInstanceAs (Decidable True)
  | .enterScene _ _ => inferInstanceAs (Decidable True)
  | .disconnect _ => inferInstanceAs (Decidable True)
  | .buildList _ => inferInstanceAs (Decidable True)
  | .deliver _ => inferInstanceAs (Decidable True)

/-- The loop appends a player for every entry. -/
theorem foldl_emplacePlayer_players (size : ℕ) (entries : List PlayerListDataEntry)
    (mgr : MultiplayerManager) :
    (entries.zipIdx.foldl (emplacePlayer size) mgr).mPlayers =
      mgr.mPlayers ++ entries.zipIdx.map fun item => ⟨item.1, item.2 + 1 == size⟩ := by
  induction entries using List.reverseRecOn with
  | nil => exact (List.append_nil _).symm
  | append_singleton entries entry ih =>
    rw [List.zipIdx_append, List.foldl_append, List.map_append, ← List.append_assoc, ← ih]
    rfl

/-- The user stays. -/
theorem foldl_emplacePlayer_uid (size : ℕ) (items : List (PlayerListDataEntry × ℕ))
    (mgr : MultiplayerManager) : (items.foldl (emplacePlayer size) mgr).uid = mgr.uid := by
  induction items generalizing mgr with
  | nil => rfl
  | cons item items ih => exact ih _

/-- The local player is one of the list when the list has an own entry. -/
theorem foldl_emplacePlayer_local (size : ℕ) (mgr : MultiplayerManager)
    {entries : List PlayerListDataEntry} (hown : mgr.uid ∈ entries.map PlayerListDataEntry.user) :
    ∃ i, i < entries.length ∧
      (entries.zipIdx.foldl (emplacePlayer size) mgr).mLocalPlayer = some i := by
  induction entries using List.reverseRecOn with
  | nil => exact absurd hown List.not_mem_nil
  | append_singleton entries entry ih =>
    have huid := foldl_emplacePlayer_uid size entries.zipIdx mgr
    rw [List.zipIdx_append, List.foldl_append, List.length_append]
    simp only [List.zipIdx_cons, List.zipIdx_nil, List.foldl_cons, List.foldl_nil, emplacePlayer,
      huid, Nat.zero_add, List.length_cons, List.length_nil]
    by_cases hlast : entry.user = mgr.uid
    · exact ⟨entries.length, by omega, if_pos hlast⟩
    · rw [List.map_append, List.mem_append] at hown
      have hbefore : mgr.uid ∈ entries.map PlayerListDataEntry.user := by
        rcases hown with hown | hown
        · exact hown
        · exact absurd (List.mem_singleton.mp hown).symm hlast
      obtain ⟨i, hi, hlocal⟩ := ih hbefore
      exact ⟨i, by omega, by rw [if_neg hlast]; exact hlocal⟩

/-- The last player of a list is flagged as the host. -/
theorem isHostClient_handle (mgr : MultiplayerManager) (packet : List PlayerListDataEntry) {i : ℕ}
    (hi : i < packet.length) :
    ((handlePlayerListPacket mgr packet).mPlayers[i]?).any PlayerData.mIsHostClient =
      (i + 1 == packet.length) := by
  have hplayers := foldl_emplacePlayer_players packet.length packet { mgr with mPlayers := [] }
  rw [handlePlayerListPacket, hplayers, List.nil_append, List.getElem?_map,
    List.getElem?_eq_getElem (by rw [List.length_zipIdx]; exact hi), List.getElem_zipIdx]
  simp only [Option.map_some, Option.any_some, Nat.zero_add]

/-- The local player is the last of a list when that is its user, otherwise it is
one of the players before. -/
theorem localPlayer_handle (mgr : MultiplayerManager) (init : List PlayerListDataEntry)
    (last : PlayerListDataEntry) :
    (handlePlayerListPacket mgr (init ++ [last])).mLocalPlayer =
      if last.user = mgr.uid then some init.length
      else (init.zipIdx.foldl (emplacePlayer (init ++ [last]).length)
        { mgr with mPlayers := [] }).mLocalPlayer := by
  have huid := foldl_emplacePlayer_uid (init ++ [last]).length init.zipIdx
    { mgr with mPlayers := [] }
  rw [handlePlayerListPacket, List.zipIdx_append, List.foldl_append]
  simp only [List.zipIdx_cons, List.zipIdx_nil, List.foldl_cons, List.foldl_nil, emplacePlayer,
    huid, Nat.zero_add]

/-- After a list with an own entry, a client is the host exactly when its user
is the last of the list. -/
theorem isHost_handle {mgr : MultiplayerManager} {packet : List PlayerListDataEntry}
    (hown : mgr.uid ∈ packet.map PlayerListDataEntry.user) :
    (handlePlayerListPacket mgr packet).isHost = true ↔
      (packet.map PlayerListDataEntry.user).getLast? = some mgr.uid := by
  rcases List.eq_nil_or_concat packet with hnil | ⟨init, last, hpacket⟩
  · rw [hnil] at hown
    exact absurd hown List.not_mem_nil
  · rw [List.concat_eq_append] at hpacket
    subst hpacket
    have hlength : (init ++ [last]).length = init.length + 1 := by
      rw [List.length_append, List.length_singleton]
    have hlast : ((init ++ [last]).map PlayerListDataEntry.user).getLast? = some last.user := by
      rw [List.map_append, List.map_singleton, List.getLast?_concat]
    rw [hlast, Option.some.injEq, MultiplayerManager.isHost, localPlayer_handle]
    by_cases hlocal : last.user = mgr.uid
    · rw [if_pos hlocal]
      dsimp only
      rw [isHostClient_handle mgr _ (by omega), hlength, beq_self_eq_true]
      exact iff_of_true rfl hlocal
    · have hbefore : mgr.uid ∈ init.map PlayerListDataEntry.user := by
        rw [List.map_append, List.mem_append] at hown
        rcases hown with hown | hown
        · exact hown
        · exact absurd (List.mem_singleton.mp hown).symm hlocal
      obtain ⟨i, hi, hat⟩ := foldl_emplacePlayer_local (init ++ [last]).length
        { mgr with mPlayers := [] } hbefore
      rw [if_neg hlocal, hat]
      dsimp only
      rw [isHostClient_handle mgr _ (by omega)]
      refine iff_of_false ?_ hlocal
      rw [beq_iff_eq]
      omega

/-- A list replaces the players. -/
theorem users_handle (mgr : MultiplayerManager) (packet : List PlayerListDataEntry) :
    (handlePlayerListPacket mgr packet).users = packet.map PlayerListDataEntry.user := by
  have hfst : packet.zipIdx.map (fun item => item.1.user) =
      packet.map PlayerListDataEntry.user := by
    conv_rhs => rw [← List.zipIdx_map_fst 0 packet, List.map_map]
    rfl
  rw [MultiplayerManager.users, handlePlayerListPacket, foldl_emplacePlayer_players,
    List.nil_append, List.map_map, ← hfst]
  rfl

/-- A list leaves the user. -/
theorem uid_handle (mgr : MultiplayerManager) (packet : List PlayerListDataEntry) :
    (handlePlayerListPacket mgr packet).uid = mgr.uid :=
  foldl_emplacePlayer_uid packet.length packet.zipIdx _

/-- Without ghosts the list names the current users. -/
theorem users_makePlayerListPacket {s : Server}
    (hghost : ∀ node ∈ s.mClients, node.client.mIsGhost = false) (newClient : Option ℕ) :
    (makePlayerListPacket s newClient).map PlayerListDataEntry.user = currentUsers s := by
  have hall : (s.mClients.filter fun node => !node.client.mIsGhost) = s.mClients := by
    rw [List.filter_eq_self]
    intro node hnode
    rw [hghost node hnode]
    rfl
  rw [makePlayerListPacket, hall, List.map_map]
  rfl

/-- A broadcast list reaches every connected peer. -/
theorem postLists_broadcast {s : Server} {peer : ENetPeer} (hpeer : peer ∈ s.peers)
    (links : ENetPeer → Receiver MultiplayerManager (List PlayerListDataEntry))
    (entries : List PlayerListDataEntry) :
    postLists s links (Server.sendPacketToAll (.playerList entries)) peer =
      (links peer).post [entries] := by
  simp only [postLists, sentTo, Server.sendPacketToAll, List.filterMap_cons, List.filterMap_nil,
    if_pos hpeer, playerList?]

/-- Every connected client will have handled one common list last, which names
the current users. -/
def Heard (sys : RosterSystem) : Prop :=
  ∃ entries : List PlayerListDataEntry,
    (entries.map PlayerListDataEntry.user).Perm (currentUsers sys.server) ∧
    ∀ peer ∈ sys.server.peers, ∃ mgr,
      (sys.links peer).settled handlePlayerListPacket = handlePlayerListPacket mgr entries

/-- A list of the current users that everybody is sent is heard. -/
theorem heard_of_post (sys : RosterSystem) {sys' : RosterSystem}
    {entries : List PlayerListDataEntry}
    (hentries : (entries.map PlayerListDataEntry.user).Perm (currentUsers sys'.server))
    (hpost : ∀ peer ∈ sys'.server.peers, sys'.links peer = (sys.links peer).post [entries]) :
    Heard sys' := by
  refine ⟨entries, hentries, fun peer hpeer => ?_⟩
  rw [hpost peer hpeer, settled_post]
  exact ⟨_, rfl⟩

/-- What holds between two steps. -/
structure RosterInv (sys : RosterSystem) : Prop where
  /-- Each connected peer has its record. -/
  tabled : Tabled sys.server
  /-- No client is a ghost. -/
  noGhosts : ∀ node ∈ sys.server.mClients, node.client.mIsGhost = false
  /-- A client that has greeted is known under its own user. -/
  greeted : ∀ node ∈ sys.server.mClients, node.client.mHasGreeting = true →
    node.client.mUid = (sys.links node.client.mPeer).state.uid
  /-- Different clients have greeted with different users. -/
  distinct : ∀ node ∈ sys.server.mClients, ∀ other ∈ sys.server.mClients,
    node.client.mHasGreeting = true → other.client.mHasGreeting = true →
    node.client.mUid = other.client.mUid → node.client.mPeer = other.client.mPeer
  /-- When no list is to come, everybody has been sent the current one. -/
  heard : AllGreeted sys.server → sys.threads = [] → Heard sys

/-- What a step of the service thread is. -/
theorem serve_eq {sys sys' : RosterSystem} {event : ENetEvent} (h : serve sys event = some sys') :
    Arises sys.server event ∧ ∃ t effects, exeService sys.server event = some (t, effects) ∧
      sys' = ⟨t, postLists t sys.links effects, sys.threads ++ sceneThreads effects⟩ := by
  unfold serve at h
  split at h
  · rename_i harises
    obtain ⟨⟨t, effects⟩, hserve, he⟩ := Option.map_eq_some_iff.mp h
    exact ⟨harises, t, effects, hserve, he.symm⟩
  · cases h

/-- A connection keeps the invariant: the new client has not greeted. -/
theorem rosterInv_connect {sys sys' : RosterSystem} {peer : ENetPeer} {ptr : ℕ}
    {mgr : MultiplayerManager} (hinv : RosterInv sys)
    (hguard : HashApart sys.server (.connect peer ptr))
    (hstep : rosterStep sys (.connect peer ptr mgr) = some sys') : RosterInv sys' := by
  obtain ⟨served, hserved, rfl⟩ := Option.map_eq_some_iff.mp hstep
  obtain ⟨harises, t, effects, hserve, rfl⟩ := serve_eq hserved
  have htabled := tabled_step hinv.tabled harises hguard hserve
  cases hserve
  have htable := onConnect_table hinv.tabled hguard
  have hold : ∀ node ∈ sys.server.mClients, node.client.mPeer ≠ peer :=
    fun node hnode he => hguard peer (he ▸ hinv.tabled.connected node hnode) rfl
  have hmem : ∀ node, node ∈ (onConnect sys.server peer ptr).mClients →
      node.client = { mPeer := peer } ∨ node ∈ sys.server.mClients := by
    intro node hnode
    rw [htable] at hnode
    rcases List.mem_cons.mp hnode with rfl | hnode
    · exact Or.inl rfl
    · exact Or.inr hnode
  refine ⟨htabled, fun node hnode => ?_, fun node hnode hgreet => ?_,
    fun node hnode other hother hgreet hgreet' huser => ?_, fun hall => ?_⟩
  · rcases hmem node hnode with hnew | hnode
    · rw [hnew]
    · exact hinv.noGhosts node hnode
  · rcases hmem node hnode with hnew | hnode
    · rw [hnew] at hgreet
      cases hgreet
    · dsimp only
      rw [Function.update_of_ne (hold node hnode)]
      exact hinv.greeted node hnode hgreet
  · rcases hmem node hnode with hnew | hnode
    · rw [hnew] at hgreet
      cases hgreet
    · rcases hmem other hother with hnew | hother
      · rw [hnew] at hgreet'
        cases hgreet'
      · exact hinv.distinct node hnode other hother hgreet hgreet' huser
  · have hnew : (⟨calcEnetAddressHashCode peer.address, ptr, { mPeer := peer }⟩ : ClientNode) ∈
        (onConnect sys.server peer ptr).mClients := by
      rw [htable]
      exact List.mem_cons_self
    exact absurd (hall _ hnew) Bool.false_ne_true

/-- A greeting is handled, and everybody is sent the list with it. -/
theorem onReceive_hello {s : Server} (h : Tabled s) {peer : ENetPeer} (hpeer : peer ∈ s.peers)
    (packet : ToS_Hello) (now : ℕ) :
    ∃ t newClient, onReceive s peer (.hello packet) now = some (t,
      Server.sendPacketToAll (.playerList (makePlayerListPacket t newClient)) ++
        Server.sendPacketToAll (.syncClockUpdate (now / 1000)) ++
        newClient.toList.map Effect.spawnUpload) := by
  obtain ⟨node, -, -, hfind⟩ := h.find?_peer hpeer
  refine ⟨(handleGreet s node packet now).1, some node.ptr, ?_⟩
  simp only [onReceive, hfind]
  rfl

/-- A greeting assigns the record of its peer, the others stay. -/
theorem hello_records {s t : Server} {peer : ENetPeer} {packet : ToS_Hello}
    (hclients : t.mClients =
      s.mClients.map fun node => { node with client := received peer (.hello packet) node.client }) :
    ∀ node ∈ t.mClients, ∃ old ∈ s.mClients, node.client.mPeer = old.client.mPeer ∧
      ((old.client.mPeer = peer ∧ node.client.mUid = packet.uid ∧
          node.client.mIsGhost = packet.isGhost) ∨
        (old.client.mPeer ≠ peer ∧ node.client = old.client)) := by
  intro node hnode
  rw [hclients] at hnode
  obtain ⟨old, hold, rfl⟩ := List.mem_map.mp hnode
  refine ⟨old, hold, received_mPeer peer _ old.client, ?_⟩
  simp only [received, admitted, and_true]
  by_cases hpeer : old.client.mPeer = peer
  · rw [if_pos hpeer]
    exact Or.inl ⟨hpeer, rfl, rfl⟩
  · rw [if_neg hpeer]
    exact Or.inr ⟨hpeer, rfl⟩

/-- A greeting keeps the invariant. -/
theorem rosterInv_hello {sys sys' : RosterSystem} {peer : ENetPeer} {name : Nickname} {now : ℕ}
    (hinv : RosterInv sys) (hdistinct : DistinctUsers sys (.hello peer name now))
    (hstep : rosterStep sys (.hello peer name now) = some sys') : RosterInv sys' := by
  obtain ⟨harises, t, effects, hserve, rfl⟩ := serve_eq hstep
  have htabled := tabled_step hinv.tabled harises trivial hserve
  have hreceive : onReceive sys.server peer (.hello ⟨(sys.links peer).state.uid, name, false⟩) now =
      some (t, effects) := hserve
  obtain ⟨hclients, hpeers⟩ := onReceive_table hinv.tabled harises hreceive
  obtain ⟨t', newClient, hhello⟩ := onReceive_hello hinv.tabled harises
    ⟨(sys.links peer).state.uid, name, false⟩ now
  rw [hhello, Option.some.injEq, Prod.mk.injEq] at hreceive
  obtain ⟨rfl, heffects⟩ := hreceive
  have hmem := hello_records hclients
  have hghosts : ∀ node ∈ t'.mClients, node.client.mIsGhost = false := by
    intro node hnode
    obtain ⟨old, hold, -, hassigned | hsame⟩ := hmem node hnode
    · exact hassigned.2.2
    · rw [hsame.2]
      exact hinv.noGhosts old hold
  refine ⟨htabled, hghosts, fun node hnode hgreet => ?_,
    fun node hnode other hother hgreet hgreet' huser => ?_, fun _ _ => ?_⟩
  · change node.client.mUid = (sys.links node.client.mPeer).state.uid
    obtain ⟨old, hold, howner, hassigned | hsame⟩ := hmem node hnode
    · rw [howner, hassigned.1]
      exact hassigned.2.1
    · rw [hsame.2] at hgreet ⊢
      exact hinv.greeted old hold hgreet
  · obtain ⟨old, hold, howner, hassigned | hsame⟩ := hmem node hnode
    · obtain ⟨old', hold', howner', hassigned' | hsame'⟩ := hmem other hother
      · rw [howner, howner', hassigned.1, hassigned'.1]
      · rw [hassigned.2.1, hsame'.2] at huser
        rw [hsame'.2] at hgreet'
        exact absurd huser.symm (hdistinct old' hold' hgreet' hsame'.1)
    · obtain ⟨old', hold', howner', hassigned' | hsame'⟩ := hmem other hother
      · rw [hassigned'.2.1, hsame.2] at huser
        rw [hsame.2] at hgreet
        exact absurd huser (hdistinct old hold hgreet hsame.1)
      · rw [hsame.2] at hgreet huser ⊢
        rw [hsame'.2] at hgreet' huser ⊢
        exact hinv.distinct old hold old' hold' hgreet hgreet' huser
  · have hlist := users_makePlayerListPacket hghosts newClient
    have hperm : ((makePlayerListPacket t' newClient).map PlayerListDataEntry.user).Perm
        (currentUsers t') := by
      rw [hlist]
    refine heard_of_post sys hperm fun p hp => ?_
    have hp' : p ∈ t'.peers := hp
    rw [← heffects]
    cases newClient <;>
      simp only [postLists, sentTo, Server.sendPacketToAll, List.cons_append, List.nil_append,
        List.filterMap_cons, List.filterMap_nil, if_pos hp', playerList?,
        Option.toList_none, Option.toList_some, List.map_cons, List.map_nil]

/-- A scene entry starts a thread, unless the client has not greeted. -/
theorem onReceive_sceneEnter {s t : Server} (h : Tabled s) {peer : ENetPeer}
    (hpeer : peer ∈ s.peers) {packet : ToS_SingleModeSceneEnter} {now : ℕ} {effects : List Effect}
    (hreceive : onReceive s peer (.singleModeSceneEnter packet) now = some (t, effects)) :
    (∃ ptr, effects = [.spawnSceneEnter ptr]) ∨
      ∃ node ∈ s.mClients, node.client.mPeer = peer ∧ node.client.mHasGreeting = false := by
  obtain ⟨node, hnode, howns, hfind⟩ := h.find?_peer hpeer
  simp only [onReceive, hfind] at hreceive
  cases hgreet : node.client.mHasGreeting with
  | true =>
    rw [hgreet, if_pos rfl] at hreceive
    cases hreceive
    exact Or.inl ⟨node.ptr, rfl⟩
  | false => exact Or.inr ⟨node, hnode, howns, hgreet⟩

/-- A scene entry keeps the invariant: the thread it starts is going to send a
list. -/
theorem rosterInv_enterScene {sys sys' : RosterSystem} {peer : ENetPeer} {playerType : UInt8}
    (hinv : RosterInv sys) (hstep : rosterStep sys (.enterScene peer playerType) = some sys') :
    RosterInv sys' := by
  obtain ⟨harises, t, effects, hserve, rfl⟩ := serve_eq hstep
  have htabled := tabled_step hinv.tabled harises trivial hserve
  have hreceive : onReceive sys.server peer (.singleModeSceneEnter ⟨playerType⟩) 0 =
      some (t, effects) := hserve
  obtain ⟨hclients, -⟩ := onReceive_table hinv.tabled harises hreceive
  -- the player type is all that changes in a record
  have hmem : ∀ node ∈ t.mClients, ∃ old ∈ sys.server.mClients,
      node.client.mPeer = old.client.mPeer ∧ node.client.mHasGreeting = old.client.mHasGreeting ∧
      node.client.mUid = old.client.mUid ∧ node.client.mIsGhost = old.client.mIsGhost := by
    intro node hnode
    rw [hclients] at hnode
    obtain ⟨old, hold, rfl⟩ := List.mem_map.mp hnode
    refine ⟨old, hold, ?_⟩
    simp only [received]
    split <;> exact ⟨rfl, rfl, rfl, rfl⟩
  refine ⟨htabled, fun node hnode => ?_, fun node hnode hgreet => ?_,
    fun node hnode other hother hgreet hgreet' huser => ?_, fun hall hthreads => ?_⟩
  · obtain ⟨old, hold, -, -, -, hghost⟩ := hmem node hnode
    rw [hghost]
    exact hinv.noGhosts old hold
  · obtain ⟨old, hold, howner, hgreeting, huid, -⟩ := hmem node hnode
    rw [hgreeting] at hgreet
    rw [huid, howner]
    exact hinv.greeted old hold hgreet
  · obtain ⟨old, hold, howner, hgreeting, huid, -⟩ := hmem node hnode
    obtain ⟨old', hold', howner', hgreeting', huid', -⟩ := hmem other hother
    rw [hgreeting] at hgreet
    rw [hgreeting'] at hgreet'
    rw [huid, huid'] at huser
    rw [howner, howner']
    exact hinv.distinct old hold old' hold' hgreet hgreet' huser
  · rcases onReceive_sceneEnter hinv.tabled harises hreceive with hspawn | hungreeted
    · obtain ⟨ptr, rfl⟩ := hspawn
      exact absurd hthreads (List.append_ne_nil_of_right_ne_nil _ (List.cons_ne_nil _ _))
    · obtain ⟨old, hold, howns, hgreet⟩ := hungreeted
      have hnew := hall { old with
        client := received peer (.singleModeSceneEnter ⟨playerType⟩) old.client } (by
          rw [hclients]
          exact List.mem_map_of_mem hold)
      simp only [received, admitted, hgreet, Bool.false_eq_true, and_false, if_false] at hnew

/-- A disconnection keeps the invariant: everybody else is sent the list. -/
theorem rosterInv_disconnect {sys sys' : RosterSystem} {peer : ENetPeer} (hinv : RosterInv sys)
    (hstep : rosterStep sys (.disconnect peer) = some sys') : RosterInv sys' := by
  obtain ⟨harises, t, effects, hserve, rfl⟩ := serve_eq hstep
  have htabled := tabled_step hinv.tabled harises trivial hserve
  have htable := onDisconnect_table hinv.tabled harises
  rw [show onDisconnect sys.server peer = (t, effects) from Option.some.inj hserve,
    Prod.mk.injEq] at htable
  obtain ⟨ht, heffects⟩ := htable
  have hmem : ∀ node ∈ t.mClients, node ∈ sys.server.mClients := by
    intro node hnode
    rw [ht] at hnode
    exact List.mem_of_mem_filter hnode
  have hghosts : ∀ node ∈ t.mClients, node.client.mIsGhost = false :=
    fun node hnode => hinv.noGhosts node (hmem node hnode)
  refine ⟨htabled, hghosts, fun node hnode => hinv.greeted node (hmem node hnode),
    fun node hnode other hother => hinv.distinct node (hmem node hnode) other (hmem other hother),
    fun _ _ => ?_⟩
  rw [← ht] at heffects
  have hperm : ((makePlayerListPacket t).map PlayerListDataEntry.user).Perm (currentUsers t) := by
    rw [users_makePlayerListPacket hghosts]
  refine heard_of_post sys hperm fun p hp => ?_
  dsimp only
  rw [heffects]
  exact postLists_broadcast hp sys.links _

/-- A step that leaves the server and the users keeps the invariant, if the last
list is still heard when no other is to come. -/
theorem rosterInv_of_same {sys sys' : RosterSystem} (hinv : RosterInv sys)
    (hserver : sys'.server = sys.server)
    (huid : ∀ peer, (sys'.links peer).state.uid = (sys.links peer).state.uid)
    (hheard : AllGreeted sys.server → sys'.threads = [] → Heard sys') : RosterInv sys' := by
  obtain ⟨htabled, hghosts, hgreeted, hdistinct, -⟩ := hinv
  rw [← hserver] at htabled hghosts hgreeted hdistinct hheard
  refine ⟨htabled, hghosts, fun node hnode hgreet => ?_, hdistinct, hheard⟩
  rw [huid]
  exact hgreeted node hnode hgreet

/-- One step under the conditions keeps the invariant. -/
theorem rosterInv_step {sys sys' : RosterSystem} {action : RosterAction} (hinv : RosterInv sys)
    (hguard : DistinctUsers sys action ∧ ListsCurrent sys action)
    (hstep : rosterStep sys action = some sys') : RosterInv sys' := by
  cases action with
  | connect peer ptr mgr => exact rosterInv_connect hinv hguard.2 hstep
  | hello peer name now => exact rosterInv_hello hinv hguard.1 hstep
  | enterScene peer playerType => exact rosterInv_enterScene hinv hstep
  | disconnect peer => exact rosterInv_disconnect hinv hstep
  | buildList k =>
    simp only [rosterStep] at hstep
    split at hstep
    · rename_i hk
      cases hstep
      refine rosterInv_of_same hinv rfl (fun _ => rfl) fun _ hthreads => ?_
      -- the thread has yet to send what it has built
      have hlt : k < sys.threads.length := (List.getElem?_eq_some_iff.mp hk).1
      have hlength := congrArg List.length hthreads
      rw [List.length_set, List.length_nil] at hlength
      omega
    · cases hstep
  | sendList k =>
    simp only [rosterStep] at hstep
    split at hstep
    · rename_i entries hk
      cases hstep
      refine rosterInv_of_same hinv rfl (fun _ => rfl) fun hall hthreads => ?_
      have hcurrent : (entries.map PlayerListDataEntry.user).Perm (currentUsers sys.server) := by
        refine hguard.2 entries ?_ ?_ hall
        · rw [hk]
          rfl
        · rw [List.isEmpty_iff]
          exact hthreads
      exact heard_of_post sys hcurrent fun p hp => postLists_broadcast hp sys.links entries
    · cases hstep
  | deliver peer =>
    obtain ⟨receiver, hreceiver, rfl⟩ := Option.map_eq_some_iff.mp hstep
    have hsettled := settled_update_deliver hreceiver
    refine rosterInv_of_same hinv rfl (fun p => ?_) fun hall hthreads => ?_
    · have huid := congrArg MultiplayerManager.uid (hsettled p)
      rw [settled_keeps uid_handle, settled_keeps uid_handle] at huid
      exact huid
    · obtain ⟨entries, hentries, hheard⟩ := hinv.heard hall hthreads
      refine ⟨entries, hentries, fun p hp => ?_⟩
      obtain ⟨mgr, hmgr⟩ := hheard p hp
      exact ⟨mgr, (hsettled p).trans hmgr⟩

/-- Nobody has connected. -/
theorem rosterInv_start (data : ServerSaveData) : RosterInv (.start data) :=
  ⟨tabled_fresh data, fun _ h => absurd h List.not_mem_nil, fun _ h => absurd h List.not_mem_nil,
    fun _ h => absurd h List.not_mem_nil,
    fun _ _ => ⟨[], .nil, fun _ h => absurd h List.not_mem_nil⟩⟩

/-- Nothing is left in flight, so everybody has handled the common list. -/
theorem RosterInv.handled {sys : RosterSystem} (hinv : RosterInv sys) (hquiet : sys.Quiet) :
    ∃ entries : List PlayerListDataEntry,
      (entries.map PlayerListDataEntry.user).Perm (currentUsers sys.server) ∧
      ∀ peer ∈ sys.server.peers, ∃ mgr,
        (sys.links peer).state = handlePlayerListPacket mgr entries := by
  obtain ⟨hall, hqueues, hthreads⟩ := hquiet
  obtain ⟨entries, hentries, hheard⟩ := hinv.heard hall (List.isEmpty_iff.mp hthreads)
  refine ⟨entries, hentries, fun peer hpeer => ?_⟩
  obtain ⟨mgr, hmgr⟩ := hheard peer hpeer
  rw [settled_of_queue_nil (List.isEmpty_iff.mp (hqueues peer hpeer))] at hmgr
  exact ⟨mgr, hmgr⟩

/-- Clients that have all greeted have different users. -/
theorem RosterInv.nodup_users {sys : RosterSystem} (hinv : RosterInv sys)
    (hall : AllGreeted sys.server) : (currentUsers sys.server).Nodup := by
  refine List.Nodup.map_on ?_ (List.Nodup.of_map _ hinv.tabled.ptrs)
  intro node hnode other hother huser
  exact hinv.tabled.eq_of_peer hnode hother
    (hinv.distinct node hnode other hother (hall node hnode) (hall other hother) huser)

/-- A client that has handled a list of the current users is the host when its
user is the last of the list. -/
theorem RosterInv.isHost_iff {sys : RosterSystem} (hinv : RosterInv sys)
    (hall : AllGreeted sys.server) {entries : List PlayerListDataEntry}
    (hentries : (entries.map PlayerListDataEntry.user).Perm (currentUsers sys.server))
    (hstate : ∀ peer ∈ sys.server.peers, ∃ mgr,
      (sys.links peer).state = handlePlayerListPacket mgr entries)
    {node : ClientNode} (hnode : node ∈ sys.server.mClients) :
    (sys.links node.client.mPeer).state.isHost = true ↔
      (entries.map PlayerListDataEntry.user).getLast? = some node.client.mUid := by
  obtain ⟨mgr, hmgr⟩ := hstate _ (hinv.tabled.connected node hnode)
  have huid : mgr.uid = node.client.mUid := by
    rw [hinv.greeted node hnode (hall node hnode), hmgr, uid_handle]
  have hown : mgr.uid ∈ entries.map PlayerListDataEntry.user := by
    rw [huid]
    exact hentries.mem_iff.mpr (List.mem_map_of_mem hnode)
  rw [hmgr, isHost_handle hown, huid]

/-- When nothing is left in flight, the lists are current and there is one host. -/
theorem agree_of_quiet {sys : RosterSystem} (hinv : RosterInv sys) (hquiet : sys.Quiet) :
    sys.Agree := by
  obtain ⟨entries, hentries, hstate⟩ := hinv.handled hquiet
  have hall : AllGreeted sys.server := hquiet.1
  refine ⟨fun peer hpeer => ?_, fun hne => ?_⟩
  · obtain ⟨mgr, hmgr⟩ := hstate peer hpeer
    rw [hmgr, users_handle]
    exact hentries
  · have hlast : ∃ user, (entries.map PlayerListDataEntry.user).getLast? = some user := by
      rw [← Option.isSome_iff_exists, List.getLast?_isSome]
      intro hnil
      rw [hnil, List.nil_perm, currentUsers, List.map_eq_nil_iff] at hentries
      have hperm := hinv.tabled.peers_perm
      rw [hentries, List.map_nil, List.perm_nil] at hperm
      exact hne hperm
    obtain ⟨user, huser⟩ := hlast
    have hmem : user ∈ currentUsers sys.server :=
      hentries.mem_iff.mp (List.mem_of_getLast? huser)
    calc sys.hosts.length
        = sys.server.peers.countP fun peer => (sys.links peer).state.isHost :=
          List.countP_eq_length_filter.symm
      _ = sys.server.mClients.countP fun node => (sys.links node.client.mPeer).state.isHost := by
          rw [hinv.tabled.peers_perm.countP_eq, List.countP_map]
          rfl
      _ = sys.server.mClients.countP fun node => node.client.mUid == user := by
          refine List.countP_congr fun node hnode => ?_
          rw [hinv.isHost_iff hall hentries hstate hnode, huser, Option.some.injEq, beq_iff_eq]
          exact eq_comm
      _ = (currentUsers sys.server).count user := by
          rw [List.count, currentUsers, List.countP_map]
          rfl
      _ = 1 := List.count_eq_one_of_mem (hinv.nodup_users hall) hmem

/-- In every run in which no two connected peers share an address hash and the
last list that a thread sends is current, every connected client lists exactly
the current clients and one of them is the host, whenever all have greeted,
nothing is in flight and no thread is running. -/
theorem roster_agrees (data : ServerSaveData) (actions : List RosterAction) (sys : RosterSystem)
    (husers : Along DistinctUsers rosterStep (.start data) actions)
    (hguard : Along ListsCurrent rosterStep (.start data) actions)
    (hrun : run rosterStep (.start data) actions = some sys) (hquiet : sys.Quiet) : sys.Agree := by
  have hinv : RosterInv sys := run_invariant
    (fun _ _ _ hs hstep hnext => rosterInv_step hs hstep hnext) (rosterInv_start data)
    (along_and husers hguard) hrun
  exact agree_of_quiet hinv hquiet

/-- The client in a peer slot, which has no list. -/
def newcomer (slot : ℕ) : MultiplayerManager := ⟨⟨UInt64.ofNat slot, 0⟩, [], none⟩

/-- Two clients connect and greet, and handle the lists they are sent. -/
def twoGreetings : List RosterAction :=
  [.connect (peerAt 1) 1 (newcomer 1), .hello (peerAt 1) (Buffer.zero 33) 0, .deliver (peerAt 1),
    .connect (peerAt 2) 2 (newcomer 2), .hello (peerAt 2) (Buffer.zero 33) 0, .deliver (peerAt 1),
    .deliver (peerAt 2)]

/-- No progress is stored. -/
def noProgress : ServerSaveData := .fresh (Buffer.zero sharedSaveCapacity)

/-- Client 2 enters the scene, and its thread sends a current list. -/
theorem roster_agrees_two :
    ∃ sys, run rosterStep (.start noProgress) (twoGreetings ++
        [.enterScene (peerAt 2) 1, .buildList 0, .sendList 0, .deliver (peerAt 1),
          .deliver (peerAt 2)]) = some sys ∧
      sys.server.peers.length = 2 ∧ sys.Agree := by
  have hrun : ∃ sys, run rosterStep (.start noProgress) (twoGreetings ++
      [.enterScene (peerAt 2) 1, .buildList 0, .sendList 0, .deliver (peerAt 1),
        .deliver (peerAt 2)]) = some sys ∧
      sys.server.peers.length = 2 ∧ sys.Quiet := run_reaches (by decide)
  obtain ⟨sys, hsys, hpeers, hquiet⟩ := hrun
  exact ⟨sys, hsys, hpeers, roster_agrees noProgress _ sys (by decide) (by decide) hsys hquiet⟩

/-- The thread of client 2 builds its list, client 1 disconnects, and the thread
sends what it has built: client 2 is left alone with a list of two players and
is not the host. -/
theorem stale_list_leaves_no_host :
    ∃ sys, run rosterStep (.start noProgress) (twoGreetings ++
        [.enterScene (peerAt 2) 1, .buildList 0, .disconnect (peerAt 1), .sendList 0,
          .deliver (peerAt 2), .deliver (peerAt 2)]) = some sys ∧
      sys.Quiet ∧ sys.server.peers = [peerAt 2] ∧ sys.hosts = [] ∧ ¬sys.Agree :=
  run_reaches (by decide)

end BfMultiplayer.Roster

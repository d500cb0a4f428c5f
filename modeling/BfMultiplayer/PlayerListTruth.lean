import BfMultiplayer.ClientTable
import BfMultiplayer.GuardedRuns
import BfMultiplayer.ListFacts

/-!
# The player list and the players

What is known of each connected peer, from the events of its connection alone,
is a model of the client table: while no two connected peers share an address
hash, the records are a function of it. The list shows the records, so it is
compared with the players there are. It lists clients that have not greeted, it
copies sixteen bytes of a nickname, and its figure is never assigned; apart
from that it tells the truth.
-/

namespace BfMultiplayer.PlayerListTruth

open ByteBuffer Packets ServerState ServerHandlers EventLoopRules ClientTable GuardedRuns ListFacts

/-- A player as others should see it. -/
structure Player where
  /-- The user. -/
  user : Uid
  /-- The nickname as text. -/
  name : CString
  /-- The player type. -/
  playerType : UInt8
  /-- The figure. -/
  playerFigure : UInt8
  deriving DecidableEq

/-- What the events of a connection say about its client. -/
structure Connection where
  /-- The peer. -/
  peer : ENetPeer
  /-- Its last greeting. -/
  greeting : Option ToS_Hello
  /-- Type of its last scene entry. -/
  playerType : UInt8
  /-- Its last figure. -/
  playerFigure : UInt8

/-- A packet of the client. -/
def Connection.handle (conn : Connection) : ServerBound → Connection
  | .hello packet => { conn with greeting := some packet }
  | .singleModeSceneEnter packet => { conn with playerType := packet.playerType }
  | .playerFigureChange data => { conn with playerFigure := data.playerFigure }
  | _ => conn

/-- The connections after an event. A packet in front of the greeting is not
taken. -/
def track (conns : List Connection) : ENetEvent → List Connection
  | .connect peer _ => ⟨peer, none, 0, 0⟩ :: conns
  | .receive peer packet _ => conns.map fun conn =>
      if conn.peer = peer ∧ admitted packet conn.greeting.isSome = true then conn.handle packet
      else conn
  | .disconnect peer => conns.filter fun conn => conn.peer != peer

/-- The text in a nickname. -/
def text (name : Nickname) : CString := (List.ofFn name).takeWhile fun byte => byte != 0

/-- The player of a connection: nobody before the greeting, nor for a ghost. -/
def Connection.player? (conn : Connection) : Option Player :=
  match conn.greeting with
  | some hello =>
    if hello.isGhost then none
    else some ⟨hello.uid, text hello.name, conn.playerType, conn.playerFigure⟩
  | none => none

/-- The players there are. -/
def players (conns : List Connection) : List Player := conns.filterMap Connection.player?

/-- The player an entry of the list shows. -/
def shown (entry : PlayerListDataEntry) : Player :=
  ⟨entry.user, text entry.name, entry.playerType, entry.playerFigure⟩

/-- The list can show a connection: it has greeted and, unless it is a ghost, its
nickname has at most sixteen bytes and its last figure is zero. -/
def Listable (conn : Connection) : Prop :=
  match conn.greeting with
  | some hello => hello.isGhost = false →
    (text hello.name).length ≤ sizeofUid ∧ conn.playerFigure = 0
  | none => False

instance : DecidablePred Listable := fun conn => by
  unfold Listable
  split <;> infer_instance

/-- The server with what is known of its connections. -/
structure TrackedServer where
  /-- The server. -/
  server : Server
  /-- The connections. -/
  conns : List Connection

/-- An event that the host can produce. -/
def trackedStep (sys : TrackedServer) (event : ENetEvent) : Option TrackedServer :=
  if Arises sys.server event then
    (serviceStep sys.server event).map fun t => ⟨t, track sys.conns event⟩
  else none

/-- The condition on an event. -/
def PeersApart (sys : TrackedServer) (event : ENetEvent) : Prop := HashApart sys.server event

instance (sys : TrackedServer) (event : ENetEvent) : Decidable (PeersApart sys event) :=
  inferInstanceAs (Decidable (HashApart sys.server event))

/-- The list shows exactly the players there are. -/
def TellsTruth (sys : TrackedServer) (newClient : Option ℕ) : Prop :=
  ((makePlayerListPacket sys.server newClient).map shown).Perm (players sys.conns)

instance (sys : TrackedServer) (newClient : Option ℕ) : Decidable (TellsTruth sys newClient) :=
  inferInstanceAs (Decidable (List.Perm _ _))

/-- A record without its position, which the list does not show. -/
def still (record : Client) : Client := { record with mTrans := ⟨0, 0, 0⟩ }

/-- The record that the server keeps for a connection. -/
def recordOf (conn : Connection) : Client where
  mPeer := conn.peer
  mHasGreeting := conn.greeting.isSome
  mUid := (conn.greeting.map ToS_Hello.uid).getD Uid.zero
  mName := (conn.greeting.map ToS_Hello.name).getD (Buffer.zero 33)
  mIsGhost := (conn.greeting.map ToS_Hello.isGhost).getD false
  mPlayerType := conn.playerType

/-- What holds between two events: the table is the image of the connections. -/
structure TrackedInv (sys : TrackedServer) : Prop where
  /-- Each connected peer has its record. -/
  tabled : Tabled sys.server
  /-- The records are those of the connections. -/
  recorded : (sys.server.mClients.map fun node => still node.client) = sys.conns.map recordOf

/-- A packet does to the record what it does to the connection. -/
theorem still_received {record : Client} {conn : Connection} (h : still record = recordOf conn)
    (peer : ENetPeer) (packet : ServerBound) :
    still (received peer packet record) =
      recordOf (if conn.peer = peer ∧ admitted packet conn.greeting.isSome = true then
        conn.handle packet else conn) := by
  have hpeer : record.mPeer = conn.peer := congrArg Client.mPeer h
  have hgreeting : record.mHasGreeting = conn.greeting.isSome := congrArg Client.mHasGreeting h
  rw [received, hpeer, hgreeting]
  by_cases htaken : conn.peer = peer ∧ admitted packet conn.greeting.isSome = true
  · rw [if_pos htaken, if_pos htaken]
    simp only [still, recordOf, Client.mk.injEq] at h
    cases packet <;> simp only [assigned, Connection.handle, still, recordOf, h, Option.isSome_some,
      Option.map_some, Option.getD_some]
  · rw [if_neg htaken, if_neg htaken]
    exact h

/-- An event keeps the invariant. -/
theorem trackedInv_step {sys sys' : TrackedServer} {event : ENetEvent} (hinv : TrackedInv sys)
    (hguard : PeersApart sys event) (hstep : trackedStep sys event = some sys') :
    TrackedInv sys' := by
  unfold trackedStep at hstep
  split at hstep
  · rename_i harises
    obtain ⟨t, hserved, rfl⟩ := Option.map_eq_some_iff.mp hstep
    obtain ⟨⟨u, effects⟩, hserve, rfl⟩ := Option.map_eq_some_iff.mp hserved
    refine ⟨tabled_step hinv.tabled harises hguard hserve, ?_⟩
    have hrecorded := hinv.recorded
    cases event with
    | connect peer ptr =>
      cases hserve
      rw [onConnect_table hinv.tabled hguard]
      exact congrArg (List.cons _) hrecorded
    | receive peer packet now =>
      obtain ⟨hclients, -⟩ := onReceive_table hinv.tabled harises hserve
      rw [hclients]
      exact map_eq_map_of_step (fun _ _ h => still_received h peer packet) hrecorded
    | disconnect peer =>
      have htable := onDisconnect_table hinv.tabled harises
      rw [show onDisconnect sys.server peer = (u, effects) from Option.some.inj hserve,
        Prod.mk.injEq] at htable
      rw [htable.1]
      have hleft : ((sys.server.mClients.filter fun node => node.client.mPeer != peer).map
          fun node => still node.client) =
          (sys.server.mClients.map fun node => still node.client).filter
            fun record => record.mPeer != peer := by
        rw [List.filter_map]
        rfl
      have hright : (track sys.conns (.disconnect peer)).map recordOf =
          (sys.conns.map recordOf).filter fun record => record.mPeer != peer := by
        rw [List.filter_map]
        rfl
      exact hleft.trans ((congrArg _ hrecorded).trans hright.symm)
  · cases hstep

/-- The player that the list shows for a record, if it lists it. -/
def listed? (record : Client) : Option Player :=
  if record.mIsGhost then none
  else some ⟨record.mUid, (text record.mName).take sizeofUid, record.mPlayerType,
    record.mPlayerFigure⟩

/-- A name of sixteen copied bytes is a prefix of the nickname. -/
theorem text_copied (name : Nickname) :
    text (blit (Buffer.zero 33) 0 name 0 sizeofUid) = (text name).take sizeofUid := by
  have hbytes : List.ofFn (blit (Buffer.zero 33) 0 name 0 sizeofUid) =
      (List.ofFn name).take sizeofUid ++ List.replicate 17 0 := by
    refine List.ext_getElem ?_ fun i hi hi' => ?_
    · simp only [List.length_ofFn, List.length_append, List.length_take, List.length_replicate,
        sizeofUid]
      omega
    · rw [List.length_ofFn] at hi
      rw [List.getElem_ofFn]
      by_cases hcopied : i < 16
      · have hleft : i < ((List.ofFn name).take sizeofUid).length := by
          rw [List.length_take, List.length_ofFn, sizeofUid]
          omega
        rw [List.getElem_append_left hleft, List.getElem_take, List.getElem_ofFn, blit,
          dif_pos ⟨by omega, by simp only [sizeofUid]; omega, by simp only; omega⟩]
        simp only [Nat.zero_add, Nat.sub_zero]
      · have hright : ((List.ofFn name).take sizeofUid).length ≤ i := by
          rw [List.length_take, List.length_ofFn, sizeofUid]
          omega
        rw [List.getElem_append_right hright, List.getElem_replicate, blit, dif_neg]
        · rfl
        · simp only [sizeofUid]
          omega
  have hzero : (List.replicate 17 (0 : UInt8)).takeWhile (fun byte => byte != 0) = [] := by decide
  rw [text, text, hbytes, List.takeWhile_append, hzero, List.append_nil, List.take_takeWhile]
  split
  · rename_i hall
    exact ((List.takeWhile_prefix _).eq_of_length hall).symm
  · rfl

/-- The list shows the records. -/
theorem list_shows (s : Server) (newClient : Option ℕ) :
    (makePlayerListPacket s newClient).map shown =
      (s.mClients.map fun node => still node.client).filterMap listed? := by
  rw [makePlayerListPacket]
  induction s.mClients with
  | nil => rfl
  | cons node nodes ih =>
    have hghost : (still node.client).mIsGhost = node.client.mIsGhost := rfl
    rw [List.map_cons, List.filterMap_cons, List.filter_cons, listed?, hghost]
    cases node.client.mIsGhost with
    | true => simpa only [Bool.not_true, Bool.false_eq_true, if_false, if_true] using ih
    | false =>
      simp only [Bool.not_false, if_true, Bool.false_eq_true, if_false, List.map_cons, ih, shown,
        playerListEntry, text_copied]
      rfl

/-- What becomes of a player in the list. -/
def truncated (player : Player) : Player :=
  { player with
    name := player.name.take sizeofUid
    playerFigure := 0 }

/-- It becomes nothing else the second time. -/
theorem truncated_truncated (player : Player) : truncated (truncated player) = truncated player := by
  simp only [truncated, List.take_take, Nat.min_self]

/-- A player is shown as it is when the name is short and the figure zero. -/
theorem truncated_eq_iff (player : Player) :
    truncated player = player ↔ player.name.length ≤ sizeofUid ∧ player.playerFigure = 0 := by
  cases player with
  | mk user name playerType playerFigure =>
    simp only [truncated, Player.mk.injEq, true_and, List.take_eq_self_iff]
    exact and_congr_right fun _ => eq_comm

/-- The list shows a connection that has greeted as its truncated player, and one
that has not as somebody. -/
theorem listed?_recordOf (conn : Connection) :
    (conn.greeting.isSome = true → listed? (recordOf conn) = conn.player?.map truncated) ∧
      (conn.greeting.isSome = false → (listed? (recordOf conn)).isSome = true ∧
        conn.player? = none) := by
  unfold Connection.player? recordOf listed?
  cases conn.greeting with
  | none => exact ⟨fun h => Bool.noConfusion h, fun _ => ⟨rfl, rfl⟩⟩
  | some hello =>
    refine ⟨fun _ => ?_, fun h => Bool.noConfusion h⟩
    simp only [Option.map_some, Option.getD_some]
    cases hello.isGhost <;> rfl

/-- A connection is listable when it has greeted and its player is shown as it
is. -/
theorem listable_iff (conn : Connection) :
    Listable conn ↔ conn.greeting.isSome = true ∧
      ∀ player ∈ conn.player?, truncated player = player := by
  unfold Listable Connection.player?
  cases conn.greeting with
  | none => exact iff_of_false id fun h => Bool.noConfusion h.1
  | some hello =>
    dsimp only
    cases hello.isGhost with
    | true =>
      rw [if_pos rfl]
      exact iff_of_true (fun h => Bool.noConfusion h) ⟨rfl, fun _ h => by cases h⟩
    | false =>
      simp only [Bool.false_eq_true, if_false, Option.mem_some_iff, forall_eq', truncated_eq_iff,
        Option.isSome_some, true_and, forall_const]

/-- If some connection has not greeted, the list is longer than the truth. -/
theorem greeted_of_length {conns : List Connection}
    (h : ((conns.map recordOf).filterMap listed?).length = (players conns).length) :
    ∀ conn ∈ conns, conn.greeting.isSome = true := by
  have hcount : ∀ cs : List Connection, ((cs.map recordOf).filterMap listed?).length =
      (players cs).length + cs.countP fun conn => !conn.greeting.isSome := by
    intro cs
    induction cs with
    | nil => rfl
    | cons conn cs ih =>
      obtain ⟨hgreeted, hungreeted⟩ := listed?_recordOf conn
      rw [players] at ih ⊢
      rw [List.map_cons, List.filterMap_cons, List.filterMap_cons, List.countP_cons]
      cases hgreet : conn.greeting.isSome with
      | true =>
        rw [hgreeted hgreet]
        cases conn.player? with
        | none =>
          simp only [Option.map_none, Bool.not_true, Bool.false_eq_true, if_false]
          omega
        | some player =>
          simp only [Option.map_some, List.length_cons, Bool.not_true, Bool.false_eq_true, if_false]
          omega
      | false =>
        obtain ⟨hsome, hnone⟩ := hungreeted hgreet
        obtain ⟨player, hplayer⟩ := Option.isSome_iff_exists.mp hsome
        rw [hplayer, hnone]
        simp only [List.length_cons, Bool.not_false, if_true]
        omega
  have hsum := hcount conns
  have hzero : (conns.countP fun conn => !conn.greeting.isSome) = 0 := by omega
  intro conn hconn
  have hnone : ¬(!conn.greeting.isSome) = true := List.countP_eq_zero.mp hzero conn hconn
  rw [Bool.not_eq_true, Bool.not_eq_false'] at hnone
  exact hnone

/-- When everybody has greeted, the list is the truncated truth. -/
theorem listed_of_greeted {conns : List Connection}
    (h : ∀ conn ∈ conns, conn.greeting.isSome = true) :
    (conns.map recordOf).filterMap listed? = (players conns).map truncated := by
  rw [List.filterMap_map, players, List.map_filterMap]
  exact List.filterMap_congr fun conn hconn => (listed?_recordOf conn).1 (h conn hconn)

/-- The list tells the truth exactly when every connection is listable. -/
theorem listed_perm_iff (conns : List Connection) :
    ((conns.map recordOf).filterMap listed?).Perm (players conns) ↔
      ∀ conn ∈ conns, Listable conn := by
  have hplayers : (∀ player ∈ players conns, truncated player = player) ↔
      ∀ conn ∈ conns, ∀ player ∈ conn.player?, truncated player = player := by
    simp only [players, List.mem_filterMap, forall_exists_index, and_imp]
    exact ⟨fun h conn hconn player hplayer => h player conn hconn hplayer,
      fun h player conn hconn hplayer => h conn hconn player hplayer⟩
  constructor
  · intro hperm conn hconn
    have hgreeted := greeted_of_length hperm.length_eq
    rw [listed_of_greeted hgreeted, map_perm_self_iff truncated_truncated, hplayers] at hperm
    exact (listable_iff conn).mpr ⟨hgreeted conn hconn, hperm conn hconn⟩
  · intro hall
    have hgreeted : ∀ conn ∈ conns, conn.greeting.isSome = true :=
      fun conn hconn => ((listable_iff conn).mp (hall conn hconn)).1
    rw [listed_of_greeted hgreeted, map_perm_self_iff truncated_truncated, hplayers]
    exact fun conn hconn => ((listable_iff conn).mp (hall conn hconn)).2

/-- After every run in which no two connected peers share an address hash, the
list shows exactly the players there are when every connected client has
greeted, with a nickname of at most sixteen bytes, and its last figure is
zero. -/
theorem list_tells_truth_iff (data : ServerSaveData) (events : List ENetEvent) (sys : TrackedServer)
    (hguard : Along PeersApart trackedStep ⟨Server.fresh data, []⟩ events)
    (hrun : run trackedStep ⟨Server.fresh data, []⟩ events = some sys) (newClient : Option ℕ) :
    TellsTruth sys newClient ↔ ∀ conn ∈ sys.conns, Listable conn := by
  have hstart : TrackedInv ⟨Server.fresh data, []⟩ := ⟨tabled_fresh data, rfl⟩
  have hinv : TrackedInv sys := run_invariant
    (fun _ _ _ hs hstep hnext => trackedInv_step hs hstep hnext) hstart hguard hrun
  rw [TellsTruth, list_shows, hinv.recorded]
  exact listed_perm_iff sys.conns

/-- The greeting of a client with a nickname of a given length. -/
def namedGreeting (slot length : ℕ) (isGhost : Bool) : ENetEvent :=
  .receive (peerAt slot) (.hello ⟨⟨UInt64.ofNat slot, 0⟩,
    fun i => if i.val < length then 97 else 0, isGhost⟩) 0

/-- The server of the sample runs. -/
def trackedStart : TrackedServer := ⟨Server.fresh (.fresh (Buffer.zero sharedSaveCapacity)), []⟩

/-- A client with a nickname of sixteen bytes that has entered the scene, next to
a ghost, is listed as it is. -/
theorem list_tells_truth_sample :
    ∃ sys, run trackedStep trackedStart [.connect (peerAt 1) 1, namedGreeting 1 16 false,
        .receive (peerAt 1) (.singleModeSceneEnter ⟨3⟩) 0, .connect (peerAt 2) 2,
        namedGreeting 2 33 true] = some sys ∧
      (players sys.conns).length = 1 ∧ TellsTruth sys none := by
  have hrun : ∃ sys, run trackedStep trackedStart [.connect (peerAt 1) 1, namedGreeting 1 16 false,
        .receive (peerAt 1) (.singleModeSceneEnter ⟨3⟩) 0, .connect (peerAt 2) 2,
        namedGreeting 2 33 true] = some sys ∧
      (players sys.conns).length = 1 ∧ ∀ conn ∈ sys.conns, Listable conn := run_reaches (by decide)
  obtain ⟨sys, hsys, hplayers, hlistable⟩ := hrun
  exact ⟨sys, hsys, hplayers,
    (list_tells_truth_iff _ _ sys (by decide) hsys none).mpr hlistable⟩

/-- A client that has only connected is listed, a nickname of seventeen bytes is
cut, and a changed figure is not shown. -/
theorem list_misses_truth :
    (∃ sys, run trackedStep trackedStart [.connect (peerAt 1) 1] = some sys ∧
        players sys.conns = [] ∧ (makePlayerListPacket sys.server).length = 1 ∧
        ¬TellsTruth sys none) ∧
      (∃ sys, run trackedStep trackedStart [.connect (peerAt 1) 1, namedGreeting 1 17 false] =
          some sys ∧
        (players sys.conns).map (fun player => player.name.length) = [17] ∧
        ((makePlayerListPacket sys.server).map shown).map (fun player => player.name.length) =
          [16] ∧ ¬TellsTruth sys none) ∧
      ∃ sys, run trackedStep trackedStart [.connect (peerAt 1) 1, namedGreeting 1 5 false,
          .receive (peerAt 1) (.playerFigureChange ⟨2⟩) 0] = some sys ∧
        (players sys.conns).map Player.playerFigure = [2] ∧
        ((makePlayerListPacket sys.server).map shown).map Player.playerFigure = [0] ∧
        ¬TellsTruth sys none :=
  ⟨run_reaches (by decide), run_reaches (by decide), run_reaches (by decide)⟩

end BfMultiplayer.PlayerListTruth

import BfMultiplayer.ClientLinks
import BfMultiplayer.ClientMap
import BfMultiplayer.MemoryFields
import BfMultiplayer.WireRoundTrip

/-!
# Relaying a payload to the other clients

A `RedistPacket` has two classes around one payload: the client's is the payload
behind the base, the server's has the user id of the sender in front of it. The
server copies the payload of the packet it has read into a packet of its own
class, builds that once, and queues the bytes to the peer of each record but the
sender's.
-/

namespace BfMultiplayer.PacketRelay

open ByteBuffer CLayout Channels Packets PacketCodec DecoderBounds WireRoundTrip MemoryFields
open ServerState ServerHandlers EventLoopRules ClientLinks ClientMap

/-- The payload types that the server redistributes. -/
inductive RedistType where
  | PuppetPose
  | Action
  | PlayerFigureChange
  | PhaseUnlock
  | ScenarioUpdate
  | DisasterModeControllerInternalUpdate
  | MiscMapSync
  deriving DecidableEq

/-- The payload. -/
def RedistType.layout : RedistType → Layout
  | .PuppetPose => puppetPoseData
  | .Action => actionPacketData
  | .PlayerFigureChange => playerFigureChangeData
  | .PhaseUnlock => phaseUnlockData
  | .ScenarioUpdate => scenarioUpdateData
  | .DisasterModeControllerInternalUpdate => disasterModeControllerInternalUpdateData
  | .MiscMapSync => miscMapSyncData

/-- `RedistPacket<T>::ServerBound`. -/
def RedistType.ServerBound : RedistType → ChannelType
  | .PuppetPose => .ToS_PuppetPose
  | .Action => .ToS_Action
  | .PlayerFigureChange => .ToS_PlayerFigureChange
  | .PhaseUnlock => .ToS_PhaseUnlock
  | .ScenarioUpdate => .ToS_ScenarioUpdate
  | .DisasterModeControllerInternalUpdate => .ToS_DisasterModeControllerInternalUpdate
  | .MiscMapSync => .ToS_MiscMapSync

/-- `RedistPacket<T>::ClientBound`. -/
def RedistType.ClientBound : RedistType → ChannelType
  | .PuppetPose => .ToC_PuppetPose
  | .Action => .ToC_Action
  | .PlayerFigureChange => .ToC_PlayerFigureChange
  | .PhaseUnlock => .ToC_PhaseUnlock
  | .ScenarioUpdate => .ToC_ScenarioUpdate
  | .DisasterModeControllerInternalUpdate => .ToC_DisasterModeControllerInternalUpdate
  | .MiscMapSync => .ToC_MiscMapSync

/-- The template argument `Reliable`. -/
def RedistType.Reliable : RedistType → Bool
  | .PuppetPose => false
  | .Action => false
  | _ => true

/-- The size of the payload. -/
def RedistType.size (t : RedistType) : ℕ := t.layout.size

/-- Where `mPacketData` is in the class of the clients. -/
def serverDataOffset (t : RedistType) : ℕ := alignUp (endOffset 0 [pointer]) t.layout.align

/-- Where `mUid` is in the class of the server. -/
def uidOffset : ℕ := alignUp (endOffset 0 [pointer]) uid.align

/-- Where `mPacketData` is in the class of the server. -/
def clientDataOffset (t : RedistType) : ℕ := alignUp (endOffset 0 [pointer, uid]) t.layout.align

/-- `ServerBound::getData`. -/
def serverGetData (t : RedistType) (memory : Buffer (sizeofClass t.ServerBound)) : List UInt8 :=
  readBytes memory (serverDataOffset t) t.size

/-- `ClientBound::getData`. -/
def clientGetData (t : RedistType) (memory : Buffer (sizeofClass t.ClientBound)) : List UInt8 :=
  readBytes memory (clientDataOffset t) t.size

/-- `ClientBound::getSender`. -/
def getSender (t : RedistType) (memory : Buffer (sizeofClass t.ClientBound)) : Uid :=
  ⟨UInt64.ofNat (readNat memory uidOffset 8), UInt64.ofNat (readNat memory (uidOffset + 8) 8)⟩

/-- `ClientBound(uid, packetData)`, in memory that holds anything. -/
def clientBound (vtable : VTables) (t : RedistType) (stack : Buffer (sizeofClass t.ClientBound))
    (uid : Uid) (packetData : List UInt8) : Buffer (sizeofClass t.ClientBound) :=
  let memory := setVptr stack (vtable t.ClientBound)
  let memory := writeNat memory uidOffset 8 uid.word0.toNat
  let memory := writeNat memory (uidOffset + 8) 8 uid.word1.toNat
  writeBytes memory (clientDataOffset t) packetData

/-- A call of `enet_peer_send`. -/
structure QueuedPacket where
  /-- The peer. -/
  peer : ENetPeer
  /-- The channel. -/
  channel : ℕ
  /-- The bytes of the packet. -/
  data : List UInt8
  /-- `ENET_PACKET_FLAG_RELIABLE`. -/
  reliable : Bool
  deriving DecidableEq

/-- `Server::sendPacketToAllExcept`; `buf` is the array of a given length that `new` answers
with. Undefined where it aborts. -/
def sendPacketToAllExcept (vtable : VTables) (buf : (len : ℕ) → Buffer len) (s : Server)
    (except : ℕ) (packet : IPacket) (reliable : Bool) : Option (List QueuedPacket) :=
  (calcSize packet).bind fun len =>
    (build packet (buf len)).bind fun built =>
      (s.mClients.filter fun node => node.ptr != except).mapM fun node =>
        (identifyType vtable packet).map fun channel =>
          ⟨node.client.mPeer, channel, firstBytes built len, reliable⟩

/-- `Server::redistributePacket`. -/
def redistributePacket (vtable : VTables) (buf : (len : ℕ) → Buffer len) (t : RedistType)
    (stack : Buffer (sizeofClass t.ClientBound)) (s : Server)
    (packet : Buffer (sizeofClass t.ServerBound)) (client : ClientNode) :
    Option (List QueuedPacket) :=
  let redistPacket := clientBound vtable t stack client.client.mUid (serverGetData t packet)
  sendPacketToAllExcept vtable buf s client.ptr (.data t.ClientBound redistPacket) t.Reliable

/-- A queued packet is read by a client as one of the class of the server, with the given sender
and payload. -/
def DecodesTo (vtable : VTables) (fresh : Fresh) (t : RedistType) (sender : Uid)
    (payload : List UInt8) (queued : QueuedPacket) : Prop :=
  ∃ create memory, (createFuncs vtable fresh)[queued.channel]? = some create ∧
    create queued.data = .ok ⟨.data t.ClientBound memory, 0⟩ ∧
    getSender t memory = sender ∧ clientGetData t memory = payload

/-- The bytes that a client builds of its packet are read by the server as a packet. -/
def Arrives (vtable : VTables) (fresh : Fresh) (t : RedistType)
    (sent received : Buffer (sizeofClass t.ServerBound)) : Prop :=
  ∃ bytes, WritesExactly (.data t.ServerBound sent) bytes ∧
    calcSize (.data t.ServerBound sent) = some bytes.length ∧
    readPacket vtable fresh t.ServerBound bytes = .ok ⟨.data t.ServerBound received, 0⟩

/-- One packet is queued per other record of the table, over the channel of the class of the
server, none to the sender, and each of them is read by its receiver, whatever its tables and
its memory are, as one with the sender's user id and payload. -/
structure RelaysExactly (s : Server) (t : RedistType) (client : ClientNode)
    (packetData : List UInt8) (queued : List QueuedPacket) : Prop where
  /-- Packets go to other records only. -/
  others : ∀ q ∈ queued, ∃ node ∈ s.mClients, node ≠ client ∧ q.peer = node.client.mPeer
  /-- Each other record gets one. -/
  once : ∀ node ∈ s.mClients, node ≠ client →
    (queued.map QueuedPacket.peer).count node.client.mPeer = 1
  /-- The sender gets none. -/
  sender : client.client.mPeer ∉ queued.map QueuedPacket.peer
  /-- The channel, and whether the packet is reliable. -/
  channel : ∀ q ∈ queued, q.channel = penetChannels.idxOf t.ClientBound ∧ q.reliable = t.Reliable
  /-- What a receiver reads. -/
  decodes : ∀ (vtable : VTables) (fresh : Fresh), ∀ q ∈ queued,
    DecodesTo vtable fresh t client.client.mUid packetData q

/-- The sizes and offsets of a payload type, with the class of the clients. -/
theorem serverBound_layout (t : RedistType) : family t.ServerBound = .data [t.layout] ∧
    serverDataOffset t = 8 ∧ 8 + t.size ≤ sizeofClass t.ServerBound := by
  cases t <;> exact ⟨rfl, rfl, by decide⟩

/-- The sizes and offsets of a payload type, with the class of the server. -/
theorem clientBound_layout (t : RedistType) : family t.ClientBound = .data [uid, t.layout] ∧
    clientDataOffset t = 24 ∧ 24 + t.size ≤ sizeofClass t.ClientBound := by
  cases t <;> exact ⟨rfl, rfl, by decide⟩

/-- The payload has its size. -/
theorem length_serverGetData (t : RedistType) (packet : Buffer (sizeofClass t.ServerBound)) :
    (serverGetData t packet).length = t.size := by
  obtain ⟨-, hoffset, hsize⟩ := serverBound_layout t
  rw [serverGetData, hoffset, length_readBytes packet hsize]

/-- Objects with the same bytes behind the base have the same payload. -/
theorem serverGetData_congr {t : RedistType} {a b : Buffer (sizeofClass t.ServerBound)}
    (h : SameBytes a sizeofDataPacket b sizeofDataPacket (getSize t.ServerBound)) :
    serverGetData t a = serverGetData t b := by
  obtain ⟨-, hoffset, hsize⟩ := serverBound_layout t
  have hobject := sizeofDataPacket_add_getSize t.ServerBound
  have hbase : sizeofDataPacket = 8 := rfl
  rw [serverGetData, serverGetData, hoffset]
  exact readBytes_congr (fun j hj => h j (by omega)) hsize hsize

/-- Objects with the same bytes behind the base have the same sender. -/
theorem getSender_congr {t : RedistType} {a b : Buffer (sizeofClass t.ClientBound)}
    (h : SameBytes a sizeofDataPacket b sizeofDataPacket (getSize t.ClientBound)) :
    getSender t a = getSender t b := by
  obtain ⟨-, -, hsize⟩ := clientBound_layout t
  have hobject := sizeofDataPacket_add_getSize t.ClientBound
  have hbase : sizeofDataPacket = 8 := rfl
  have huid : uidOffset = 8 := rfl
  have hsame : readBytes a 8 16 = readBytes b 8 16 :=
    readBytes_congr (fun j hj => h j (by omega)) (by omega) (by omega)
  have hfirst : readNat a 8 8 = readNat b 8 8 := readNat_congr (i := 0) hsame (by omega)
  have hsecond : readNat a (8 + 8) 8 = readNat b (8 + 8) 8 := readNat_congr hsame (by omega)
  rw [getSender, getSender, huid, hfirst, hsecond]

/-- Objects with the same bytes behind the base have the same payload. -/
theorem clientGetData_congr {t : RedistType} {a b : Buffer (sizeofClass t.ClientBound)}
    (h : SameBytes a sizeofDataPacket b sizeofDataPacket (getSize t.ClientBound)) :
    clientGetData t a = clientGetData t b := by
  obtain ⟨-, hoffset, hsize⟩ := clientBound_layout t
  have hobject := sizeofDataPacket_add_getSize t.ClientBound
  have hbase : sizeofDataPacket = 8 := rfl
  rw [clientGetData, clientGetData, hoffset]
  refine readBytes_congr (fun j hj => ?_) hsize hsize
  have hbyte := h (16 + j) (by omega)
  have hindex : sizeofDataPacket + (16 + j) = 24 + j := by omega
  rwa [hindex] at hbyte

/-- A packet of the server carries its virtual table. -/
theorem clientBound_vptr (vtable : VTables) (t : RedistType)
    (stack : Buffer (sizeofClass t.ClientBound)) (uid : Uid) {packetData : List UInt8}
    (hlength : packetData.length = t.size) :
    (IPacket.data t.ClientBound (clientBound vtable t stack uid packetData)).vptr =
      vtable t.ClientBound := by
  obtain ⟨-, hoffset, hsize⟩ := clientBound_layout t
  have huid : uidOffset = 8 := rfl
  have hword : readBytes (clientBound vtable t stack uid packetData) 0 8 =
      readBytes (setVptr stack (vtable t.ClientBound)) 0 8 := by
    rw [clientBound, hoffset, huid, readBytes_writeBytes_of_disjoint _ (by omega) (by omega)
      (by omega), readBytes_writeNat_of_disjoint _ (by omega) (by omega) (by omega),
      readBytes_writeNat_of_disjoint _ (by omega) (by omega) (by omega)]
  funext i
  have hset := byteAt_setVptr stack (vtable t.ClientBound) i.val i.isLt
  have hentry : byteAt (vtable t.ClientBound) i.val = some (vtable t.ClientBound i) :=
    dif_pos i.isLt
  have hbyte : byteAt (clientBound vtable t stack uid packetData) (0 + i.val) =
      byteAt (setVptr stack (vtable t.ClientBound)) (0 + i.val) := by
    rw [← getElem?_readBytes _ (by omega) i.isLt, hword, getElem?_readBytes _ (by omega) i.isLt]
  rw [Nat.zero_add] at hbyte hset
  have hvalue : (byteAt (clientBound vtable t stack uid packetData) i.val).getD 0 =
      vtable t.ClientBound i := by
    rw [hbyte, hset, hentry, Option.getD_some]
  exact hvalue

/-- A packet of the server carries the user id that it is made with. -/
theorem getSender_clientBound (vtable : VTables) (t : RedistType)
    (stack : Buffer (sizeofClass t.ClientBound)) (uid : Uid) {packetData : List UInt8}
    (hlength : packetData.length = t.size) :
    getSender t (clientBound vtable t stack uid packetData) = uid := by
  obtain ⟨-, hoffset, hsize⟩ := clientBound_layout t
  have huid : uidOffset = 8 := rfl
  have hword0 := uid.word0.toNat_lt
  have hword1 := uid.word1.toNat_lt
  have hfirst : readNat (clientBound vtable t stack uid packetData) 8 8 = uid.word0.toNat := by
    rw [readNat, clientBound, hoffset, huid, readBytes_writeBytes_of_disjoint _ (by omega)
      (by omega) (by omega), readBytes_writeNat_of_disjoint _ (by omega) (by omega) (by omega)]
    exact readNat_writeNat _ (by omega) (by omega)
  have hsecond : readNat (clientBound vtable t stack uid packetData) (8 + 8) 8 =
      uid.word1.toNat := by
    rw [readNat, clientBound, hoffset, huid, readBytes_writeBytes_of_disjoint _ (by omega)
      (by omega) (by omega)]
    exact readNat_writeNat _ (by omega) (by omega)
  rw [getSender, huid, hfirst, hsecond, UInt64.ofNat_toNat, UInt64.ofNat_toNat]

/-- A packet of the server carries the payload that it is made with. -/
theorem clientGetData_clientBound (vtable : VTables) (t : RedistType)
    (stack : Buffer (sizeofClass t.ClientBound)) (uid : Uid) {packetData : List UInt8}
    (hlength : packetData.length = t.size) :
    clientGetData t (clientBound vtable t stack uid packetData) = packetData := by
  obtain ⟨-, hoffset, hsize⟩ := clientBound_layout t
  rw [clientGetData, clientBound, hoffset, ← hlength]
  exact readBytes_writeBytes _ (by omega)

/-- `sendPacketToAllExcept` of an object queues its payload to each other peer, on the channel
of its class. -/
theorem sendPacketToAllExcept_data {vtable : VTables} (hdistinct : Function.Injective vtable)
    (buf : (len : ℕ) → Buffer len) (s : Server) (except : ℕ) {T : ChannelType}
    {memory : Buffer (sizeofClass T)} (hvptr : (IPacket.data T memory).vptr = vtable T)
    (reliable : Bool) :
    sendPacketToAllExcept vtable buf s except (.data T memory) reliable =
      some ((s.mClients.filter fun node => node.ptr != except).map fun node =>
        ⟨node.client.mPeer, penetChannels.idxOf T, payload T memory, reliable⟩) := by
  have hlength := length_payload T memory
  obtain ⟨hwrites, -⟩ := writesExactly_data T memory (getSize T) (buf (getSize T))
  obtain ⟨built, hbuild, hbytes, -⟩ := hwrites (by omega)
  have hchannel : identifyType vtable (.data T memory) = some (penetChannels.idxOf T) := by
    rw [identifyType, hvptr, vtables]
    exact findIdx?_table hdistinct (mem_penetChannels T)
  rw [hlength] at hbytes
  have hsize : calcSize (.data T memory) = some (getSize T) := rfl
  rw [sendPacketToAllExcept, hsize, Option.bind_some, hbuild, Option.bind_some, hchannel, hbytes]
  exact List.mapM_pure

/-- An object is decoded by a client with the class, the sender and the payload it has. -/
theorem decodesTo_payload (vtable : VTables) (fresh : Fresh) {t : RedistType}
    {memory : Buffer (sizeofClass t.ClientBound)} {sender : Uid} {packetData : List UInt8}
    (hsender : getSender t memory = sender) (hdata : clientGetData t memory = packetData)
    (peer : ENetPeer) (reliable : Bool) :
    DecodesTo vtable fresh t sender packetData
      ⟨peer, penetChannels.idxOf t.ClientBound, payload t.ClientBound memory, reliable⟩ := by
  obtain ⟨hfamily, -, -⟩ := clientBound_layout t
  obtain ⟨decoded, hread, -, hsame⟩ := readPacket_payload vtable fresh hfamily memory
  refine ⟨readPacket vtable fresh t.ClientBound, decoded, ?_, hread, ?_, ?_⟩
  · rw [createFuncs, List.getElem?_map, List.getElem?_idxOf (mem_penetChannels _)]
    rfl
  · rw [← getSender_congr hsame, hsender]
  · rw [← clientGetData_congr hsame, hdata]

/-- A packet of a client reaches the server with its payload. -/
theorem arrives_data (vtable : VTables) (fresh : Fresh) (t : RedistType)
    (sent : Buffer (sizeofClass t.ServerBound)) :
    ∃ received, Arrives vtable fresh t sent received ∧
      serverGetData t received = serverGetData t sent := by
  obtain ⟨hfamily, -, -⟩ := serverBound_layout t
  obtain ⟨received, hread, -, hsame⟩ := readPacket_payload vtable fresh hfamily sent
  refine ⟨received, ⟨payload t.ServerBound sent, writesExactly_data _ sent, ?_, hread⟩,
    (serverGetData_congr hsame).symm⟩
  rw [length_payload]
  rfl

/-- `redistributePacket` queues one packet per other record. -/
theorem redistributePacket_eq {vtable : VTables} (hdistinct : Function.Injective vtable)
    (buf : (len : ℕ) → Buffer len) (t : RedistType)
    (stack : Buffer (sizeofClass t.ClientBound)) (s : Server)
    (packet : Buffer (sizeofClass t.ServerBound)) (client : ClientNode) :
    redistributePacket vtable buf t stack s packet client =
      some ((s.mClients.filter fun node => node.ptr != client.ptr).map fun node =>
        ⟨node.client.mPeer, penetChannels.idxOf t.ClientBound,
          payload t.ClientBound (clientBound vtable t stack client.client.mUid
            (serverGetData t packet)), t.Reliable⟩) :=
  sendPacketToAllExcept_data hdistinct buf s client.ptr
    (clientBound_vptr vtable t stack _ (length_serverGetData t packet)) t.Reliable

/-- The peers that a relay queues to. -/
theorem map_peer_relay (s : Server) (client : ClientNode) (channel : ℕ) (data : List UInt8)
    (reliable : Bool) :
    ((s.mClients.filter fun node => node.ptr != client.ptr).map fun node =>
        QueuedPacket.mk node.client.mPeer channel data reliable).map QueuedPacket.peer =
      (s.mClients.filter fun node => node.ptr != client.ptr).map fun node =>
        node.client.mPeer := by
  rw [List.map_map]
  rfl

/-- Among the records of a map, those at another place than a record's are the others. -/
theorem mem_others_iff {s : Server} (h : Mapped s) {node client : ClientNode}
    (hclient : client ∈ s.mClients) :
    (node ∈ s.mClients.filter fun other => other.ptr != client.ptr) ↔
      node ∈ s.mClients ∧ node ≠ client := by
  rw [List.mem_filter, bne_iff_ne]
  refine and_congr_right fun hnode => not_congr ⟨fun he => h.eq_of_ptr hnode hclient he, ?_⟩
  intro he
  rw [he]

/-- A packet that arrives has the payload that was put into it. -/
theorem Arrives.serverGetData_eq {vtable : VTables} {fresh : Fresh} {t : RedistType}
    {sent received : Buffer (sizeofClass t.ServerBound)}
    (h : Arrives vtable fresh t sent received) :
    serverGetData t received = serverGetData t sent := by
  obtain ⟨bytes, hwrites, -, hread⟩ := h
  obtain ⟨other, ⟨bytes', hwrites', -, hread'⟩, hdata⟩ := arrives_data vtable fresh t sent
  rw [writesExactly_unique hwrites hwrites', hread'] at hread
  cases hread
  exact hdata

/-- A server, a sender and another client, with what the server and that client have in memory. -/
structure Route (t : RedistType) where
  /-- The tables of the server. -/
  vtable : VTables
  /-- They are different. -/
  distinct : Function.Injective vtable
  /-- The memory of its packets. -/
  fresh : Fresh
  /-- The memory of what it builds. -/
  buf : (len : ℕ) → Buffer len
  /-- The memory of the packet that it makes. -/
  stack : Buffer (sizeofClass t.ClientBound)
  /-- The server. -/
  server : Server
  /-- Its table is a map. -/
  mapped : Mapped server
  /-- The sender. -/
  client : ClientNode
  /-- It is in the table. -/
  client_mem : client ∈ server.mClients
  /-- The other client. -/
  other : ClientNode
  /-- It is in the table. -/
  other_mem : other ∈ server.mClients
  /-- They are not the same. -/
  other_ne : other ≠ client
  /-- The tables of the other client. -/
  receiver : VTables
  /-- The memory of its packets. -/
  receiverFresh : Fresh

/-- The other client reads an object from what the server queues to it for a packet. -/
def Reaches {t : RedistType} (route : Route t) (sent : Buffer (sizeofClass t.ServerBound))
    (packet : Buffer (sizeofClass t.ClientBound)) : Prop :=
  ∃ received queued, Arrives route.vtable route.fresh t sent received ∧
    redistributePacket route.vtable route.buf t route.stack route.server received route.client =
      some queued ∧
    ∃ q ∈ queued, q.peer = route.other.client.mPeer ∧
      ∃ create, (createFuncs route.receiver route.receiverFresh)[q.channel]? = some create ∧
        create q.data = .ok ⟨.data t.ClientBound packet, 0⟩

/-- Every packet reaches the other client. -/
theorem exists_reaches {t : RedistType} (route : Route t)
    (sent : Buffer (sizeofClass t.ServerBound)) : ∃ packet, Reaches route sent packet := by
  obtain ⟨received, harrives, -⟩ := arrives_data route.vtable route.fresh t sent
  have hqueued := redistributePacket_eq route.distinct route.buf t route.stack route.server received
    route.client
  obtain ⟨create, packet, hcreate, hread, -⟩ := decodesTo_payload route.receiver
    route.receiverFresh (t := t) rfl rfl route.other.client.mPeer t.Reliable
  have hother := (mem_others_iff route.mapped route.client_mem).mpr
    ⟨route.other_mem, route.other_ne⟩
  exact ⟨packet, received, _, harrives, hqueued, _, List.mem_map_of_mem hother, rfl, create,
    hcreate, hread⟩

/-- What reaches the other client has the payload that was put into the packet. -/
theorem Reaches.clientGetData_eq {t : RedistType} {route : Route t}
    {sent : Buffer (sizeofClass t.ServerBound)} {packet : Buffer (sizeofClass t.ClientBound)}
    (h : Reaches route sent packet) : clientGetData t packet = serverGetData t sent := by
  obtain ⟨received, queued, harrives, hqueued, q, hq, -, create, hcreate, hread⟩ := h
  rw [redistributePacket_eq route.distinct, Option.some.injEq] at hqueued
  rw [← hqueued] at hq
  obtain ⟨node, -, rfl⟩ := List.mem_map.mp hq
  have hlength := length_serverGetData t received
  obtain ⟨create', packet', hcreate', hread', -, hdata⟩ := decodesTo_payload route.receiver
    route.receiverFresh rfl (clientGetData_clientBound route.vtable t route.stack
      route.client.client.mUid hlength) node.client.mPeer t.Reliable
  rw [hcreate', Option.some.injEq] at hcreate
  rw [← hcreate, hread'] at hread
  cases hread
  rw [hdata, harrives.serverGetData_eq]

/-- For every table that is a map, every sender in it and every payload that it puts into its
packet, the server queues one packet per other client over the channel of its own class, none
to the sender, and each is decoded as the sender's user id and payload. -/
theorem redistributes_exactly (vtable : VTables) (hdistinct : Function.Injective vtable)
    (fresh : Fresh) (buf : (len : ℕ) → Buffer len) (t : RedistType)
    (stack : Buffer (sizeofClass t.ClientBound)) (s : Server) (hmap : Mapped s)
    (client : ClientNode) (hclient : client ∈ s.mClients)
    (sent : Buffer (sizeofClass t.ServerBound)) :
    ∃ received, Arrives vtable fresh t sent received ∧
      ∃ queued, redistributePacket vtable buf t stack s received client = some queued ∧
        RelaysExactly s t client (serverGetData t sent) queued := by
  obtain ⟨received, harrives, hdata⟩ := arrives_data vtable fresh t sent
  have hlength := length_serverGetData t received
  have hothers : ∀ node, (node ∈ s.mClients.filter fun other => other.ptr != client.ptr) ↔
      node ∈ s.mClients ∧ node ≠ client := fun _ => mem_others_iff hmap hclient
  refine ⟨received, harrives, _, redistributePacket_eq hdistinct buf t stack s received client, ?_⟩
  constructor
  case others =>
    intro q hq
    obtain ⟨node, hnode, rfl⟩ := List.mem_map.mp hq
    obtain ⟨hmem, hne⟩ := (hothers node).mp hnode
    exact ⟨node, hmem, hne, rfl⟩
  case once =>
    intro node hmem hne
    have hnodup : ((s.mClients.filter fun other => other.ptr != client.ptr).map fun other =>
        other.client.mPeer).Nodup := hmap.peers.sublist (List.filter_sublist.map _)
    rw [map_peer_relay]
    exact List.count_eq_one_of_mem hnodup
      (List.mem_map_of_mem (f := fun other : ClientNode => other.client.mPeer)
        ((hothers node).mpr ⟨hmem, hne⟩))
  case sender =>
    rw [map_peer_relay]
    intro hmem
    obtain ⟨node, hnode, hpeer⟩ := List.mem_map.mp hmem
    obtain ⟨hnode, hne⟩ := (hothers node).mp hnode
    exact hne (hmap.eq_of_peer hnode hclient hpeer)
  case channel =>
    intro q hq
    obtain ⟨node, -, rfl⟩ := List.mem_map.mp hq
    exact ⟨rfl, rfl⟩
  case decodes =>
    intro receiver fresh' q hq
    obtain ⟨node, -, rfl⟩ := List.mem_map.mp hq
    exact decodesTo_payload receiver fresh' (getSender_clientBound vtable t stack _ hlength)
      ((clientGetData_clientBound vtable t stack _ hlength).trans hdata) _ _

/-- The table of clients in different slots whose addresses have different hashes is a map. -/
theorem mapped_serverWith {slots : List ℕ} (hslots : slots.Nodup)
    (hhashes : (slots.map fun slot => calcEnetAddressHashCode (peerAt slot).address).Nodup) :
    Mapped (serverWith slots) := by
  constructor
  · rw [serverWith, List.map_map]
    exact hhashes
  · rw [serverWith, List.map_map]
    exact hslots.map fun _ _ h => h
  · intro node hnode
    obtain ⟨slot, -, rfl⟩ := List.mem_map.mp hnode
    rfl

/-- The middle one of three clients. -/
def middleClient : ClientNode :=
  ⟨calcEnetAddressHashCode (peerAt 1).address, 1,
    { mPeer := peerAt 1, mHasGreeting := true, mUid := ⟨1, 0⟩ }⟩

/-- An action of one of three clients. -/
theorem redistributes_exactly_action :
    ∃ received, Arrives numberedTables (fun _ => Buffer.zero _) .Action
        (fun i => UInt8.ofNat i.val) received ∧
      ∃ queued, redistributePacket numberedTables Buffer.zero .Action (Buffer.zero _)
          (serverWith [0, 1, 2]) received middleClient = some queued ∧
        RelaysExactly (serverWith [0, 1, 2]) .Action middleClient
          (serverGetData .Action fun i => UInt8.ofNat i.val) queued :=
  redistributes_exactly numberedTables numberedTables_injective (fun _ => Buffer.zero _)
    Buffer.zero .Action (Buffer.zero _) (serverWith [0, 1, 2])
    (mapped_serverWith (by decide) (by decide)) middleClient
    (List.mem_map.mpr ⟨1, by decide, rfl⟩) fun i => UInt8.ofNat i.val

end BfMultiplayer.PacketRelay

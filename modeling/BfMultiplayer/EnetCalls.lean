import BfMultiplayer.Channels
import BfMultiplayer.ServerHandlers

/-!
# What the network functions do to locks and packets

Each function of the two programs that takes a lock or handles ENet packets, as
the list of its calls on locks and packets in order. What ENet answers is an
input: the events of the host, and whether a packet could be queued to a peer.
The handler of a received packet appears by the sends it makes. A call that
aborts the process is no execution.
-/

namespace BfMultiplayer.EnetCalls

open Packets ServerState ServerHandlers Channels

/-- The two recursive locks. -/
inductive Mutex where
  /-- `NetClient::mClientCS`. -/
  | mClientCS
  /-- `Server::mEnetMutex`. -/
  | mEnetMutex
  deriving DecidableEq

/-- A call on a lock or a packet. -/
inductive EnetCall where
  /-- `lock`, or a successful `tryLock`. -/
  | lock (mutex : Mutex)
  /-- `unlock`. -/
  | unlock (mutex : Mutex)
  /-- `enet_packet_create`. -/
  | packetCreate (packet : ℕ)
  /-- `enet_host_broadcast`, which takes the packet over in any case. -/
  | hostBroadcast (packet : ℕ)
  /-- `enet_peer_send`, and whether the packet was queued. -/
  | peerSend (peer : ENetPeer) (packet : ℕ) (queued : Bool)
  /-- `enet_host_service` returned a received packet. -/
  | packetReceived (packet : ℕ)
  /-- `enet_packet_destroy`. -/
  | packetDestroy (packet : ℕ)
  deriving DecidableEq

section Server

/-- `Server::sendPacketToAll`. -/
def sendPacketToAll (packet : ℕ) : List EnetCall :=
  [.lock .mEnetMutex, .packetCreate packet, .hostBroadcast packet, .unlock .mEnetMutex]

/-- `Server::sendPacketToAllExcept`. -/
def sendPacketToAllExcept (s : Server) (except packet : ℕ) (queued : ClientNode → Bool) :
    List EnetCall :=
  [.lock .mEnetMutex, .packetCreate packet] ++
    (s.mClients.filter fun node => node.ptr != except).map
      (fun node => .peerSend node.client.mPeer packet (queued node)) ++
    [.unlock .mEnetMutex]

/-- `Client::sendPacket`. -/
def clientSendPacket (s : Server) (client : Client) (packet : ℕ) (queued : Bool) : List EnetCall :=
  if client.mPeer ∈ s.peers then [.packetCreate packet, .peerSend client.mPeer packet queued] else []

/-- A send made by a handler of the server. -/
inductive Send where
  /-- `Server::sendPacketToAll`. -/
  | toAll (packet : ℕ)
  /-- `Server::sendPacketToAllExcept`. -/
  | toAllExcept (except packet : ℕ) (queued : ClientNode → Bool)
  /-- `Client::sendPacket`. -/
  | toClient (client : Client) (packet : ℕ) (queued : Bool)

/-- The calls of a send. -/
def Send.calls (s : Server) : Send → List EnetCall
  | .toAll packet => sendPacketToAll packet
  | .toAllExcept except packet queued => sendPacketToAllExcept s except packet queued
  | .toClient client packet queued => clientSendPacket s client packet queued

/-- An event of the server's host, with the packet that is received or, on a
disconnection, the list packet that is created, and the sends of the handler. -/
structure ServiceEvent where
  /-- The event. -/
  event : ENetEvent
  /-- Its packet. -/
  packet : ℕ
  /-- What the handler sends. -/
  sends : List Send

/-- Whether a packet is the greeting. -/
def isHello : ServerBound → Bool
  | .hello _ => true
  | _ => false

/-- One round of the loop of `Server::exeService`. -/
def ServiceEvent.calls (s : Server) (e : ServiceEvent) : List EnetCall :=
  match e.event with
  | .connect _ _ => []
  | .receive peer packet _ =>
    match s.find? (calcEnetAddressHashCode peer.address) with
    | none => [.packetReceived e.packet]
    | some node =>
      if isHello packet || node.client.mHasGreeting then
        [.packetReceived e.packet] ++ e.sends.flatMap (Send.calls s) ++ [.packetDestroy e.packet]
      else [.packetReceived e.packet, .packetDestroy e.packet]
  | .disconnect peer =>
    if s.contains (calcEnetAddressHashCode peer.address) then sendPacketToAll e.packet else []

/-- The server after an event. A save chunk that is copied outside its arrays
leaves the table of clients alone. -/
def ServiceEvent.next (s : Server) (e : ServiceEvent) : Server := (serviceStep s e.event).getD s

/-- The loop of `Server::exeService`. -/
def serviceLoop (s : Server) : List ServiceEvent → List EnetCall
  | [] => []
  | e :: events => e.calls s ++ serviceLoop (e.next s) events

/-- `Server::exeService`, with or without a host. -/
def serverExeService (s : Server) (hostLive : Bool) (events : List ServiceEvent) : List EnetCall :=
  if hostLive then [.lock .mEnetMutex] ++ serviceLoop s events ++ [.unlock .mEnetMutex] else []

/-- `Server::exeStartup`, by whether ENet is initialised and the host created. -/
def exeStartup (isFirstStep initialized created : Bool) : List EnetCall :=
  if isFirstStep then
    if !initialized then [.lock .mEnetMutex]
    else if !created then [.lock .mEnetMutex]
    else [.lock .mEnetMutex, .unlock .mEnetMutex]
  else []

end Server

section Client

/-- A call of `NetClient::sendPacket`: the peer, if there is one, whether it is
connected, the packet, and whether it could be queued. -/
structure ClientSend where
  /-- `mServerPeer`. -/
  mServerPeer : Option ENetPeer
  /-- Its state is `ENET_PEER_STATE_CONNECTED`. -/
  connected : Bool
  /-- The packet to be created. -/
  packet : ℕ
  /-- The answer of `enet_peer_send`. -/
  queued : Bool

/-- `NetClient::sendPacket`. -/
def netSendPacket (send : ClientSend) : List EnetCall :=
  match send.mServerPeer with
  | none => []
  | some peer =>
    if send.connected then
      [.lock .mClientCS, .packetCreate send.packet, .peerSend peer send.packet send.queued,
        .unlock .mClientCS]
    else []

/-- `NetClient::disconnect`. -/
def disconnect : List EnetCall := [.lock .mClientCS, .unlock .mClientCS]

/-- An event of the client's host, with the sends of its handler, or of the log
line that the client writes instead. -/
inductive ClientEvent where
  /-- The server answered, with the figure that `onConnect` sends in `exeService`. -/
  | connect (figure : ClientSend)
  /-- A packet arrived. -/
  | receive (channelID packet : ℕ) (sends : List ClientSend)
  /-- The server disconnected. -/
  | disconnect (sends : List ClientSend)

/-- One round of the loop of `NetClient::exeConnect`. -/
def ClientEvent.connectCalls : ClientEvent → List EnetCall
  | .receive _ packet _ => [.packetReceived packet]
  | _ => []

/-- `NetClient::exeConnect`: whether it has a host after the attempt to create
one, and whether `enet_host_connect` returned a peer. -/
def exeConnect (isFirstStep hostLive connecting : Bool) (events : List ClientEvent) :
    List EnetCall :=
  if isFirstStep && !connecting then [.lock .mClientCS]
  else if !hostLive then [.lock .mClientCS, .unlock .mClientCS]
  else [.lock .mClientCS] ++ events.flatMap ClientEvent.connectCalls ++ [.unlock .mClientCS]

/-- The loop of `NetClient::exeService` up to its end or its return. -/
def clientLoop : List ClientEvent → List EnetCall
  | [] => [.unlock .mClientCS]
  | .connect figure :: events => netSendPacket figure ++ clientLoop events
  | .receive channelID packet sends :: events =>
    if channelCount < channelID then
      [.packetReceived packet] ++ sends.flatMap netSendPacket ++ clientLoop events
    else
      [.packetReceived packet] ++ sends.flatMap netSendPacket ++ [.packetDestroy packet] ++
        clientLoop events
  | .disconnect sends :: _ => sends.flatMap netSendPacket ++ [.unlock .mClientCS]

/-- `NetClient::sMaxPacketsPerStep`. -/
def sMaxPacketsPerStep : ℕ := 32

/-- `NetClient::exeService`: the sends of its first step, whether `tryLock`
succeeds, whether it has a host, and the events. -/
def clientExeService (greeting : List ClientSend) (tryLock hostLive : Bool)
    (events : List ClientEvent) : List EnetCall :=
  greeting.flatMap netSendPacket ++
    if !tryLock then []
    else if !hostLive then [.lock .mClientCS, .unlock .mClientCS]
    else [.lock .mClientCS] ++ clientLoop (events.take sMaxPacketsPerStep)

end Client

/-- A complete execution of one of the functions. -/
inductive Execution where
  | sendPacketToAll (packet : ℕ)
  | sendPacketToAllExcept (s : Server) (except packet : ℕ) (queued : ClientNode → Bool)
  | clientSendPacket (s : Server) (client : Client) (packet : ℕ) (queued : Bool)
  | exeStartup (isFirstStep initialized created : Bool)
  | serverExeService (s : Server) (hostLive : Bool) (events : List ServiceEvent)
  | netSendPacket (send : ClientSend)
  | disconnect
  | exeConnect (isFirstStep hostLive connecting : Bool) (events : List ClientEvent)
  | clientExeService (greeting : List ClientSend) (tryLock hostLive : Bool)
      (events : List ClientEvent)

/-- The calls of an execution. -/
def Execution.calls : Execution → List EnetCall
  | .sendPacketToAll packet => EnetCalls.sendPacketToAll packet
  | .sendPacketToAllExcept s except packet queued =>
    EnetCalls.sendPacketToAllExcept s except packet queued
  | .clientSendPacket s client packet queued => EnetCalls.clientSendPacket s client packet queued
  | .exeStartup isFirstStep initialized created =>
    EnetCalls.exeStartup isFirstStep initialized created
  | .serverExeService s hostLive events => EnetCalls.serverExeService s hostLive events
  | .netSendPacket send => EnetCalls.netSendPacket send
  | .disconnect => EnetCalls.disconnect
  | .exeConnect isFirstStep hostLive connecting events =>
    EnetCalls.exeConnect isFirstStep hostLive connecting events
  | .clientExeService greeting tryLock hostLive events =>
    EnetCalls.clientExeService greeting tryLock hostLive events

end BfMultiplayer.EnetCalls

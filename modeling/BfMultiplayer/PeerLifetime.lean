import BfMultiplayer.GuardedRuns
import BfMultiplayer.RecursiveLock
import Mathlib.Logic.Function.Basic

/-!
# Dead peers and hosts of the client

The client has one host and one peer of it. `disconnect` and `exeConnect` destroy
them under the lock. `sendPacket` checks the peer before it takes the lock: what
it has checked may be gone when it looks at the state of the peer, and again when
it sends. The network thread itself calls ENet without a host when none could be
created.
-/

namespace BfMultiplayer.PeerLifetime

open GuardedRuns RecursiveLock

/-- A thread of the client. -/
inductive Thread where
  /-- The thread of `NetClient::threadFunc`. -/
  | net
  /-- The thread of the menu. -/
  | menu
  /-- Any other thread that sends packets. -/
  | other (id : ℕ)
  deriving DecidableEq

/-- Where a thread is in `NetClient::sendPacket`. -/
inductive SendPc where
  /-- Outside. -/
  | idle
  /-- The peer was not null; its state is read next. -/
  | nonNull
  /-- The peer was connected; the lock is taken next. -/
  | connected
  /-- With the lock; the packet is sent next. -/
  | sending
  /-- The lock is left next. -/
  | sent
  deriving DecidableEq

/-- Where the network thread is. -/
inductive NetPc where
  /-- Outside `exeConnect` and `exeService`. -/
  | idle
  /-- At the start of `exeConnect`, with the lock. -/
  | connectLocked
  /-- The old host is destroyed; `enet_host_create` is next. -/
  | hostDestroyed
  /-- `enet_host_create` has returned a host, or null; `enet_host_connect` is next. -/
  | hostCreated (created : Bool)
  /-- `checkStall` of `exeConnect` is next. -/
  | connectChecked
  /-- In the loop of `exeConnect`. -/
  | connectServicing
  /-- In the first step of `exeService`, without the lock. -/
  | greeting
  /-- `checkStall` of `exeService` is next. -/
  | serviceLocked
  /-- In the loop of `exeService`. -/
  | servicing
  deriving DecidableEq

/-- Where the menu is in `NetClient::disconnect`. -/
inductive MenuPc where
  /-- Outside. -/
  | idle
  /-- With the lock. -/
  | locked
  /-- The peer is gone; the host is next. -/
  | peerCleared
  /-- Both are gone; the lock is left next. -/
  | hostCleared
  deriving DecidableEq

/-- The client. A host is its number, and a peer the number of its host. -/
structure PeerSystem where
  /-- `mClient`. -/
  mClient : Option ℕ
  /-- The host that ENet has alive. -/
  live : Option ℕ
  /-- The host of `mServerPeer`. -/
  mServerPeer : Option ℕ
  /-- The number of the next host. -/
  nextHost : ℕ
  /-- `mClientCS`. -/
  lock : Lock Thread
  /-- The network thread. -/
  net : NetPc
  /-- The menu. -/
  menu : MenuPc
  /-- All threads in `sendPacket`. -/
  sends : Thread → SendPc

/-- A step of a thread. -/
inductive PeerAction where
  /-- `exeConnect` takes the lock. -/
  | beginConnect
  /-- In its first step it destroys the old host. -/
  | destroyHost
  /-- In a later step it does not. -/
  | laterStep
  /-- `enet_host_create` returns a host or null. -/
  | createHost (created : Bool)
  /-- `enet_host_connect` returns a peer or null. -/
  | connectHost (connecting : Bool)
  /-- `checkStall`. -/
  | checkStall
  /-- `enet_host_service`. -/
  | service
  /-- The end of the loop, or the return after a disconnection. -/
  | endStep
  /-- `exeService` starts. -/
  | beginService
  /-- `tryLock` of `exeService`. -/
  | tryLock
  /-- `disconnect` takes the lock. -/
  | lockDisconnect
  /-- It disconnects the peer and sets it to null. -/
  | clearPeer
  /-- It flushes and destroys the host and sets it to null. -/
  | destroyClient
  /-- It leaves the lock. -/
  | unlockDisconnect
  /-- `sendPacket` compares the peer with null. -/
  | nullCheck (thread : Thread)
  /-- It reads the state of the peer. -/
  | stateCheck (thread : Thread) (connected : Bool)
  /-- It takes the lock. -/
  | lockSend (thread : Thread)
  /-- `enet_peer_send`. -/
  | peerSend (thread : Thread)
  /-- It leaves the lock. -/
  | unlockSend (thread : Thread)
  deriving DecidableEq

/-- The places of the network thread at which it calls `sendPacket`. -/
def NetPc.calls : NetPc → Bool
  | .greeting => true
  | .servicing => true
  | _ => false

/-- Between the destruction of the old host and `enet_host_connect`. -/
def NetPc.recreating : NetPc → Bool
  | .hostDestroyed => true
  | .hostCreated _ => true
  | _ => false

/-- In one of the loops. -/
def NetPc.services : NetPc → Bool
  | .connectServicing => true
  | .servicing => true
  | _ => false

/-- How often the network thread holds the lock at a place, `sendPacket` aside. -/
def NetPc.locks : NetPc → ℕ
  | .idle => 0
  | .greeting => 0
  | _ => 1

/-- How often the menu does. -/
def MenuPc.locks : MenuPc → ℕ
  | .idle => 0
  | _ => 1

/-- How often a thread does inside `sendPacket`. -/
def SendPc.locks : SendPc → ℕ
  | .sending => 1
  | .sent => 1
  | _ => 0

/-- Whether a thread can call `sendPacket`. -/
def PeerSystem.canSend (sys : PeerSystem) : Thread → Bool
  | .net => sys.net.calls
  | .menu => sys.menu == .idle
  | .other _ => true

/-- A thread moves on in `sendPacket`. -/
def PeerSystem.moveSend (sys : PeerSystem) (thread : Thread) (pc : SendPc) : PeerSystem :=
  { sys with sends := Function.update sys.sends thread pc }

/-- The steps of the network thread. -/
def netStep (sys : PeerSystem) : PeerAction → Option PeerSystem
  | .beginConnect =>
    match sys.net with
    | .idle => (sys.lock.acquire .net).map fun lock => { sys with lock := lock, net := .connectLocked }
    | _ => none
  | .destroyHost =>
    match sys.net with
    | .connectLocked => some { sys with
        live := if sys.mClient.isSome then none else sys.live
        net := .hostDestroyed }
    | _ => none
  | .laterStep =>
    match sys.net with
    | .connectLocked => some { sys with net := .connectChecked }
    | _ => none
  | .createHost created =>
    match sys.net with
    | .hostDestroyed =>
      let host := if created then some sys.nextHost else none
      some { sys with
        mClient := host
        live := host
        nextHost := sys.nextHost + 1
        net := .hostCreated created }
    | _ => none
  | .connectHost connecting =>
    match sys.net with
    | .hostCreated _ =>
      -- the return after null leaves the lock taken
      some { sys with
        mServerPeer := if connecting then sys.mClient else none
        net := if connecting then .connectChecked else .idle }
    | _ => none
  | .checkStall =>
    let next (loop : NetPc) : PeerSystem :=
      if sys.mClient.isSome then { sys with net := loop }
      else { sys with lock := sys.lock.release, net := .idle }
    match sys.net with
    | .connectChecked => some (next .connectServicing)
    | .serviceLocked => some (next .servicing)
    | _ => none
  | .service => if sys.net.services then some sys else none
  | .endStep =>
    if sys.net.services then some { sys with lock := sys.lock.release, net := .idle } else none
  | .beginService =>
    match sys.net with
    | .idle => some { sys with net := .greeting }
    | _ => none
  | .tryLock =>
    match sys.net with
    | .greeting =>
      match sys.lock.acquire .net with
      | some lock => some { sys with lock := lock, net := .serviceLocked }
      | none => some { sys with net := .idle }
    | _ => none
  | _ => none

/-- The steps of the menu. -/
def menuStep (sys : PeerSystem) : PeerAction → Option PeerSystem
  | .lockDisconnect =>
    match sys.menu with
    | .idle => (sys.lock.acquire .menu).map fun lock => { sys with lock := lock, menu := .locked }
    | _ => none
  | .clearPeer =>
    match sys.menu with
    | .locked => some { sys with mServerPeer := none, menu := .peerCleared }
    | _ => none
  | .destroyClient =>
    match sys.menu with
    | .peerCleared => some { sys with
        mClient := none
        live := if sys.mClient.isSome then none else sys.live
        menu := .hostCleared }
    | _ => none
  | .unlockDisconnect =>
    match sys.menu with
    | .hostCleared => some { sys with lock := sys.lock.release, menu := .idle }
    | _ => none
  | _ => none

/-- The steps of `sendPacket`. -/
def sendStep (sys : PeerSystem) : PeerAction → Option PeerSystem
  | .nullCheck thread =>
    if sys.canSend thread && sys.sends thread == .idle then
      some (if sys.mServerPeer.isSome then sys.moveSend thread .nonNull else sys)
    else none
  | .stateCheck thread connected =>
    if sys.sends thread = .nonNull then
      some (sys.moveSend thread (if connected then .connected else .idle))
    else none
  | .lockSend thread =>
    if sys.sends thread = .connected then
      (sys.lock.acquire thread).map fun lock => { sys.moveSend thread .sending with lock := lock }
    else none
  | .peerSend thread =>
    if sys.sends thread = .sending then some (sys.moveSend thread .sent) else none
  | .unlockSend thread =>
    if sys.sends thread = .sent then
      some { sys.moveSend thread .idle with lock := sys.lock.release }
    else none
  | _ => none

/-- The step function. A thread inside `sendPacket` first comes to its end. -/
def peerStep (sys : PeerSystem) (action : PeerAction) : Option PeerSystem :=
  match action with
  | .nullCheck _ => sendStep sys action
  | .stateCheck _ _ => sendStep sys action
  | .lockSend _ => sendStep sys action
  | .peerSend _ => sendStep sys action
  | .unlockSend _ => sendStep sys action
  | .lockDisconnect => if sys.sends .menu = .idle then menuStep sys action else none
  | .clearPeer => if sys.sends .menu = .idle then menuStep sys action else none
  | .destroyClient => if sys.sends .menu = .idle then menuStep sys action else none
  | .unlockDisconnect => if sys.sends .menu = .idle then menuStep sys action else none
  | _ => if sys.sends .net = .idle then netStep sys action else none

/-- The client before its first connection. -/
def PeerSystem.start : PeerSystem := ⟨none, none, none, 0, .free, .idle, .idle, fun _ => .idle⟩

/-- `mServerPeer` is not null and a peer of the live host. -/
def PeerSystem.PeerLive (sys : PeerSystem) : Prop :=
  sys.mServerPeer.isSome = true ∧ sys.mServerPeer = sys.live

/-- `mClient` is not null and the live host. -/
def PeerSystem.HostLive (sys : PeerSystem) : Prop :=
  sys.mClient.isSome = true ∧ sys.mClient = sys.live

instance (sys : PeerSystem) : Decidable sys.PeerLive := inferInstanceAs (Decidable (_ ∧ _))

instance (sys : PeerSystem) : Decidable sys.HostLive := inferInstanceAs (Decidable (_ ∧ _))

/-- A step uses live peers and hosts only. -/
def UsesLive (sys : PeerSystem) : PeerAction → Prop
  | .destroyHost => sys.net = .connectLocked → sys.mClient.isSome = true → sys.HostLive
  | .connectHost _ => ∀ created, sys.net = .hostCreated created → sys.HostLive
  | .service => sys.net.services = true → sys.HostLive
  | .clearPeer => sys.menu = .locked → sys.mServerPeer.isSome = true → sys.PeerLive
  | .destroyClient => sys.menu = .peerCleared → sys.mClient.isSome = true → sys.HostLive
  | .stateCheck thread _ => sys.sends thread = .nonNull → sys.PeerLive
  | .peerSend thread => sys.sends thread = .sending → sys.PeerLive
  | _ => True

/-- The condition on a step: a host could be created, and where `sendPacket` reads
or uses the peer it has not become null, and for its state no new host is being made. -/
def StillConnected (sys : PeerSystem) : PeerAction → Prop
  | .connectHost _ => sys.net ≠ .hostCreated false
  | .stateCheck thread _ => sys.sends thread = .nonNull →
      sys.mServerPeer.isSome = true ∧ sys.net.recreating = false
  | .peerSend thread => sys.sends thread = .sending → sys.mServerPeer.isSome = true
  | _ => True

instance (sys : PeerSystem) : ∀ action, Decidable (UsesLive sys action)
  | .beginConnect => isTrue trivial
  | .destroyHost => inferInstanceAs (Decidable (_ → _))
  | .laterStep => isTrue trivial
  | .createHost _ => isTrue trivial
  | .connectHost _ => inferInstanceAs (Decidable (∀ _ : Bool, _ → _))
  | .checkStall => isTrue trivial
  | .service => inferInstanceAs (Decidable (_ → _))
  | .endStep => isTrue trivial
  | .beginService => isTrue trivial
  | .tryLock => isTrue trivial
  | .lockDisconnect => isTrue trivial
  | .clearPeer => inferInstanceAs (Decidable (_ → _))
  | .destroyClient => inferInstanceAs (Decidable (_ → _))
  | .unlockDisconnect => isTrue trivial
  | .nullCheck _ => isTrue trivial
  | .stateCheck _ _ => inferInstanceAs (Decidable (_ → _))
  | .lockSend _ => isTrue trivial
  | .peerSend _ => inferInstanceAs (Decidable (_ → _))
  | .unlockSend _ => isTrue trivial

/-- How often a thread has to hold the lock where it is. -/
def PeerSystem.locks (sys : PeerSystem) (thread : Thread) : ℕ :=
  (sys.sends thread).locks + match thread with
    | .net => sys.net.locks
    | .menu => sys.menu.locks
    | .other _ => 0

/-- Each thread holds the lock where it has to. The network thread may hold it more
often, since `exeConnect` can return with it. -/
def LocksHeld (sys : PeerSystem) : Prop := ∀ thread, sys.locks thread ≤ sys.lock.holds thread

/-- What holds of the hosts and of the peer between two steps. -/
structure HostInv (sys : PeerSystem) : Prop where
  /-- The client has the live host, except when it has just destroyed it. -/
  client : sys.net ≠ .hostDestroyed → sys.mClient = sys.live
  /-- Then none is alive. -/
  destroyed : sys.net = .hostDestroyed → sys.live = none
  /-- The outcome of `enet_host_create`. -/
  created : ∀ created, sys.net = .hostCreated created → sys.mClient.isSome = created
  /-- The peer is one of the live host. -/
  peer : sys.net.recreating = false → ∀ host, sys.mServerPeer = some host → sys.live = some host
  /-- While a new host is made, it is one of a dead host. -/
  stale : sys.net.recreating = true → ∀ host, sys.mServerPeer = some host → sys.live ≠ some host
  /-- The loops have a host. -/
  services : sys.net.services = true → sys.mClient.isSome = true
  /-- Between the two halves of `disconnect` there is no peer. -/
  cleared : sys.menu = .peerCleared → sys.mServerPeer = none
  /-- Hosts are numbered in the order in which they are made. -/
  known : ∀ host, sys.mServerPeer = some host ∨ sys.live = some host → host < sys.nextHost

/-- What holds between two steps. -/
structure PeerInv (sys : PeerSystem) : Prop where
  /-- The lock. -/
  locked : LocksHeld sys
  /-- The hosts and the peer. -/
  hosts : HostInv sys
  /-- The network thread sends in `exeService` only. -/
  sending : sys.sends .net ≠ .idle → sys.net.calls = true

section Lock

variable {sys sys' : PeerSystem} {thread : Thread}

/-- A step that leaves the lock alone. -/
theorem LocksHeld.of_same (h : LocksHeld sys) (hlock : sys'.lock = sys.lock)
    (hlocks : ∀ thread, sys'.locks thread ≤ sys.locks thread) : LocksHeld sys' := by
  intro thread
  rw [hlock]
  exact Nat.le_trans (hlocks thread) (h thread)

/-- A step of a thread that takes the lock. -/
theorem LocksHeld.of_acquire (h : LocksHeld sys) (hlock : sys.lock.acquire thread = some sys'.lock)
    (hself : sys'.locks thread ≤ sys.locks thread + 1)
    (hothers : ∀ other, other ≠ thread → sys'.locks other ≤ sys.locks other) : LocksHeld sys' := by
  obtain ⟨hholds, hsame⟩ := holds_acquire hlock
  intro other
  by_cases hother : other = thread
  · have hbefore := h thread
    rw [hother, hholds]
    omega
  · rw [hsame other hother]
    exact Nat.le_trans (hothers other hother) (h other)

/-- A step of a thread that leaves the lock. -/
theorem LocksHeld.of_release (h : LocksHeld sys) (hlock : sys'.lock = sys.lock.release)
    (hself : sys'.locks thread + 1 ≤ sys.locks thread)
    (hothers : ∀ other, other ≠ thread → sys'.locks other ≤ sys.locks other) : LocksHeld sys' := by
  have hbefore := h thread
  obtain ⟨hholds, hsame⟩ := holds_release (by omega : 0 < sys.lock.holds thread)
  intro other
  rw [hlock]
  by_cases hother : other = thread
  · rw [hother]
    omega
  · rw [hsame other hother]
    exact Nat.le_trans (hothers other hother) (h other)

/-- Where one thread has to hold the lock, no other one has to. -/
theorem LocksHeld.exclusive (h : LocksHeld sys) (hthread : 0 < sys.locks thread) {other : Thread}
    (hne : other ≠ thread) : sys.locks other = 0 := by
  have hholds : 0 < sys.lock.holds thread := Nat.lt_of_lt_of_le hthread (h thread)
  have hother := h other
  rw [holds_exclusive hholds hne] at hother
  omega

/-- While another thread has to hold the lock, no host is being made and no loop
runs. -/
theorem LocksHeld.net_outside (h : LocksHeld sys) (hthread : 0 < sys.locks thread)
    (hne : thread ≠ .net) : sys.net.recreating = false ∧ sys.net.services = false := by
  have hnet := h.exclusive hthread hne.symm
  simp only [PeerSystem.locks] at hnet
  have hzero : sys.net.locks = 0 := by omega
  cases hpc : sys.net <;> rw [hpc] at hzero <;> first | exact ⟨rfl, rfl⟩ | cases hzero

end Lock

section Hosts

variable {sys sys' : PeerSystem}

/-- A step that changes no host and no peer, and leaves the network thread where it is. -/
theorem HostInv.of_same (h : HostInv sys) (hclient : sys'.mClient = sys.mClient)
    (hlive : sys'.live = sys.live) (hpeer : sys'.mServerPeer = sys.mServerPeer)
    (hnext : sys'.nextHost = sys.nextHost) (hnet : sys'.net = sys.net)
    (hmenu : sys'.menu = .peerCleared → sys.menu = .peerCleared) : HostInv sys' := by
  constructor
  · rw [hnet, hclient, hlive]
    exact h.client
  · rw [hnet, hlive]
    exact h.destroyed
  · rw [hnet, hclient]
    exact h.created
  · rw [hnet, hpeer, hlive]
    exact h.peer
  · rw [hnet, hpeer, hlive]
    exact h.stale
  · rw [hnet, hclient]
    exact h.services
  · rw [hpeer]
    exact fun hm => h.cleared (hmenu hm)
  · rw [hpeer, hlive, hnext]
    exact h.known

/-- A step of the network thread that changes no host and no peer. -/
theorem HostInv.of_move (h : HostInv sys) (hclient : sys'.mClient = sys.mClient)
    (hlive : sys'.live = sys.live) (hpeer : sys'.mServerPeer = sys.mServerPeer)
    (hnext : sys'.nextHost = sys.nextHost) (hmenu : sys'.menu = sys.menu)
    (hold : sys.net.recreating = false) (hnew : sys'.net.recreating = false)
    (hservices : sys'.net.services = true → sys.mClient.isSome = true) : HostInv sys' := by
  have hnot : ∀ {pc : NetPc}, pc.recreating = false → pc ≠ .hostDestroyed :=
    fun hpc he => by rw [he] at hpc; cases hpc
  constructor
  · rw [hclient, hlive]
    exact fun _ => h.client (hnot hold)
  · exact fun he => absurd he (hnot hnew)
  · intro created he
    rw [he] at hnew
    cases hnew
  · rw [hpeer, hlive]
    exact fun _ => h.peer hold
  · intro he
    rw [hnew] at he
    cases he
  · rw [hclient]
    exact hservices
  · rw [hmenu, hpeer]
    exact h.cleared
  · rw [hpeer, hlive, hnext]
    exact h.known

/-- The old host is destroyed. -/
theorem hostInv_destroyHost (h : HostInv sys) (hnet : sys.net = .connectLocked) :
    HostInv { sys with
      live := if sys.mClient.isSome then none else sys.live
      net := .hostDestroyed } := by
  have hsame := h.client (by rw [hnet]; exact fun he => by cases he)
  have hdead : (if sys.mClient.isSome then none else sys.live) = none := by
    rw [← hsame]
    cases sys.mClient <;> rfl
  constructor
  · exact fun he => absurd rfl he
  · exact fun _ => hdead
  · exact fun _ he => by cases he
  · exact fun he => by cases he
  · intro _ host _ he
    rw [hdead] at he
    cases he
  · exact fun he => by cases he
  · exact h.cleared
  · intro host he
    rw [hdead] at he
    exact h.known host (he.imp_right fun hnone => by cases hnone)

/-- A host is created, or none. -/
theorem hostInv_createHost (h : HostInv sys) (created : Bool) :
    HostInv { sys with
      mClient := if created then some sys.nextHost else none
      live := if created then some sys.nextHost else none
      nextHost := sys.nextHost + 1
      net := .hostCreated created } := by
  constructor
  · exact fun _ => rfl
  · exact fun he => by cases he
  · intro other he
    cases he
    cases created <;> rfl
  · exact fun he => by cases he
  · intro _ host hpeer he
    have hlt := h.known host (Or.inl hpeer)
    cases created with
    | false => cases he
    | true =>
      have heq : sys.nextHost = host := Option.some.inj he
      omega
  · exact fun he => by cases he
  · exact h.cleared
  · intro host he
    dsimp only at he ⊢
    rcases he with hpeer | hlive
    · have hlt := h.known host (Or.inl hpeer)
      omega
    · cases created with
      | false => cases hlive
      | true =>
        have heq : sys.nextHost = host := Option.some.inj hlive
        omega

/-- A peer of the new host is taken, or none. -/
theorem hostInv_connectHost (h : HostInv sys) {created : Bool} (hnet : sys.net = .hostCreated created)
    (hmenu : sys.menu ≠ .peerCleared) (connecting : Bool) :
    HostInv { sys with
      mServerPeer := if connecting then sys.mClient else none
      net := if connecting then .connectChecked else .idle } := by
  have hsame := h.client (by rw [hnet]; exact fun he => by cases he)
  have hsome := h.created created hnet
  have hknown : ∀ host, sys.live = some host → host < sys.nextHost :=
    fun host he => h.known host (Or.inr he)
  cases connecting with
  | false =>
    constructor
    · exact fun _ => hsame
    · exact fun he => by cases he
    · exact fun _ he => by cases he
    · exact fun _ _ he => by cases he
    · exact fun he => by cases he
    · exact fun he => by cases he
    · exact fun _ => rfl
    · exact fun host he => hknown host (he.resolve_left fun hnone => by cases hnone)
  | true =>
    constructor
    · exact fun _ => hsame
    · exact fun he => by cases he
    · exact fun _ he => by cases he
    · exact fun _ host he => hsame.symm.trans he
    · exact fun he => by cases he
    · exact fun he => by cases he
    · exact fun he => absurd he hmenu
    · exact fun host he => he.elim (fun hc => hknown host (hsame.symm.trans hc)) (hknown host)

/-- The menu clears the peer. -/
theorem hostInv_clearPeer (h : HostInv sys) :
    HostInv { sys with mServerPeer := none, menu := .peerCleared } := by
  constructor
  · exact h.client
  · exact h.destroyed
  · exact h.created
  · exact fun _ _ he => by cases he
  · exact fun _ _ he => by cases he
  · exact h.services
  · exact fun _ => rfl
  · exact fun host he => h.known host (he.imp_left fun hnone => by cases hnone)

/-- The menu destroys the host. -/
theorem hostInv_destroyClient (h : HostInv sys) (hmenu : sys.menu = .peerCleared)
    (hnet : sys.net.recreating = false) (hservices : sys.net.services = false) :
    HostInv { sys with
      mClient := none
      live := if sys.mClient.isSome then none else sys.live
      menu := .hostCleared } := by
  have hnot : sys.net ≠ .hostDestroyed := fun he => by rw [he] at hnet; cases hnet
  have hdead : (if sys.mClient.isSome then none else sys.live) = none := by
    rw [← h.client hnot]
    cases sys.mClient <;> rfl
  have hpeer := h.cleared hmenu
  constructor
  · exact fun _ => hdead.symm
  · exact fun _ => hdead
  · intro created he
    dsimp only at he
    rw [he] at hnet
    cases hnet
  · intro _ host he
    dsimp only at he
    rw [hpeer] at he
    cases he
  · intro _ host he
    dsimp only at he
    rw [hpeer] at he
    cases he
  · intro he
    dsimp only at he
    rw [hservices] at he
    cases he
  · exact fun he => by cases he
  · intro host he
    dsimp only at he ⊢
    rw [hpeer, hdead] at he
    rcases he with he | he <;> cases he

end Hosts

section Steps

variable {sys sys' : PeerSystem}

/-- A thread that moves on in `sendPacket` has to hold the lock as its place says. -/
theorem locks_moveSend (sys : PeerSystem) (thread : Thread) (pc : SendPc) :
    (sys.moveSend thread pc).locks thread + (sys.sends thread).locks =
      sys.locks thread + pc.locks := by
  simp only [PeerSystem.locks, PeerSystem.moveSend, Function.update_self]
  omega

/-- All others as before. -/
theorem locks_moveSend_of_ne (sys : PeerSystem) (pc : SendPc) {thread other : Thread}
    (hne : other ≠ thread) : (sys.moveSend thread pc).locks other = sys.locks other := by
  simp only [PeerSystem.locks, PeerSystem.moveSend, Function.update_of_ne hne]

/-- A thread moves on in `sendPacket`, where it may take or leave the lock. -/
theorem peerInv_moveSend (hinv : PeerInv sys) {thread : Thread} {pc : SendPc} {lock : Lock Thread}
    (hlocked : LocksHeld { sys.moveSend thread pc with lock := lock })
    (hcalls : pc ≠ .idle → thread = .net → sys.net.calls = true) :
    PeerInv { sys.moveSend thread pc with lock := lock } := by
  refine ⟨hlocked, hinv.hosts.of_same rfl rfl rfl rfl rfl id, fun hsending => ?_⟩
  simp only [PeerSystem.moveSend] at hsending ⊢
  by_cases hthread : thread = .net
  · rw [hthread, Function.update_self] at hsending
    exact hcalls hsending hthread
  · rw [Function.update_of_ne (Ne.symm hthread)] at hsending
    exact hinv.sending hsending

/-- A thread moves on in `sendPacket` between two places of which neither needs the
lock, or both do. -/
theorem peerInv_moveSend_of_same (hinv : PeerInv sys) {thread : Thread} {pc : SendPc}
    (hlocks : pc.locks = (sys.sends thread).locks)
    (hcalls : pc ≠ .idle → thread = .net → sys.net.calls = true) :
    PeerInv (sys.moveSend thread pc) := by
  have hself := locks_moveSend sys thread pc
  have hsame : ∀ other, (sys.moveSend thread pc).locks other ≤ sys.locks other := by
    intro other
    by_cases hother : other = thread
    · rw [hother]
      omega
    · exact Nat.le_of_eq (locks_moveSend_of_ne sys pc hother)
  exact peerInv_moveSend hinv (hinv.locked.of_same rfl hsame) hcalls

/-- A step of `sendPacket` keeps the invariant. -/
theorem peerInv_send {action : PeerAction} (hinv : PeerInv sys)
    (hstep : sendStep sys action = some sys') : PeerInv sys' := by
  have hcalls : ∀ thread, sys.sends thread ≠ .idle → thread = .net → sys.net.calls = true := by
    intro thread hsending hthread
    rw [hthread] at hsending
    exact hinv.sending hsending
  cases action with
  | nullCheck thread =>
    simp only [sendStep] at hstep
    split at hstep
    · rename_i hsend
      obtain ⟨hcan, hidle⟩ := Bool.and_eq_true_iff.mp hsend
      split at hstep
      · cases hstep
        refine peerInv_moveSend_of_same hinv (by rw [beq_iff_eq.mp hidle]; rfl) fun _ hthread => ?_
        rw [hthread] at hcan
        exact hcan
      · cases hstep
        exact hinv
    · cases hstep
  | stateCheck thread connected =>
    simp only [sendStep] at hstep
    split at hstep
    · rename_i hpc
      cases hstep
      refine peerInv_moveSend_of_same hinv (by rw [hpc]; cases connected <;> rfl) fun _ => ?_
      exact hcalls thread (by rw [hpc]; exact fun he => by cases he)
    · cases hstep
  | lockSend thread =>
    simp only [sendStep] at hstep
    split at hstep
    · rename_i hpc
      obtain ⟨lock, hlock, rfl⟩ := Option.map_eq_some_iff.mp hstep
      have hself := locks_moveSend sys thread .sending
      rw [hpc] at hself
      refine peerInv_moveSend hinv (hinv.locked.of_acquire hlock (Nat.le_of_eq hself) fun other hne =>
        Nat.le_of_eq (locks_moveSend_of_ne sys .sending hne)) fun _ => ?_
      exact hcalls thread (by rw [hpc]; exact fun he => by cases he)
    · cases hstep
  | peerSend thread =>
    simp only [sendStep] at hstep
    split at hstep
    · rename_i hpc
      cases hstep
      refine peerInv_moveSend_of_same hinv (by rw [hpc]; rfl) fun _ => ?_
      exact hcalls thread (by rw [hpc]; exact fun he => by cases he)
    · cases hstep
  | unlockSend thread =>
    simp only [sendStep] at hstep
    split at hstep
    · rename_i hpc
      cases hstep
      have hself := locks_moveSend sys thread .idle
      rw [hpc] at hself
      refine peerInv_moveSend hinv (hinv.locked.of_release rfl (Nat.le_of_eq hself) fun other hne =>
        Nat.le_of_eq (locks_moveSend_of_ne sys .idle hne)) fun he => ?_
      exact absurd rfl he
    · cases hstep
  | _ => cases hstep

/-- The menu moves on. -/
theorem locks_menu (sys sys' : PeerSystem) (hsends : sys'.sends = sys.sends) (hnet : sys'.net = sys.net) :
    sys'.locks .menu + sys.menu.locks = sys.locks .menu + sys'.menu.locks ∧
      ∀ other, other ≠ .menu → sys'.locks other = sys.locks other := by
  simp only [PeerSystem.locks, hsends, hnet]
  refine ⟨by omega, fun other hne => ?_⟩
  cases other with
  | menu => exact absurd rfl hne
  | _ => rfl

/-- The network thread moves on. -/
theorem locks_net (sys sys' : PeerSystem) (hsends : sys'.sends = sys.sends) (hmenu : sys'.menu = sys.menu) :
    sys'.locks .net + sys.net.locks = sys.locks .net + sys'.net.locks ∧
      ∀ other, other ≠ .net → sys'.locks other = sys.locks other := by
  simp only [PeerSystem.locks, hsends, hmenu]
  refine ⟨by omega, fun other hne => ?_⟩
  cases other with
  | net => exact absurd rfl hne
  | _ => rfl

/-- The menu moves on with the lock. -/
theorem locked_menu (hlocked : LocksHeld sys) (hlock : sys'.lock = sys.lock)
    (hsends : sys'.sends = sys.sends) (hnet : sys'.net = sys.net)
    (hlocks : sys'.menu.locks = sys.menu.locks) : LocksHeld sys' := by
  obtain ⟨hself, hothers⟩ := locks_menu sys sys' hsends hnet
  refine hlocked.of_same hlock fun thread => ?_
  by_cases hthread : thread = .menu
  · rw [hthread]
    omega
  · exact Nat.le_of_eq (hothers thread hthread)

/-- The network thread moves on between two places of which neither needs the lock,
or both do. -/
theorem locked_net (hlocked : LocksHeld sys) (hlock : sys'.lock = sys.lock)
    (hsends : sys'.sends = sys.sends) (hmenu : sys'.menu = sys.menu)
    (hlocks : sys'.net.locks ≤ sys.net.locks) : LocksHeld sys' := by
  obtain ⟨hself, hothers⟩ := locks_net sys sys' hsends hmenu
  refine hlocked.of_same hlock fun thread => ?_
  by_cases hthread : thread = .net
  · rw [hthread]
    omega
  · exact Nat.le_of_eq (hothers thread hthread)

/-- With the lock, the menu finds no host being made and no loop running. -/
theorem menu_alone (hinv : PeerInv sys) (hmenu : sys.menu.locks = 1) :
    sys.net.recreating = false ∧ sys.net.services = false := by
  have hlocks : 0 < sys.locks .menu := by
    rw [PeerSystem.locks, hmenu]
    exact Nat.succ_pos _
  exact hinv.locked.net_outside hlocks fun he => by cases he

/-- A step of the menu keeps the invariant. -/
theorem peerInv_menu {action : PeerAction} (hinv : PeerInv sys)
    (hstep : menuStep sys action = some sys') : PeerInv sys' := by
  cases action with
  | lockDisconnect =>
    simp only [menuStep] at hstep
    split at hstep
    · rename_i hpc
      obtain ⟨lock, hlock, rfl⟩ := Option.map_eq_some_iff.mp hstep
      obtain ⟨hself, hothers⟩ :=
        locks_menu sys { sys with lock := lock, menu := .locked } rfl rfl
      rw [hpc] at hself
      refine ⟨hinv.locked.of_acquire hlock (Nat.le_of_eq hself) fun other hne =>
        Nat.le_of_eq (hothers other hne), ?_, hinv.sending⟩
      exact hinv.hosts.of_same rfl rfl rfl rfl rfl fun he => by cases he
    · cases hstep
  | clearPeer =>
    simp only [menuStep] at hstep
    split at hstep
    · rename_i hpc
      cases hstep
      exact ⟨locked_menu hinv.locked rfl rfl rfl (by rw [hpc]; rfl), hostInv_clearPeer hinv.hosts,
        hinv.sending⟩
    · cases hstep
  | destroyClient =>
    simp only [menuStep] at hstep
    split at hstep
    · rename_i hpc
      cases hstep
      obtain ⟨hrecreating, hservices⟩ := menu_alone hinv (by rw [hpc]; rfl)
      exact ⟨locked_menu hinv.locked rfl rfl rfl (by rw [hpc]; rfl),
        hostInv_destroyClient hinv.hosts hpc hrecreating hservices, hinv.sending⟩
    · cases hstep
  | unlockDisconnect =>
    simp only [menuStep] at hstep
    split at hstep
    · rename_i hpc
      cases hstep
      obtain ⟨hself, hothers⟩ :=
        locks_menu sys { sys with lock := sys.lock.release, menu := .idle } rfl rfl
      rw [hpc] at hself
      refine ⟨hinv.locked.of_release rfl (Nat.le_of_eq hself) fun other hne =>
        Nat.le_of_eq (hothers other hne), ?_, hinv.sending⟩
      exact hinv.hosts.of_same rfl rfl rfl rfl rfl fun he => by cases he
    · cases hstep
  | _ => cases hstep

/-- Another thread has the lock only while the menu is outside `disconnect`. -/
theorem menu_outside (hinv : PeerInv sys) (hnet : sys.net.locks = 1) : sys.menu ≠ .peerCleared := by
  intro hmenu
  have hlocks : 0 < sys.locks .net := by
    rw [PeerSystem.locks, hnet]
    exact Nat.succ_pos _
  have hne : Thread.menu ≠ .net := fun he => by cases he
  have hzero := hinv.locked.exclusive hlocks hne
  rw [PeerSystem.locks, hmenu] at hzero
  cases hzero

/-- The network thread leaves the lock at the end of a step. -/
theorem peerInv_unlock (hinv : PeerInv sys) (hsends : sys.sends .net = .idle)
    (hlocks : sys.net.locks = 1) (hrecreating : sys.net.recreating = false) :
    PeerInv { sys with lock := sys.lock.release, net := .idle } := by
  obtain ⟨hself, hothers⟩ := locks_net sys { sys with lock := sys.lock.release, net := .idle } rfl rfl
  rw [hlocks] at hself
  refine ⟨hinv.locked.of_release rfl (Nat.le_of_eq hself) fun other hne =>
    Nat.le_of_eq (hothers other hne), ?_, fun he => absurd hsends he⟩
  exact hinv.hosts.of_move rfl rfl rfl rfl rfl hrecreating rfl fun he => by cases he

/-- The network thread moves on without a change of lock, host or peer. -/
theorem peerInv_move (hinv : PeerInv sys) (hsends : sys.sends .net = .idle) {pc : NetPc}
    (hlocks : pc.locks ≤ sys.net.locks) (hold : sys.net.recreating = false)
    (hnew : pc.recreating = false) (hservices : pc.services = true → sys.mClient.isSome = true) :
    PeerInv { sys with net := pc } :=
  ⟨locked_net hinv.locked rfl rfl rfl hlocks,
    hinv.hosts.of_move rfl rfl rfl rfl rfl hold hnew hservices, fun he => absurd hsends he⟩

/-- The network thread takes the lock. -/
theorem peerInv_lock (hinv : PeerInv sys) (hsends : sys.sends .net = .idle) {pc : NetPc}
    {lock : Lock Thread} (hlock : sys.lock.acquire .net = some lock)
    (hold : sys.net.locks = 0) (hnew : pc.locks = 1) (hrecreating : pc.recreating = false)
    (hservices : pc.services = false) : PeerInv { sys with lock := lock, net := pc } := by
  obtain ⟨hself, hothers⟩ := locks_net sys { sys with lock := lock, net := pc } rfl rfl
  rw [hold] at hself
  dsimp only at hself
  have hbefore : sys.net.recreating = false := by
    cases hpc : sys.net <;> rw [hpc] at hold <;> first | rfl | cases hold
  refine ⟨hinv.locked.of_acquire hlock (by omega) fun other hne => Nat.le_of_eq (hothers other hne),
    ?_, fun he => absurd hsends he⟩
  refine hinv.hosts.of_move rfl rfl rfl rfl rfl hbefore hrecreating fun he => ?_
  dsimp only at he
  rw [hservices] at he
  cases he

/-- The network thread enters a loop with a host, and leaves the lock without one. -/
theorem peerInv_checkStall (hinv : PeerInv sys) (hsends : sys.sends .net = .idle)
    (hlocks : sys.net.locks = 1) (hrecreating : sys.net.recreating = false) {loop : NetPc}
    (hloop : loop.locks = 1) (hloop' : loop.recreating = false) :
    PeerInv (if sys.mClient.isSome then { sys with net := loop }
      else { sys with lock := sys.lock.release, net := .idle }) := by
  split
  · rename_i hclient
    exact peerInv_move hinv hsends (by omega) hrecreating hloop' fun _ => hclient
  · exact peerInv_unlock hinv hsends hlocks hrecreating

/-- A step of the network thread keeps the invariant. -/
theorem peerInv_net {action : PeerAction} (hinv : PeerInv sys) (hsends : sys.sends .net = .idle)
    (hstep : netStep sys action = some sys') : PeerInv sys' := by
  cases action with
  | beginConnect =>
    simp only [netStep] at hstep
    split at hstep
    · rename_i hpc
      obtain ⟨lock, hlock, rfl⟩ := Option.map_eq_some_iff.mp hstep
      exact peerInv_lock hinv hsends hlock (by rw [hpc]; rfl) rfl rfl rfl
    · cases hstep
  | destroyHost =>
    simp only [netStep] at hstep
    split at hstep
    · rename_i hpc
      cases hstep
      exact ⟨locked_net hinv.locked rfl rfl rfl (by rw [hpc]; exact Nat.le_refl _),
        hostInv_destroyHost hinv.hosts hpc, fun he => absurd hsends he⟩
    · cases hstep
  | laterStep =>
    simp only [netStep] at hstep
    split at hstep
    · rename_i hpc
      cases hstep
      exact peerInv_move hinv hsends (by rw [hpc]; exact Nat.le_refl _) (by rw [hpc]; rfl) rfl
        fun he => by cases he
    · cases hstep
  | createHost created =>
    simp only [netStep] at hstep
    split at hstep
    · rename_i hpc
      cases hstep
      exact ⟨locked_net hinv.locked rfl rfl rfl (by rw [hpc]; exact Nat.le_refl _),
        hostInv_createHost hinv.hosts created, fun he => absurd hsends he⟩
    · cases hstep
  | connectHost connecting =>
    simp only [netStep] at hstep
    split at hstep
    · rename_i created hpc
      cases hstep
      refine ⟨locked_net hinv.locked rfl rfl rfl ?_, hostInv_connectHost hinv.hosts hpc
        (menu_outside hinv (by rw [hpc]; rfl)) connecting, fun he => absurd hsends he⟩
      rw [hpc]
      cases connecting
      · exact Nat.zero_le _
      · exact Nat.le_refl _
    · cases hstep
  | checkStall =>
    simp only [netStep] at hstep
    split at hstep
    · rename_i hpc
      cases hstep
      exact peerInv_checkStall hinv hsends (by rw [hpc]; rfl) (by rw [hpc]; rfl) rfl rfl
    · rename_i hpc
      cases hstep
      exact peerInv_checkStall hinv hsends (by rw [hpc]; rfl) (by rw [hpc]; rfl) rfl rfl
    · cases hstep
  | service =>
    simp only [netStep] at hstep
    split at hstep
    · cases hstep
      exact hinv
    · cases hstep
  | endStep =>
    simp only [netStep] at hstep
    split at hstep
    · rename_i hservices
      cases hstep
      refine peerInv_unlock hinv hsends ?_ ?_ <;>
        cases hpc : sys.net <;> rw [hpc] at hservices <;> first | rfl | cases hservices
    · cases hstep
  | beginService =>
    simp only [netStep] at hstep
    split at hstep
    · rename_i hpc
      cases hstep
      exact peerInv_move hinv hsends (Nat.zero_le _) (by rw [hpc]; rfl) rfl fun he => by cases he
    · cases hstep
  | tryLock =>
    simp only [netStep] at hstep
    split at hstep
    · rename_i hpc
      split at hstep
      · rename_i lock hlock
        cases hstep
        exact peerInv_lock hinv hsends hlock (by rw [hpc]; rfl) rfl rfl rfl
      · cases hstep
        exact peerInv_move hinv hsends (Nat.zero_le _) (by rw [hpc]; rfl) rfl fun he => by cases he
    · cases hstep
  | _ => cases hstep

/-- One step keeps the invariant. -/
theorem peerInv_step {action : PeerAction} (hinv : PeerInv sys)
    (hstep : peerStep sys action = some sys') : PeerInv sys' := by
  unfold peerStep at hstep
  split at hstep
  · exact peerInv_send hinv hstep
  · exact peerInv_send hinv hstep
  · exact peerInv_send hinv hstep
  · exact peerInv_send hinv hstep
  · exact peerInv_send hinv hstep
  all_goals
    split at hstep
    · first
        | exact peerInv_menu hinv hstep
        | exact peerInv_net hinv ‹_› hstep
    · cases hstep

/-- A peer that is not null is live, unless a new host is being made. -/
theorem peerLive_of_not_recreating (hinv : PeerInv sys) (hsome : sys.mServerPeer.isSome = true)
    (hrecreating : sys.net.recreating = false) : sys.PeerLive := by
  obtain ⟨host, hpeer⟩ := Option.isSome_iff_exists.mp hsome
  exact ⟨hsome, hpeer.trans (hinv.hosts.peer hrecreating host hpeer).symm⟩

/-- While a new host is being made, the peer is dead. -/
theorem not_peerLive_of_recreating (hinv : PeerInv sys) (hrecreating : sys.net.recreating = true) :
    ¬sys.PeerLive := by
  intro hlive
  obtain ⟨host, hpeer⟩ := Option.isSome_iff_exists.mp hlive.1
  exact hinv.hosts.stale hrecreating host hpeer (hlive.2.symm.trans hpeer)

/-- With the lock in `sendPacket`, no host is being made. -/
theorem sending_alone (hinv : PeerInv sys) {thread : Thread} (hpc : sys.sends thread = .sending) :
    sys.net.recreating = false := by
  by_cases hthread : thread = .net
  · have hcalls := hinv.sending (by rw [← hthread, hpc]; exact fun he => by cases he)
    cases hnet : sys.net <;> rw [hnet] at hcalls <;> first | rfl | cases hcalls
  · have hone : (sys.sends thread).locks = 1 := by
      rw [hpc]
      rfl
    have hlocks : 0 < sys.locks thread := by
      simp only [PeerSystem.locks]
      omega
    exact (hinv.locked.net_outside hlocks hthread).1

/-- At a state of the invariant, a step uses live peers and hosts exactly under
the condition. -/
theorem usesLive_iff (hinv : PeerInv sys) (action : PeerAction) :
    UsesLive sys action ↔ StillConnected sys action := by
  cases action with
  | destroyHost =>
    refine iff_of_true (fun hpc hclient => ⟨hclient, hinv.hosts.client ?_⟩) trivial
    rw [hpc]
    exact fun he => by cases he
  | connectHost connecting =>
    constructor
    · intro hlive hnull
      have hclient := (hlive false hnull).1
      rw [hinv.hosts.created false hnull] at hclient
      cases hclient
    · intro hcreated created hpc
      cases created with
      | false => exact absurd hpc hcreated
      | true =>
        refine ⟨hinv.hosts.created true hpc, hinv.hosts.client ?_⟩
        rw [hpc]
        exact fun he => by cases he
  | service =>
    refine iff_of_true (fun hservices => ⟨hinv.hosts.services hservices, hinv.hosts.client ?_⟩) trivial
    intro he
    rw [he] at hservices
    cases hservices
  | clearPeer =>
    refine iff_of_true (fun hpc hsome => ?_) trivial
    exact peerLive_of_not_recreating hinv hsome (menu_alone hinv (by rw [hpc]; rfl)).1
  | destroyClient =>
    refine iff_of_true (fun hpc hclient => ⟨hclient, hinv.hosts.client ?_⟩) trivial
    intro he
    have hrecreating := (menu_alone hinv (by rw [hpc]; rfl)).1
    rw [he] at hrecreating
    cases hrecreating
  | stateCheck thread connected =>
    refine imp_congr_right fun _ => ⟨fun hlive => ⟨hlive.1, ?_⟩, fun h => ?_⟩
    · exact Bool.eq_false_iff.mpr fun hrecreating => not_peerLive_of_recreating hinv hrecreating hlive
    · exact peerLive_of_not_recreating hinv h.1 h.2
  | peerSend thread =>
    refine imp_congr_right fun hpc => ⟨And.left, fun hsome => ?_⟩
    exact peerLive_of_not_recreating hinv hsome (sending_alone hinv hpc)
  | _ => exact Iff.rfl

end Steps

/-- The invariant holds at the start. -/
theorem peerInv_start : PeerInv .start := by
  refine ⟨fun thread => ?_, ?_, fun he => absurd rfl he⟩
  · cases thread <;> exact Nat.zero_le _
  · constructor
    · exact fun _ => rfl
    · exact fun _ => rfl
    · exact fun _ he => by cases he
    · exact fun _ _ he => by cases he
    · exact fun _ _ he => by cases he
    · exact fun he => by cases he
    · exact fun _ => rfl
    · exact fun _ he => by rcases he with he | he <;> cases he

/-- In exactly the runs whose steps all meet the condition, every peer that is read
or sent to, and every host that ENet is called with, is not null and alive. -/
theorem peers_alive_iff (actions : List PeerAction) :
    Along UsesLive peerStep .start actions ↔ Along StillConnected peerStep .start actions :=
  along_iff_of_invariant (fun _ _ _ hinv _ hstep => peerInv_step hinv hstep)
    (fun _ action hinv => usesLive_iff hinv action) peerInv_start

/-- The steps to a connection. -/
def connecting : List PeerAction :=
  [.beginConnect, .destroyHost, .createHost true, .connectHost true, .checkStall, .service, .endStep]

/-- A thread that sends has found the peer connected and waits for the lock while the
menu disconnects. It then sends to a null peer. -/
theorem disconnect_before_send :
    (∃ sys, run peerStep .start (connecting ++ [.nullCheck (.other 1), .stateCheck (.other 1) true,
        .lockDisconnect, .clearPeer, .destroyClient, .unlockDisconnect, .lockSend (.other 1),
        .peerSend (.other 1)]) = some sys ∧ sys.mServerPeer = none) ∧
      ¬Along UsesLive peerStep .start (connecting ++ [.nullCheck (.other 1),
        .stateCheck (.other 1) true, .lockDisconnect, .clearPeer, .destroyClient,
        .unlockDisconnect, .lockSend (.other 1), .peerSend (.other 1)]) :=
  ⟨run_reaches (by decide), by decide⟩

end BfMultiplayer.PeerLifetime

import BfMultiplayer.ClientLinks
import BfMultiplayer.EnetCalls

/-!
# Every packet is released once

A created packet belongs to ENet as soon as it is queued to one peer, and to the
program otherwise; a received one belongs to the program. So a created packet is
released by a peer that takes it or by its destruction, and a received one by
its destruction. The program destroys no packet that it has created, and on some
paths not the received ones either.
-/

namespace BfMultiplayer.PacketRelease

open Packets ServerState ServerHandlers EventLoopRules ClientLinks Channels EnetCalls

/-- The packet that a call creates. -/
def created? : EnetCall → Option ℕ
  | .packetCreate packet => some packet
  | _ => none

/-- The packet that a call receives. -/
def received? : EnetCall → Option ℕ
  | .packetReceived packet => some packet
  | _ => none

/-- The packet that a call creates or receives. -/
def acquired? : EnetCall → Option ℕ
  | .packetCreate packet => some packet
  | .packetReceived packet => some packet
  | _ => none

/-- The packet that a call sends or destroys. -/
def used? : EnetCall → Option ℕ
  | .hostBroadcast packet => some packet
  | .peerSend _ packet _ => some packet
  | .packetDestroy packet => some packet
  | _ => none

/-- Whether a call passes a packet to ENet. -/
def queues (packet : ℕ) : EnetCall → Bool
  | .hostBroadcast sent => sent == packet
  | .peerSend _ sent queued => sent == packet && queued
  | _ => false

/-- How often a packet is destroyed. -/
def destructions (packet : ℕ) (calls : List EnetCall) : ℕ := calls.count (.packetDestroy packet)

/-- How often a packet is released: when ENet takes it, and when it is destroyed. -/
def releases (packet : ℕ) (calls : List EnetCall) : ℕ :=
  (if calls.any (queues packet) then 1 else 0) + destructions packet calls

/-- Each created packet is released once, and each received one destroyed once. -/
structure Released (calls : List EnetCall) : Prop where
  /-- The created packets. -/
  created : ∀ packet ∈ calls.filterMap created?, releases packet calls = 1
  /-- The received packets. -/
  received : ∀ packet ∈ calls.filterMap received?, destructions packet calls = 1

/-- No packet is created or received twice. -/
def Fresh (calls : List EnetCall) : Prop := (calls.filterMap acquired?).Nodup

/-- Only packets of the calls themselves are sent or destroyed. -/
def Own (calls : List EnetCall) : Prop := calls.filterMap used? ⊆ calls.filterMap acquired?

instance (calls : List EnetCall) : Decidable (Fresh calls) := inferInstanceAs (Decidable (List.Nodup _))

/-- A created packet is an acquired one. -/
theorem acquired_of_created {calls : List EnetCall} {packet : ℕ}
    (h : packet ∈ calls.filterMap created?) : packet ∈ calls.filterMap acquired? := by
  obtain ⟨call, hcall, hpacket⟩ := List.mem_filterMap.mp h
  refine List.mem_filterMap.mpr ⟨call, hcall, ?_⟩
  cases call <;> first | exact hpacket | cases hpacket

/-- A received packet is an acquired one. -/
theorem acquired_of_received {calls : List EnetCall} {packet : ℕ}
    (h : packet ∈ calls.filterMap received?) : packet ∈ calls.filterMap acquired? := by
  obtain ⟨call, hcall, hpacket⟩ := List.mem_filterMap.mp h
  refine List.mem_filterMap.mpr ⟨call, hcall, ?_⟩
  cases call <;> first | exact hpacket | cases hpacket

/-- Calls that do not use a packet do not release it. -/
theorem releases_of_unused {packet : ℕ} {calls : List EnetCall}
    (h : packet ∉ calls.filterMap used?) :
    calls.any (queues packet) = false ∧ destructions packet calls = 0 := by
  have hnot : ∀ call ∈ calls, used? call ≠ some packet :=
    fun call hcall he => h (List.mem_filterMap.mpr ⟨call, hcall, he⟩)
  constructor
  · refine List.any_eq_false.mpr fun call hcall hqueues => hnot call hcall ?_
    cases call with
    | hostBroadcast sent => exact congrArg some (beq_iff_eq.mp hqueues)
    | peerSend peer sent queued => exact congrArg some (beq_iff_eq.mp (Bool.and_eq_true_iff.mp hqueues).1)
    | _ => cases hqueues
  · exact List.count_eq_zero.mpr fun hmem => hnot _ hmem rfl

/-- How often a packet is released does not depend on the order of the calls. -/
theorem releases_perm {calls calls' : List EnetCall} (h : calls.Perm calls') (packet : ℕ) :
    releases packet calls = releases packet calls' ∧
      destructions packet calls = destructions packet calls' := by
  have hcount : destructions packet calls = destructions packet calls' := h.count_eq _
  exact ⟨by rw [releases, releases, h.any_eq, hcount], hcount⟩

/-- The packets of one part of some calls are released once by all of them. -/
def ReleasedIn (part calls : List EnetCall) : Prop :=
  (∀ packet ∈ part.filterMap created?, releases packet calls = 1) ∧
    ∀ packet ∈ part.filterMap received?, destructions packet calls = 1

/-- All calls are a part of themselves. -/
theorem released_iff_self {calls : List EnetCall} : Released calls ↔ ReleasedIn calls calls :=
  ⟨fun h => ⟨h.created, h.received⟩, fun h => ⟨h.1, h.2⟩⟩

/-- The order of all calls does not matter to a part. -/
theorem releasedIn_perm (part : List EnetCall) {calls calls' : List EnetCall}
    (h : calls.Perm calls') : ReleasedIn part calls ↔ ReleasedIn part calls' := by
  unfold ReleasedIn
  refine and_congr (forall₂_congr fun packet _ => ?_) (forall₂_congr fun packet _ => ?_)
  · rw [(releases_perm h packet).1]
  · rw [(releases_perm h packet).2]

/-- Two parts and the part of both. -/
theorem releasedIn_append (part rest calls : List EnetCall) :
    ReleasedIn (part ++ rest) calls ↔ ReleasedIn part calls ∧ ReleasedIn rest calls := by
  unfold ReleasedIn
  rw [List.filterMap_append, List.filterMap_append, List.forall_mem_append,
    List.forall_mem_append, and_and_and_comm]

/-- The order of the calls does not matter. -/
theorem released_perm {calls calls' : List EnetCall} (h : calls.Perm calls') :
    Released calls ↔ Released calls' := by
  rw [released_iff_self, released_iff_self, releasedIn_perm calls h]
  unfold ReleasedIn
  refine and_congr (forall_congr' fun packet => ?_) (forall_congr' fun packet => ?_)
  · rw [(h.filterMap created?).mem_iff]
  · rw [(h.filterMap received?).mem_iff]

/-- Calls before others that do not use their packets. -/
theorem releases_append {packet : ℕ} {calls : List EnetCall} (rest : List EnetCall)
    (h : packet ∉ rest.filterMap used?) :
    releases packet (calls ++ rest) = releases packet calls ∧
      destructions packet (calls ++ rest) = destructions packet calls := by
  obtain ⟨hqueues, hdestroy⟩ := releases_of_unused h
  have hcount : destructions packet (calls ++ rest) = destructions packet calls := by
    rw [destructions, destructions] at *
    rw [List.count_append, hdestroy, Nat.add_zero]
  refine ⟨?_, hcount⟩
  rw [releases, releases, hcount, List.any_append, hqueues, Bool.or_false]

/-- The packets of one part are not used in another. -/
theorem unused_of_fresh {calls rest : List EnetCall} (hown : Own rest)
    (hfresh : Fresh (calls ++ rest)) {packet : ℕ} (h : packet ∈ calls.filterMap acquired?) :
    packet ∉ rest.filterMap used? := by
  intro hused
  rw [Fresh, List.filterMap_append, List.nodup_append] at hfresh
  exact hfresh.2.2 packet h packet (hown hused) rfl

/-- Calls before others that do not use their packets are right if they are so alone. -/
theorem releasedIn_left {calls rest : List EnetCall} (hrest : Own rest)
    (hfresh : Fresh (calls ++ rest)) : ReleasedIn calls (calls ++ rest) ↔ Released calls := by
  rw [released_iff_self]
  unfold ReleasedIn
  refine and_congr (forall₂_congr fun packet hp => ?_) (forall₂_congr fun packet hp => ?_)
  · rw [(releases_append rest (unused_of_fresh hrest hfresh (acquired_of_created hp))).1]
  · rw [(releases_append rest (unused_of_fresh hrest hfresh (acquired_of_received hp))).2]

/-- Two parts with packets of their own are both right or not. -/
theorem released_append {calls rest : List EnetCall} (hcalls : Own calls) (hrest : Own rest)
    (hfresh : Fresh (calls ++ rest)) :
    Released (calls ++ rest) ↔ Released calls ∧ Released rest := by
  have hswap : (calls ++ rest).Perm (rest ++ calls) := List.perm_append_comm
  have hfresh' : Fresh (rest ++ calls) := by
    rw [Fresh] at hfresh ⊢
    exact (hswap.filterMap acquired?).nodup_iff.mp hfresh
  rw [released_iff_self, releasedIn_append, releasedIn_left hrest hfresh,
    releasedIn_perm rest hswap, releasedIn_left hcalls hfresh']

/-- Parts that use packets of their own do so together. -/
theorem Own.append {calls rest : List EnetCall} (hcalls : Own calls) (hrest : Own rest) :
    Own (calls ++ rest) := by
  rw [Own, List.filterMap_append, List.filterMap_append]
  exact List.append_subset.mpr ⟨List.subset_append_of_subset_left _ hcalls,
    List.subset_append_of_subset_right _ hrest⟩

/-- The order of the calls does not matter for this either. -/
theorem Own.perm {calls calls' : List EnetCall} (h : calls.Perm calls') (hown : Own calls) :
    Own calls' :=
  fun _ hp => (h.filterMap acquired?).mem_iff.mp (hown ((h.filterMap used?).mem_iff.mpr hp))

/-- Calls without a packet create none and receive none. -/
theorem no_packet {calls : List EnetCall} (h : calls.filterMap acquired? = []) :
    calls.filterMap created? = [] ∧ calls.filterMap received? = [] := by
  constructor
  · refine List.eq_nil_iff_forall_not_mem.mpr fun packet hp => ?_
    have hmem := acquired_of_created hp
    rw [h] at hmem
    exact absurd hmem List.not_mem_nil
  · refine List.eq_nil_iff_forall_not_mem.mpr fun packet hp => ?_
    have hmem := acquired_of_received hp
    rw [h] at hmem
    exact absurd hmem List.not_mem_nil

/-- Calls that release their own packets exactly under a condition. -/
structure ReleasesWhen (calls : List EnetCall) (condition : Prop) : Prop where
  /-- They use no packets of others. -/
  own : Own calls
  /-- The condition. -/
  iff : Fresh calls → (Released calls ↔ condition)

namespace ReleasesWhen

variable {calls rest : List EnetCall} {condition condition' : Prop}

/-- The same condition in other words. -/
theorem congr (h : ReleasesWhen calls condition) (hiff : condition ↔ condition') :
    ReleasesWhen calls condition' := ⟨h.own, fun hfresh => (h.iff hfresh).trans hiff⟩

/-- The same calls in another order. -/
theorem perm (h : ReleasesWhen calls condition) (hperm : rest.Perm calls) :
    ReleasesWhen rest condition := by
  refine ⟨h.own.perm hperm.symm, fun hfresh => ?_⟩
  rw [released_perm hperm]
  exact h.iff ((hperm.filterMap acquired?).nodup_iff.mp hfresh)

/-- Calls without a packet. -/
theorem of_no_packet (hacquired : calls.filterMap acquired? = [])
    (hused : calls.filterMap used? = []) : ReleasesWhen calls True := by
  obtain ⟨hcreated, hreceived⟩ := no_packet hacquired
  refine ⟨?_, fun _ => iff_of_true ⟨?_, ?_⟩ trivial⟩
  · rw [Own, hused]
    exact List.nil_subset _
  · rw [hcreated]
    exact fun _ hp => absurd hp List.not_mem_nil
  · rw [hreceived]
    exact fun _ hp => absurd hp List.not_mem_nil

/-- One part after another. -/
theorem append (h : ReleasesWhen calls condition) (h' : ReleasesWhen rest condition') :
    ReleasesWhen (calls ++ rest) (condition ∧ condition') := by
  refine ⟨h.own.append h'.own, fun hfresh => ?_⟩
  rw [released_append h.own h'.own hfresh]
  rw [Fresh, List.filterMap_append, List.nodup_append] at hfresh
  exact and_congr (h.iff hfresh.1) (h'.iff hfresh.2.1)

/-- One part for each element of a list. -/
theorem flatMap {α : Type*} {calls : α → List EnetCall} {keeps : α → Prop} {parts : List α}
    (h : ∀ part ∈ parts, ReleasesWhen (calls part) (keeps part)) :
    ReleasesWhen (parts.flatMap calls) (∀ part ∈ parts, keeps part) := by
  induction parts with
  | nil => exact (of_no_packet rfl rfl).congr (iff_of_true trivial fun _ hp => absurd hp List.not_mem_nil)
  | cons part parts ih =>
    rw [List.flatMap_cons]
    have hparts := (h part List.mem_cons_self).append
      (ih fun other ho => h other (List.mem_cons_of_mem _ ho))
    exact hparts.congr List.forall_mem_cons.symm

/-- Taking and leaving a lock around some calls. -/
theorem locked (mutex : Mutex) (h : ReleasesWhen calls condition) :
    ReleasesWhen ([.lock mutex] ++ calls ++ [.unlock mutex]) condition := by
  have hlock : ReleasesWhen [.lock mutex] True := of_no_packet rfl rfl
  have hunlock : ReleasesWhen [.unlock mutex] True := of_no_packet rfl rfl
  exact ((hlock.append h).append hunlock).congr (by rw [true_and, and_true])

/-- A received packet that is destroyed after some other calls. -/
theorem destroyed (packet : ℕ) (h : ReleasesWhen calls condition) :
    ReleasesWhen ([.packetReceived packet] ++ calls ++ [.packetDestroy packet]) condition := by
  have hperm : List.Perm ([EnetCall.packetReceived packet] ++ calls ++ [.packetDestroy packet])
      ([.packetReceived packet, .packetDestroy packet] ++ calls) := by
    rw [List.append_assoc, List.singleton_append]
    exact List.Perm.cons _ List.perm_append_comm
  have hpair : ReleasesWhen [.packetReceived packet, .packetDestroy packet] True := by
    refine ⟨List.Subset.refl _, fun _ => iff_of_true ⟨fun other ho => ?_, fun other ho => ?_⟩ trivial⟩
    · exact absurd ho List.not_mem_nil
    · rw [List.mem_singleton.mp ho]
      simp [destructions]
  exact ((hpair.append h).congr (by rw [true_and])).perm hperm

/-- A received packet that nobody destroys. -/
theorem leaked (packet : ℕ) : ReleasesWhen [.packetReceived packet] False := by
  refine ⟨List.nil_subset _, fun _ => iff_of_false (fun h => ?_) id⟩
  have hone := h.received packet (List.mem_singleton_self packet)
  simp [destructions] at hone

/-- A created packet and calls that only queue it. -/
theorem created {packet : ℕ} (hsends : ∀ call ∈ calls, used? call = some packet ∧
      acquired? call = none ∧ call ≠ .packetDestroy packet) :
    ReleasesWhen (.packetCreate packet :: calls) (calls.any (queues packet) = true) := by
  have hnone : calls.filterMap acquired? = [] :=
    List.filterMap_eq_nil_iff.mpr fun call hcall => (hsends call hcall).2.1
  obtain ⟨hcreated, hreceived⟩ := no_packet hnone
  have hcreated' : List.filterMap created? (.packetCreate packet :: calls) = [packet] :=
    congrArg (packet :: ·) hcreated
  have hreceived' : List.filterMap received? (.packetCreate packet :: calls) = [] := hreceived
  have hdestroy : destructions packet (.packetCreate packet :: calls) = 0 := by
    refine List.count_eq_zero.mpr fun hmem => ?_
    rcases List.mem_cons.mp hmem with he | hmem
    · cases he
    · exact (hsends _ hmem).2.2 rfl
  have hreleases : releases packet (.packetCreate packet :: calls) = 1 ↔
      calls.any (queues packet) = true := by
    have hhead : queues packet (.packetCreate packet) = false := rfl
    rw [releases, hdestroy, List.any_cons, hhead, Bool.false_or, Nat.add_zero]
    by_cases hany : calls.any (queues packet) = true
    · exact iff_of_true (if_pos hany) hany
    · exact iff_of_false (by rw [if_neg hany]; exact Nat.zero_ne_one) hany
  refine ⟨fun other ho => ?_, fun _ => Iff.trans ⟨fun h => ?_, fun h => ⟨?_, ?_⟩⟩ hreleases⟩
  · obtain ⟨call, hcall, hused⟩ := List.mem_filterMap.mp ho
    rcases List.mem_cons.mp hcall with rfl | hcall
    · cases hused
    · rw [(hsends call hcall).1, Option.some.injEq] at hused
      rw [← hused]
      exact List.mem_cons_self
  · exact h.created packet (by rw [hcreated']; exact List.mem_singleton_self _)
  · rw [hcreated']
    intro other ho
    rw [List.mem_singleton.mp ho]
    exact h
  · rw [hreceived']
    exact fun _ ho => absurd ho List.not_mem_nil

end ReleasesWhen

/-- A created packet that one peer may take. -/
theorem single_send (peer : ENetPeer) (packet : ℕ) (queued : Bool) :
    ReleasesWhen [.packetCreate packet, .peerSend peer packet queued] (queued = true) := by
  have hsends : ∀ call ∈ [EnetCall.peerSend peer packet queued],
      used? call = some packet ∧ acquired? call = none ∧ call ≠ .packetDestroy packet := by
    intro call hcall
    rw [List.mem_singleton.mp hcall]
    exact ⟨rfl, rfl, by simp⟩
  exact (ReleasesWhen.created hsends).congr (by simp [queues])

section Server

variable (s : Server)

/-- When a send of the server releases its packet: somebody takes it. -/
def SendKeeps : Send → Prop
  | .toAll _ => True
  | .toAllExcept except _ queued =>
    ∃ node ∈ s.mClients, node.ptr ≠ except ∧ queued node = true
  | .toClient client _ queued => client.mPeer ∈ s.peers → queued = true

/-- When a round of the loop of `Server::exeService` does: a packet is received
from a peer with a record only, and the sends of the handler do. -/
def EventKeeps (e : ServiceEvent) : Prop :=
  match e.event with
  | .receive peer packet _ =>
    ∃ node, s.find? (calcEnetAddressHashCode peer.address) = some node ∧
      ((isHello packet || node.client.mHasGreeting) = true → ∀ send ∈ e.sends, SendKeeps s send)
  | _ => True

/-- When the loop does. -/
def LoopKeeps (s : Server) : List ServiceEvent → Prop
  | [] => True
  | e :: events => EventKeeps s e ∧ LoopKeeps (e.next s) events

/-- A packet for everybody. -/
theorem sendPacketToAll_releases (packet : ℕ) : ReleasesWhen (sendPacketToAll packet) True := by
  have hsends : ∀ call ∈ [EnetCall.hostBroadcast packet],
      used? call = some packet ∧ acquired? call = none ∧ call ≠ .packetDestroy packet := by
    intro call hcall
    rw [List.mem_singleton.mp hcall]
    exact ⟨rfl, rfl, by simp⟩
  have hlocked := (ReleasesWhen.created hsends).locked .mEnetMutex
  exact hlocked.congr (iff_of_true (by simp [queues]) trivial)

/-- A packet for all but one. -/
theorem sendPacketToAllExcept_releases (except packet : ℕ) (queued : ClientNode → Bool) :
    ReleasesWhen (sendPacketToAllExcept s except packet queued)
      (∃ node ∈ s.mClients, node.ptr ≠ except ∧ queued node = true) := by
  have hsends : ∀ call ∈ (s.mClients.filter fun node => node.ptr != except).map
      (fun node => EnetCall.peerSend node.client.mPeer packet (queued node)),
      used? call = some packet ∧ acquired? call = none ∧ call ≠ .packetDestroy packet := by
    intro call hcall
    obtain ⟨node, -, rfl⟩ := List.mem_map.mp hcall
    exact ⟨rfl, rfl, by simp⟩
  have hlocked := (ReleasesWhen.created hsends).locked .mEnetMutex
  refine hlocked.congr ?_
  rw [List.any_map, List.any_eq_true]
  constructor
  · intro h
    obtain ⟨node, hnode, hqueues⟩ := h
    obtain ⟨hmem, hptr⟩ := List.mem_filter.mp hnode
    exact ⟨node, hmem, by simpa using hptr, (Bool.and_eq_true_iff.mp hqueues).2⟩
  · intro h
    obtain ⟨node, hmem, hptr, hqueued⟩ := h
    refine ⟨node, List.mem_filter.mpr ⟨hmem, by simpa using hptr⟩, ?_⟩
    exact Bool.and_eq_true_iff.mpr ⟨beq_self_eq_true packet, hqueued⟩

/-- A packet for one client. -/
theorem clientSendPacket_releases (client : Client) (packet : ℕ) (queued : Bool) :
    ReleasesWhen (clientSendPacket s client packet queued)
      (client.mPeer ∈ s.peers → queued = true) := by
  by_cases hpeer : client.mPeer ∈ s.peers
  · rw [clientSendPacket, if_pos hpeer]
    exact (single_send client.mPeer packet queued).congr ⟨fun h _ => h, fun h => h hpeer⟩
  · rw [clientSendPacket, if_neg hpeer]
    exact (ReleasesWhen.of_no_packet rfl rfl).congr (iff_of_true trivial fun h => absurd h hpeer)

/-- Any send of the server. -/
theorem send_releases (send : Send) : ReleasesWhen (send.calls s) (SendKeeps s send) := by
  cases send with
  | toAll packet => exact sendPacketToAll_releases packet
  | toAllExcept except packet queued => exact sendPacketToAllExcept_releases s except packet queued
  | toClient client packet queued => exact clientSendPacket_releases s client packet queued

/-- One round of the loop. -/
theorem event_releases (e : ServiceEvent) : ReleasesWhen (e.calls s) (EventKeeps s e) := by
  obtain ⟨event, received, sends⟩ := e
  cases event with
  | connect peer ptr => exact ReleasesWhen.of_no_packet rfl rfl
  | disconnect peer =>
    simp only [ServiceEvent.calls, EventKeeps]
    split
    · exact sendPacketToAll_releases received
    · exact ReleasesWhen.of_no_packet rfl rfl
  | receive peer packet now =>
    simp only [ServiceEvent.calls, EventKeeps]
    cases s.find? (calcEnetAddressHashCode peer.address) with
    | none =>
      refine (ReleasesWhen.leaked received).congr (iff_of_false id fun h => ?_)
      obtain ⟨node, he, -⟩ := h
      cases he
    | some node =>
      by_cases hhandled : (isHello packet || node.client.mHasGreeting) = true
      · simp only [if_pos hhandled]
        have hsends := (ReleasesWhen.flatMap fun send (_ : send ∈ sends) =>
          send_releases s send).destroyed received
        refine hsends.congr ⟨fun h => ⟨node, rfl, fun _ => h⟩, fun h => ?_⟩
        obtain ⟨other, he, hkeeps⟩ := h
        rw [Option.some.injEq] at he
        rw [← he] at hkeeps
        exact hkeeps hhandled
      · simp only [if_neg hhandled]
        have hnone : ReleasesWhen [] True := ReleasesWhen.of_no_packet rfl rfl
        refine (hnone.destroyed received).congr (iff_of_true trivial ⟨node, rfl, fun h => ?_⟩)
        exact absurd h hhandled

/-- The loop. -/
theorem serviceLoop_releases (s : Server) (events : List ServiceEvent) :
    ReleasesWhen (serviceLoop s events) (LoopKeeps s events) := by
  induction events generalizing s with
  | nil => exact ReleasesWhen.of_no_packet rfl rfl
  | cons e events ih => exact (event_releases s e).append (ih (e.next s))

end Server

section Client

/-- When a send of the client releases its packet. -/
def ClientSendKeeps (send : ClientSend) : Prop :=
  send.mServerPeer.isSome = true → send.connected = true → send.queued = true

/-- When the loop of `NetClient::exeService` does: the packets up to a disconnection
are of a channel that is not above their number, and the sends do. -/
def ClientLoopKeeps : List ClientEvent → Prop
  | [] => True
  | .connect figure :: events => ClientSendKeeps figure ∧ ClientLoopKeeps events
  | .receive channelID _ sends :: events =>
    (channelID ≤ channelCount ∧ ∀ send ∈ sends, ClientSendKeeps send) ∧ ClientLoopKeeps events
  | .disconnect sends :: _ => ∀ send ∈ sends, ClientSendKeeps send

/-- Whether an event brings a packet. -/
def isReceive : ClientEvent → Bool
  | .receive _ _ _ => true
  | _ => false

/-- A send of the client. -/
theorem netSendPacket_releases (send : ClientSend) :
    ReleasesWhen (netSendPacket send) (ClientSendKeeps send) := by
  unfold netSendPacket ClientSendKeeps
  cases hpeer : send.mServerPeer with
  | none =>
    exact (ReleasesWhen.of_no_packet rfl rfl).congr (iff_of_true trivial fun h => absurd h (by simp))
  | some peer =>
    dsimp only
    by_cases hconnected : send.connected = true
    · rw [if_pos hconnected]
      have hlocked := (single_send peer send.packet send.queued).locked .mClientCS
      exact hlocked.congr ⟨fun h _ _ => h, fun h => h rfl hconnected⟩
    · rw [if_neg hconnected]
      exact (ReleasesWhen.of_no_packet rfl rfl).congr
        (iff_of_true trivial fun _ h => absurd h hconnected)

/-- Some sends of the client. -/
theorem netSends_releases (sends : List ClientSend) :
    ReleasesWhen (sends.flatMap netSendPacket) (∀ send ∈ sends, ClientSendKeeps send) :=
  ReleasesWhen.flatMap fun send _ => netSendPacket_releases send

/-- The loop of `NetClient::exeService`. -/
theorem clientLoop_releases (events : List ClientEvent) :
    ReleasesWhen (clientLoop events) (ClientLoopKeeps events) := by
  induction events with
  | nil => exact ReleasesWhen.of_no_packet rfl rfl
  | cons event events ih =>
    cases event with
    | connect figure => exact (netSendPacket_releases figure).append ih
    | disconnect sends =>
      have hunlock : ReleasesWhen [.unlock .mClientCS] True := ReleasesWhen.of_no_packet rfl rfl
      rw [clientLoop, ClientLoopKeeps]
      exact ((netSends_releases sends).append hunlock).congr (by rw [and_true])
    | receive channelID packet sends =>
      rw [clientLoop, ClientLoopKeeps]
      by_cases hchannel : channelCount < channelID
      · rw [if_pos hchannel]
        have hleaked := ((ReleasesWhen.leaked packet).append (netSends_releases sends)).append ih
        refine hleaked.congr (iff_of_false (fun h => h.1.1) fun h => ?_)
        have hle := h.1.1
        omega
      · rw [if_neg hchannel]
        have hdestroyed := ((netSends_releases sends).destroyed packet).append ih
        have hle : channelID ≤ channelCount := by omega
        exact hdestroyed.congr (and_congr_left fun _ => (and_iff_right hle).symm)

/-- The loop of `NetClient::exeConnect`. -/
theorem connectLoop_releases (events : List ClientEvent) :
    ReleasesWhen (events.flatMap ClientEvent.connectCalls)
      (∀ event ∈ events, isReceive event = false) := by
  refine ReleasesWhen.flatMap fun event _ => ?_
  cases event with
  | receive channelID packet sends =>
    exact (ReleasesWhen.leaked packet).congr (iff_of_false id (by simp [isReceive]))
  | connect figure => exact (ReleasesWhen.of_no_packet rfl rfl).congr (iff_of_true trivial rfl)
  | disconnect sends => exact (ReleasesWhen.of_no_packet rfl rfl).congr (iff_of_true trivial rfl)

end Client

/-- When an execution releases its packets. -/
def KeepsPackets : Execution → Prop
  | .sendPacketToAllExcept s except packet queued =>
    SendKeeps s (.toAllExcept except packet queued)
  | .clientSendPacket s client packet queued => SendKeeps s (.toClient client packet queued)
  | .serverExeService s hostLive events => hostLive = true → LoopKeeps s events
  | .netSendPacket send => ClientSendKeeps send
  | .exeConnect isFirstStep hostLive connecting events =>
    (isFirstStep = true → connecting = true) → hostLive = true →
      ∀ event ∈ events, isReceive event = false
  | .clientExeService greeting tryLock hostLive events =>
    (∀ send ∈ greeting, ClientSendKeeps send) ∧
      (tryLock = true → hostLive = true → ClientLoopKeeps (events.take sMaxPacketsPerStep))
  | _ => True

/-- `NetClient::exeConnect`. -/
theorem exeConnect_releases (isFirstStep hostLive connecting : Bool) (events : List ClientEvent) :
    ReleasesWhen (exeConnect isFirstStep hostLive connecting events)
      (KeepsPackets (.exeConnect isFirstStep hostLive connecting events)) := by
  simp only [exeConnect, KeepsPackets]
  by_cases hfirst : (isFirstStep && !connecting) = true
  · rw [if_pos hfirst]
    obtain ⟨hstep, hfails⟩ := Bool.and_eq_true_iff.mp hfirst
    refine (ReleasesWhen.of_no_packet rfl rfl).congr (iff_of_true trivial fun h => ?_)
    rw [h hstep] at hfails
    cases hfails
  · rw [if_neg hfirst]
    have hconnecting : isFirstStep = true → connecting = true := by
      intro hstep
      cases hc : connecting with
      | true => rfl
      | false => exact absurd (Bool.and_eq_true_iff.mpr ⟨hstep, by rw [hc]; rfl⟩) hfirst
    cases hostLive with
    | false =>
      exact (ReleasesWhen.of_no_packet rfl rfl).congr (iff_of_true trivial fun _ h => by cases h)
    | true =>
      have hlocked := (connectLoop_releases events).locked .mClientCS
      exact hlocked.congr ⟨fun h _ _ => h, fun h => h hconnecting rfl⟩

/-- `NetClient::exeService`. -/
theorem clientExeService_releases (greeting : List ClientSend) (tryLock hostLive : Bool)
    (events : List ClientEvent) :
    ReleasesWhen (clientExeService greeting tryLock hostLive events)
      (KeepsPackets (.clientExeService greeting tryLock hostLive events)) := by
  have hlock : ReleasesWhen [.lock .mClientCS] True := ReleasesWhen.of_no_packet rfl rfl
  have hbody : ReleasesWhen
      (if !tryLock then []
        else if !hostLive then [.lock .mClientCS, .unlock .mClientCS]
        else [.lock .mClientCS] ++ clientLoop (events.take sMaxPacketsPerStep))
      (tryLock = true → hostLive = true → ClientLoopKeeps (events.take sMaxPacketsPerStep)) := by
    cases tryLock with
    | false =>
      exact (ReleasesWhen.of_no_packet rfl rfl).congr (iff_of_true trivial fun h => by cases h)
    | true =>
      cases hostLive with
      | false =>
        exact (ReleasesWhen.of_no_packet rfl rfl).congr (iff_of_true trivial fun _ h => by cases h)
      | true =>
        have hloop := hlock.append (clientLoop_releases (events.take sMaxPacketsPerStep))
        exact hloop.congr ⟨fun h _ _ => h.2, fun h => ⟨trivial, h rfl rfl⟩⟩
  exact (netSends_releases greeting).append hbody

/-- Each packet that a function creates or receives is released once, exactly in
the executions that meet the condition: a created packet is taken by some peer, and
a received one comes from a peer with a record, not in the loop of `exeConnect`,
and not on a channel above their number. -/
theorem packets_released_iff (e : Execution) (hfresh : Fresh e.calls) :
    Released e.calls ↔ KeepsPackets e := by
  cases e with
  | sendPacketToAll packet => exact (sendPacketToAll_releases packet).iff hfresh
  | sendPacketToAllExcept s except packet queued =>
    exact (sendPacketToAllExcept_releases s except packet queued).iff hfresh
  | clientSendPacket s client packet queued =>
    exact (clientSendPacket_releases s client packet queued).iff hfresh
  | exeStartup isFirstStep initialized created =>
    have hnone : ReleasesWhen (EnetCalls.exeStartup isFirstStep initialized created) True := by
      unfold EnetCalls.exeStartup
      split
      · split
        · exact ReleasesWhen.of_no_packet rfl rfl
        · split <;> exact ReleasesWhen.of_no_packet rfl rfl
      · exact ReleasesWhen.of_no_packet rfl rfl
    exact hnone.iff hfresh
  | serverExeService s hostLive events =>
    have hservice : ReleasesWhen (EnetCalls.serverExeService s hostLive events)
        (hostLive = true → LoopKeeps s events) := by
      cases hostLive with
      | false =>
        exact (ReleasesWhen.of_no_packet rfl rfl).congr (iff_of_true trivial fun h => by cases h)
      | true =>
        have hlocked := (serviceLoop_releases s events).locked .mEnetMutex
        exact hlocked.congr ⟨fun h _ => h, fun h => h rfl⟩
    exact hservice.iff hfresh
  | netSendPacket send => exact (netSendPacket_releases send).iff hfresh
  | disconnect => exact (ReleasesWhen.of_no_packet rfl rfl).iff hfresh
  | exeConnect isFirstStep hostLive connecting events =>
    exact (exeConnect_releases isFirstStep hostLive connecting events).iff hfresh
  | clientExeService greeting tryLock hostLive events =>
    exact (clientExeService_releases greeting tryLock hostLive events).iff hfresh

/-- With two clients on the server, the packet of one reaches the other. -/
theorem packets_released_two :
    Released (Execution.calls (.sendPacketToAllExcept (serverWith [1, 2]) 1 7 fun _ => true)) := by
  refine (packets_released_iff (.sendPacketToAllExcept (serverWith [1, 2]) 1 7 fun _ => true)
    (by decide)).mpr ?_
  simp only [KeepsPackets, SendKeeps]
  decide

/-- With one client on the server, its packet is created and goes nowhere. -/
theorem lonely_packet_leaks :
    Fresh (Execution.calls (.sendPacketToAllExcept (serverWith [1]) 1 7 fun _ => true)) ∧
      ¬Released (Execution.calls (.sendPacketToAllExcept (serverWith [1]) 1 7 fun _ => true)) := by
  refine ⟨by decide, fun h => ?_⟩
  have hone := h.created 7 (by decide)
  revert hone
  decide

end BfMultiplayer.PacketRelease

import BfMultiplayer.ClientLinks

/-!
# The rate limiter of the jump flips

`handleJumpFlip` keeps the time of the last flip that it let pass in a static,
which its first call sets to its own time. So the packets are measured against
the first one until one of them passes, though the first one did not pass
itself: all packets within 16 ms of the first are dropped, and after that only
those that closely follow one that passed.
-/

namespace BfMultiplayer.FlipLimiter

open Packets ServerState ServerHandlers EventLoopRules ClientLinks

/-- A `ToS_JumpFlip` packet as `handleJumpFlip` gets it. -/
structure FlipPacket where
  /-- The record of its sender. -/
  client : ClientNode
  /-- What it asks for. -/
  data : JumpFlipData
  /-- When it arrives, in nanoseconds. -/
  now : ℕ

/-- What happens to the server. -/
inductive LimiterEvent where
  /-- A jump flip arrives. -/
  | flip (packet : FlipPacket)
  /-- The server does anything else. -/
  | other (t : Server)

/-- One event. The static is local to the handler: nothing else changes it. -/
def limiterStep (s : Server) : LimiterEvent → Server
  | .flip packet => (handleJumpFlip s packet.client packet.data packet.now).1
  | .other t => { t with lastFlip := s.lastFlip }

/-- The server after some events. -/
def afterEvents (s : Server) (events : List LimiterEvent) : Server := events.foldl limiterStep s

/-- The arrival times of the jump flips among some events. -/
def arrivalTimes (events : List LimiterEvent) : List ℕ :=
  events.filterMap fun
    | .flip packet => some packet.now
    | .other _ => none

/-- Sixteen milliseconds in nanoseconds. -/
def flipWindow : ℕ := jumpFlipInterval * 1000000

/-- A packet toggles the state and is sent to the clients other than its sender. -/
def Accepts (s : Server) (packet : FlipPacket) : Prop :=
  let result := handleJumpFlip s packet.client packet.data packet.now
  result.1.mSaveData.jumpFlipState = !s.mSaveData.jumpFlipState ∧
    ∀ node ∈ s.mClients, node.ptr ≠ packet.client.ptr →
      .send node.client.mPeer (.jumpFlip packet.client.client.mUid ⟨!s.mSaveData.jumpFlipState⟩)
        false ∈ result.2

/-- A packet changes nothing and nothing is sent. -/
def Ignores (s : Server) (packet : FlipPacket) : Prop :=
  let result := handleJumpFlip s packet.client packet.data packet.now
  result.1.mSaveData = s.mSaveData ∧ result.2 = []

/-- A packet among some events was accepted. -/
def AcceptedIn (s : Server) (events : List LimiterEvent) (packet : FlipPacket) : Prop :=
  ∃ first rest, events = first ++ .flip packet :: rest ∧ Accepts (afterEvents s first) packet

/-- A packet among some events was accepted less than 16 ms before a time. -/
def AcceptedShortlyBefore (s : Server) (events : List LimiterEvent) (now : ℕ) : Prop :=
  ∃ packet, AcceptedIn s events packet ∧ now < packet.now + flipWindow

/-- A packet behind some events is ignored only shortly behind an accepted one, and accepted
otherwise. -/
def DropsOnlyBursts (s : Server) (events : List LimiterEvent) (packet : FlipPacket) : Prop :=
  (Ignores (afterEvents s events) packet → AcceptedShortlyBefore s events packet.now) ∧
    (¬Ignores (afterEvents s events) packet → Accepts (afterEvents s events) packet)

/-- The condition on a packet: it arrives at least 16 ms behind the first one. -/
def BehindFirst (events : List LimiterEvent) (now : ℕ) : Prop :=
  ∃ t, (arrivalTimes events).head? = some t ∧ t + flipWindow ≤ now

/-- The state behind one more event. -/
theorem afterEvents_concat (s : Server) (events : List LimiterEvent) (event : LimiterEvent) :
    afterEvents s (events ++ [event]) = limiterStep (afterEvents s events) event := by
  rw [afterEvents, List.foldl_append]
  rfl

/-- A packet passes when the last flip is known and at least 16 ms ago. -/
theorem jumpFlipPasses_iff (s : Server) (now : ℕ) :
    jumpFlipPasses s now = true ↔ ∃ last, s.lastFlip = some last ∧ last + flipWindow ≤ now := by
  have hwindow : flipWindow = 16 * 1000000 := rfl
  have hinterval : jumpFlipInterval = 16 := rfl
  unfold jumpFlipPasses
  cases s.lastFlip with
  | none => exact iff_of_false Bool.false_ne_true fun ⟨_, h, _⟩ => nomatch h
  | some last =>
    rw [decide_eq_true_iff]
    constructor
    · exact fun h => ⟨last, rfl, by omega⟩
    · rintro ⟨_, hlast, h⟩
      cases hlast
      omega

/-- The packets that pass are accepted. -/
theorem accepts_of_passes {s : Server} {packet : FlipPacket}
    (hpass : jumpFlipPasses s packet.now = true) : Accepts s packet := by
  simp only [Accepts, handleJumpFlip, hpass, if_true]
  refine ⟨trivial, fun node hnode hptr => List.mem_append_left _ ?_⟩
  have hother : (node.ptr != packet.client.ptr) = true := bne_iff_ne.mpr hptr
  exact List.mem_map.mpr ⟨node, List.mem_filter.mpr ⟨hnode, hother⟩, rfl⟩

/-- The others are ignored. -/
theorem ignores_of_not_passes {s : Server} {packet : FlipPacket}
    (hpass : ¬jumpFlipPasses s packet.now = true) : Ignores s packet := by
  simp only [Ignores, handleJumpFlip, hpass]
  exact ⟨rfl, rfl⟩

/-- A packet is not both. -/
theorem not_accepts_of_ignores {s : Server} {packet : FlipPacket} (h : Ignores s packet) :
    ¬Accepts s packet := by
  intro hboth
  have hstate := hboth.1
  rw [h.1] at hstate
  exact Bool.not_ne_self s.mSaveData.jumpFlipState hstate.symm

/-- A packet is accepted exactly when it passes. -/
theorem accepts_iff (s : Server) (packet : FlipPacket) :
    Accepts s packet ↔ jumpFlipPasses s packet.now = true := by
  constructor
  · intro h
    by_contra hpass
    exact not_accepts_of_ignores (ignores_of_not_passes hpass) h
  · exact accepts_of_passes

/-- What the static holds behind a packet: its time when it passes or is the first. -/
theorem lastFlip_flip (s : Server) (packet : FlipPacket) :
    (limiterStep s (.flip packet)).lastFlip =
      some (if jumpFlipPasses s packet.now then packet.now else s.lastFlip.getD packet.now) := by
  simp only [limiterStep, handleJumpFlip]
  split <;> rfl

/-- A packet among some events and one more was accepted before, or is that one. -/
theorem acceptedIn_concat_iff (s : Server) (events : List LimiterEvent) (event : LimiterEvent)
    (packet : FlipPacket) :
    AcceptedIn s (events ++ [event]) packet ↔
      AcceptedIn s events packet ∨ event = .flip packet ∧ Accepts (afterEvents s events) packet := by
  constructor
  · rintro ⟨first, rest, hsplit, haccepts⟩
    rcases List.eq_nil_or_concat rest with rfl | ⟨rest, last, rfl⟩
    · obtain ⟨rfl, hlast⟩ := List.append_inj' hsplit rfl
      cases hlast
      exact Or.inr ⟨rfl, haccepts⟩
    · rw [List.concat_eq_append, ← List.cons_append, ← List.append_assoc] at hsplit
      obtain ⟨rfl, -⟩ := List.append_inj' hsplit rfl
      exact Or.inl ⟨first, rest, rfl, haccepts⟩
  · rintro (⟨first, rest, rfl, haccepts⟩ | ⟨rfl, haccepts⟩)
    · exact ⟨first, rest ++ [event], by rw [List.append_assoc, List.cons_append], haccepts⟩
    · exact ⟨events, [], rfl, haccepts⟩

/-- What is known of the static behind some events: it is unset before the first packet, and
then holds the time of the first packet or of an accepted one. -/
structure LimiterInv (s : Server) (events : List LimiterEvent) : Prop where
  /-- Before the first packet. -/
  unset : (afterEvents s events).lastFlip = none → arrivalTimes events = []
  /-- From the first packet on. -/
  set : ∀ last, (afterEvents s events).lastFlip = some last →
    (arrivalTimes events).head? = some last ∨
      ∃ packet, AcceptedIn s events packet ∧ packet.now = last
  /-- Every accepted packet is at least 16 ms behind the first one. -/
  accepted : ∀ packet, AcceptedIn s events packet → BehindFirst events packet.now

/-- The arrival times of two parts. -/
theorem arrivalTimes_append (first rest : List LimiterEvent) :
    arrivalTimes (first ++ rest) = arrivalTimes first ++ arrivalTimes rest :=
  List.filterMap_append

/-- The first arrival stays the first one. -/
theorem head?_arrivalTimes_append {events : List LimiterEvent} {t : ℕ}
    (h : (arrivalTimes events).head? = some t) (rest : List LimiterEvent) :
    (arrivalTimes (events ++ rest)).head? = some t := by
  rw [arrivalTimes_append, List.head?_append, h, Option.some_or]

/-- Under the invariant, a packet that passes is behind the first one. -/
theorem LimiterInv.behindFirst {s : Server} {events : List LimiterEvent} {now : ℕ}
    (h : LimiterInv s events) (hpass : jumpFlipPasses (afterEvents s events) now = true) :
    BehindFirst events now := by
  obtain ⟨last, hlast, hle⟩ := (jumpFlipPasses_iff _ now).mp hpass
  rcases h.set last hlast with hfirst | ⟨packet, haccepted, rfl⟩
  · exact ⟨last, hfirst, hle⟩
  · obtain ⟨t, hfirst, ht⟩ := h.accepted packet haccepted
    exact ⟨t, hfirst, by omega⟩

/-- Other events keep the invariant. -/
theorem LimiterInv.other {s : Server} {events : List LimiterEvent} (h : LimiterInv s events)
    (t : Server) : LimiterInv s (events ++ [.other t]) := by
  have htimes : arrivalTimes (events ++ [.other t]) = arrivalTimes events := by
    rw [arrivalTimes_append]
    exact List.append_nil _
  have hstatic : (afterEvents s (events ++ [.other t])).lastFlip =
      (afterEvents s events).lastFlip := by
    rw [afterEvents_concat]
    rfl
  have hsame : ∀ packet, AcceptedIn s (events ++ [.other t]) packet ↔
      AcceptedIn s events packet := by
    intro packet
    rw [acceptedIn_concat_iff]
    exact or_iff_left fun hlast => nomatch hlast.1
  refine ⟨?_, ?_, ?_⟩
  · rw [hstatic, htimes]
    exact h.unset
  · intro last hlast
    rw [hstatic] at hlast
    rw [htimes]
    exact (h.set last hlast).imp_right fun ⟨packet, haccepted, hnow⟩ =>
      ⟨packet, (hsame packet).mpr haccepted, hnow⟩
  · intro packet haccepted
    rw [BehindFirst, htimes]
    exact h.accepted packet ((hsame packet).mp haccepted)

/-- A packet keeps the invariant. -/
theorem LimiterInv.flip {s : Server} {events : List LimiterEvent} (h : LimiterInv s events)
    (packet : FlipPacket) : LimiterInv s (events ++ [.flip packet]) := by
  have hstatic := lastFlip_flip (afterEvents s events) packet
  rw [← afterEvents_concat] at hstatic
  have hfirst : ∀ now, BehindFirst events now → BehindFirst (events ++ [.flip packet]) now :=
    fun now ⟨t, ht, hle⟩ => ⟨t, head?_arrivalTimes_append ht _, hle⟩
  refine ⟨fun hnone => ?_, fun last hlast => ?_, fun other haccepted => ?_⟩
  · rw [hstatic] at hnone
    cases hnone
  · rw [hstatic, Option.some.injEq] at hlast
    by_cases hpass : jumpFlipPasses (afterEvents s events) packet.now = true
    · rw [if_pos hpass] at hlast
      exact Or.inr ⟨packet, (acceptedIn_concat_iff _ _ _ _).mpr
        (Or.inr ⟨rfl, (accepts_iff _ packet).mpr hpass⟩), hlast⟩
    · rw [if_neg hpass] at hlast
      cases hold : (afterEvents s events).lastFlip with
      | none =>
        -- the first packet sets the static to its own time
        rw [hold, Option.getD_none] at hlast
        rw [arrivalTimes_append, h.unset hold, ← hlast]
        exact Or.inl rfl
      | some old =>
        rw [hold, Option.getD_some] at hlast
        rw [hlast] at hold
        rcases h.set last hold with hhead | ⟨other, haccepted, hnow⟩
        · exact Or.inl (head?_arrivalTimes_append hhead _)
        · exact Or.inr ⟨other, (acceptedIn_concat_iff _ _ _ _).mpr (Or.inl haccepted), hnow⟩
  · rcases (acceptedIn_concat_iff _ _ _ _).mp haccepted with hbefore | ⟨hlast, haccepts⟩
    · exact hfirst _ (h.accepted other hbefore)
    · cases hlast
      exact hfirst _ (h.behindFirst ((accepts_iff _ packet).mp haccepts))

/-- One event keeps the invariant. -/
theorem limiterInv_concat {s : Server} {events : List LimiterEvent} (h : LimiterInv s events)
    (event : LimiterEvent) : LimiterInv s (events ++ [event]) := by
  cases event with
  | other t => exact h.other t
  | flip packet => exact h.flip packet

/-- The invariant holds behind all events since the start of the server. -/
theorem limiterInv_of_start {s : Server} (hstart : s.lastFlip = none)
    (events : List LimiterEvent) : LimiterInv s events := by
  induction events using List.reverseRecOn with
  | nil =>
    refine ⟨fun _ => rfl, fun last hlast => ?_, fun packet ⟨first, rest, hsplit, _⟩ => ?_⟩
    · rw [afterEvents, List.foldl_nil, hstart] at hlast
      cases hlast
    · exact absurd hsplit.symm (List.append_ne_nil_of_right_ne_nil _ (List.cons_ne_nil _ _))
  | append_singleton events event ih => exact limiterInv_concat ih event

/-- A packet that was accepted arrived at its time. -/
theorem AcceptedIn.mem_arrivalTimes {s : Server} {events : List LimiterEvent} {packet : FlipPacket}
    (h : AcceptedIn s events packet) : packet.now ∈ arrivalTimes events := by
  obtain ⟨first, rest, rfl, -⟩ := h
  exact List.mem_filterMap.mpr ⟨.flip packet, by simp, rfl⟩

/-- Of the packets since the start of the server, which arrive in the order of their times,
exactly those at least 16 ms behind the first one are ignored only shortly behind an accepted
packet, and accepted otherwise. -/
theorem drops_only_bursts_iff (s : Server) (hstart : s.lastFlip = none)
    (events : List LimiterEvent) (packet : FlipPacket)
    (hsorted : (arrivalTimes events ++ [packet.now]).Pairwise (· ≤ ·)) :
    DropsOnlyBursts s events packet ↔ BehindFirst events packet.now := by
  have hinv := limiterInv_of_start hstart events
  by_cases hpass : jumpFlipPasses (afterEvents s events) packet.now = true
  · have haccepts := (accepts_iff _ packet).mpr hpass
    have hnot : ¬Ignores (afterEvents s events) packet :=
      fun h => not_accepts_of_ignores h haccepts
    exact iff_of_true ⟨fun h => absurd h hnot, fun _ => haccepts⟩ (hinv.behindFirst hpass)
  · have hignores := ignores_of_not_passes hpass
    constructor
    · intro h
      obtain ⟨other, haccepted, hnear⟩ := h.1 hignores
      obtain ⟨t, hfirst, ht⟩ := hinv.accepted other haccepted
      have hbefore := (List.pairwise_append.mp hsorted).2.2 other.now haccepted.mem_arrivalTimes
        packet.now (List.mem_singleton_self _)
      exact ⟨t, hfirst, by omega⟩
    · rintro ⟨t, hfirst, ht⟩
      refine ⟨fun _ => ?_, fun h => absurd hignores h⟩
      cases hlast : (afterEvents s events).lastFlip with
      | none =>
        rw [hinv.unset hlast] at hfirst
        cases hfirst
      | some last =>
        have hnear : ¬last + flipWindow ≤ packet.now :=
          fun hle => hpass ((jumpFlipPasses_iff _ _).mpr ⟨last, hlast, hle⟩)
        rcases hinv.set last hlast with hhead | ⟨other, haccepted, rfl⟩
        · rw [hfirst, Option.some.injEq] at hhead
          omega
        · exact ⟨other, haccepted, by omega⟩

/-- Two clients, and no jump flip since the start of the server. -/
def startedServer : Server := { serverWith [1, 2] with lastFlip := none }

/-- A flip of the first of two clients. -/
def flipAt (now : ℕ) : FlipPacket :=
  ⟨⟨calcEnetAddressHashCode (peerAt 1).address, 1,
    { mPeer := peerAt 1, mHasGreeting := true, mUid := ⟨1, 0⟩ }⟩, ⟨true⟩, now⟩

/-- Of a second flip 16 ms behind the first one, nothing is lost. -/
theorem drops_only_bursts_second :
    DropsOnlyBursts startedServer [.flip (flipAt 0)] (flipAt 16000000) :=
  (drops_only_bursts_iff startedServer rfl [.flip (flipAt 0)] (flipAt 16000000)
    (by decide)).mpr ⟨0, rfl, by decide⟩

/-- The first flip is dropped, though none was accepted before. -/
theorem first_flip_is_dropped : ¬DropsOnlyBursts startedServer [] (flipAt 1000000000) := by
  intro h
  have hignored : Ignores (afterEvents startedServer []) (flipAt 1000000000) :=
    ignores_of_not_passes Bool.false_ne_true
  obtain ⟨packet, ⟨first, rest, hsplit, -⟩, -⟩ := h.1 hignored
  exact absurd hsplit.symm (List.append_ne_nil_of_right_ne_nil _ (List.cons_ne_nil _ _))

end BfMultiplayer.FlipLimiter

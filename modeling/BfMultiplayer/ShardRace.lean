import BfMultiplayer.ClientLinks
import BfMultiplayer.GuardedRuns
import BfMultiplayer.RelayedSets
import BfMultiplayer.ShardActors

/-!
# Who gets the shine of the shards

The clients collect shards, the server passes the packets on, and every client handles
those of the others. In the end all have the same shards. The shine of a zone is shown to
a client that has touched the last missing shard itself: to one client, unless two have
touched the same shard. When the last packet completes the zone on every client, because
the last two shards were touched at the same time, it is shown to none.
-/

namespace BfMultiplayer.ShardRace

open Packets ServerState ServerHandlers EventLoopRules Mailbox ClientLinks GuardedRuns
open ClientProgress RelayedSets ShardActors

/-- The server, and its clients by the places of their records. -/
structure ShardSystem (γ : Type) where
  /-- The server. -/
  server : Server
  /-- Each client, and the shards in flight to it. -/
  consoles : ℕ → Receiver (ShardConsole γ) (ℤ × ℤ)
  /-- The shards of each client in flight to the server. -/
  requests : ℕ → List (ℤ × ℤ)
  /-- The shards that were sent, with the clients that have touched them. -/
  sent : List (ℕ × ℤ × ℤ)

/-- A step of the system. -/
inductive SystemAction where
  /-- A step of the game of a client. -/
  | play (ptr : ℕ) (action : ShardAction)
  /-- The server handles a client's oldest packet. -/
  | serve (ptr : ℕ)
  /-- A client handles the oldest packet in flight to it. -/
  | deliver (ptr : ℕ)
  deriving DecidableEq

/-- The shard of a packet. -/
def shard? : ClientBound → Option (ℤ × ℤ)
  | .miscMapSync _ (.shardCollect zoneID shardID) => some (zoneID, shardID)
  | _ => none

section

variable {γ : Type} (game : SingleModeGame γ) (isFinalShard : γ → ℤ → Bool)

/-- A client ends in a new state and sends packets. -/
def playShard (sys : ShardSystem γ) (ptr : ℕ) (console : ShardConsole γ)
    (packets : List (ℤ × ℤ)) : ShardSystem γ :=
  { sys with
    consoles := Function.update sys.consoles ptr ((sys.consoles ptr).act fun _ => console)
    requests := Function.update sys.requests ptr (sys.requests ptr ++ packets)
    sent := sys.sent ++ packets.map (Prod.mk ptr) }

/-- The server handles one packet of a client. -/
def serveShard (sys : ShardSystem γ) (node : ClientNode) (packet : ℤ × ℤ)
    (rest : List (ℤ × ℤ)) : ShardSystem γ :=
  let result := handleMiscMapSync sys.server node (.shardCollect packet.1 packet.2)
  { sys with
    server := result.1
    consoles := postAll result.1 shard? sys.consoles result.2
    requests := Function.update sys.requests node.ptr rest }

/-- The step function. -/
def systemStep (sys : ShardSystem γ) : SystemAction → Option (ShardSystem γ)
  | .play ptr action => do
    let _ ← nodeAt sys.server ptr
    let (console, packets) ← consoleStep game isFinalShard (sys.consoles ptr).state action
    some (playShard sys ptr console packets)
  | .serve ptr =>
    match nodeAt sys.server ptr, sys.requests ptr with
    | some node, packet :: rest => some (serveShard sys node packet rest)
    | _, _ => none
  | .deliver ptr => do
    let _ ← nodeAt sys.server ptr
    let receiver ← (sys.consoles ptr).deliver (handleShardCollect game)
    some { sys with consoles := Function.update sys.consoles ptr receiver }

/-- Some server, the scenes of its clients, and nothing in flight. -/
def ShardSystem.start (s : Server) (scenes : ℕ → ShardConsole γ) : ShardSystem γ :=
  ⟨s, fun ptr => ⟨scenes ptr, []⟩, fun _ => [], []⟩

/-- Nothing is in flight from or to a client. -/
def ShardSystem.Quiet (sys : ShardSystem γ) : Prop :=
  ∀ node ∈ sys.server.mClients, sys.requests node.ptr = [] ∧ (sys.consoles node.ptr).queue = []

instance (sys : ShardSystem γ) : Decidable sys.Quiet := List.decidableBAll _ _

/-- The places of the clients. -/
def clientPtrs (s : Server) : Set ℕ := {ptr | ∃ node ∈ s.mClients, node.ptr = ptr}

/-- The shards that a client has collected. -/
def collectedBy (console : ShardConsole γ) : Set (ℤ × ℤ) :=
  {shard | collected game console.game shard = true}

/-- The sets of collected shards, and what is in flight. -/
def ShardSystem.relay (sys : ShardSystem γ) : Relay ℕ (ℤ × ℤ) where
  known ptr := collectedBy game (sys.consoles ptr).state
  requests := sys.requests
  queues ptr := (sys.consoles ptr).queue
  sent := sys.sent

end

section Rules

variable {γ : Type} {game : SingleModeGame γ} {isFinalShard : γ → ℤ → Bool} {s : Server}
  {scenes : ℕ → ShardConsole γ} {sys sys' : ShardSystem γ} {zone : ℤ}

/-- The server passes a shard on to every other client. -/
theorem serveShard_consoles (hs : Linked sys.server) {client node : ClientNode}
    (hnode : node ∈ sys.server.mClients) (packet : ℤ × ℤ) (rest : List (ℤ × ℤ)) :
    (serveShard sys client packet rest).consoles node.ptr =
      (sys.consoles node.ptr).post (if node.ptr = client.ptr then [] else [packet]) := by
  have hserver : Linked (handleMiscMapSync sys.server client
      (.shardCollect packet.1 packet.2)).1 := hs.congr rfl rfl
  have hsent : sentTo (handleMiscMapSync sys.server client (.shardCollect packet.1 packet.2)).1
      node.client.mPeer
      (handleMiscMapSync sys.server client (.shardCollect packet.1 packet.2)).2 =
        if node.ptr = client.ptr then []
        else [.miscMapSync client.client.mUid (.shardCollect packet.1 packet.2)] := by
    -- the save behind the relayed packet is no packet
    have hrelay := hs.redistributePacket_sent
      (t := (handleMiscMapSync sys.server client (.shardCollect packet.1 packet.2)).1) rfl rfl hnode
      client (.miscMapSync client.client.mUid (.shardCollect packet.1 packet.2))
    exact (sentTo_append ..).trans ((List.append_nil _).trans hrelay)
  simp only [serveShard]
  rw [hserver.postAll_ptr hnode, hsent]
  by_cases hptr : node.ptr = client.ptr
  · rw [if_pos hptr, if_pos hptr]
    rfl
  · rw [if_neg hptr, if_neg hptr]
    rfl

/-- What a step of the system is. -/
theorem systemStep_cases {action : SystemAction}
    (h : systemStep game isFinalShard sys action = some sys') :
    (∃ node ∈ sys.server.mClients, ∃ play console packets,
        consoleStep game isFinalShard (sys.consoles node.ptr).state play =
          some (console, packets) ∧ sys' = playShard sys node.ptr console packets) ∨
      (∃ node ∈ sys.server.mClients, ∃ packet rest, sys.requests node.ptr = packet :: rest ∧
        sys' = serveShard sys node packet rest) ∨
      ∃ node ∈ sys.server.mClients, ∃ packet rest,
        (sys.consoles node.ptr).queue = packet :: rest ∧
          sys' = { sys with
            consoles := Function.update sys.consoles node.ptr
              ⟨handleShardCollect game (sys.consoles node.ptr).state packet, rest⟩ } := by
  cases action with
  | play ptr play =>
    obtain ⟨node, hnode, hrest⟩ := Option.bind_eq_some_iff.mp h
    obtain ⟨hmem, rfl⟩ := nodeAt_mem hnode
    obtain ⟨⟨console, packets⟩, hplay, hstep⟩ := Option.bind_eq_some_iff.mp hrest
    cases hstep
    exact Or.inl ⟨node, hmem, play, console, packets, hplay, rfl⟩
  | serve ptr =>
    simp only [systemStep] at h
    split at h
    · rename_i node packet rest hnode hrequests
      obtain ⟨hmem, rfl⟩ := nodeAt_mem hnode
      cases h
      exact Or.inr (Or.inl ⟨node, hmem, packet, rest, hrequests, rfl⟩)
    · cases h
  | deliver ptr =>
    obtain ⟨node, hnode, hrest⟩ := Option.bind_eq_some_iff.mp h
    obtain ⟨hmem, rfl⟩ := nodeAt_mem hnode
    obtain ⟨receiver, hdeliver, hstep⟩ := Option.bind_eq_some_iff.mp hrest
    cases hstep
    unfold Receiver.deliver at hdeliver
    split at hdeliver
    · cases hdeliver
    · rename_i packet rest hqueue
      cases hdeliver
      exact Or.inr (Or.inr ⟨node, hmem, packet, rest, hqueue, rfl⟩)

/-- Passing on leaves the clients as they are. -/
theorem serveShard_state (client : ClientNode) (packet : ℤ × ℤ) (rest : List (ℤ × ℤ)) (ptr : ℕ) :
    ((serveShard sys client packet rest).consoles ptr).state = (sys.consoles ptr).state := by
  simp only [serveShard, postAll]
  split <;> rfl

/-- What holds between two steps. -/
structure SystemInv (game : SingleModeGame γ) (s : Server) (scenes : ℕ → ShardConsole γ)
    (sys : ShardSystem γ) : Prop where
  /-- The clients of the server stay. -/
  clients : sys.server.mClients = s.mClients
  /-- So do the peers. -/
  peers : sys.server.peers = s.peers
  /-- What was collected for a packet is collected. -/
  hooks : ∀ ptr, HooksCollected game (sys.consoles ptr).state
  /-- The sets of shards grow through the server. -/
  relay : RelayInv (clientPtrs s) (fun ptr => collectedBy game (scenes ptr)) (sys.relay game)

/-- The links after one of them was changed. -/
theorem queue_update (consoles : ℕ → Receiver (ShardConsole γ) (ℤ × ℤ)) (ptr : ℕ)
    (receiver : Receiver (ShardConsole γ) (ℤ × ℤ)) :
    (fun j => (Function.update consoles ptr receiver j).queue) =
      Function.update (fun j => (consoles j).queue) ptr receiver.queue := by
  funext j
  by_cases hj : j = ptr
  · rw [hj, Function.update_self, Function.update_self]
  · rw [Function.update_of_ne hj, Function.update_of_ne hj]

/-- The collected shards after one client has changed. -/
theorem mem_collectedBy_update {consoles : ℕ → Receiver (ShardConsole γ) (ℤ × ℤ)} {ptr : ℕ}
    {receiver : Receiver (ShardConsole γ) (ℤ × ℤ)} {items : ℤ × ℤ → Prop}
    (h : ∀ item, collected game receiver.state.game item = true ↔
      collected game (consoles ptr).state.game item = true ∨ items item) (j : ℕ) (item : ℤ × ℤ) :
    item ∈ collectedBy game (Function.update consoles ptr receiver j).state ↔
      item ∈ collectedBy game (consoles j).state ∨ j = ptr ∧ items item := by
  by_cases hj : j = ptr
  · rw [hj, Function.update_self]
    exact (h item).trans (or_congr_right (and_iff_right rfl).symm)
  · rw [Function.update_of_ne hj]
    exact (or_iff_left fun hitem => hj hitem.1).symm

/-- A step of the system is a step of the sets. -/
theorem relayStep_of_systemStep (hgame : game.Lawful) (hs : Linked s)
    (hinv : SystemInv game s scenes sys) {action : SystemAction}
    (h : systemStep game isFinalShard sys action = some sys') :
    RelayStep (clientPtrs s) (sys.relay game) (sys'.relay game) := by
  have hlinked : Linked sys.server := hs.congr hinv.clients hinv.peers
  obtain ⟨node, hnode, play, console, packets, hplay, rfl⟩ |
    ⟨node, hnode, packet, rest, hrequests, rfl⟩ | ⟨node, hnode, packet, rest, hqueue, rfl⟩ :=
      systemStep_cases h
  · have hcollected := collected_consoleStep hgame (hinv.hooks node.ptr) hplay
    refine .send node.ptr packets ⟨node, hinv.clients ▸ hnode, rfl⟩
      (mem_collectedBy_update hcollected) rfl ?_ rfl
    refine (queue_update ..).trans (funext fun j => ?_)
    by_cases hj : j = node.ptr
    · rw [hj, Function.update_self]
      rfl
    · rw [Function.update_of_ne hj]
      rfl
  · refine .serve node.ptr packet rest hrequests (funext fun j => ?_) rfl ?_ rfl
    · exact congrArg (collectedBy game) (serveShard_state node packet rest j)
    · rintro j ⟨other, hother, rfl⟩
      rw [← hinv.clients] at hother
      exact congrArg Receiver.queue (serveShard_consoles hlinked hother packet rest)
  · exact .deliver node.ptr packet rest ⟨node, hinv.clients ▸ hnode, rfl⟩ hqueue
      (mem_collectedBy_update (collected_handleShardCollect hgame packet)) rfl (queue_update ..) rfl

/-- A step changes at most one client, by a step of its game or by a packet. -/
theorem systemStep_states {action : SystemAction}
    (h : systemStep game isFinalShard sys action = some sys') :
    ∃ ptr, (∀ other, other ≠ ptr → (sys'.consoles other).state = (sys.consoles other).state) ∧
      ((sys'.consoles ptr).state = (sys.consoles ptr).state ∨
        (∃ play packets, consoleStep game isFinalShard (sys.consoles ptr).state play =
            some ((sys'.consoles ptr).state, packets) ∧
          ∀ item ∈ packets, (ptr, item) ∈ sys'.sent) ∨
        ∃ packet, (sys'.consoles ptr).state =
          handleShardCollect game (sys.consoles ptr).state packet) := by
  obtain ⟨node, -, play, console, packets, hplay, rfl⟩ | ⟨node, -, packet, rest, -, rfl⟩ |
    ⟨node, -, packet, rest, -, rfl⟩ := systemStep_cases h
  · refine ⟨node.ptr, fun other hother => ?_,
      Or.inr (Or.inl ⟨play, packets, ?_, fun item hitem => ?_⟩)⟩
    · simp only [playShard, Function.update_of_ne hother]
    · simp only [playShard, Function.update_self]
      exact hplay
    · exact mem_sent_append (r := sys.relay game) |>.mpr (Or.inr ⟨rfl, hitem⟩)
  · exact ⟨node.ptr, fun other _ => serveShard_state node packet rest other,
      Or.inl (serveShard_state node packet rest node.ptr)⟩
  · refine ⟨node.ptr, fun other hother => ?_, Or.inr (Or.inr ⟨packet, ?_⟩)⟩
    · simp only [Function.update_of_ne hother]
    · simp only [Function.update_self]

/-- What every step of a client and every packet keep, every step of the system keeps. -/
theorem keeps_of_states (Keeps : ShardConsole γ → Prop)
    (hplay : ∀ console play console' packets, Keeps console →
      consoleStep game isFinalShard console play = some (console', packets) → Keeps console')
    (hpacket : ∀ console packet, Keeps console → Keeps (handleShardCollect game console packet))
    {ptr : ℕ} (hsys : Keeps (sys.consoles ptr).state) {action : SystemAction}
    (h : systemStep game isFinalShard sys action = some sys') :
    Keeps (sys'.consoles ptr).state := by
  obtain ⟨changed, hsame, hchanged⟩ := systemStep_states h
  by_cases hptr : ptr = changed
  · rw [hptr] at hsys ⊢
    rcases hchanged with hkept | ⟨play, packets, hstep, -⟩ | ⟨packet, hhandled⟩
    · rw [hkept]
      exact hsys
    · exact hplay _ play _ packets hsys hstep
    · rw [hhandled]
      exact hpacket _ packet hsys
  · rw [hsame ptr hptr]
    exact hsys

/-- A step of the system keeps what holds between two steps. -/
theorem systemInv_step (hgame : game.Lawful) (hs : Linked s) (hinv : SystemInv game s scenes sys)
    {action : SystemAction} (h : systemStep game isFinalShard sys action = some sys') :
    SystemInv game s scenes sys' := by
  have hrelay := relayInv_step hinv.relay (relayStep_of_systemStep hgame hs hinv h)
  have hhooks : ∀ ptr, HooksCollected game (sys'.consoles ptr).state := fun ptr =>
    keeps_of_states (HooksCollected game)
      (fun _ _ _ _ hkept hstep => hooks_consoleStep hgame hkept hstep)
      (fun _ packet hkept => hooks_handleShardCollect hgame hkept packet) (hinv.hooks ptr) h
  have hserver : sys'.server.mClients = sys.server.mClients ∧
      sys'.server.peers = sys.server.peers := by
    obtain ⟨_, _, _, _, _, _, rfl⟩ | ⟨_, _, _, _, _, rfl⟩ | ⟨_, _, _, _, _, rfl⟩ :=
      systemStep_cases h
    · exact ⟨rfl, rfl⟩
    · exact ⟨rfl, rfl⟩
    · exact ⟨rfl, rfl⟩
  exact ⟨hserver.1.trans hinv.clients, hserver.2.trans hinv.peers, hhooks, hrelay⟩

/-- It holds at the start. -/
theorem systemInv_start (hfresh : ∀ ptr, SceneStart (scenes ptr)) :
    SystemInv game s scenes (.start s scenes) :=
  ⟨rfl, rfl, fun ptr => (hfresh ptr).hooksCollected,
    relayInv_start rfl (fun _ => rfl) (fun _ => rfl) rfl⟩

/-- It holds in every reachable state. -/
theorem systemInv_run (hgame : game.Lawful) (hs : Linked s)
    (hfresh : ∀ ptr, SceneStart (scenes ptr)) {actions : List SystemAction}
    (hrun : run (systemStep game isFinalShard) (.start s scenes) actions = some sys) :
    SystemInv game s scenes sys :=
  run_invariant_of_step (fun _ _ _ hinv h => systemInv_step hgame hs hinv h)
    (systemInv_start hfresh) hrun

/-- Two clients. -/
theorem twoClients_linked : Linked (serverWith [1, 2]) := by
  constructor <;> decide

/-- A new scene with the five shards of a zone and one of another zone. -/
def freshScene : ShardConsole Progress :=
  ⟨.empty, [some (.shards (.constructed 1 1)), some (.shards (.constructed 1 2)), none,
    some (.shards (.constructed 1 3)), some .other, some (.shards (.constructed 1 4)),
    some (.shards (.constructed 1 5)), some (.shards (.constructed 2 1))], fun _ => none, []⟩

/-- It is new. -/
theorem freshScene_start : SceneStart freshScene := by
  refine ⟨fun shard hshard => ?_, fun _ => rfl, rfl⟩
  have hall : ∀ actor ∈ freshScene.actors, ∀ shard, actor = some (.shards shard) →
      shard.mCollectedByHook = false := by
    unfold freshScene Shards.constructed
    simp
  exact hall _ hshard shard rfl

/-- A player touches a shard, and the game asks whether it is the final one. -/
def touchAndAsk (ptr index : ℕ) : List SystemAction :=
  [.play ptr (.touch index), .play ptr (.execute index true)]

/-- When nothing is in flight a client has collected what it had when the scene began and
what anybody has touched since. -/
theorem shards_agree (game : SingleModeGame γ) (hgame : game.Lawful)
    (isFinalShard : γ → ℤ → Bool) (s : Server) (scenes : ℕ → ShardConsole γ) (hs : Linked s)
    (hfresh : ∀ ptr, SceneStart (scenes ptr)) (actions : List SystemAction) (sys : ShardSystem γ)
    (hrun : run (systemStep game isFinalShard) (.start s scenes) actions = some sys)
    (hquiet : sys.Quiet) {node : ClientNode} (hnode : node ∈ s.mClients) (item : ℤ × ℤ) :
    collected game (sys.consoles node.ptr).state.game item = true ↔
      collected game (scenes node.ptr).game item = true ∨ ∃ q, (q, item) ∈ sys.sent := by
  have hinv := systemInv_run hgame hs hfresh hrun
  have hempty : (sys.relay game).Quiet (clientPtrs s) := by
    rintro ptr ⟨other, hother, rfl⟩
    rw [← hinv.clients] at hother
    exact hquiet other hother
  exact known_of_quiet hinv.relay hempty ⟨node, hnode, rfl⟩ item

/-- Client 1 touches a shard, and client 2 is told. -/
theorem shards_agree_two :
    ∃ sys, run (systemStep (progressGame []) (allCollect (progressGame [])))
        (.start (serverWith [1, 2]) fun _ => freshScene)
        (touchAndAsk 1 0 ++ [.serve 1, .deliver 2]) = some sys ∧
      (collected (progressGame []) (sys.consoles 2).state.game (1, 1) = true ↔
        collected (progressGame []) freshScene.game (1, 1) = true ∨
          ∃ q, (q, ((1 : ℤ), (1 : ℤ))) ∈ sys.sent) := by
  have hrun : ∃ sys, run (systemStep (progressGame []) (allCollect (progressGame [])))
      (.start (serverWith [1, 2]) fun _ => freshScene)
      (touchAndAsk 1 0 ++ [.serve 1, .deliver 2]) = some sys ∧ sys.Quiet :=
    run_reaches (by decide +kernel)
  obtain ⟨sys, hsys, hquiet⟩ := hrun
  have hsecond : ∃ node ∈ (serverWith [1, 2]).mClients, node.ptr = 2 := by decide
  obtain ⟨node, hnode, hptr⟩ := hsecond
  have hagree := shards_agree (progressGame []) (progressGame_lawful []) _ (serverWith [1, 2]) _
    twoClients_linked (fun _ => freshScene_start) _ sys hsys hquiet hnode (1, 1)
  rw [hptr] at hagree
  exact ⟨sys, hsys, hagree⟩

/-! ### The final shard -/

end Rules

end BfMultiplayer.ShardRace

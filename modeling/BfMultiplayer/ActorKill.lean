import BfMultiplayer.ClientLinks
import BfMultiplayer.GuardedRuns
import BfMultiplayer.ListFacts
import Mathlib.Data.List.ReduceOption

/-!
# The echo of a killed actor

The hook of `kill()` tells the server, and a client that is told kills its own
actor through the same hook. So every client that is told tells the others, the
first killer included. What ends the echo is `mKilledByHook`: it is set after a
client has killed on behalf of another one, and then the actor is not killed
again. Every packet after the first sets one flag, so there are no more packets
than flags and the first one. All this is about ids that end inside the field of
the packet, which are those of less than 128 bytes.
-/

namespace BfMultiplayer.ActorKill

open Packets ServerState ServerHandlers Mailbox ClientLinks GuardedRuns ListFacts

/-- `sizeof(objId)`. -/
def sizeofObjId : ℕ := 128

/-- What the kill hooks and the handler use of an `al::LiveActor` and its placement. -/
structure LiveActor where
  /-- `mIdClone`, which may be null. -/
  mIdClone : Option CString
  /-- `mKilledByHook`. -/
  mKilledByHook : Bool
  /-- `al::isDead`. -/
  isDead : Bool
  /-- Its `kill()` is `kameckKillHook` or `donketsuKill`. -/
  hooked : Bool
  deriving DecidableEq

/-- `kill()`, with the ids of the packets that its hook sends. -/
def LiveActor.kill (actor : LiveActor) (id : CString) : LiveActor × List CString :=
  ({ actor with isDead := true }, if actor.hooked then [id.take sizeofObjId] else [])

/-- The loop of `handleToC_MiscMapSync` for `KillActorByObjId`, with the ids of
the packets sent on the way. -/
def handleKillActorByObjId (objId : CString) :
    List (Option LiveActor) → List (Option LiveActor) × List CString
  | [] => ([], [])
  | none :: actors =>
    let rest := handleKillActorByObjId objId actors
    (none :: rest.1, rest.2)
  | some actor :: actors =>
    let rest := handleKillActorByObjId objId actors
    if actor.mKilledByHook = false ∧ actor.mIdClone = some objId then
      let killed := actor.kill objId
      (some { killed.1 with mKilledByHook := true } :: rest.1, killed.2 ++ rest.2)
    else (some actor :: rest.1, rest.2)

/-- The actors with an id. -/
def withId (objId : CString) (actors : List (Option LiveActor)) : List LiveActor :=
  actors.reduceOption.filter fun actor => actor.mIdClone == some objId

/-- How many of them have been killed on behalf of another client. -/
def flagged (objId : CString) (actors : List (Option LiveActor)) : ℕ :=
  (withId objId actors).countP LiveActor.mKilledByHook

/-- The id of the actor that a packet kills. -/
def objId? : ClientBound → Option CString
  | .miscMapSync _ (.killActorByObjId objId) => some objId
  | _ => none

/-- The server, and its clients by the places of their records. -/
structure KillSystem where
  /-- The server. -/
  server : Server
  /-- `mAllActors` of each client, empty where there is none, and the ids in
  flight to it. -/
  actors : ℕ → Receiver (List (Option LiveActor)) CString
  /-- The ids of each client in flight to the server. -/
  requests : ℕ → List CString
  /-- How many packets the clients have sent. -/
  sent : ℕ

/-- A step of the system. -/
inductive KillAction where
  /-- The game of a client kills the actor at an index, which has an id. -/
  | kill (ptr index : ℕ) (objId : CString)
  /-- The server handles a client's oldest packet. -/
  | serve (ptr : ℕ)
  /-- A client handles the oldest packet in flight to it. -/
  | deliver (ptr : ℕ)
  deriving DecidableEq

/-- A client ends with new actors and sends packets. -/
def clientSends (sys : KillSystem) (ptr : ℕ) (receiver : Receiver (List (Option LiveActor)) CString)
    (ids : List CString) : KillSystem :=
  { sys with
    actors := Function.update sys.actors ptr receiver
    requests := Function.update sys.requests ptr (sys.requests ptr ++ ids)
    sent := sys.sent + ids.length }

@[simp] theorem clientSends_server (sys : KillSystem) (ptr : ℕ)
    (receiver : Receiver (List (Option LiveActor)) CString) (ids : List CString) :
    (clientSends sys ptr receiver ids).server = sys.server := rfl

@[simp] theorem clientSends_actors (sys : KillSystem) (ptr : ℕ)
    (receiver : Receiver (List (Option LiveActor)) CString) (ids : List CString) :
    (clientSends sys ptr receiver ids).actors = Function.update sys.actors ptr receiver := rfl

@[simp] theorem clientSends_requests (sys : KillSystem) (ptr : ℕ)
    (receiver : Receiver (List (Option LiveActor)) CString) (ids : List CString) :
    (clientSends sys ptr receiver ids).requests =
      Function.update sys.requests ptr (sys.requests ptr ++ ids) := rfl

@[simp] theorem clientSends_sent (sys : KillSystem) (ptr : ℕ)
    (receiver : Receiver (List (Option LiveActor)) CString) (ids : List CString) :
    (clientSends sys ptr receiver ids).sent = sys.sent + ids.length := rfl

/-- A local kill through a hook. The flag stays as it is. -/
def killLocally (sys : KillSystem) (ptr index : ℕ) (actor : LiveActor) (objId : CString) :
    KillSystem :=
  let killed := actor.kill objId
  clientSends sys ptr ((sys.actors ptr).act fun actors => actors.set index (some killed.1)) killed.2

/-- The server handles one packet of a client. -/
def serveKill (sys : KillSystem) (node : ClientNode) (objId : CString) (rest : List CString) :
    KillSystem :=
  let result := handleMiscMapSync sys.server node (.killActorByObjId objId)
  { sys with
    server := result.1
    actors := postAll result.1 objId? sys.actors result.2
    requests := Function.update sys.requests node.ptr rest }

/-- The step function. The id of the actor ends inside its field. -/
def killStep (sys : KillSystem) : KillAction → Option KillSystem
  | .kill ptr index objId =>
    match nodeAt sys.server ptr, (sys.actors ptr).state[index]? with
    | some _, some (some actor) =>
      if actor.hooked = true ∧ actor.mIdClone = some objId ∧ objId.length < sizeofObjId then
        some (killLocally sys ptr index actor objId)
      else none
    | _, _ => none
  | .serve ptr =>
    match nodeAt sys.server ptr, sys.requests ptr with
    | some node, objId :: rest => some (serveKill sys node objId rest)
    | _, _ => none
  | .deliver ptr =>
    match nodeAt sys.server ptr, (sys.actors ptr).queue with
    | some _, objId :: rest =>
      let result := handleKillActorByObjId objId (sys.actors ptr).state
      some (clientSends sys ptr ⟨result.1, rest⟩ result.2)
    | _, _ => none

/-- Some server, the actors of its clients, and nothing in flight. -/
def KillSystem.start (s : Server) (scenes : ℕ → List (Option LiveActor)) : KillSystem :=
  ⟨s, fun ptr => ⟨scenes ptr, []⟩, fun _ => [], 0⟩

/-- Nothing is in flight from or to a client. -/
def KillSystem.Quiet (sys : KillSystem) : Prop :=
  ∀ node ∈ sys.server.mClients, sys.requests node.ptr = [] ∧ (sys.actors node.ptr).queue = []

instance (sys : KillSystem) : Decidable sys.Quiet := List.decidableBAll _ _

/-- A step that is no local kill. -/
def NoLocalKill : KillAction → Prop
  | .kill _ _ _ => False
  | _ => True

instance : DecidablePred NoLocalKill
  | .kill _ _ _ => isFalse id
  | .serve _ => isTrue trivial
  | .deliver _ => isTrue trivial

/-- An actor after the handler has been told to kill its id. -/
def LiveActor.killedByHook (actor : LiveActor) : LiveActor :=
  if actor.mKilledByHook then actor else { actor with isDead := true, mKilledByHook := true }

/-- An empty slot holds no actor. -/
@[simp] theorem withId_none (objId : CString) (actors : List (Option LiveActor)) :
    withId objId (none :: actors) = withId objId actors := rfl

/-- A slot with an actor that has the id. -/
theorem withId_of_eq {objId : CString} {actor : LiveActor} (h : actor.mIdClone = some objId)
    (actors : List (Option LiveActor)) :
    withId objId (some actor :: actors) = actor :: withId objId actors := by
  rw [withId, List.reduceOption_cons_of_some, List.filter_cons_of_pos (by simpa using h)]
  rfl

/-- A slot with an actor that has another id, or none. -/
theorem withId_of_ne {objId : CString} {actor : LiveActor} (h : actor.mIdClone ≠ some objId)
    (actors : List (Option LiveActor)) :
    withId objId (some actor :: actors) = withId objId actors := by
  rw [withId, List.reduceOption_cons_of_some, List.filter_cons_of_neg (by simpa using h)]
  rfl

/-- What the handler does to the actors with the id. -/
theorem withId_handle (objId : CString) (actors : List (Option LiveActor)) :
    withId objId (handleKillActorByObjId objId actors).1 =
      (withId objId actors).map LiveActor.killedByHook := by
  induction actors with
  | nil => rfl
  | cons slot actors ih =>
    cases slot with
    | none => exact ih
    | some actor =>
      by_cases hid : actor.mIdClone = some objId
      · rw [withId_of_eq hid, List.map_cons, LiveActor.killedByHook, ← ih]
        cases hflag : actor.mKilledByHook with
        | true =>
          simp only [handleKillActorByObjId, hflag, Bool.true_eq_false, false_and, if_false, if_true]
          exact withId_of_eq hid _
        | false =>
          simp only [handleKillActorByObjId, hflag, hid, and_self, if_true, Bool.false_eq_true,
            if_false, LiveActor.kill]
          exact withId_of_eq rfl _
      · have hskip : ¬(actor.mKilledByHook = false ∧ actor.mIdClone = some objId) :=
          fun h => hid h.2
        simp only [handleKillActorByObjId, if_neg hskip]
        rw [withId_of_ne hid, withId_of_ne hid, ih]

/-- The packets it sends: one for each hooked actor that it kills. -/
theorem sent_handle (objId : CString) (actors : List (Option LiveActor)) :
    (handleKillActorByObjId objId actors).2 =
      ((withId objId actors).filter fun actor => actor.hooked && !actor.mKilledByHook).map
        fun _ => objId.take sizeofObjId := by
  induction actors with
  | nil => rfl
  | cons slot actors ih =>
    cases slot with
    | none => exact ih
    | some actor =>
      by_cases hid : actor.mIdClone = some objId
      · rw [withId_of_eq hid, List.filter_cons]
        cases hflag : actor.mKilledByHook with
        | true =>
          simp only [handleKillActorByObjId, hflag, Bool.true_eq_false, false_and, if_false, ih,
            Bool.not_true, Bool.and_false, Bool.false_eq_true]
        | false =>
          cases hhook : actor.hooked <;>
            simp [handleKillActorByObjId, hflag, hid, LiveActor.kill, hhook, ih]
      · have hskip : ¬(actor.mKilledByHook = false ∧ actor.mIdClone = some objId) :=
          fun h => hid h.2
        simp only [handleKillActorByObjId, if_neg hskip]
        rw [withId_of_ne hid, ih]

/-- It sends at most one packet for each flag that it sets. -/
theorem sent_handle_le (objId : CString) (actors : List (Option LiveActor)) :
    (handleKillActorByObjId objId actors).2.length + flagged objId actors ≤
      flagged objId (handleKillActorByObjId objId actors).1 := by
  have hall : flagged objId (handleKillActorByObjId objId actors).1 =
      (withId objId actors).length := by
    rw [flagged, withId_handle, List.countP_map, List.countP_eq_length]
    intro actor _
    rw [Function.comp_apply, LiveActor.killedByHook]
    cases hflag : actor.mKilledByHook with
    | true => simp only [if_true, hflag]
    | false => simp only [Bool.false_eq_true, if_false]
  have hsplit := List.length_eq_countP_add_countP LiveActor.mKilledByHook (l := withId objId actors)
  have hfew : ((withId objId actors).filter fun actor =>
      actor.hooked && !actor.mKilledByHook).length ≤
        (withId objId actors).countP fun actor => !actor.mKilledByHook := by
    rw [← List.countP_eq_length_filter]
    refine List.countP_mono_left fun actor _ h => ?_
    exact (Bool.and_eq_true_iff.mp h).2
  rw [hall, sent_handle, List.length_map, flagged]
  simp only [Bool.not_eq_true, Bool.decide_eq_false] at hsplit
  omega

/-- A local kill leaves all actors with the id but one as they are. -/
theorem withId_kill {objId : CString} {actors : List (Option LiveActor)} {index : ℕ}
    {actor : LiveActor} (hactor : actors[index]? = some (some actor))
    (hid : actor.mIdClone = some objId) :
    ∃ before after, withId objId actors = before ++ actor :: after ∧
      withId objId (actors.set index (some (actor.kill objId).1)) =
        before ++ (actor.kill objId).1 :: after := by
  induction actors generalizing index with
  | nil => cases hactor
  | cons slot actors ih =>
    cases index with
    | zero =>
      rw [List.getElem?_cons_zero, Option.some.injEq] at hactor
      rw [hactor, List.set_cons_zero, withId_of_eq hid, withId_of_eq (by exact hid)]
      exact ⟨[], withId objId actors, rfl, rfl⟩
    | succ index =>
      obtain ⟨before, after, hbefore, hafter⟩ := ih hactor
      rw [List.set_cons_succ]
      cases slot with
      | none => exact ⟨before, after, hbefore, hafter⟩
      | some other =>
        by_cases hother : other.mIdClone = some objId
        · rw [withId_of_eq hother, withId_of_eq hother, hbefore, hafter]
          exact ⟨other :: before, after, rfl, rfl⟩
        · rw [withId_of_ne hother, withId_of_ne hother]
          exact ⟨before, after, hbefore, hafter⟩

/-- The flags that are set on all clients of a server. -/
def allFlagged (s : Server) (objId : CString)
    (actors : ℕ → Receiver (List (Option LiveActor)) CString) : ℕ :=
  ((s.mClients.map ClientNode.ptr).map fun ptr => flagged objId (actors ptr).state).sum

/-- A client takes new actors: the flags of all others stay. -/
theorem allFlagged_update {s : Server} (hs : Linked s) {node : ClientNode}
    (hnode : node ∈ s.mClients) (objId : CString)
    (actors : ℕ → Receiver (List (Option LiveActor)) CString)
    (receiver : Receiver (List (Option LiveActor)) CString) :
    allFlagged s objId (Function.update actors node.ptr receiver) +
        flagged objId (actors node.ptr).state =
      allFlagged s objId actors + flagged objId receiver.state := by
  have hmem : node.ptr ∈ s.mClients.map ClientNode.ptr := List.mem_map_of_mem hnode
  have hsum := sum_map_update hs.ptrs hmem (fun ptr => flagged objId (actors ptr).state)
    (flagged objId receiver.state)
  rw [allFlagged, allFlagged, ← hsum]
  congr 3
  funext ptr
  by_cases hptr : ptr = node.ptr
  · rw [hptr, Function.update_self, Function.update_self]
  · rw [Function.update_of_ne hptr, Function.update_of_ne hptr]

/-- What holds between two steps after a client has killed its actor. -/
structure EchoInv (s : Server) (scenes : ℕ → List (Option LiveActor)) (objId : CString)
    (killer : ℕ) (sys : KillSystem) : Prop where
  /-- The server does not change. -/
  server : sys.server = s
  /-- No client gains or loses an actor with the id. -/
  count : ∀ node ∈ s.mClients, (withId objId (sys.actors node.ptr).state).length =
    (withId objId (scenes node.ptr)).length
  /-- A flag is set on dead actors only. -/
  dead : ∀ node ∈ s.mClients, ∀ actor ∈ withId objId (sys.actors node.ptr).state,
    actor.mKilledByHook = true → actor.isDead = true
  /-- There are no more packets than flags and the first one. -/
  sent : sys.sent ≤ allFlagged s objId sys.actors + 1
  /-- Nothing else is in flight to the server. -/
  requests : ∀ ptr, ∀ request ∈ sys.requests ptr, request = objId
  /-- Nothing else is in flight to a client. -/
  queues : ∀ node ∈ s.mClients, ∀ request ∈ (sys.actors node.ptr).queue, request = objId
  /-- A client whose actor lives is told, or is going to be told of the first kill. -/
  told : ∀ node ∈ s.mClients, (∀ actor ∈ withId objId (sys.actors node.ptr).state,
      actor.isDead = true) ∨ objId ∈ (sys.actors node.ptr).queue ∨
    node.ptr ≠ killer ∧ objId ∈ sys.requests killer

/-- What the server does with a packet: it stays as it is, and tells everybody
but the sender. -/
theorem handleKill_spec {s : Server} (hs : Linked s) (client : ClientNode) (objId : CString) :
    let result := handleMiscMapSync s client (.killActorByObjId objId)
    result.1 = s ∧ ∀ node ∈ s.mClients,
      (sentTo result.1 node.client.mPeer result.2).filterMap objId? =
        if node.ptr = client.ptr then [] else [objId] := by
  refine ⟨rfl, fun node hnode => ?_⟩
  have hrelay : sentTo (handleMiscMapSync s client (.killActorByObjId objId)).1 node.client.mPeer
      (handleMiscMapSync s client (.killActorByObjId objId)).2 =
        if node.ptr = client.ptr then []
        else [.miscMapSync client.client.mUid (.killActorByObjId objId)] :=
    hs.redistributePacket_sent rfl rfl hnode client _
  rw [hrelay]
  by_cases hptr : node.ptr = client.ptr
  · rw [if_pos hptr, if_pos hptr]
    rfl
  · rw [if_neg hptr, if_neg hptr]
    rfl

section Echo

variable {s : Server} {scenes : ℕ → List (Option LiveActor)} {objId : CString} {killer : ℕ}
  {sys sys' : KillSystem}

/-- The actors with the id after a local kill of the only one. -/
theorem withId_kill_only {actors : List (Option LiveActor)} {index : ℕ} {actor : LiveActor}
    (hone : (withId objId actors).length ≤ 1) (hactor : actors[index]? = some (some actor))
    (hid : actor.mIdClone = some objId) :
    withId objId actors = [actor] ∧
      withId objId (actors.set index (some (actor.kill objId).1)) = [(actor.kill objId).1] := by
  obtain ⟨before, after, hbefore, hafter⟩ := withId_kill hactor hid
  rw [hbefore, List.length_append, List.length_cons] at hone
  have hnil : before = [] := List.length_eq_zero_iff.mp (by omega)
  have hnil' : after = [] := List.length_eq_zero_iff.mp (by omega)
  rw [hbefore, hafter, hnil, hnil']
  exact ⟨rfl, rfl⟩

/-- The first kill starts the echo. -/
theorem echoInv_kill
    (hone : ∀ node ∈ s.mClients, (withId objId (scenes node.ptr)).length ≤ 1)
    (hflags : ∀ node ∈ s.mClients, ∀ actor ∈ withId objId (scenes node.ptr),
      actor.mKilledByHook = false)
    {index : ℕ} (hstep : killStep (.start s scenes) (.kill killer index objId) = some sys) :
    objId.length < sizeofObjId ∧ (∃ node ∈ s.mClients, node.ptr = killer) ∧
      EchoInv s scenes objId killer sys := by
  simp only [killStep, KillSystem.start] at hstep
  split at hstep
  · rename_i node actor hnode hactor
    split at hstep
    · rename_i hkill
      cases hstep
      obtain ⟨hhooked, hid, hlength⟩ := hkill
      obtain ⟨hmem, rfl⟩ := nodeAt_mem hnode
      obtain ⟨hbefore, hafter⟩ := withId_kill_only (hone node hmem) hactor hid
      have hids : (actor.kill objId).2 = [objId] := by
        rw [LiveActor.kill, hhooked, if_pos rfl, List.take_of_length_le (Nat.le_of_lt hlength)]
      have hflag : actor.mKilledByHook = false :=
        hflags node hmem actor (by rw [hbefore]; exact List.mem_singleton_self actor)
      simp only [killLocally, hids, Receiver.act]
      refine ⟨hlength, ⟨node, hmem, rfl⟩, rfl, fun client hclient => ?_,
        fun client hclient other hother hset => ?_, Nat.le_add_left 1 _,
        fun ptr request hrequest => ?_, fun client hclient => ?_, fun client hclient => ?_⟩ <;>
        simp only [clientSends_actors, clientSends_requests] at *
      · by_cases hptr : client.ptr = node.ptr
        · simp only [hptr, Function.update_self, hbefore, hafter, List.length_singleton]
        · simp only [Function.update_of_ne hptr]
      · by_cases hptr : client.ptr = node.ptr
        · simp only [hptr, Function.update_self, hafter, List.mem_singleton] at hother
          rw [hother]
          rfl
        · simp only [Function.update_of_ne hptr] at hother
          rw [hflags client hclient other hother] at hset
          cases hset
      · exact ((mem_update_append.mp hrequest).resolve_left List.not_mem_nil).2
      · by_cases hptr : client.ptr = node.ptr
        · simp only [hptr, Function.update_self]
          exact fun request hrequest => absurd hrequest List.not_mem_nil
        · simp only [Function.update_of_ne hptr]
          exact fun request hrequest => absurd hrequest List.not_mem_nil
      · by_cases hptr : client.ptr = node.ptr
        · refine Or.inl fun other hother => ?_
          simp only [hptr, Function.update_self, hafter, List.mem_singleton] at hother
          rw [hother]
          rfl
        · refine Or.inr (Or.inr ⟨hptr, ?_⟩)
          rw [Function.update_self]
          exact List.mem_singleton_self objId
    · cases hstep
  · cases hstep

/-- A packet served tells everybody but its sender. -/
theorem echoInv_serve (hs : Linked s) (hinv : EchoInv s scenes objId killer sys)
    {client : ClientNode} {request : CString} {rest : List CString}
    (hrequests : sys.requests client.ptr = request :: rest) :
    EchoInv s scenes objId killer (serveKill sys client request rest) := by
  have hrequest : request = objId :=
    hinv.requests client.ptr request (by rw [hrequests]; exact List.mem_cons_self)
  obtain ⟨-, hsent⟩ := handleKill_spec hs client request
  have hpost : ∀ node ∈ s.mClients, (serveKill sys client request rest).actors node.ptr =
      (sys.actors node.ptr).post (if node.ptr = client.ptr then [] else [request]) := by
    intro node hnode
    simp only [serveKill]
    rw [hinv.server, ← hsent node hnode]
    exact hs.postAll_ptr hnode ..
  have hstate : ∀ node ∈ s.mClients, ((serveKill sys client request rest).actors node.ptr).state =
      (sys.actors node.ptr).state := by
    intro node hnode
    rw [hpost node hnode]
    rfl
  refine ⟨?_, fun node hnode => ?_, fun node hnode => ?_, ?_, fun ptr other hother => ?_,
    fun node hnode other hother => ?_, fun node hnode => ?_⟩
  · exact hinv.server
  · rw [hstate node hnode]
    exact hinv.count node hnode
  · rw [hstate node hnode]
    exact hinv.dead node hnode
  · have hsame : allFlagged s objId (serveKill sys client request rest).actors =
        allFlagged s objId sys.actors := by
      rw [allFlagged, allFlagged, List.map_map, List.map_map]
      congr 1
      refine List.map_congr_left fun node hnode => ?_
      rw [Function.comp_apply, Function.comp_apply, hstate node hnode]
    rw [hsame]
    exact hinv.sent
  · exact hinv.requests ptr other (mem_of_mem_update_tail hrequests hother)
  · rw [hpost node hnode] at hother
    rcases List.mem_append.mp hother with hold | hnew
    · exact hinv.queues node hnode other hold
    · split at hnew
      · exact absurd hnew List.not_mem_nil
      · rw [List.mem_singleton.mp hnew]
        exact hrequest
  · rw [hstate node hnode, hpost node hnode]
    rcases hinv.told node hnode with hdead | hqueued | ⟨hne, hfirst⟩
    · exact Or.inl hdead
    · exact Or.inr (Or.inl (List.mem_append_left _ hqueued))
    · by_cases hptr : client.ptr = killer
      · -- the first packet is on its way from the killer to this client
        rw [← hptr] at hne
        rw [if_neg hne, hrequest]
        exact Or.inr (Or.inl (List.mem_append_right _ (List.mem_singleton_self objId)))
      · refine Or.inr (Or.inr ⟨hne, ?_⟩)
        simp only [serveKill]
        rw [Function.update_of_ne (Ne.symm hptr)]
        exact hfirst

/-- A packet delivered kills the actor, if another client has not had it killed
before. -/
theorem echoInv_deliver (hs : Linked s) (hlength : objId.length < sizeofObjId)
    (hinv : EchoInv s scenes objId killer sys) {client : ClientNode} (hclient : client ∈ s.mClients)
    {request : CString} {rest : List CString}
    (hqueue : (sys.actors client.ptr).queue = request :: rest) :
    EchoInv s scenes objId killer (clientSends sys client.ptr
      ⟨(handleKillActorByObjId request (sys.actors client.ptr).state).1, rest⟩
      (handleKillActorByObjId request (sys.actors client.ptr).state).2) := by
  have hrequest : request = objId :=
    hinv.queues client hclient request (by rw [hqueue]; exact List.mem_cons_self)
  rw [hrequest]
  have hafter := withId_handle objId (sys.actors client.ptr).state
  have hdead : ∀ actor ∈ withId objId (handleKillActorByObjId objId (sys.actors client.ptr).state).1,
      actor.isDead = true := by
    intro actor hactor
    rw [hafter] at hactor
    obtain ⟨before, hbefore, rfl⟩ := List.mem_map.mp hactor
    rw [LiveActor.killedByHook]
    by_cases hflag : before.mKilledByHook = true
    · rw [if_pos hflag]
      exact hinv.dead client hclient before hbefore hflag
    · rw [if_neg hflag]
  refine ⟨hinv.server, fun node hnode => ?_, fun node hnode => ?_, ?_, fun ptr other hother => ?_,
    fun node hnode => ?_, fun node hnode => ?_⟩ <;>
    simp only [clientSends_actors, clientSends_requests, clientSends_sent] at *
  · by_cases hptr : node.ptr = client.ptr
    · rw [hptr, Function.update_self, hafter, List.length_map]
      exact hinv.count client hclient
    · rw [Function.update_of_ne hptr]
      exact hinv.count node hnode
  · by_cases hptr : node.ptr = client.ptr
    · rw [hptr, Function.update_self]
      exact fun actor hactor _ => hdead actor hactor
    · rw [Function.update_of_ne hptr]
      exact hinv.dead node hnode
  · have hflags := sent_handle_le objId (sys.actors client.ptr).state
    have hsum := allFlagged_update hs hclient objId sys.actors
      ⟨(handleKillActorByObjId objId (sys.actors client.ptr).state).1, rest⟩
    have hsent := hinv.sent
    dsimp only at hsum
    omega
  · rcases mem_update_append_all.mp hother with hold | ⟨-, hnew⟩
    · exact hinv.requests ptr other hold
    · rw [sent_handle, List.take_of_length_le (Nat.le_of_lt hlength)] at hnew
      obtain ⟨-, -, he⟩ := List.mem_map.mp hnew
      exact he.symm
  · by_cases hptr : node.ptr = client.ptr
    · rw [hptr, Function.update_self]
      exact fun other hother =>
        hinv.queues client hclient other (by rw [hqueue]; exact List.mem_cons_of_mem _ hother)
    · rw [Function.update_of_ne hptr]
      exact hinv.queues node hnode
  · by_cases hptr : node.ptr = client.ptr
    · rw [hptr, Function.update_self]
      exact Or.inl hdead
    · rw [Function.update_of_ne hptr]
      exact (hinv.told node hnode).imp_right (Or.imp_right fun h =>
        ⟨h.1, mem_update_append_all.mpr (Or.inl h.2)⟩)

/-- One step that is no local kill keeps the invariant. -/
theorem echoInv_step (hs : Linked s) (hlength : objId.length < sizeofObjId)
    (hinv : EchoInv s scenes objId killer sys) {action : KillAction} (haction : NoLocalKill action)
    (hstep : killStep sys action = some sys') : EchoInv s scenes objId killer sys' := by
  cases action with
  | kill ptr index id => exact haction.elim
  | serve ptr =>
    simp only [killStep] at hstep
    split at hstep
    · rename_i client request rest hclient hrequests
      cases hstep
      obtain ⟨-, rfl⟩ := nodeAt_mem hclient
      exact echoInv_serve hs hinv hrequests
    · cases hstep
  | deliver ptr =>
    simp only [killStep, hinv.server] at hstep
    split at hstep
    · rename_i client request rest hclient hqueue
      cases hstep
      obtain ⟨hmem, rfl⟩ := nodeAt_mem hclient
      exact echoInv_deliver hs hlength hinv hmem hqueue
    · cases hstep

/-- There are no more flags than clients with the actor. -/
theorem allFlagged_le (hinv : EchoInv s scenes objId killer sys)
    (hone : ∀ node ∈ s.mClients, (withId objId (scenes node.ptr)).length ≤ 1) :
    allFlagged s objId sys.actors ≤
      s.mClients.countP fun node => (withId objId (scenes node.ptr)).length = 1 := by
  rw [allFlagged, List.map_map]
  have hnodes : ∀ nodes : List ClientNode, (∀ node ∈ nodes, node ∈ s.mClients) →
      (nodes.map ((fun ptr => flagged objId (sys.actors ptr).state) ∘ ClientNode.ptr)).sum ≤
        nodes.countP fun node => (withId objId (scenes node.ptr)).length = 1 := by
    intro nodes
    induction nodes with
    | nil => exact fun _ => Nat.le_refl 0
    | cons node nodes ih =>
      intro hmem
      have hnode := hmem node List.mem_cons_self
      have hrest := ih fun other hother => hmem other (List.mem_cons_of_mem _ hother)
      have hfew : flagged objId (sys.actors node.ptr).state ≤
          (withId objId (scenes node.ptr)).length := by
        rw [← hinv.count node hnode]
        exact List.countP_le_length
      have hlength := hone node hnode
      rw [List.map_cons, List.sum_cons, List.countP_cons, Function.comp_apply]
      by_cases hshares : (withId objId (scenes node.ptr)).length = 1
      · simp only [hshares, decide_true, if_true]
        omega
      · simp only [hshares, decide_false, Bool.false_eq_true, if_false]
        omega
  exact hnodes s.mClients fun _ h => h

/-- One client kills its actor, whose id has less than 128 bytes, as the step of a local
kill asks for, and nobody kills one locally afterwards. There is at most one packet for
each client with the actor and one more, and the actor is dead everywhere as soon as
nothing is in flight. -/
theorem kill_echo_ends (s : Server) (scenes : ℕ → List (Option LiveActor)) (objId : CString)
    (killer index : ℕ) (actions : List KillAction) (sys : KillSystem) (hs : Linked s)
    (hone : ∀ node ∈ s.mClients, (withId objId (scenes node.ptr)).length ≤ 1)
    (hflags : ∀ node ∈ s.mClients, ∀ actor ∈ withId objId (scenes node.ptr),
      actor.mKilledByHook = false)
    (hactions : ∀ action ∈ actions, NoLocalKill action)
    (hrun : run killStep (.start s scenes) (.kill killer index objId :: actions) = some sys) :
    sys.sent ≤ (s.mClients.countP fun node => (withId objId (scenes node.ptr)).length = 1) + 1 ∧
      (sys.Quiet → ∀ node ∈ s.mClients, (withId objId (scenes node.ptr)).length = 1 →
        ∃ actor, withId objId (sys.actors node.ptr).state = [actor] ∧ actor.isDead = true) := by
  rw [run_cons, Option.bind_eq_some_iff] at hrun
  obtain ⟨first, hfirst, hrest⟩ := hrun
  obtain ⟨hlength, hkiller, hstart⟩ := echoInv_kill hone hflags hfirst
  have hquietActions : Along (fun _ action => NoLocalKill action) killStep first actions :=
    along_of_at fun before action after _ he _ => hactions action (by rw [he]; simp)
  have hinv := run_invariant (fun _ _ _ hi ha hstep => echoInv_step hs hlength hi ha hstep) hstart
    hquietActions hrest
  refine ⟨?_, fun hquiet node hnode hshares => ?_⟩
  · have hsent := hinv.sent
    have hflagged := allFlagged_le hinv hone
    omega
  · have hidle : ∀ client ∈ s.mClients, sys.requests client.ptr = [] ∧
        (sys.actors client.ptr).queue = [] := by
      rw [← hinv.server]
      exact hquiet
    have hdead : ∀ actor ∈ withId objId (sys.actors node.ptr).state, actor.isDead = true := by
      rcases hinv.told node hnode with hdead | hqueued | ⟨-, hrequest⟩
      · exact hdead
      · rw [(hidle node hnode).2] at hqueued
        exact absurd hqueued List.not_mem_nil
      · obtain ⟨client, hclient, hptr⟩ := hkiller
        rw [← hptr, (hidle client hclient).1] at hrequest
        exact absurd hrequest List.not_mem_nil
    obtain ⟨actor, hactor⟩ := List.length_eq_one_iff.mp ((hinv.count node hnode).trans hshares)
    refine ⟨actor, hactor, hdead actor ?_⟩
    rw [hactor]
    exact List.mem_singleton_self actor

end Echo

/-- Three clients. -/
theorem threeClients_linked : Linked (serverWith [1, 2, 3]) := by
  constructor <;> decide

/-- A scene with one hooked actor. -/
def kameckScene : List (Option LiveActor) := [none, some ⟨some [97], false, false, true⟩]

/-- Client 1 kills the actor. The others follow, and their echo reaches all, so
that each client sends once more. -/
theorem kill_echo_ends_three :
    ∃ sys, run killStep (.start (serverWith [1, 2, 3]) fun _ => kameckScene)
        [.kill 1 1 [97], .serve 1, .deliver 2, .deliver 3, .serve 2, .serve 3, .deliver 1,
          .deliver 1, .deliver 2, .deliver 3, .serve 1, .deliver 2, .deliver 3] = some sys ∧
      sys.sent = 4 ∧ sys.sent ≤ 4 ∧
      ∀ ptr ∈ [1, 2, 3],
        ∃ actor, withId [97] (sys.actors ptr).state = [actor] ∧ actor.isDead = true := by
  have hrun : ∃ sys, run killStep (.start (serverWith [1, 2, 3]) fun _ => kameckScene)
      (.kill 1 1 [97] :: [.serve 1, .deliver 2, .deliver 3, .serve 2, .serve 3, .deliver 1,
        .deliver 1, .deliver 2, .deliver 3, .serve 1, .deliver 2, .deliver 3]) = some sys ∧
      sys.sent = 4 ∧ sys.Quiet := run_reaches (by decide)
  obtain ⟨sys, hsys, hsent, hquiet⟩ := hrun
  obtain ⟨hle, hdead⟩ := kill_echo_ends (serverWith [1, 2, 3]) (fun _ => kameckScene) [97] 1 1 _ sys
    threeClients_linked (by decide) (by decide) (by decide) hsys
  refine ⟨sys, hsys, hsent, hle, fun ptr hptr => ?_⟩
  have hnode : ∃ node ∈ (serverWith [1, 2, 3]).mClients, node.ptr = ptr := by
    revert ptr
    decide
  obtain ⟨node, hnode, rfl⟩ := hnode
  exact hdead hquiet node hnode rfl

end BfMultiplayer.ActorKill

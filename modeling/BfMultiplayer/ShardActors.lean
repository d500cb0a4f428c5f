import BfMultiplayer.ClientProgress
import BfMultiplayer.ListFacts
import Mathlib.Data.Option.Basic

/-!
# The shards of a zone

Five shards of a zone give a shine. A shard that a player touches goes into the nerve
`Got`: in its first step the hook tells the server, and the game records the shard; at
some step the game asks whether this was the final shard, and shows the shine if it was.
A client that is told of a shard puts its own actor into `Got` as well, without an answer
to either question, or kills all actors of the zone when that was the last shard: then
the shine is left to the other party.
-/

namespace BfMultiplayer.ShardActors

open ClientProgress ListFacts

/-- `Shards`. -/
structure Shards where
  /-- `mZoneID`. -/
  mZoneID : ℤ
  /-- `mShardID`. -/
  mShardID : ℤ
  /-- Not `al::isDead`. -/
  alive : Bool
  /-- `mEmptyShardModel` is not dead. -/
  emptyShardAlive : Bool
  /-- `mCollectedByHook`. -/
  mCollectedByHook : Bool
  /-- `getNerveStep` in the nerve `Got`; nothing in another nerve. -/
  got : Option ℕ
  deriving DecidableEq

/-- An actor of the scene. -/
inductive SceneActor where
  /-- One that `util::typeCast` takes for a shard. -/
  | shards (shard : Shards)
  /-- Any other. -/
  | other
  deriving DecidableEq

/-- What completed a zone on a client. -/
inductive Completion where
  /-- The first step of a `Got` of its own. -/
  | ownTouch
  /-- A packet. -/
  | packet
  deriving DecidableEq

/-- A client, as far as shards go. -/
structure ShardConsole (γ : Type) where
  /-- The state of the game. -/
  game : γ
  /-- `mAllActors`. -/
  actors : List (Option SceneActor)
  /-- What completed the zones, of those that were completed in this scene. -/
  completed : ℤ → Option Completion
  /-- The zones of the shards that were told to be the final one. -/
  awards : List ℤ

/-- The constructor that `shardsCtorHook` leaves. -/
def Shards.constructed (mZoneID mShardID : ℤ) : Shards :=
  ⟨mZoneID, mShardID, true, false, false, none⟩

/-- `kill()` of a shard and of its model. -/
def Shards.killAll (shard : Shards) : Shards :=
  { shard with alive := false, emptyShardAlive := false }

/-- The shard of the packet: it appears, if need be, and begins `Got`. -/
def Shards.collectByHook (shard : Shards) : Shards :=
  { shard with mCollectedByHook := true, alive := true, got := some 0 }

/-- `shardGot`: whether this is the first step, and what is sent. -/
def shardGot (shard : Shards) (step : ℕ) : Bool × List (ℤ × ℤ) :=
  (step == 0,
    if step = 0 ∧ shard.mCollectedByHook = false then [(shard.mZoneID, shard.mShardID)] else [])

/-- Assignment of an actor. -/
def ShardConsole.setShard {γ : Type} (console : ShardConsole γ) (index : ℕ) (shard : Shards) :
    ShardConsole γ :=
  { console with actors := console.actors.set index (some (.shards shard)) }

/-- A shard that is not dead. -/
def ShardConsole.livingShard {γ : Type} (console : ShardConsole γ) (index : ℕ) : Option Shards :=
  match console.actors[index]? with
  | some (some (.shards shard)) => if shard.alive then some shard else none
  | _ => none

/-- What the game of a client does with a shard. -/
inductive ShardAction where
  /-- A player touches it. -/
  | touch (index : ℕ)
  /-- It executes `Got`, with or without the question for the final shard. -/
  | execute (index : ℕ) (asks : Bool)
  /-- It is killed. -/
  | vanish (index : ℕ)
  deriving DecidableEq

/-- The living shards of a zone among the actors. -/
def livingIn (zoneID : ℤ) (actors : List (Option SceneActor)) : Prop :=
  ∃ shard, some (.shards shard) ∈ actors ∧ shard.mZoneID = zoneID ∧ shard.alive = true

section

variable {γ : Type} (game : SingleModeGame γ) (isFinalShard : γ → ℤ → Bool)

/-- The loop over the shards of a zone, which leaves `allCollect`. -/
def allCollect (g : γ) (zoneID : ℤ) : Bool :=
  (List.range 5).all fun i => (game.progress g).shards (zoneID - 1, i)

/-- The loop over the actors. -/
def tellActors (allCollect : Bool) (zoneID shardID : ℤ) (actors : List (Option SceneActor)) :
    List (Option SceneActor) :=
  actors.map fun
    | some (.shards shard) =>
      if shard.mZoneID = zoneID then
        if allCollect then some (.shards shard.killAll)
        else if shard.mShardID = shardID then some (.shards shard.collectByHook)
        else some (.shards shard)
      else some (.shards shard)
    | actor => actor

/-- Note what completed a zone. -/
def noteCompletion (cause : Completion) (before after : γ) (completed : ℤ → Option Completion)
    (zoneID : ℤ) : Option Completion :=
  if allCollect game before zoneID = false ∧ allCollect game after zoneID = true then some cause
  else completed zoneID

/-- `handleToC_MiscMapSync` for a shard, in a scene. -/
def handleShardCollect (console : ShardConsole γ) (packet : ℤ × ℤ) : ShardConsole γ :=
  let (zoneID, shardID) := packet
  if (game.progress console.game).shards (zoneID - 1, shardID - 1) then console
  else
    let g := game.collectShard console.game (zoneID - 1) (shardID - 1)
    { console with
      game := g
      actors := tellActors (allCollect game g zoneID) zoneID shardID console.actors
      completed := noteCompletion game .packet console.game g console.completed }

/-- `shardGotFinalCheck`. -/
def shardGotFinalCheck (g : γ) (shard : Shards) : Bool :=
  if shard.mCollectedByHook then false else isFinalShard g shard.mZoneID

/-- What the first step of `Got` leaves of the game. -/
def recordShard (g : γ) (shard : Shards) (firstStep : Bool) : γ :=
  if firstStep then game.collectShard g (shard.mZoneID - 1) (shard.mShardID - 1) else g

/-- A frame of `Got`: the client afterwards and what it sends. -/
def executeGot (console : ShardConsole γ) (index : ℕ) (shard : Shards) (step : ℕ) (asks : Bool) :
    ShardConsole γ × List (ℤ × ℤ) :=
  let (firstStep, packets) := shardGot shard step
  let g := recordShard game console.game shard firstStep
  ({ console.setShard index { shard with got := some (step + 1) } with
      game := g
      completed := noteCompletion game .ownTouch console.game g console.completed
      awards := console.awards ++
        if asks && shardGotFinalCheck isFinalShard g shard then [shard.mZoneID] else [] },
    packets)

/-- A step of the game of a client, with the packets that it sends. -/
def consoleStep (console : ShardConsole γ) :
    ShardAction → Option (ShardConsole γ × List (ℤ × ℤ))
  | .touch index => do
    let shard ← console.livingShard index
    some (console.setShard index { shard with got := some 0 }, [])
  | .execute index asks => do
    let shard ← console.livingShard index
    let step ← shard.got
    some (executeGot game isFinalShard console index shard step asks)
  | .vanish index => do
    let shard ← console.livingShard index
    some (console.setShard index { shard with alive := false }, [])

/-- A shard is collected, with the ids that the packets use. -/
def collected (g : γ) (shard : ℤ × ℤ) : Bool :=
  (game.progress g).shards (zeroBased shard.1 shard.2)

end

section Rules

variable {γ : Type} {game : SingleModeGame γ} {isFinalShard : γ → ℤ → Bool}
  {console console' : ShardConsole γ} {zone : ℤ}

/-! ### What is collected -/

/-- The game collects one more shard. -/
theorem collected_collectShard (hgame : game.Lawful) (g : γ) (shard item : ℤ × ℤ) :
    collected game (game.collectShard g (shard.1 - 1) (shard.2 - 1)) item = true ↔
      collected game g item = true ∨ item = shard := by
  have hshards : (game.progress (game.collectShard g (shard.1 - 1) (shard.2 - 1))).shards =
      Function.update (game.progress g).shards (zeroBased shard.1 shard.2) true := by
    rw [hgame.collectShard]
    rfl
  unfold collected
  rw [hshards, Function.update_apply]
  by_cases hsame : item = shard
  · rw [hsame]
    simp [zeroBased]
  · have hne : zeroBased item.1 item.2 ≠ zeroBased shard.1 shard.2 := by
      intro he
      obtain ⟨hzone, hshard⟩ := zeroBased_inj he
      exact hsame (Prod.ext hzone hshard)
    rw [if_neg hne, or_iff_left hsame]

/-- A shard that lives is among the actors. -/
theorem livingShard_spec {index : ℕ} {shard : Shards}
    (h : console.livingShard index = some shard) :
    console.actors[index]? = some (some (.shards shard)) ∧ shard.alive = true := by
  unfold ShardConsole.livingShard at h
  split at h
  · rename_i found hfound
    rw [Option.ite_none_right_eq_some, Option.some.injEq] at h
    obtain ⟨halive, rfl⟩ := h
    exact ⟨hfound, halive⟩
  · cases h

/-- What the loop over the actors makes of one of them. -/
theorem mem_tellActors {complete : Bool} {zoneID shardID : ℤ} {actors : List (Option SceneActor)}
    {shard : Shards} (h : some (.shards shard) ∈ tellActors complete zoneID shardID actors) :
    ∃ old, some (.shards old) ∈ actors ∧
      (shard = old ∧ (old.mZoneID = zoneID → complete = false) ∨
        old.mZoneID = zoneID ∧ complete = true ∧ shard = old.killAll ∨
        old.mZoneID = zoneID ∧ old.mShardID = shardID ∧ complete = false ∧
          shard = old.collectByHook) := by
  obtain ⟨actor, hactor, htold⟩ := List.mem_map.mp h
  split at htold
  · rename_i old
    refine ⟨old, hactor, ?_⟩
    by_cases hzone : old.mZoneID = zoneID
    · rw [if_pos hzone] at htold
      cases complete with
      | true =>
        rw [if_pos rfl, Option.some.injEq, SceneActor.shards.injEq] at htold
        exact Or.inr (Or.inl ⟨hzone, rfl, htold.symm⟩)
      | false =>
        rw [if_neg Bool.false_ne_true] at htold
        by_cases hid : old.mShardID = shardID
        · rw [if_pos hid, Option.some.injEq, SceneActor.shards.injEq] at htold
          exact Or.inr (Or.inr ⟨hzone, hid, rfl, htold.symm⟩)
        · rw [if_neg hid, Option.some.injEq, SceneActor.shards.injEq] at htold
          exact Or.inl ⟨htold.symm, fun _ => rfl⟩
    · rw [if_neg hzone, Option.some.injEq, SceneActor.shards.injEq] at htold
      exact Or.inl ⟨htold.symm, fun he => absurd he hzone⟩
  · rename_i hother
    exact absurd htold (hother shard)

/-! ### Steps of a client -/

/-- What a step of the game does: it changes a living shard, or it is a frame of `Got`. -/
theorem consoleStep_cases {action : ShardAction} {packets : List (ℤ × ℤ)}
    (h : consoleStep game isFinalShard console action = some (console', packets)) :
    ∃ index shard, console.livingShard index = some shard ∧
      ((∃ alive got, console' = console.setShard index { shard with alive := alive, got := got } ∧
          packets = []) ∨
        ∃ step asks,
          (console', packets) = executeGot game isFinalShard console index shard step asks) := by
  cases action with
  | touch index =>
    obtain ⟨shard, hshard, hstep⟩ := Option.bind_eq_some_iff.mp h
    cases hstep
    exact ⟨index, shard, hshard, Or.inl ⟨shard.alive, some 0, rfl, rfl⟩⟩
  | execute index asks =>
    obtain ⟨shard, hshard, hrest⟩ := Option.bind_eq_some_iff.mp h
    obtain ⟨step, -, hstep⟩ := Option.bind_eq_some_iff.mp hrest
    rw [Option.some.injEq] at hstep
    exact ⟨index, shard, hshard, Or.inr ⟨step, asks, hstep.symm⟩⟩
  | vanish index =>
    obtain ⟨shard, hshard, hstep⟩ := Option.bind_eq_some_iff.mp h
    cases hstep
    exact ⟨index, shard, hshard, Or.inl ⟨false, shard.got, rfl, rfl⟩⟩

/-- A shard that was collected for a packet is collected. -/
def HooksCollected (game : SingleModeGame γ) (console : ShardConsole γ) : Prop :=
  ∀ shard, some (.shards shard) ∈ console.actors → shard.mCollectedByHook = true →
    collected game console.game (shard.mZoneID, shard.mShardID) = true

/-- A frame of `Got` collects what it sends. -/
theorem collected_executeGot (isFinalShard : γ → ℤ → Bool) (hgame : game.Lawful)
    (hhooks : HooksCollected game console) {index : ℕ} {shard : Shards}
    (hshard : console.livingShard index = some shard) (step : ℕ) (asks : Bool) (item : ℤ × ℤ) :
    collected game (executeGot game isFinalShard console index shard step asks).1.game item =
        true ↔
      collected game console.game item = true ∨
        item ∈ (executeGot game isFinalShard console index shard step asks).2 := by
  show collected game (recordShard game console.game shard (step == 0)) item = true ↔
    _ ∨ item ∈ (shardGot shard step).2
  by_cases hfirst : step = 0
  · rw [hfirst, recordShard, if_pos (beq_self_eq_true 0),
      collected_collectShard hgame console.game (shard.mZoneID, shard.mShardID)]
    cases hhook : shard.mCollectedByHook with
    | true =>
      have hold := hhooks shard (List.mem_of_getElem? (livingShard_spec hshard).1) hhook
      simp only [shardGot, hhook, Bool.true_eq_false, and_false, if_false, List.not_mem_nil,
        or_false]
      refine ⟨fun h => h.elim id fun hitem => ?_, Or.inl⟩
      rw [hitem]
      exact hold
    | false => simp only [shardGot, hhook, and_self, if_true, List.mem_singleton]
  · rw [recordShard, if_neg (by simpa using hfirst)]
    simp only [shardGot, hfirst, false_and, if_false, List.not_mem_nil, or_false]

/-- A step of the game collects what it sends. -/
theorem collected_consoleStep (hgame : game.Lawful) (hhooks : HooksCollected game console)
    {action : ShardAction} {packets : List (ℤ × ℤ)}
    (h : consoleStep game isFinalShard console action = some (console', packets)) (item : ℤ × ℤ) :
    collected game console'.game item = true ↔
      collected game console.game item = true ∨ item ∈ packets := by
  obtain ⟨index, shard, hshard, ⟨alive, got, rfl, rfl⟩ | ⟨step, asks, hgot⟩⟩ :=
    consoleStep_cases h
  · simp only [ShardConsole.setShard, List.not_mem_nil, or_false]
  · have hcollected :=
      collected_executeGot isFinalShard hgame hhooks hshard step asks item
    rw [← hgot] at hcollected
    exact hcollected

/-- The game only collects. -/
theorem collected_recordShard (hgame : game.Lawful) {g : γ} (shard : Shards) (firstStep : Bool)
    {item : ℤ × ℤ} (h : collected game g item = true) :
    collected game (recordShard game g shard firstStep) item = true := by
  cases firstStep with
  | false => exact h
  | true =>
    exact (collected_collectShard hgame g (shard.mZoneID, shard.mShardID) item).mpr (Or.inl h)

/-- A change of a shard that keeps its ids and its flag, and more collected shards. -/
theorem HooksCollected.setShard (h : HooksCollected game console) {index : ℕ} {shard : Shards}
    (hshard : console.livingShard index = some shard) (alive : Bool) (got : Option ℕ) {g : γ}
    (hmono : ∀ item, collected game console.game item = true → collected game g item = true) :
    ∀ other, some (.shards other) ∈
        (console.setShard index { shard with alive := alive, got := got }).actors →
      other.mCollectedByHook = true → collected game g (other.mZoneID, other.mShardID) = true := by
  intro other hother hhook
  rcases List.mem_or_eq_of_mem_set hother with hold | hnew
  · exact hmono _ (h other hold hhook)
  · rw [Option.some.injEq, SceneActor.shards.injEq] at hnew
    rw [hnew] at hhook ⊢
    exact hmono _ (h shard (List.mem_of_getElem? (livingShard_spec hshard).1) hhook)

/-- Every shard that was collected for a packet is still collected after a step of the game. -/
theorem hooks_consoleStep (hgame : game.Lawful) (hhooks : HooksCollected game console)
    {action : ShardAction} {packets : List (ℤ × ℤ)}
    (h : consoleStep game isFinalShard console action = some (console', packets)) :
    HooksCollected game console' := by
  obtain ⟨index, shard, hshard, ⟨alive, got, rfl, -⟩ | ⟨step, asks, hgot⟩⟩ := consoleStep_cases h
  · exact hhooks.setShard hshard alive got fun _ => id
  · cases hgot
    exact hhooks.setShard hshard shard.alive (some (step + 1)) fun _ hitem =>
      collected_recordShard hgame shard (step == 0) hitem

/-- A packet collects its shard. -/
theorem collected_handleShardCollect (hgame : game.Lawful) (packet item : ℤ × ℤ) :
    collected game (handleShardCollect game console packet).game item = true ↔
      collected game console.game item = true ∨ item = packet := by
  obtain ⟨zoneID, shardID⟩ := packet
  simp only [handleShardCollect]
  split
  · rename_i hold
    refine ⟨Or.inl, fun h => h.elim id fun hitem => ?_⟩
    rw [hitem]
    exact hold
  · exact collected_collectShard hgame console.game (zoneID, shardID) item

/-- The state of the game is the one that the handler of the progress alone leaves. -/
theorem handleShardCollect_game (packet : ℤ × ℤ) :
    (handleShardCollect game console packet).game =
      handleToC_MiscMapSync game console.game (.shardCollect packet.1 packet.2) := by
  simp only [handleShardCollect, handleToC_MiscMapSync]
  split <;> rfl

/-- What the handler leaves for a shard that is not collected yet. -/
theorem handleShardCollect_new {packet : ℤ × ℤ}
    (h : collected game console.game packet = false) :
    let g := game.collectShard console.game (packet.1 - 1) (packet.2 - 1)
    handleShardCollect game console packet =
      { console with
        game := g
        actors := tellActors (allCollect game g packet.1) packet.1 packet.2 console.actors
        completed := noteCompletion game .packet console.game g console.completed } :=
  if_neg (Bool.eq_false_iff.mp h)

/-- Every shard that was collected for a packet is still collected after a packet. -/
theorem hooks_handleShardCollect (hgame : game.Lawful) (hhooks : HooksCollected game console)
    (packet : ℤ × ℤ) : HooksCollected game (handleShardCollect game console packet) := by
  cases hold : collected game console.game packet with
  | true =>
    have hsame : handleShardCollect game console packet = console := if_pos hold
    rw [hsame]
    exact hhooks
  | false =>
    have hcollect := collected_collectShard hgame console.game packet
    rw [handleShardCollect_new hold]
    intro shard hshard hhook
    obtain ⟨old, hmem, ⟨rfl, -⟩ | ⟨-, -, rfl⟩ | ⟨hzone, hid, -, rfl⟩⟩ := mem_tellActors hshard
    · exact (hcollect _).mpr (Or.inl (hhooks shard hmem hhook))
    · exact (hcollect _).mpr (Or.inl (hhooks old hmem hhook))
    · exact (hcollect _).mpr (Or.inr (Prod.ext hzone hid))

/-! ### What holds of a zone on a client -/

/-- What holds of a client and a zone that was not complete when the scene began. -/
structure ZoneInv (game : SingleModeGame γ) (zone : ℤ) (console : ShardConsole γ) : Prop where
  /-- It is noted what completed the zone. -/
  incomplete : console.completed zone = none ↔ allCollect game console.game zone = false
  /-- No shard lives in a zone that a packet has completed. -/
  dead : console.completed zone = some .packet → ¬livingIn zone console.actors
  /-- A final shard is told in a zone that the client has completed itself. -/
  awards : zone ∈ console.awards → console.completed zone = some .ownTouch

/-- A zone that was completed is complete. -/
theorem ZoneInv.complete (h : ZoneInv game zone console) {cause : Completion}
    (hdone : console.completed zone = some cause) : allCollect game console.game zone = true := by
  rw [← Bool.not_eq_false, ← h.incomplete, hdone]
  exact Option.some_ne_none _

/-- A scene as the game builds it: no shard was collected for a packet, and no zone was
completed in it. -/
structure SceneStart (console : ShardConsole γ) : Prop where
  /-- As `shardsCtorHook` leaves the shards. -/
  hooks : ∀ shard, some (.shards shard) ∈ console.actors → shard.mCollectedByHook = false
  /-- Nothing is noted. -/
  completed : ∀ zone, console.completed zone = none
  /-- No final shard was told. -/
  awards : console.awards = []

/-- No shard was collected for a packet. -/
theorem SceneStart.hooksCollected (h : SceneStart console) : HooksCollected game console := by
  intro shard hshard hhook
  rw [h.hooks shard hshard] at hhook
  cases hhook

end Rules

end BfMultiplayer.ShardActors

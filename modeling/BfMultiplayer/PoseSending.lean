import Mathlib.Tactic.Common
import Mathlib.Algebra.Order.Field.Rat
import Mathlib.Algebra.Order.Group.Abs
import Mathlib.Data.List.Induction

/-!
# When the local pose is sent

`PlayerData::updateLocal` compares the pose of a frame with that of the frame
before it. While they differ the pose is sent in each sixth frame; when four
frames in a row did not differ it is sent once more, and then no more until the
player moves again. A drift of at most one unit a frame counts as no movement,
so it leads away from the position that was sent without any limit.
-/

namespace BfMultiplayer.PoseSending

/-- `sead::Vector3f`, with exact components. -/
structure Vector3 where
  /-- First component. -/
  x : ℚ
  /-- Second component. -/
  y : ℚ
  /-- Third component. -/
  z : ℚ
  deriving DecidableEq

/-- A difference of more than one on some axis. -/
def Vector3.Exceeds (a b : Vector3) : Prop := 1 < |a.x - b.x| ∨ 1 < |a.y - b.y| ∨ 1 < |a.z - b.z|

/-- A difference of at most one on each axis. -/
def Vector3.Near (a b : Vector3) : Prop := |a.x - b.x| ≤ 1 ∧ |a.y - b.y| ≤ 1 ∧ |a.z - b.z| ≤ 1

/-- The local player in a frame. -/
structure Frame where
  /-- Its position. -/
  trans : Vector3
  /-- Its rotation. -/
  rotate : Vector3

/-- `MultiplayerManager::sPosePacketInterval`. -/
def sPosePacketInterval : ℕ := 6

/-- The members of `PlayerData` that decide over the pose, and the positions of the packets. -/
structure PlayerData where
  /-- `mLastTrans`. -/
  mLastTrans : Vector3
  /-- `mLastRotate`. -/
  mLastRotate : Vector3
  /-- `mFrameCount`. -/
  mFrameCount : ℕ
  /-- `mFramesWithZeroDelta`. -/
  mFramesWithZeroDelta : ℕ
  /-- The positions in the `ToS_PuppetPose` packets, in the order in which they were sent. -/
  sent : List Vector3

instance (a b : Vector3) : Decidable (a.Exceeds b) := inferInstanceAs (Decidable (_ ∨ _ ∨ _))

instance (a b : Vector3) : Decidable (a.Near b) := inferInstanceAs (Decidable (_ ∧ _ ∧ _))

/-- `PlayerData::update` of the local player, which has no puppet. -/
def update (player : PlayerData) : PlayerData :=
  { player with mFrameCount := player.mFrameCount + 1 }

/-- `moving` in `updateLocal`. -/
def isMoving (player : PlayerData) (frame : Frame) : Bool :=
  player.mLastTrans.Exceeds frame.trans ∨ player.mLastRotate.Exceeds frame.rotate

/-- `PlayerData::updateLocal`, as far as it is about the pose. -/
def updateLocal (player : PlayerData) (frame : Frame) : PlayerData :=
  let moving := isMoving player frame
  let interval := player.mFrameCount % sPosePacketInterval == 0
  let sent :=
    if (moving && interval) || player.mFramesWithZeroDelta == 3 then player.sent ++ [frame.trans]
    else player.sent
  { player with
    mLastTrans := frame.trans
    mLastRotate := frame.rotate
    mFramesWithZeroDelta := if moving then 0 else player.mFramesWithZeroDelta + 1
    sent := sent }

/-- One frame of `MultiplayerManager::execute`. -/
def execute (player : PlayerData) (frame : Frame) : PlayerData := updateLocal (update player) frame

/-- A new player; the last position and rotation are what the memory holds. -/
def newPlayer (memory : Frame) : PlayerData := ⟨memory.trans, memory.rotate, 0, 0, []⟩

/-- The player after some frames. -/
def afterFrames (memory : Frame) (frames : List Frame) : PlayerData :=
  frames.foldl execute (newPlayer memory)

/-- While the player counts as resting, the last position that was sent is near its own. -/
def SentIsNear (player : PlayerData) : Prop :=
  3 < player.mFramesWithZeroDelta → ∃ sent ∈ player.sent.getLast?, sent.Near player.mLastTrans

instance (player : PlayerData) : Decidable (SentIsNear player) := inferInstanceAs (Decidable (_ → _))

/-- A frame differs by more than one from another in some component. -/
def Frame.Moves (previous frame : Frame) : Prop :=
  previous.trans.Exceeds frame.trans ∨ previous.rotate.Exceeds frame.rotate

instance (previous frame : Frame) : Decidable (previous.Moves frame) :=
  inferInstanceAs (Decidable (_ ∨ _))

/-- The frames since the last one that differs from its predecessor. -/
def restingFrames (memory : Frame) (frames : List Frame) : List Frame :=
  (frames.foldl (fun (last : Frame × List Frame) frame =>
    (frame, if last.1.Moves frame then [] else last.2 ++ [frame])) (memory, [])).2

/-- The condition on the frames: of those since the last movement, the last one is near the
fourth one. -/
def StaysNear (memory : Frame) (frames : List Frame) : Prop :=
  ∀ fourth last, (restingFrames memory frames)[3]? = some fourth → frames.getLast? = some last →
    fourth.trans.Near last.trans

/-- The last frame, or what the memory held before the first one. -/
def lastFrame (memory : Frame) (frames : List Frame) : Frame := frames.getLastD memory

/-- A step of `restingFrames`. -/
theorem restingFrames_concat (memory : Frame) (frames : List Frame) (frame : Frame) :
    restingFrames memory (frames ++ [frame]) =
      if (lastFrame memory frames).Moves frame then []
      else restingFrames memory frames ++ [frame] := by
  have hlast : (frames.foldl (fun (last : Frame × List Frame) frame =>
      (frame, if last.1.Moves frame then [] else last.2 ++ [frame])) (memory, [])).1 =
        lastFrame memory frames := by
    induction frames using List.reverseRecOn with
    | nil => rfl
    | append_singleton frames other ih =>
      rw [List.foldl_append, lastFrame, List.getLastD_concat]
      rfl
  rw [restingFrames, List.foldl_append, List.foldl_cons, List.foldl_nil, hlast]
  rfl

/-- A step of `afterFrames`. -/
theorem afterFrames_concat (memory : Frame) (frames : List Frame) (frame : Frame) :
    afterFrames memory (frames ++ [frame]) = execute (afterFrames memory frames) frame := by
  rw [afterFrames, List.foldl_append]
  rfl

/-- What a frame without movement does. -/
theorem execute_of_resting {player : PlayerData} {frame : Frame}
    (h : isMoving player frame = false) :
    (execute player frame).mFramesWithZeroDelta = player.mFramesWithZeroDelta + 1 ∧
      (execute player frame).sent =
        if player.mFramesWithZeroDelta = 3 then player.sent ++ [frame.trans] else player.sent := by
  have hmoving : isMoving (update player) frame = false := h
  simp only [execute, updateLocal, hmoving, Bool.false_and, Bool.false_or, Bool.false_eq_true,
    if_false, beq_iff_eq]
  exact ⟨rfl, rfl⟩

/-- What is known of the player after some frames: its members describe the last frame, it has
counted the frames without movement, and sent the position of the fourth of them. -/
structure PoseInv (memory : Frame) (frames : List Frame) (player : PlayerData) : Prop where
  /-- The last position. -/
  trans : player.mLastTrans = (lastFrame memory frames).trans
  /-- The last rotation. -/
  rotate : player.mLastRotate = (lastFrame memory frames).rotate
  /-- The frames without movement. -/
  counted : player.mFramesWithZeroDelta = (restingFrames memory frames).length
  /-- The fourth of them. -/
  sent : ∀ fourth, (restingFrames memory frames)[3]? = some fourth →
    player.sent.getLast? = some fourth.trans

/-- One frame keeps what is known of the player. -/
theorem poseInv_concat {memory : Frame} {frames : List Frame} {player : PlayerData}
    (h : PoseInv memory frames player) (frame : Frame) :
    PoseInv memory (frames ++ [frame]) (execute player frame) := by
  have hlast : lastFrame memory (frames ++ [frame]) = frame := by
    rw [lastFrame, List.getLastD_concat]
  have hmoves : isMoving player frame = decide ((lastFrame memory frames).Moves frame) := by
    rw [isMoving, h.trans, h.rotate]
    rfl
  have hresting := restingFrames_concat memory frames frame
  refine ⟨by rw [hlast]; rfl, by rw [hlast]; rfl, ?_, ?_⟩
  all_goals by_cases hmove : (lastFrame memory frames).Moves frame
  · rw [hresting, if_pos hmove]
    rw [decide_eq_true hmove] at hmoves
    have hmoving : isMoving (update player) frame = true := hmoves
    simp only [execute, updateLocal, hmoving, if_true, List.length_nil]
  · rw [hresting, if_neg hmove, List.length_append, List.length_singleton]
    rw [decide_eq_false hmove] at hmoves
    rw [(execute_of_resting hmoves).1, h.counted]
  · rw [hresting, if_pos hmove]
    exact fun fourth hfourth => nomatch hfourth
  · intro fourth hfourth
    rw [hresting, if_neg hmove] at hfourth
    rw [decide_eq_false hmove] at hmoves
    rw [(execute_of_resting hmoves).2, h.counted]
    by_cases hthree : (restingFrames memory frames).length = 3
    · -- this is the fourth frame
      rw [List.getElem?_append_right (Nat.le_of_eq hthree), hthree, Nat.sub_self,
        List.getElem?_cons_zero, Option.some.injEq] at hfourth
      rw [if_pos hthree, List.getLast?_concat, hfourth]
    · have hlong : 3 < (restingFrames memory frames).length := by
        by_contra hshort
        rw [List.getElem?_eq_none (by rw [List.length_append, List.length_singleton]; omega)]
          at hfourth
        cases hfourth
      rw [List.getElem?_append_left hlong] at hfourth
      rw [if_neg hthree]
      exact h.sent fourth hfourth

/-- What is known of a player holds after any frames. -/
theorem poseInv_afterFrames (memory : Frame) (frames : List Frame) :
    PoseInv memory frames (afterFrames memory frames) := by
  induction frames using List.reverseRecOn with
  | nil => exact ⟨rfl, rfl, rfl, fun fourth hfourth => nomatch hfourth⟩
  | append_singleton frames frame ih =>
    rw [afterFrames_concat]
    exact poseInv_concat ih frame

/-- After any frames, the position that was sent last is near that of a resting player exactly
when its position is near that of the fourth frame since its last movement. -/
theorem sent_is_near_iff (memory : Frame) (frames : List Frame) :
    SentIsNear (afterFrames memory frames) ↔ StaysNear memory frames := by
  have hinv := poseInv_afterFrames memory frames
  cases hfourth : (restingFrames memory frames)[3]? with
  | none =>
    have hshort := List.getElem?_eq_none_iff.mp hfourth
    have hcounted := hinv.counted
    refine iff_of_true (fun hlong => ?_) fun fourth last h => ?_
    · omega
    · rw [hfourth] at h
      cases h
  | some fourth =>
    have hlong := (List.getElem?_eq_some_iff.mp hfourth).1
    have hcounted := hinv.counted
    have hsent := hinv.sent fourth hfourth
    have hne : frames ≠ [] := by
      intro hnil
      rw [hnil] at hfourth
      cases hfourth
    have hlast := List.getLast?_eq_some_getLast hne
    generalize frames.getLast hne = last at hlast
    have htrans : (afterFrames memory frames).mLastTrans = last.trans := by
      rw [hinv.trans, lastFrame, List.getLastD_eq_getLast?, hlast, Option.getD_some]
    constructor
    · intro h fourth' last' hfourth' hlast'
      obtain ⟨sent, hsent', hnear⟩ := h (by omega)
      rw [hsent, Option.mem_some_iff] at hsent'
      rw [hfourth, Option.some.injEq] at hfourth'
      rw [hlast, Option.some.injEq] at hlast'
      rw [← hfourth', ← hlast', hsent', ← htrans]
      exact hnear
    · intro h _
      refine ⟨fourth.trans, hsent, ?_⟩
      rw [htrans]
      exact h fourth last hfourth hlast

/-- A player that drifts along one axis. -/
def driftFrames (n : ℕ) : List Frame :=
  (List.range n).map fun i : ℕ => ⟨⟨(i : ℚ) / 2, 0, 0⟩, ⟨0, 0, 0⟩⟩

/-- A player that drifts by half a unit a frame is four units away after twelve frames. -/
theorem drift_is_not_sent : ¬SentIsNear (afterFrames ⟨⟨0, 0, 0⟩, ⟨0, 0, 0⟩⟩ (driftFrames 12)) := by
  decide +kernel

end BfMultiplayer.PoseSending

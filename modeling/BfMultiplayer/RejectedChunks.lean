import BfMultiplayer.SaveChunkRules

/-!
# Rejected save chunks

`handleSaveChunk` gives an empty session to the sender before it looks at the
packet, so a rejected chunk does change the server: the owner and the size of
the session. Both are set again by the next chunk, for as long as no chunk is
stored. Two servers that differ in them alone, and only while their session is
empty, treat every chunk alike.
-/

namespace BfMultiplayer.RejectedChunks

open Packets ServerState ServerHandlers SaveChunkRules

/-- A `SaveDataChunk` packet and the record of its sender. -/
structure ChunkArrival where
  /-- The record, by its place. -/
  client : ℕ
  /-- The packet. -/
  packet : SaveDataChunk

/-- The tests behind which `handleSaveChunk` returns: the sender is not the owner of the
session, the index is outside of `0..7`, or the size is above `sSaveDataChunkSize`. -/
def Rejects (s : Server) (arrival : ChunkArrival) : Prop :=
  (openSession s arrival.client).mCurrentSaveDataUploader ≠ some arrival.client ∨
    ¬(0 ≤ arrival.packet.chunkIndex ∧ arrival.packet.chunkIndex < 8) ∨
    sSaveDataChunkSize < arrival.packet.size.toNat

instance (s : Server) (arrival : ChunkArrival) : Decidable (Rejects s arrival) :=
  inferInstanceAs (Decidable (_ ∨ _ ∨ _))

/-- The values that the chunks of a run commit, oldest first; undefined when a copy leaves its
arrays. -/
def commits : Server → List ChunkArrival → Option (List ServerSaveData)
  | _, [] => some []
  | s, arrival :: rest =>
    (handleSaveChunk s arrival.client arrival.packet).bind fun (t, effects) =>
      (commits t rest).map (savedValues effects ++ ·)

/-- A run without the packets that are rejected in it. -/
def withoutRejected : Server → List ChunkArrival → List ChunkArrival
  | _, [] => []
  | s, arrival :: rest =>
    match handleSaveChunk s arrival.client arrival.packet with
    | none => arrival :: rest
    | some (t, _) =>
      if Rejects s arrival then withoutRejected t rest else arrival :: withoutRejected t rest

/-- Two servers agree but for the owner and the size of an empty session. -/
structure SameButSession (s t : Server) : Prop where
  /-- Everything else is the same. -/
  same : t = { s with
    mSharedSaveWorkBufferSize := t.mSharedSaveWorkBufferSize
    mCurrentSaveDataUploader := t.mCurrentSaveDataUploader }
  /-- With a chunk in the session, so are its owner and its size. -/
  session : sessionEmpty s = false → s = t

/-- A chunk is rejected when it has no slot. -/
theorem rejects_iff (s : Server) (arrival : ChunkArrival) :
    Rejects s arrival ↔ acceptedSlot s arrival.client arrival.packet = none := by
  unfold Rejects acceptedSlot chunkSlot
  by_cases howner :
      (openSession s arrival.client).mCurrentSaveDataUploader = some arrival.client
  · by_cases hsize : arrival.packet.size.toNat ≤ sSaveDataChunkSize
    · by_cases hindex : 0 ≤ arrival.packet.chunkIndex ∧ arrival.packet.chunkIndex < 8
      · rw [if_pos ⟨howner, hsize⟩, dif_pos hindex]
        refine iff_of_false ?_ fun h => nomatch h
        rintro (h | h | h)
        · exact h howner
        · exact h hindex
        · omega
      · rw [if_pos ⟨howner, hsize⟩, dif_neg hindex]
        exact iff_of_true (Or.inr (Or.inl hindex)) rfl
    · rw [if_neg fun h => hsize h.2]
      exact iff_of_true (Or.inr (Or.inr (by omega))) rfl
  · rw [if_neg fun h => howner h.1]
    exact iff_of_true (Or.inl howner) rfl

/-- A rejected chunk opens the session and does nothing else. -/
theorem handleSaveChunk_of_rejects {s : Server} {arrival : ChunkArrival}
    (h : Rejects s arrival) : handleSaveChunk s arrival.client arrival.packet =
      some (openSession s arrival.client, []) := by
  rw [handleSaveChunk_eq, (rejects_iff s arrival).mp h]

/-- The handler depends on the server with the session opened. -/
theorem handleSaveChunk_congr {s t : Server} {client : ℕ}
    (h : openSession s client = openSession t client) (packet : SaveDataChunk) :
    handleSaveChunk s client packet = handleSaveChunk t client packet := by
  rw [handleSaveChunk_eq, handleSaveChunk_eq, acceptedSlot, acceptedSlot, h]

/-- A server agrees with itself. -/
theorem SameButSession.refl (s : Server) : SameButSession s s := ⟨rfl, fun _ => rfl⟩

/-- Servers that agree are the same once the next sender has opened the session. -/
theorem SameButSession.openSession_eq {s t : Server} (h : SameButSession s t) (client : ℕ) :
    openSession s client = openSession t client := by
  cases hempty : sessionEmpty s with
  | true =>
    have hempty' : sessionEmpty t = true := by
      rw [h.same]
      exact hempty
    rw [openSession, openSession, if_pos hempty, if_pos hempty', h.same]
  | false => rw [h.session hempty]

/-- Opening the session on one side alone keeps the agreement. -/
theorem SameButSession.openSession_left {s t : Server} (h : SameButSession s t) (client : ℕ) :
    SameButSession (openSession s client) t := by
  cases hempty : sessionEmpty s with
  | true =>
    rw [openSession, if_pos hempty]
    refine ⟨h.same, fun hnot => ?_⟩
    have hempty' : sessionEmpty { s with
        mSharedSaveWorkBufferSize := 0
        mCurrentSaveDataUploader := some client } = true := hempty
    rw [hempty'] at hnot
    cases hnot
  | false =>
    rw [openSession, hempty, if_neg Bool.false_ne_true]
    exact h

/-- Servers that agree commit the same, with or without the rejected chunks. -/
theorem SameButSession.commits_eq {s t : Server} (h : SameButSession s t)
    (arrivals : List ChunkArrival) : commits s arrivals = commits t (withoutRejected s arrivals) := by
  induction arrivals generalizing s t with
  | nil => rfl
  | cons arrival rest ih =>
    by_cases hrejects : Rejects s arrival
    · have hhandled := handleSaveChunk_of_rejects hrejects
      have hnothing : savedValues [] = [] := rfl
      simp only [commits, withoutRejected, hhandled, Option.bind_some, if_pos hrejects, hnothing,
        List.nil_append, Option.map_id']
      exact ih (h.openSession_left arrival.client)
    · -- an accepted chunk leaves the two servers in the same state
      have hcongr := handleSaveChunk_congr (h.openSession_eq arrival.client) arrival.packet
      simp only [commits, withoutRejected]
      cases hhandled : handleSaveChunk s arrival.client arrival.packet with
      | none =>
        rw [Option.bind_none, commits, ← hcongr, hhandled, Option.bind_none]
      | some result =>
        obtain ⟨u, effects⟩ := result
        simp only [if_neg hrejects, commits, ← hcongr, hhandled, Option.bind_some]
        rw [ih (.refl u)]

/-- Deleting the rejected chunks from a run leaves the committed saves. -/
theorem commits_withoutRejected (s : Server) (arrivals : List ChunkArrival) :
    commits s (withoutRejected s arrivals) = commits s arrivals :=
  ((SameButSession.refl s).commits_eq arrivals).symm

end BfMultiplayer.RejectedChunks

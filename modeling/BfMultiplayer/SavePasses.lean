import BfMultiplayer.SaveChunkRules
import BfMultiplayer.SnapshotReads

/-!
# One pass of an upload loop over a save that may change

Both upload loops send the eight chunks of a save with pauses in between and
read the save and its size anew for each chunk. A pass remembers the chunks it
has sent and the values the save has had since it began. It ends with a
snapshot of the last of them if nothing that was written meanwhile changed a
byte that was already sent, and if the size of the last chunk is the rest of
the save.
-/

namespace BfMultiplayer.SavePasses

open ByteBuffer Packets SaveChunkRules SnapshotReads

/-- A save as an upload loop sees it. -/
structure SaveValue (cap : ℕ) where
  /-- The array. -/
  bytes : Buffer cap
  /-- How many of its bytes are the save. -/
  size : ℕ

variable {cap : ℕ}

/-- The bytes of the save. -/
def SaveValue.content (value : SaveValue cap) : List UInt8 := firstBytes value.bytes value.size

/-- Chunk `i` of a save, for the eight indices of the loops. -/
def chunkPart (value : SaveValue cap) (i : ℕ) : Option SaveDataChunk :=
  if h : i < 8 then uploadChunk value.bytes value.size ⟨i, h⟩ else none

/-- The bytes a chunk carries. -/
def payload (chunk : SaveDataChunk) : List UInt8 := firstBytes chunk.data chunk.size.toNat

/-- The chunks are the consecutive slices of one save and make up all of it. -/
structure SnapshotOf (save : List UInt8) (sent : List SaveDataChunk) : Prop where
  /-- They are numbered in order. -/
  indices : sent.map SaveDataChunk.chunkIndex = (List.range 8).map fun i : ℕ => (i : ℤ)
  /-- Each carries the slice with its number. -/
  slices : sent.map payload = (List.range 8).map (slice save sSaveDataChunkSize)
  /-- Together they are the save, so the length they imply is its length. -/
  whole : (sent.map payload).flatten = save

/-- A pass of an upload loop. -/
structure Pass (cap : ℕ) where
  /-- The chunks sent so far, oldest first. -/
  sent : List SaveDataChunk
  /-- The values the save has had since the pass began, oldest first. -/
  held : List (SaveValue cap)

/-- The loop is entered. -/
def Pass.enter (value : SaveValue cap) : Pass cap := ⟨[], [value]⟩

/-- The save is written while the pass runs. -/
def Pass.observe (value : SaveValue cap) (pass : Pass cap) : Pass cap :=
  { pass with held := pass.held ++ [value] }

/-- One turn of the loop. -/
def Pass.send (value : SaveValue cap) (pass : Pass cap) : Option (Pass cap) :=
  (chunkPart value pass.sent.length).map fun chunk => { pass with sent := pass.sent ++ [chunk] }

/-- The chunks of the pass are a snapshot of a value the save had meanwhile. -/
def Pass.Snapshot (pass : Pass cap) : Prop :=
  ∃ value ∈ pass.held, SnapshotOf value.content pass.sent

/-- The size of the last chunk, cut down to 16 bits, is what is left of the
save. -/
def LastChunkExact (saveSize : ℕ) : Prop :=
  sSaveDataChunkSize * 7 ≤ saveSize ∧ saveSize < sSaveDataChunkSize * 7 + 2 ^ 16

instance (saveSize : ℕ) : Decidable (LastChunkExact saveSize) :=
  inferInstanceAs (Decidable (_ ∧ _))

/-- Writing `n` bytes of `src` from `off` on changes no byte of a chunk that
was sent. -/
def KeepsSent {k : ℕ} (bytes : Buffer cap) (sent : List SaveDataChunk) (src : Buffer k)
    (off n : ℕ) : Prop :=
  SameBytes src 0 bytes off (min n (sSaveDataChunkSize * sent.length - off))

instance {k : ℕ} (bytes : Buffer cap) (sent : List SaveDataChunk) (src : Buffer k) (off n : ℕ) :
    Decidable (KeepsSent bytes sent src off n) :=
  inferInstanceAs (Decidable (∀ j < _, _))

/-- An upload loop: the pass it is in, and those it has ended. -/
structure UploadLoop (cap : ℕ) where
  /-- The pass it is in, if it is not waiting. -/
  pass : Option (Pass cap)
  /-- The passes it has ended, oldest first. -/
  ended : List (Pass cap)

/-- A loop that has not run yet. -/
def UploadLoop.waiting : UploadLoop cap := ⟨none, []⟩

/-- The loop begins a pass. -/
def UploadLoop.enter (value : SaveValue cap) (loop : UploadLoop cap) : UploadLoop cap :=
  { loop with pass := some (Pass.enter value) }

/-- The save is written, during a pass or not. -/
def UploadLoop.observe (value : SaveValue cap) (loop : UploadLoop cap) : UploadLoop cap :=
  { loop with pass := loop.pass.map (Pass.observe value) }

/-- The loop sends its next chunk; the eighth one ends the pass. -/
def UploadLoop.send (value : SaveValue cap) (loop : UploadLoop cap) : Option (UploadLoop cap) :=
  loop.pass.bind fun pass => (pass.send value).map fun next =>
    if next.sent.length < 8 then { loop with pass := some next }
    else ⟨none, loop.ended ++ [next]⟩

/-- A write changes no byte that the pass of the loop has sent. -/
def UploadLoop.KeepsSent {k : ℕ} (loop : UploadLoop cap) (bytes : Buffer cap) (src : Buffer k)
    (off n : ℕ) : Prop :=
  ∀ pass ∈ loop.pass, SavePasses.KeepsSent bytes pass.sent src off n

instance {k : ℕ} (loop : UploadLoop cap) (bytes : Buffer cap) (src : Buffer k) (off n : ℕ) :
    Decidable (loop.KeepsSent bytes src off n) :=
  inferInstanceAs (Decidable (∀ pass ∈ loop.pass, _))

/-- If the next chunk is the last one of a pass, its size is what is left of
the save. -/
def UploadLoop.EndsExact (loop : UploadLoop cap) (saveSize : ℕ) : Prop :=
  ∀ pass ∈ loop.pass, pass.sent.length = 7 → LastChunkExact saveSize

instance (loop : UploadLoop cap) (saveSize : ℕ) : Decidable (loop.EndsExact saveSize) :=
  inferInstanceAs (Decidable (∀ pass ∈ loop.pass, _))

/-- An unfinished pass whose chunks are those of the present value. -/
structure Pass.Running (value : SaveValue cap) (pass : Pass cap) : Prop where
  /-- The chunks are current. -/
  current : Current chunkPart value pass.sent
  /-- One is still to be sent. -/
  unfinished : pass.sent.length < 8
  /-- The value is one the save has had. -/
  held : value ∈ pass.held

/-- The pass of the loop is current, and every ended one was a snapshot. -/
structure UploadLoop.Sound (value : SaveValue cap) (loop : UploadLoop cap) : Prop where
  /-- The pass it is in. -/
  running : ∀ pass ∈ loop.pass, pass.Running value
  /-- The ended ones. -/
  ended : ∀ pass ∈ loop.ended, pass.Snapshot

/-- A write that keeps what was sent keeps all bytes up to the end of the last
chunk sent. -/
theorem byteAt_of_keepsSent {k : ℕ} {bytes after : Buffer cap} {sent : List SaveDataChunk}
    {src : Buffer k} {off n : ℕ} (hcopy : memcpy bytes off src 0 n = some after)
    (hkeep : KeepsSent bytes sent src off n) :
    ∀ j < sSaveDataChunkSize * sent.length, byteAt after j = byteAt bytes j := by
  intro j hj
  by_cases hin : off ≤ j ∧ j < off + n
  · have hnew := memcpy_inside hcopy (j - off) (by omega)
    have hold := hkeep (j - off) (by omega)
    have hat : off + (j - off) = j := by omega
    rw [hat] at hnew hold
    rw [hnew, hold]
  · exact memcpy_outside hcopy (by omega)

/-- A chunk other than the last depends on its own bytes only. -/
theorem chunkPart_congr {value next : SaveValue cap} {i : ℕ} (hi : i < 7)
    (h : ∀ j < sSaveDataChunkSize * (i + 1), byteAt next.bytes j = byteAt value.bytes j) :
    chunkPart next i = chunkPart value i := by
  have hlt : i < 8 := by omega
  have hne : (⟨i, hlt⟩ : Fin 8) ≠ 7 := by
    rw [ne_eq, Fin.ext_iff]
    dsimp only
    omega
  have hsize : chunkSize next.size ⟨i, hlt⟩ = chunkSize value.size ⟨i, hlt⟩ := by
    rw [chunkSize, chunkSize, if_neg hne, if_neg hne]
  have hcopy : memcpy (Buffer.zero sSaveDataChunkSize) 0 next.bytes (sSaveDataChunkSize * i)
      (chunkSize value.size ⟨i, hlt⟩).toNat =
        memcpy (Buffer.zero sSaveDataChunkSize) 0 value.bytes (sSaveDataChunkSize * i)
          (chunkSize value.size ⟨i, hlt⟩).toNat := by
    apply memcpy_congr
    intro j hj
    rw [chunkSize_of_ne_last _ hne] at hj
    exact h _ (by rw [Nat.mul_succ]; omega)
  simp only [chunkPart, dif_pos hlt, uploadChunk, hsize, hcopy]

/-- A built chunk carries its slice of the save. -/
theorem chunkPart_slice {value : SaveValue cap} {i : ℕ} {chunk : SaveDataChunk}
    (hexact : LastChunkExact value.size) (hcap : value.size ≤ cap)
    (h : chunkPart value i = some chunk) :
    chunk.chunkIndex = i ∧ payload chunk = slice value.content sSaveDataChunkSize i := by
  unfold chunkPart at h
  split at h
  · rename_i hi
    obtain ⟨hindex, hsize, hfits, hbytes⟩ := uploadChunk_spec h
    refine ⟨hindex, ?_⟩
    have hlow := hexact.1
    have hlength : value.content.length = value.size := length_firstBytes value.bytes hcap
    by_cases hlast : (⟨i, hi⟩ : Fin 8) = 7
    · have hi7 : i = 7 := congrArg Fin.val hlast
      have hrest : chunk.size.toNat = value.size - sSaveDataChunkSize * 7 := by
        rw [hsize, hlast, chunkSize_last_of_le hexact.1 hexact.2]
      have hinside : sSaveDataChunkSize * i + chunk.size.toNat ≤ value.size := by
        rw [hi7]
        omega
      have hpayload := firstBytes_eq_range hbytes hfits hinside hcap
      -- what is left of the save is shorter than a slice
      have hleft : (value.content.drop (sSaveDataChunkSize * i)).length = chunk.size.toNat := by
        rw [List.length_drop, hlength, hrest, hi7]
      rw [payload, hpayload, slice]
      have htake : (value.content.drop (sSaveDataChunkSize * i)).take chunk.size.toNat =
          (value.content.drop (sSaveDataChunkSize * i)).take sSaveDataChunkSize := by
        rw [List.take_of_length_le (by omega), List.take_of_length_le (by omega)]
      exact htake
    · have hi7 : i ≠ 7 := fun he => hlast (Fin.ext he)
      have hfull : chunk.size.toNat = sSaveDataChunkSize := by
        rw [hsize, chunkSize_of_ne_last _ hlast]
      rw [hfull] at hbytes
      have hinside : sSaveDataChunkSize * i + sSaveDataChunkSize ≤ value.size := by
        have hmul : sSaveDataChunkSize * i + sSaveDataChunkSize ≤ sSaveDataChunkSize * 7 := by
          rw [← Nat.mul_succ]
          exact Nat.mul_le_mul_left _ (by omega)
        omega
      rw [payload, hfull, firstBytes_eq_range hbytes le_rfl hinside hcap]
      rfl
  · cases h

/-- The last chunk of an exact size ends with the save. -/
theorem last_chunkPart_bounds {value : SaveValue cap} {chunk : SaveDataChunk}
    (hexact : LastChunkExact value.size) (h : chunkPart value 7 = some chunk) :
    value.size ≤ sSaveDataChunkSize * 8 ∧ value.size ≤ cap := by
  have hsome : (uploadChunk value.bytes value.size 7).isSome := Option.isSome_of_eq_some h
  have hbounds := uploadChunk_isSome_iff.mp hsome
  rw [chunkSize_last_of_le hexact.1 hexact.2] at hbounds
  have hlow := hexact.1
  have hseven : ((7 : Fin 8) : ℕ) = 7 := rfl
  rw [hseven] at hbounds
  constructor
  · rw [Nat.mul_succ]
    omega
  · omega

/-- Eight current chunks of a save with an exact last one are a snapshot. -/
theorem snapshotOf_of_current {value : SaveValue cap} {sent : List SaveDataChunk}
    (h : Current chunkPart value sent) (hlength : sent.length = 8)
    (hexact : LastChunkExact value.size) : SnapshotOf value.content sent := by
  have hbound : 7 < sent.length := by omega
  have hlast : sent[7]? = some sent[7] := List.getElem?_eq_getElem hbound
  obtain ⟨hhigh, hcap⟩ := last_chunkPart_bounds hexact (h 7 _ hlast)
  have hslices : sent.map payload = (List.range 8).map (slice value.content sSaveDataChunkSize) :=
    h.map_eq hlength fun _ _ _ hb => (chunkPart_slice hexact hcap hb).2
  refine ⟨?_, hslices, ?_⟩
  · exact h.map_eq hlength fun _ _ _ hb => (chunkPart_slice hexact hcap hb).1
  · rw [hslices]
    apply flatten_slices_of_length_le
    rw [SaveValue.content, length_firstBytes _ hcap]
    exact hhigh

/-- A pass that was just entered is running. -/
theorem Pass.running_enter (value : SaveValue cap) : (Pass.enter value).Running value :=
  ⟨current_nil value, Nat.zero_lt_succ 7, List.mem_singleton_self value⟩

/-- A write that keeps what was sent keeps the pass running on the new value. -/
theorem Pass.Running.observe {value next : SaveValue cap} {pass : Pass cap}
    (h : pass.Running value)
    (hbytes : ∀ j < sSaveDataChunkSize * pass.sent.length,
      byteAt next.bytes j = byteAt value.bytes j) : (pass.observe next).Running next := by
  have hunfinished := h.unfinished
  refine ⟨h.current.write fun i hi => ?_, h.unfinished, ?_⟩
  · refine chunkPart_congr (by omega) fun j hj => hbytes j ?_
    exact lt_of_lt_of_le hj (Nat.mul_le_mul_left _ hi)
  · exact List.mem_append_right _ (List.mem_singleton_self next)

/-- A turn of the loop goes on with the pass or ends it with a snapshot. -/
theorem Pass.Running.send {value : SaveValue cap} {pass next : Pass cap} (h : pass.Running value)
    (hexact : pass.sent.length = 7 → LastChunkExact value.size)
    (hsend : pass.send value = some next) :
    (next.sent.length < 8 → next.Running value) ∧ (8 ≤ next.sent.length → next.Snapshot) := by
  obtain ⟨chunk, hchunk, rfl⟩ := Option.map_eq_some_iff.mp hsend
  have hcurrent := h.current.take hchunk
  have hunfinished := h.unfinished
  have hlength : (pass.sent ++ [chunk]).length = pass.sent.length + 1 := by
    rw [List.length_append, List.length_singleton]
  constructor
  · intro hlt
    exact ⟨hcurrent, hlt, h.held⟩
  · intro hle
    dsimp only at hle
    have hseven : pass.sent.length = 7 := by omega
    have height : (pass.sent ++ [chunk]).length = 8 := by omega
    exact ⟨value, h.held, snapshotOf_of_current hcurrent height (hexact hseven)⟩

/-- A loop that has not run is sound. -/
theorem UploadLoop.sound_waiting (value : SaveValue cap) :
    (UploadLoop.waiting : UploadLoop cap).Sound value :=
  ⟨fun _ h => absurd h (Option.not_mem_none _), fun _ h => absurd h List.not_mem_nil⟩

/-- It stays sound when it begins a pass. -/
theorem UploadLoop.Sound.enter {value : SaveValue cap} {loop : UploadLoop cap}
    (h : loop.Sound value) : (loop.enter value).Sound value := by
  refine ⟨fun pass hpass => ?_, h.ended⟩
  rw [UploadLoop.enter, Option.mem_some] at hpass
  rw [← hpass]
  exact Pass.running_enter value

/-- It stays sound under writes that keep the bytes it has sent. -/
theorem UploadLoop.Sound.observe {value next : SaveValue cap} {loop : UploadLoop cap}
    (h : loop.Sound value) (hbytes : ∀ pass ∈ loop.pass,
      ∀ j < sSaveDataChunkSize * pass.sent.length, byteAt next.bytes j = byteAt value.bytes j) :
    (loop.observe next).Sound next := by
  refine ⟨fun pass hpass => ?_, h.ended⟩
  obtain ⟨before, hbefore, rfl⟩ := Option.map_eq_some_iff.mp hpass
  exact (h.running before hbefore).observe (hbytes before hbefore)

/-- It stays sound when it sends a chunk. -/
theorem UploadLoop.Sound.send {value : SaveValue cap} {loop next : UploadLoop cap}
    (h : loop.Sound value) (hexact : loop.EndsExact value.size)
    (hsend : loop.send value = some next) : next.Sound value := by
  obtain ⟨pass, hpass, hsend⟩ := Option.bind_eq_some_iff.mp hsend
  obtain ⟨after, hafter, rfl⟩ := Option.map_eq_some_iff.mp hsend
  obtain ⟨hrunning, hsnapshot⟩ := (h.running pass hpass).send (hexact pass hpass) hafter
  split
  · rename_i hlt
    refine ⟨fun other hother => ?_, h.ended⟩
    rw [Option.mem_some] at hother
    rw [← hother]
    exact hrunning hlt
  · rename_i hle
    refine ⟨fun other hother => absurd hother (Option.not_mem_none _), fun other hother => ?_⟩
    rcases List.mem_append.mp hother with hold | hnew
    · exact h.ended other hold
    · rw [List.mem_singleton.mp hnew]
      exact hsnapshot (by omega)

/-- The last chunk ends the pass of a loop. -/
theorem UploadLoop.send_last {value : SaveValue cap} {loop : UploadLoop cap} {pass : Pass cap}
    {chunk : SaveDataChunk} (hpass : loop.pass = some pass) (hseven : pass.sent.length = 7)
    (hchunk : chunkPart value 7 = some chunk) :
    loop.send value =
      some ⟨none, loop.ended ++ [{ pass with sent := pass.sent ++ [chunk] }]⟩ := by
  have hfull : ¬(pass.sent ++ [chunk]).length < 8 := by
    rw [List.length_append, List.length_singleton]
    omega
  simp only [UploadLoop.send, Pass.send, hpass, Option.bind_some, hseven, hchunk, Option.map_some,
    if_neg hfull]

/-- The byte of a save that a chunk of its snapshot carries. -/
theorem SnapshotOf.byte {save : List UInt8} {sent : List SaveDataChunk} (h : SnapshotOf save sent)
    {i j : ℕ} {chunk : SaveDataChunk} (hchunk : sent[i]? = some chunk)
    (hj : j < chunk.size.toNat) (hsize : chunk.size.toNat ≤ sSaveDataChunkSize) :
    save[sSaveDataChunkSize * i + j]? = byteAt chunk.data j := by
  have hi : i < 8 := by
    have hlt := (List.getElem?_eq_some_iff.mp hchunk).1
    have hlen := congrArg List.length h.indices
    rw [List.length_map, List.length_map, List.length_range] at hlen
    omega
  have hslice := congrArg (fun l => l[i]?) h.slices
  simp only [List.getElem?_map, hchunk, List.getElem?_range hi, Option.map_some,
    Option.some.injEq] at hslice
  have hbyte := getElem?_firstBytes chunk.data hsize hj
  rw [← payload, hslice, slice, List.getElem?_take_of_lt (by omega), List.getElem?_drop] at hbyte
  exact hbyte

/-- Each value the save had differs from some chunk in the first byte of its
slice. -/
def Pass.Torn (pass : Pass cap) : Prop :=
  ∀ value ∈ pass.held, value.size ≤ cap ∧ ∃ i ∈ List.range 8, ∃ chunk ∈ pass.sent[i]?,
    0 < chunk.size.toNat ∧ chunk.size.toNat ≤ sSaveDataChunkSize ∧
      sSaveDataChunkSize * i < value.size ∧
        byteAt value.bytes (sSaveDataChunkSize * i) ≠ byteAt chunk.data 0

instance (pass : Pass cap) : Decidable pass.Torn :=
  inferInstanceAs (Decidable (∀ value ∈ pass.held, _ ∧ ∃ i ∈ List.range 8, ∃ chunk ∈ pass.sent[i]?, _))

/-- The chunks of such a pass are no snapshot. -/
theorem Pass.not_snapshot_of_torn {pass : Pass cap} (h : pass.Torn) : ¬pass.Snapshot := by
  intro hsnapshot
  obtain ⟨value, hheld, hslices⟩ := hsnapshot
  obtain ⟨hcap, i, -, chunk, hchunk, hpos, hsize, hinside, hne⟩ := h value hheld
  have hbyte := hslices.byte hchunk hpos hsize
  rw [Nat.add_zero, SaveValue.content, getElem?_firstBytes _ hcap hinside] at hbyte
  exact hne hbyte

end BfMultiplayer.SavePasses

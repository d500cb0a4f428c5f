import BfMultiplayer.PacketCodec

/-!
# Which bytes the decoders read

A `DataPacket` compares the length before it copies. An `ArrayPacket` reads the
number of its entries and the entries without a look at the length, and a
`ToS_Log` looks for a terminator as far as it has to. They stay inside of the
received bytes exactly when these hold the number and the entries it announces,
or a terminator behind the first byte.
-/

namespace BfMultiplayer.DecoderBounds

open ByteBuffer CLayout Channels PacketCodec

/-- The number of entries that received bytes announce. -/
def claimedEntries (data : List UInt8) : ℕ := ofLittleEndian (data.take 4)

/-- The decoder of a class rejects the bytes or inspects received ones only. -/
def InspectsReceived (vtable : VTables) (fresh : Fresh) (T : ChannelType) (data : List UInt8) :
    Prop :=
  readPacket vtable fresh T data ≠ .error .outside

/-- The condition on the received bytes. -/
def HoldsWhatIsRead (T : ChannelType) (data : List UInt8) : Prop :=
  match family T with
  | .data _ => True
  | .log => ∃ i, 1 ≤ i ∧ data[i]? = some 0
  | .array entry maxSize => 4 ≤ data.length ∧
    (maxSize < claimedEntries data ∨ 4 + entry.size * claimedEntries data ≤ data.length)

/-- The object of a class is at least as large as its base. -/
theorem sizeofDataPacket_le (T : ChannelType) : sizeofDataPacket ≤ sizeofClass T := by
  have hbase : sizeofDataPacket = pointer.size := rfl
  rw [hbase, sizeofClass]
  split
  · exact size_le_struct pointer _
  · exact size_le_struct pointer _
  · exact size_le_struct pointer _

/-- A base and a payload make an object. -/
theorem sizeofDataPacket_add_getSize (T : ChannelType) :
    sizeofDataPacket + getSize T = sizeofClass T := by
  have hbase := sizeofDataPacket_le T
  unfold getSize
  omega

/-- `strlen` finds a terminator exactly when there is one. -/
theorem strlen_eq_none_iff (bytes : List UInt8) : strlen bytes = none ↔ 0 ∉ bytes := by
  induction bytes with
  | nil => exact iff_of_true rfl List.not_mem_nil
  | cons byte bytes ih =>
    rw [strlen, List.mem_cons, not_or]
    by_cases hbyte : byte = 0
    · rw [if_pos hbyte]
      exact iff_of_false (fun h => nomatch h) fun h => h.1 hbyte.symm
    · rw [if_neg hbyte, Option.map_eq_none_iff, ih]
      exact (and_iff_right fun h => hbyte h.symm).symm

/-- A terminator that is found is among the bytes. -/
theorem strlen_lt {bytes : List UInt8} {n : ℕ} (h : strlen bytes = some n) : n < bytes.length := by
  induction bytes generalizing n with
  | nil => cases h
  | cons byte bytes ih =>
    rw [strlen] at h
    split at h
    · cases h
      exact Nat.succ_pos _
    · obtain ⟨m, hm, rfl⟩ := Option.map_eq_some_iff.mp h
      rw [List.length_cons]
      exact Nat.succ_lt_succ (ih hm)

/-- A terminator behind the first byte is one at a positive index. -/
theorem zero_mem_drop_one_iff (data : List UInt8) :
    0 ∈ data.drop 1 ↔ ∃ i, 1 ≤ i ∧ data[i]? = some 0 := by
  rw [List.mem_iff_getElem?]
  constructor
  · rintro ⟨i, hi⟩
    rw [List.getElem?_drop] at hi
    exact ⟨1 + i, by omega, hi⟩
  · rintro ⟨i, hpos, hi⟩
    refine ⟨i - 1, ?_⟩
    have hindex : 1 + (i - 1) = i := by omega
    rw [List.getElem?_drop, hindex]
    exact hi

/-- `DataPacket::read` compares the length first. -/
theorem readData_inside (T : ChannelType) (memory : Buffer (sizeofClass T)) (data : List UInt8) :
    readData T memory data ≠ .error .outside := by
  unfold readData
  split
  · exact fun h => nomatch h
  · rename_i hlen
    split
    · have hobject := sizeofDataPacket_add_getSize T
      rw [memcpy_eq_some (by omega) (by omega)]
      exact fun h => nomatch h
    · exact fun h => nomatch h

/-- `ToS_Log::read` needs a terminator behind the first byte. -/
theorem readLog_inside_iff (vptr : Pointer) (data : List UInt8) :
    readLog vptr data ≠ .error .outside ↔ 0 ∈ data.drop 1 := by
  unfold readLog
  dsimp only
  cases hlen : strlen (data.drop 1) with
  | none =>
    have hnone := (strlen_eq_none_iff _).mp hlen
    exact iff_of_false (fun h => h rfl) hnone
  | some strLen =>
    have hzero : 0 ∈ data.drop 1 := by
      by_contra hnone
      rw [(strlen_eq_none_iff _).mpr hnone] at hlen
      cases hlen
    cases data with
    | nil => exact absurd hzero List.not_mem_nil
    | cons logType charData =>
      refine iff_of_true (fun h => ?_) hzero
      cases h

/-- `ArrayPacket::read` needs the number of entries, and the entries it announces unless it
rejects their number. -/
theorem readArray_inside_iff (T : ChannelType) (vptr : Pointer) (data : List UInt8) :
    readArray T vptr data ≠ .error .outside ↔
      4 ≤ data.length ∧ (maxSize T < claimedEntries data ∨
        4 + sizeofEntry T * claimedEntries data ≤ data.length) := by
  unfold readArray
  dsimp only
  by_cases hnumber : data.length < 4
  · rw [if_pos hnumber]
    exact iff_of_false (fun h => h rfl) (by omega)
  · rw [if_neg hnumber, claimedEntries]
    by_cases hmany : maxSize T < ofLittleEndian (data.take 4)
    · rw [if_pos hmany]
      exact iff_of_true (fun h => nomatch h) ⟨by omega, Or.inl hmany⟩
    · rw [if_neg hmany]
      by_cases hfits : 4 + sizeofEntry T * ofLittleEndian (data.take 4) ≤ data.length
      · rw [memcpy_eq_some (by omega) hfits]
        exact iff_of_true (fun h => nomatch h) ⟨by omega, Or.inr hfits⟩
      · rw [memcpy, if_neg fun h => hfits h.2]
        exact iff_of_false (fun h => h rfl) (by omega)

/-- A decoder takes one of its abort branches. -/
def aborts : Except ReadError Decoded → Bool
  | .error (.wrongPacketSize _ _) => true
  | .error (.tooManyEntries _) => true
  | _ => false

/-- The bytes that the decoder of a class rejects. -/
def Rejects (T : ChannelType) (data : List UInt8) : Prop :=
  match family T with
  | .data _ => data.length ≠ getSize T
  | .log => False
  | .array _ maxSize => 4 ≤ data.length ∧ maxSize < claimedEntries data

/-- `DataPacket::read` rejects every other length than that of the payload. -/
theorem readData_aborts_iff (T : ChannelType) (memory : Buffer (sizeofClass T))
    (data : List UInt8) : aborts (readData T memory data) = true ↔ data.length ≠ getSize T := by
  have hobject := sizeofDataPacket_add_getSize T
  unfold readData
  by_cases hlength : data.length = getSize T
  · rw [if_neg fun h => h hlength, memcpy_eq_some (by omega) (by omega)]
    refine iff_of_false ?_ fun h => h hlength
    split <;> exact Bool.false_ne_true
  · rw [if_pos hlength]
    exact iff_of_true rfl hlength

/-- `ToS_Log::read` rejects nothing. -/
theorem readLog_aborts (vptr : Pointer) (data : List UInt8) :
    aborts (readLog vptr data) = false := by
  unfold readLog
  dsimp only
  split <;> rfl

/-- `ArrayPacket::read` rejects too many entries. -/
theorem readArray_aborts_iff (T : ChannelType) (vptr : Pointer) (data : List UInt8) :
    aborts (readArray T vptr data) = true ↔
      4 ≤ data.length ∧ maxSize T < claimedEntries data := by
  unfold readArray
  dsimp only
  rw [claimedEntries]
  by_cases hnumber : data.length < 4
  · rw [if_pos hnumber]
    exact iff_of_false Bool.false_ne_true (by omega)
  · rw [if_neg hnumber]
    by_cases hmany : maxSize T < ofLittleEndian (data.take 4)
    · rw [if_pos hmany]
      exact iff_of_true rfl ⟨by omega, hmany⟩
    · rw [if_neg hmany]
      refine iff_of_false ?_ fun h => hmany h.2
      split <;> exact Bool.false_ne_true

/-- A decoder aborts exactly for the bytes that it rejects. -/
theorem readPacket_aborts_iff (vtable : VTables) (fresh : Fresh) (T : ChannelType)
    (data : List UInt8) :
    aborts (readPacket vtable fresh T data) = true ↔ Rejects T data := by
  rw [Rejects, readPacket, construct]
  cases hfamily : family T with
  | data members => exact readData_aborts_iff T _ data
  | log =>
    have hread := readLog_aborts (vtable T) data
    exact iff_of_false (Bool.eq_false_iff.mp hread) id
  | array entry maxSize =>
    have hread := readArray_aborts_iff T (vtable T) data
    rw [PacketCodec.maxSize, hfamily] at hread
    exact hread

/-- A decoder stays inside of the received bytes exactly when they hold what it reads: always
for a `DataPacket`, with the number of entries and the entries unless they are too many for
an `ArrayPacket`, with a terminator behind the first byte for a `ToS_Log`. -/
theorem inspects_received_iff (vtable : VTables) (fresh : Fresh) (T : ChannelType)
    (data : List UInt8) :
    InspectsReceived vtable fresh T data ↔ HoldsWhatIsRead T data := by
  rw [InspectsReceived, HoldsWhatIsRead, readPacket, construct]
  cases hfamily : family T with
  | data members => exact iff_of_true (readData_inside T _ data) trivial
  | log => exact (readLog_inside_iff _ data).trans (zero_mem_drop_one_iff data)
  | array entry maxSize =>
    have hread := readArray_inside_iff T (vtable T) data
    rw [PacketCodec.maxSize, sizeofEntry, hfamily] at hread
    exact hread

/-- Four bytes announce an entry that was not received, and the text of a log packet goes on
behind the last byte. -/
theorem truncated_packets_are_read_outside :
    ¬InspectsReceived (fun _ => Buffer.zero 8) (fun _ => Buffer.zero _) .ToC_PlayerList
        [1, 0, 0, 0] ∧
      ¬InspectsReceived (fun _ => Buffer.zero 8) (fun _ => Buffer.zero _) .ToS_Log [0, 65] :=
  ⟨fun h => h rfl, fun h => h rfl⟩

end BfMultiplayer.DecoderBounds

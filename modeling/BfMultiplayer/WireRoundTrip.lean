import BfMultiplayer.DecoderBounds

/-!
# The round trip of a packet over the wire

A packet is built into a buffer, sent over the channel that its virtual table
identifies, and read by the creator of that channel. For the classes with a
fixed payload and for the arrays the packet that is read has the bytes of the
one that was built.
-/

namespace BfMultiplayer.WireRoundTrip

open ByteBuffer CLayout Channels PacketCodec DecoderBounds

/-- The values of a packet class. An array has its entries, at most `MaxSize` of them. -/
inductive ValueOf (vtable : VTables) : ChannelType → IPacket → Prop
  /-- An object of a `DataPacket` class. -/
  | data (T : ChannelType) (members : List Layout) (memory : Buffer (sizeofClass T))
    (hfamily : family T = .data members) (hvptr : (IPacket.data T memory).vptr = vtable T) :
    ValueOf vtable T (.data T memory)
  /-- A log packet. -/
  | log (T : ChannelType) (packet : ToS_Log) (hfamily : family T = .log) :
    ValueOf vtable T (.log (vtable T) packet)
  /-- An array packet around an array of entries. -/
  | array (T : ChannelType) (entry : Layout) (maxSize : ℕ) (numEntries : UInt32)
    (entries : List UInt8) (hfamily : family T = .array entry maxSize)
    (hcount : numEntries.toNat ≤ maxSize)
    (hlength : entries.length = entry.size * numEntries.toNat) :
    ValueOf vtable T (.array T (vtable T) ⟨numEntries, some entries⟩)

/-- `build` writes the given bytes to the begin of the array, which has to hold them, and
leaves all other bytes. -/
def WritesExactly (packet : IPacket) (bytes : List UInt8) : Prop :=
  ∀ (cap : ℕ) (outData : Buffer cap),
    (bytes.length ≤ cap → ∃ built, build packet outData = some built ∧
      firstBytes built bytes.length = bytes ∧
      ∀ i, bytes.length ≤ i → byteAt built i = byteAt outData i) ∧
    (cap < bytes.length → build packet outData = none)

/-- Two packets agree in every byte of the payload and in the number of entries. -/
def SamePayload : IPacket → IPacket → Prop
  | .data T memory, .data T' memory' => T = T' ∧
    SameBytes memory sizeofDataPacket memory' sizeofDataPacket (getSize T)
  | .array T _ packet, .array T' _ packet' => T = T' ∧ packet = packet'
  | _, _ => False

/-- The class of a channel number is read back from its bytes on the wire. -/
def RoundTrips (vtable : VTables) (fresh : Fresh) (T : ChannelType) (packet : IPacket) : Prop :=
  ∃ bytes, WritesExactly packet bytes ∧ calcSize packet = some bytes.length ∧
    ∃ i, identifyType vtable packet = some i ∧
      ∃ create, (createFuncs vtable fresh)[i]? = some create ∧
        ∃ decoded, create bytes = .ok decoded ∧ decoded.overrun = 0 ∧
          ValueOf vtable T decoded.packet ∧ SamePayload packet decoded.packet

/-- The payload of an object. -/
def payload (T : ChannelType) (memory : Buffer (sizeofClass T)) : List UInt8 :=
  ((firstBytes memory (sizeofClass T)).drop sizeofDataPacket).take (getSize T)

/-- Every class is in the channel table. -/
theorem mem_penetChannels (T : ChannelType) : T ∈ penetChannels := by
  cases T <;> decide

/-- In a table of different pointers, an entry is found at the number of its class. -/
theorem findIdx?_table {vtable : VTables} (hdistinct : Function.Injective vtable)
    {T : ChannelType} {classes : List ChannelType} (hmem : T ∈ classes) :
    (classes.map vtable).findIdx? (fun entry => decide (vtable T = entry)) =
      some (classes.idxOf T) := by
  induction classes with
  | nil => exact absurd hmem List.not_mem_nil
  | cons other classes ih =>
    rw [List.map_cons, List.findIdx?_cons]
    by_cases hother : other = T
    · rw [hother, decide_eq_true rfl, if_pos rfl, List.idxOf_cons_self]
    · have hne : vtable T ≠ vtable other := fun h => hother (hdistinct h).symm
      have hrest := ih ((List.mem_cons.mp hmem).resolve_left fun h => hother h.symm)
      rw [decide_eq_false hne, if_neg Bool.false_ne_true, hrest, List.idxOf_cons_ne _ hother]
      rfl

/-- A value carries the virtual table of its class. -/
theorem ValueOf.vptr_eq {vtable : VTables} {T : ChannelType} {packet : IPacket}
    (h : ValueOf vtable T packet) : packet.vptr = vtable T := by
  cases h with
  | data members memory hfamily hvptr => exact hvptr
  | log packet hfamily => rfl
  | array entry maxSize numEntries entries hfamily hcount hlength => rfl

/-- A value is sent over the channel of its class, whose creator reads that class. -/
theorem ValueOf.channel {vtable : VTables} (hdistinct : Function.Injective vtable) (fresh : Fresh)
    {T : ChannelType} {packet : IPacket} (h : ValueOf vtable T packet) :
    ∃ i, identifyType vtable packet = some i ∧
      (createFuncs vtable fresh)[i]? = some (readPacket vtable fresh T) := by
  have hmem := mem_penetChannels T
  have hfound := findIdx?_table hdistinct hmem
  refine ⟨penetChannels.idxOf T, ?_, ?_⟩
  · rw [identifyType, h.vptr_eq, vtables]
    exact hfound
  · rw [createFuncs, List.getElem?_map, List.getElem?_idxOf hmem]
    rfl

/-- The payload of an object has its size. -/
theorem length_payload (T : ChannelType) (memory : Buffer (sizeofClass T)) :
    (payload T memory).length = getSize T := by
  have hobject := sizeofDataPacket_add_getSize T
  rw [payload, List.length_take, List.length_drop, length_firstBytes memory (Nat.le_refl _)]
  omega

/-- A byte of the payload lies behind the base of the object. -/
theorem getElem?_payload (T : ChannelType) (memory : Buffer (sizeofClass T)) {j : ℕ}
    (hj : j < getSize T) : (payload T memory)[j]? = byteAt memory (sizeofDataPacket + j) := by
  have hobject := sizeofDataPacket_add_getSize T
  rw [payload, List.getElem?_take_of_lt hj, List.getElem?_drop,
    getElem?_firstBytes memory (Nat.le_refl _) (by omega)]

/-- `DataPacket::build` is a copy of the payload, also of an empty one. -/
theorem build_data (T : ChannelType) (memory : Buffer (sizeofClass T)) {cap : ℕ}
    (outData : Buffer cap) :
    build (.data T memory) outData =
      memcpy outData 0 memory sizeofDataPacket (getSize T) := by
  by_cases hsize : getSize T = 0
  · simp only [build, hsize, ne_eq, not_true_eq_false, if_false]
    exact (memcpy_zero (Nat.zero_le cap) (sizeofDataPacket_le T)).symm
  · simp only [build, hsize, ne_eq, not_false_eq_true, if_true]

/-- `DataPacket::build` writes the payload. -/
theorem writesExactly_data (T : ChannelType) (memory : Buffer (sizeofClass T)) :
    WritesExactly (.data T memory) (payload T memory) := by
  intro cap outData
  have hobject := sizeofDataPacket_add_getSize T
  rw [length_payload, build_data]
  constructor
  · intro hcap
    obtain ⟨built, hcopy⟩ := exists_memcpy outData 0 memory sizeofDataPacket (getSize T)
      (by omega) (by omega)
    refine ⟨built, hcopy, ?_, fun i hi => memcpy_outside hcopy (by omega)⟩
    exact firstBytes_eq_range (memcpy_inside hcopy) hcap (by omega) (Nat.le_refl _)
  · intro hcap
    rw [memcpy, if_neg (by omega)]

/-- What is written into arrays of every size are bytes of one length. -/
theorem length_le_of_writesExactly {packet : IPacket} {bytes other : List UInt8}
    (h : WritesExactly packet bytes) (hother : WritesExactly packet other) :
    other.length ≤ bytes.length := by
  by_contra hlt
  obtain ⟨built, hbuilt, -⟩ := (h bytes.length (Buffer.zero _)).1 (Nat.le_refl _)
  rw [(hother bytes.length (Buffer.zero _)).2 (by omega)] at hbuilt
  cases hbuilt

/-- The bytes that a packet writes are determined. -/
theorem writesExactly_unique {packet : IPacket} {bytes other : List UInt8}
    (h : WritesExactly packet bytes) (hother : WritesExactly packet other) : bytes = other := by
  have hlength : bytes.length = other.length :=
    Nat.le_antisymm (length_le_of_writesExactly hother h) (length_le_of_writesExactly h hother)
  obtain ⟨built, hbuilt, hbytes, -⟩ := (h bytes.length (Buffer.zero _)).1 (Nat.le_refl _)
  obtain ⟨built', hbuilt', hother', -⟩ :=
    (hother bytes.length (Buffer.zero _)).1 (Nat.le_of_eq hlength.symm)
  rw [hbuilt, Option.some.injEq] at hbuilt'
  rw [← hlength, ← hbuilt', hbytes] at hother'
  exact hother'

/-- A new object carries the virtual table of its class. -/
theorem byteAt_setVptr {T : ChannelType} (memory : Buffer (sizeofClass T)) (vptr : Pointer) :
    SameBytes (setVptr memory vptr) 0 vptr 0 8 := by
  have hbase := sizeofDataPacket_le T
  have hpointer : sizeofDataPacket = 8 := rfl
  have hcopy : memcpy memory 0 vptr 0 8 = some (setVptr memory vptr) :=
    memcpy_eq_some (by omega) (by omega)
  exact memcpy_inside hcopy

/-- `DataPacket::read` of as many bytes as the payload has is a copy behind the base. -/
theorem readData_of_length {T : ChannelType} (memory : Buffer (sizeofClass T)) {data : List UInt8}
    (hlength : data.length = getSize T) :
    ∃ decoded, memcpy memory sizeofDataPacket (ofBytes data) 0 (getSize T) = some decoded ∧
      readData T memory data = .ok ⟨.data T decoded, 0⟩ := by
  have hobject := sizeofDataPacket_add_getSize T
  obtain ⟨decoded, hcopy⟩ := exists_memcpy memory sizeofDataPacket (ofBytes data) 0 (getSize T)
    (by omega) (by omega)
  refine ⟨decoded, hcopy, ?_⟩
  rw [readData, if_neg fun h => h hlength]
  by_cases hsize : getSize T = 0
  · have hnothing : memcpy memory sizeofDataPacket (ofBytes data) 0 0 = some memory :=
      memcpy_zero (sizeofDataPacket_le T) (Nat.zero_le _)
    rw [hsize, hnothing, Option.some.injEq] at hcopy
    rw [if_neg fun h => h hsize, hcopy]
  · rw [if_pos hsize, hcopy]

/-- `DataPacket::read` of the payload of an object gives an object with that payload. -/
theorem readPacket_payload (vtable : VTables) (fresh : Fresh) {T : ChannelType}
    {members : List Layout} (hfamily : family T = .data members)
    (memory : Buffer (sizeofClass T)) :
    ∃ decoded, readPacket vtable fresh T (payload T memory) = .ok ⟨.data T decoded, 0⟩ ∧
      (IPacket.data T decoded).vptr = vtable T ∧
      SameBytes memory sizeofDataPacket decoded sizeofDataPacket (getSize T) := by
  obtain ⟨decoded, hcopy, hread⟩ := readData_of_length (setVptr (fresh T) (vtable T))
    (length_payload T memory)
  have hpointer : sizeofDataPacket = 8 := rfl
  have hbase := sizeofDataPacket_le T
  refine ⟨decoded, ?_, ?_, ?_⟩
  · rw [readPacket, construct, hfamily]
    exact hread
  · funext i
    have hbefore : i.val < sizeofDataPacket ∨ sizeofDataPacket + getSize T ≤ i.val := by omega
    have hkept := memcpy_outside hcopy hbefore
    have hset := byteAt_setVptr (fresh T) (vtable T) i.val i.isLt
    have hentry : byteAt (vtable T) i.val = some (vtable T i) := dif_pos i.isLt
    rw [Nat.zero_add, hentry] at hset
    have hword : (byteAt decoded i.val).getD 0 = vtable T i := by
      rw [hkept, hset, Option.getD_some]
    exact hword
  · intro j hj
    have hinside := memcpy_inside hcopy j hj
    rw [Nat.zero_add, byteAt_ofBytes, getElem?_payload T memory hj] at hinside
    exact hinside.symm

/-- `ArrayPacket::build` writes the number of entries and the entries. -/
theorem writesExactly_array {T : ChannelType} {vptr : Pointer} {numEntries : UInt32}
    {entries : List UInt8} (hlength : entries.length = sizeofEntry T * numEntries.toNat) :
    WritesExactly (.array T vptr ⟨numEntries, some entries⟩)
      (littleEndian 4 numEntries.toNat ++ entries) := by
  intro cap outData
  have hcount := length_littleEndian 4 numEntries.toNat
  have htotal : (littleEndian 4 numEntries.toNat ++ entries).length = 4 + entries.length := by
    rw [List.length_append, hcount]
  have hbuild : build (.array T vptr ⟨numEntries, some entries⟩) outData =
      (memcpy outData 0 (ofBytes (littleEndian 4 numEntries.toNat)) 0 4).bind fun outData =>
        memcpy outData 4 (ofBytes entries) 0 (sizeofEntry T * numEntries.toNat) := rfl
  rw [htotal, hbuild]
  constructor
  · intro hcap
    obtain ⟨numbered, hnumber⟩ := exists_memcpy outData 0
      (ofBytes (littleEndian 4 numEntries.toNat)) 0 4 (by omega) (by omega)
    obtain ⟨built, hentries⟩ := exists_memcpy numbered 4 (ofBytes entries) 0
      (sizeofEntry T * numEntries.toNat) (by omega) (by omega)
    refine ⟨built, ?_, ?_, ?_⟩
    · rw [hnumber]
      exact hentries
    · rw [← htotal]
      refine firstBytes_eq_of_byteAt (by omega) fun j hj => ?_
      by_cases hfirst : j < 4
      · have hkept := memcpy_outside hentries (Or.inl hfirst)
        have hput := memcpy_inside hnumber j hfirst
        rw [Nat.zero_add, byteAt_ofBytes] at hput
        rw [hkept, hput, List.getElem?_append_left (by omega)]
      · have hput := memcpy_inside hentries (j - 4) (by omega)
        have hindex : 4 + (j - 4) = j := by omega
        rw [hindex, Nat.zero_add, byteAt_ofBytes] at hput
        rw [hput, List.getElem?_append_right (by omega), hcount]
    · intro i hi
      rw [memcpy_outside hentries (by omega), memcpy_outside hnumber (by omega)]
  · intro hcap
    by_cases hroom : 4 ≤ cap
    · obtain ⟨numbered, hnumber⟩ := exists_memcpy outData 0
        (ofBytes (littleEndian 4 numEntries.toNat)) 0 4 (by omega) (by omega)
      rw [hnumber, Option.bind_some, memcpy, if_neg (by omega)]
    · rw [memcpy, if_neg (by omega)]
      rfl

/-- `ArrayPacket::read` of the bytes of an array gives that array. -/
theorem readArray_built {T : ChannelType} (vptr : Pointer) {numEntries : UInt32}
    {entries : List UInt8} (hcount : numEntries.toNat ≤ maxSize T)
    (hlength : entries.length = sizeofEntry T * numEntries.toNat) :
    readArray T vptr (littleEndian 4 numEntries.toNat ++ entries) =
      .ok ⟨.array T vptr ⟨numEntries, some entries⟩, 0⟩ := by
  have hwidth := length_littleEndian 4 numEntries.toNat
  have hlt := numEntries.toNat_lt
  have hnumber : ofLittleEndian
      ((littleEndian 4 numEntries.toNat ++ entries).take 4) = numEntries.toNat := by
    rw [List.take_append_of_le_length (by omega), List.take_of_length_le (by omega),
      ofLittleEndian_littleEndian (by omega)]
  have htotal : (littleEndian 4 numEntries.toNat ++ entries).length = 4 + entries.length := by
    rw [List.length_append, hwidth]
  rw [readArray, if_neg (by omega)]
  dsimp only
  rw [hnumber, if_neg (by omega)]
  obtain ⟨copied, hcopy⟩ := exists_memcpy (Buffer.zero (sizeofEntry T * numEntries.toNat)) 0
    (ofBytes (littleEndian 4 numEntries.toNat ++ entries)) 4 (sizeofEntry T * numEntries.toNat)
    (by omega) (by omega)
  have hentries : firstBytes copied (sizeofEntry T * numEntries.toNat) = entries := by
    have hbytes : firstBytes copied entries.length = entries := by
      refine firstBytes_eq_of_byteAt (by omega) fun j hj => ?_
      have hput := memcpy_inside hcopy j (by omega)
      rw [Nat.zero_add, byteAt_ofBytes, List.getElem?_append_right (by omega), hwidth,
        Nat.add_sub_cancel_left] at hput
      exact hput
    rwa [hlength] at hbytes
  rw [hcopy]
  dsimp only
  rw [hentries, UInt32.ofNat_toNat]

/-- Every packet but a log packet is read back from the bytes that it writes, by the creator
of the channel that it is sent over. -/
theorem wire_round_trips (vtable : VTables) (hdistinct : Function.Injective vtable)
    (fresh : Fresh) (T : ChannelType) (hlog : T ≠ .ToS_Log) (packet : IPacket)
    (hvalue : ValueOf vtable T packet) : RoundTrips vtable fresh T packet := by
  obtain ⟨i, hidentified, hcreate⟩ := hvalue.channel hdistinct fresh
  cases hvalue with
  | data members memory hfamily hvptr =>
    obtain ⟨decoded, hread, hdecoded, hsame⟩ := readPacket_payload vtable fresh hfamily memory
    have hsize : calcSize (.data T memory) = some (payload T memory).length := by
      rw [length_payload]
      rfl
    exact ⟨payload T memory, writesExactly_data T memory, hsize, i, hidentified, _, hcreate, _,
      hread, rfl, .data T members decoded hfamily hdecoded, rfl, hsame⟩
  | log packet hfamily =>
    refine absurd hfamily ?_
    cases T with
    | ToS_Log => exact absurd rfl hlog
    | _ => exact fun h => nomatch h
  | array entry maxSize numEntries entries hfamily hcount hlength =>
    have hentry : sizeofEntry T = entry.size := by rw [sizeofEntry, hfamily]
    have hmax : PacketCodec.maxSize T = maxSize := by rw [PacketCodec.maxSize, hfamily]
    rw [← hentry] at hlength
    have hread : readPacket vtable fresh T (littleEndian 4 numEntries.toNat ++ entries) =
        .ok ⟨.array T (vtable T) ⟨numEntries, some entries⟩, 0⟩ := by
      rw [readPacket, construct, hfamily]
      exact readArray_built (vtable T) (by omega) hlength
    have hsize : calcSize (.array T (vtable T) ⟨numEntries, some entries⟩) =
        some (littleEndian 4 numEntries.toNat ++ entries).length := by
      rw [List.length_append, length_littleEndian, hlength]
      rfl
    exact ⟨_, writesExactly_array hlength, hsize, i, hidentified, _, hcreate, _, hread, rfl,
      .array T entry maxSize numEntries entries hfamily hcount (hentry ▸ hlength), rfl, rfl⟩

/-- A virtual table for each class, told apart by the first byte of its address. -/
def numberedTables : VTables := fun T i =>
  if i.val = 0 then UInt8.ofNat (penetChannels.idxOf T) else 0

/-- The numbered tables are different. -/
theorem numberedTables_injective : Function.Injective numberedTables := by
  intro T T' h
  have hbyte : UInt8.ofNat (penetChannels.idxOf T) = UInt8.ofNat (penetChannels.idxOf T') :=
    congrFun h 0
  have hlength : penetChannels.length = 25 := rfl
  have hlt := List.idxOf_lt_length_of_mem (mem_penetChannels T)
  have hlt' := List.idxOf_lt_length_of_mem (mem_penetChannels T')
  have hnat := congrArg UInt8.toNat hbyte
  rw [UInt8.toNat_ofNat', UInt8.toNat_ofNat'] at hnat
  have hindex : penetChannels.idxOf T = penetChannels.idxOf T' := by omega
  exact (List.idxOf_inj (mem_penetChannels T)).mp hindex

/-- A report of a shine whose bytes count up. -/
def countingReport : Buffer (sizeofClass .ToS_GoalItemInfo) :=
  setVptr (fun i => UInt8.ofNat i.val) (numberedTables .ToS_GoalItemInfo)

/-- A report of a shine and a list of one player make the round trip. -/
theorem wire_round_trips_two :
    RoundTrips numberedTables (fun _ => Buffer.zero _) .ToS_GoalItemInfo
        (.data .ToS_GoalItemInfo countingReport) ∧
      RoundTrips numberedTables (fun _ => Buffer.zero _) .ToC_PlayerList
        (.array .ToC_PlayerList (numberedTables .ToC_PlayerList)
          ⟨1, some (List.replicate 56 7)⟩) :=
  ⟨wire_round_trips numberedTables numberedTables_injective (fun _ => Buffer.zero _)
      .ToS_GoalItemInfo (by decide) (.data .ToS_GoalItemInfo countingReport)
      (.data .ToS_GoalItemInfo [scalar 4, scalar 4] countingReport rfl (by decide)),
    wire_round_trips numberedTables numberedTables_injective (fun _ => Buffer.zero _)
      .ToC_PlayerList (by decide) _
      (.array .ToC_PlayerList playerListDataEntry 32 1 (List.replicate 56 7) rfl (by decide)
        (by decide))⟩

end BfMultiplayer.WireRoundTrip

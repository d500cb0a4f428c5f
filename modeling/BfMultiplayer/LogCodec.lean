import BfMultiplayer.WireRoundTrip

/-!
# The codec of the log packet

A message of `n` characters has `n + 2` bytes on the wire, its type and its
terminator included. The reader allocates `n + 1` bytes for it and copies with
`strncpy`, whose count is the length of the packet: after the terminator it
fills up with zeros, so it writes one byte more than the block has.
-/

namespace BfMultiplayer.LogCodec

open ByteBuffer Packets PacketCodec WireRoundTrip

/-- A message: the characters of a C string. -/
structure Message where
  /-- The characters. -/
  text : CString
  /-- None of them is the terminator. -/
  nulFree : 0 ∉ text

/-- A byte that is written to an address. -/
structure Store where
  /-- The address. -/
  address : ℕ
  /-- The byte. -/
  byte : UInt8
  deriving DecidableEq

/-- The bytes of the memory, by their addresses. -/
abbrev Memory := ℕ → UInt8

/-- The memory after some stores. -/
def Memory.apply (memory : Memory) (stores : List Store) : Memory :=
  stores.foldl (fun memory store => Function.update memory store.address store.byte) memory

/-- Bytes written one after the other from an address on. -/
def storesFrom : ℕ → List UInt8 → List Store
  | _, [] => []
  | address, byte :: bytes => ⟨address, byte⟩ :: storesFrom (address + 1) bytes

/-- `strncpy`: the characters of the source, and behind its terminator zeros up to the count.
Undefined when the source ends before either. -/
def strncpy (dst : ℕ) : List UInt8 → ℕ → Option (List Store)
  | _, 0 => some []
  | [], _ + 1 => none
  | byte :: src, n + 1 =>
    if byte = 0 then some (storesFrom dst (List.replicate (n + 1) 0))
    else (strncpy (dst + 1) src n).map (⟨dst, byte⟩ :: ·)

/-- What `ToS_Log::read` leaves. -/
structure ReadLog where
  /-- `mData`. -/
  mData : ℕ
  /-- `mLogType`. -/
  mLogType : UInt8
  /-- How many bytes the block at `mData` has. -/
  allocated : ℕ
  /-- What it has written. -/
  stores : List Store

/-- `ToS_Log::read` of received bytes, with the block that `PENET_MALLOC` answers with;
undefined when it reads bytes that were not received. -/
def readLogInto (block : ℕ) (data : List UInt8) (len : ℕ) : Option ReadLog :=
  let charData := data.drop 1
  (strlen charData).bind fun strLen =>
    (strncpy block charData len).bind fun stores =>
      data.head?.map fun logType => ⟨block, logType, strLen + 1, stores⟩

/-- The memory holds a message with its terminator at an address. -/
def HoldsText (memory : Memory) (address : ℕ) (text : CString) : Prop :=
  ∀ i byte, (text ++ [0])[i]? = some byte → memory (address + i) = byte

/-- The bytes of a log packet on the wire. -/
def logBytes (message : Message) (logType : UInt8) : List UInt8 :=
  logType :: (message.text ++ [0])

/-- `build` writes exactly `calcSize` bytes, and `read` of these gives the message and the type
back, while it writes inside of its block only. -/
def CodecLaw (vptr : Pointer) (memory : Memory) (block : ℕ) (message : Message)
    (logType : UInt8) : Prop :=
  ∃ bytes, calcSize (.log vptr ⟨some message.text, logType⟩) = some bytes.length ∧
    WritesExactly (.log vptr ⟨some message.text, logType⟩) bytes ∧
    ∃ result, readLogInto block bytes bytes.length = some result ∧
      HoldsText (memory.apply result.stores) result.mData message.text ∧
      result.mLogType = logType ∧
      ∀ store ∈ result.stores,
        result.mData ≤ store.address ∧ store.address < result.mData + result.allocated

/-- `strlen` of a message that is followed by a terminator. -/
theorem strlen_append {text : CString} (h : 0 ∉ text) (rest : List UInt8) :
    strlen (text ++ 0 :: rest) = some text.length := by
  induction text with
  | nil => rfl
  | cons byte text ih =>
    rw [List.mem_cons, not_or] at h
    have hbyte : ¬byte = 0 := fun hzero => h.1 hzero.symm
    rw [List.cons_append, strlen, if_neg hbyte, ih h.2]
    rfl

/-- `strncpy` of a message that is followed by a terminator, up to a count behind it. -/
theorem strncpy_append {text : CString} (h : 0 ∉ text) (dst : ℕ) (rest : List UInt8) {n : ℕ}
    (hn : text.length ≤ n) : strncpy dst (text ++ 0 :: rest) n =
      some (storesFrom dst (text ++ List.replicate (n - text.length) 0)) := by
  induction text generalizing dst n with
  | nil =>
    cases n with
    | zero => rfl
    | succ n =>
      rw [List.nil_append, strncpy, if_pos rfl]
      rfl
  | cons byte text ih =>
    rw [List.mem_cons, not_or] at h
    have hbyte : ¬byte = 0 := fun hzero => h.1 hzero.symm
    cases n with
    | zero => cases hn
    | succ n =>
      rw [List.cons_append, strncpy, if_neg hbyte, ih h.2 (dst + 1) (Nat.le_of_succ_le_succ hn),
        List.length_cons, Nat.add_sub_add_right]
      rfl

/-- The memory outside of some stores stays. -/
theorem apply_storesFrom_of_lt (memory : Memory) (bytes : List UInt8) {address i : ℕ}
    (hi : i < address) : memory.apply (storesFrom address bytes) i = memory i := by
  induction bytes generalizing memory address with
  | nil => rfl
  | cons byte bytes ih =>
    have hbehind : i < address + 1 := Nat.lt_succ_of_lt hi
    have hrest := ih (Function.update memory address byte) hbehind
    rw [Function.update_of_ne (by omega)] at hrest
    exact hrest

/-- Behind some stores the memory holds their bytes. -/
theorem apply_storesFrom (memory : Memory) (address : ℕ) {bytes : List UInt8} {i : ℕ}
    {byte : UInt8} (h : bytes[i]? = some byte) :
    memory.apply (storesFrom address bytes) (address + i) = byte := by
  induction bytes generalizing memory address i with
  | nil => cases h
  | cons first bytes ih =>
    cases i with
    | zero =>
      rw [List.getElem?_cons_zero, Option.some.injEq] at h
      have hkept := apply_storesFrom_of_lt (Function.update memory address first) bytes
        (Nat.lt_succ_self address)
      rw [Function.update_self] at hkept
      rw [← h]
      exact hkept
    | succ i =>
      rw [List.getElem?_cons_succ] at h
      have hrest := ih (Function.update memory address first) (address + 1) h
      have hindex : address + 1 + i = address + (i + 1) := by omega
      rw [hindex] at hrest
      exact hrest

/-- There are as many stores as bytes. -/
theorem length_storesFrom (address : ℕ) (bytes : List UInt8) :
    (storesFrom address bytes).length = bytes.length := by
  induction bytes generalizing address with
  | nil => rfl
  | cons byte bytes ih => rw [storesFrom, List.length_cons, List.length_cons, ih]

/-- The last of some stores. -/
theorem mem_storesFrom_concat (address : ℕ) (bytes : List UInt8) (byte : UInt8) :
    ⟨address + bytes.length, byte⟩ ∈ storesFrom address (bytes ++ [byte]) := by
  induction bytes generalizing address with
  | nil => exact List.mem_cons_self
  | cons first bytes ih =>
    have hrest := ih (address + 1)
    have hindex : address + 1 + bytes.length = address + (bytes.length + 1) := by omega
    rw [hindex] at hrest
    exact List.mem_cons_of_mem _ hrest

/-- `read` of the bytes of a log packet: the characters of the message and two zeros, into a
block that has room for one. -/
theorem readLogInto_logBytes (block : ℕ) (message : Message) (logType : UInt8) :
    readLogInto block (logBytes message logType) (logBytes message logType).length =
      some ⟨block, logType, message.text.length + 1,
        storesFrom block ((message.text ++ [0]) ++ [0])⟩ := by
  have hlength : (logBytes message logType).length = message.text.length + 2 := by
    rw [logBytes, List.length_cons, List.length_append, List.length_singleton]
  have hchars : (logBytes message logType).drop 1 = message.text ++ 0 :: [] := rfl
  have hzeros : List.replicate (message.text.length + 2 - message.text.length) (0 : UInt8) =
      [0, 0] := by
    rw [Nat.add_sub_cancel_left]
    rfl
  have htwo : message.text ++ [0, 0] = (message.text ++ [0]) ++ [(0 : UInt8)] := by
    rw [List.append_assoc]
    rfl
  rw [readLogInto, hlength, hchars, strlen_append message.nulFree, Option.bind_some,
    strncpy_append message.nulFree block [] (Nat.le_add_right _ 2), Option.bind_some, hzeros, htwo]
  rfl

/-- `build` of a log packet writes its bytes. -/
theorem writesExactly_log (vptr : Pointer) (message : Message) (logType : UInt8) :
    WritesExactly (.log vptr ⟨some message.text, logType⟩) (logBytes message logType) := by
  intro cap outData
  have hlength : (logBytes message logType).length = message.text.length + 2 := by
    rw [logBytes, List.length_cons, List.length_append, List.length_singleton]
  have hchars : (message.text ++ [(0 : UInt8)]).length = message.text.length + 1 := by
    rw [List.length_append, List.length_singleton]
  have hbuild : build (.log vptr ⟨some message.text, logType⟩) outData =
      (memcpy outData 0 (ofBytes [logType]) 0 1).bind fun outData =>
        memcpy outData 1 (ofBytes (message.text ++ [0])) 0 (message.text.length + 1) := rfl
  rw [hbuild]
  constructor
  · intro hcap
    obtain ⟨typed, htype⟩ := exists_memcpy outData 0 (ofBytes [logType]) 0 1 (by omega)
      (Nat.le_refl 1)
    obtain ⟨built, htext⟩ := exists_memcpy typed 1 (ofBytes (message.text ++ [0])) 0
      (message.text.length + 1) (by omega) (by omega)
    refine ⟨built, ?_, firstBytes_eq_of_byteAt hcap fun j hj => ?_, fun i hi => ?_⟩
    · rw [htype]
      exact htext
    · cases j with
      | zero =>
        have hput := memcpy_inside htype 0 Nat.zero_lt_one
        rw [byteAt_ofBytes] at hput
        rw [memcpy_outside htext (Or.inl Nat.zero_lt_one)]
        exact hput
      | succ j =>
        have hput := memcpy_inside htext j (by omega)
        rw [byteAt_ofBytes, Nat.zero_add, Nat.add_comm 1 j] at hput
        rw [hput]
        rfl
    · rw [memcpy_outside htext (Or.inr (by omega)), memcpy_outside htype (Or.inr (by omega))]
  · intro hcap
    by_cases hroom : 1 ≤ cap
    · obtain ⟨typed, htype⟩ := exists_memcpy outData 0 (ofBytes [logType]) 0 1 (by omega)
        (Nat.le_refl 1)
      rw [htype, Option.bind_some, memcpy, if_neg (by omega)]
    · rw [memcpy, if_neg (by omega)]
      rfl

/-- Apart from the byte behind the block, the codec keeps its law: the message comes back. -/
theorem log_round_trips (memory : Memory) (block : ℕ) (message : Message) (logType : UInt8) :
    ∃ result, readLogInto block (logBytes message logType) (logBytes message logType).length =
        some result ∧
      HoldsText (memory.apply result.stores) result.mData message.text ∧
      result.mLogType = logType ∧ result.stores.length = result.allocated + 1 := by
  refine ⟨_, readLogInto_logBytes block message logType, fun i byte hbyte => ?_, rfl, ?_⟩
  · have hlt := (List.getElem?_eq_some_iff.mp hbyte).1
    refine apply_storesFrom memory block ?_
    rw [List.getElem?_append_left hlt]
    exact hbyte
  · rw [length_storesFrom, List.length_append, List.length_append, List.length_singleton]

/-- No message keeps the law: `strncpy` writes a zero behind the block. -/
theorem codec_law_fails (vptr : Pointer) (memory : Memory) (block : ℕ) (message : Message)
    (logType : UInt8) : ¬CodecLaw vptr memory block message logType := by
  rintro ⟨bytes, -, hwrites, result, hread, -, -, hinside⟩
  rw [writesExactly_unique hwrites (writesExactly_log vptr message logType), readLogInto_logBytes,
    Option.some.injEq] at hread
  rw [← hread] at hinside
  have hlast := hinside _ (mem_storesFrom_concat block (message.text ++ [0]) 0)
  rw [List.length_append, List.length_singleton] at hlast
  exact absurd hlast.2 (Nat.lt_irrefl _)

/-- The message "A" has two bytes in its block, and the third store is behind it. -/
theorem short_message_overruns :
    ¬CodecLaw (Buffer.zero 8) (fun _ => 0) 16 ⟨[65], by decide⟩ 1 := by
  rintro ⟨bytes, -, hwrites, result, hread, -, -, hinside⟩
  rw [writesExactly_unique hwrites (writesExactly_log (Buffer.zero 8) ⟨[65], by decide⟩ 1)] at hread
  have hresult : result = ⟨16, 1, 2, [⟨16, 65⟩, ⟨17, 0⟩, ⟨18, 0⟩]⟩ := (Option.some.inj hread).symm
  rw [hresult] at hinside
  have hlast := hinside ⟨18, 0⟩ (by decide)
  exact absurd hlast.2 (by decide)

end BfMultiplayer.LogCodec

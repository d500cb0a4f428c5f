import BfMultiplayer.AsciiText
import BfMultiplayer.Packets

/-!
# The address of the server

The text of the keyboard has up to 21 characters, the host that it is split
into is kept in a string for 15. A longer host is cut off without a word, and
the client connects to what is left of it.
-/

namespace BfMultiplayer.ServerAddress

open AsciiText Packets

/-- The byte of `":"`. -/
def colon : UInt8 := 58

/-- What the keyboard returns: up to 21 ASCII characters. -/
structure EnteredText where
  /-- The characters. -/
  text : CString
  /-- There are at most 21 of them. -/
  length_le : text.length ≤ 21
  /-- They are ASCII, and none is the terminator. -/
  ascii : ∀ byte ∈ text, 0 < byte ∧ byte < 128

/-- `FixedSafeString<capacity>::copy`, which keeps what fits in front of a terminator. -/
def copyTo (capacity : ℕ) (src : CString) : CString := src.take (capacity - 1)

/-- `findIndex` of one character; `none` is -1. -/
def findIndex (byte : UInt8) : CString → Option ℕ
  | [] => none
  | first :: rest => if first = byte then some 0 else (findIndex byte rest).map (· + 1)

/-- The text under the keyboard after an invalid host. -/
def invalidText (host : CString) : CString :=
  ascii "Error: '" ++ host ++ ascii "' is not a valid hostname! Please try again"

/-- What `enterIpCallback` does. -/
inductive Outcome where
  /-- The nerve `ModeSelect`. -/
  | modeSelect
  /-- `showEnterIpSwkbd`, with the text under the keyboard. -/
  | showEnterIpSwkbd (mKeyboardSubText : CString)
  /-- `NetClient::connect`, and the nerve `Connect`. -/
  | connect (ip : CString) (port : UInt16)
  deriving DecidableEq

/-- `enterIpCallback`. -/
def enterIpCallback (closed : Bool) (str : EnteredText) : Outcome :=
  if closed then .modeSelect
  else
    let host := copyTo 22 str.text
    match findIndex colon host with
    | none => .connect (copyTo 16 host) 7089
    | some semicolonIdx =>
      if semicolonIdx + 1 < host.length then
        match strtol (host.drop (semicolonIdx + 1)) with
        | some (parsedPort, []) =>
          if 0 ≤ parsedPort ∧ parsedPort ≤ 65535 then
            .connect (copyTo 16 (host.take semicolonIdx)) (UInt16.ofInt parsedPort)
          else .showEnterIpSwkbd (invalidText host)
        | _ => .showEnterIpSwkbd (invalidText host)
      else .showEnterIpSwkbd (invalidText host)

/-- The server that a `NetClient` connects to. -/
structure NetClient where
  /-- `mIp`. -/
  mIp : CString
  /-- `mPort`. -/
  mPort : UInt16

/-- `NetClient::connect`. -/
def NetClient.connect (ip : CString) (port : UInt16) : NetClient := ⟨copyTo 16 ip, port⟩

/-- The host of a text: what is in front of the first colon. -/
def hostPart (text : CString) : CString := text.takeWhile (· ≠ colon)

/-- What is behind the first colon of a text. -/
def portPart (text : CString) : CString := (text.dropWhile (· ≠ colon)).drop 1

/-- The port of a text: the default one without a colon, else the decimal number behind it. -/
def PortOf (text : CString) (port : ℤ) : Prop :=
  if colon ∈ text then IsDecimal (portPart text) port ∧ 0 ≤ port ∧ port ≤ 65535 else port = 7089

/-- The callback uses what was typed: it asks again or connects to the host and the port of the
text, and asks again for no short host with a port. -/
def UsesTypedAddress (str : EnteredText) : Prop :=
  ((∃ subText, enterIpCallback false str = .showEnterIpSwkbd subText) ∨
    ∃ ip port, enterIpCallback false str = .connect ip port ∧ ip = hostPart str.text ∧
      PortOf str.text port.toNat ∧ (NetClient.connect ip port).mIp = hostPart str.text ∧
      (NetClient.connect ip port).mPort = port) ∧
  ((hostPart str.text).length ≤ 15 → (∃ port, PortOf str.text port) →
    ∃ ip port, enterIpCallback false str = .connect ip port)

/-- The condition on the text: its host has at most 15 characters, or it has no port. -/
def ShortHost (str : EnteredText) : Prop :=
  (hostPart str.text).length ≤ 15 ∨ ¬∃ port, PortOf str.text port

/-- The index of a colon is the length of the host. -/
theorem findIndex_eq (byte : UInt8) (text : CString) :
    findIndex byte text =
      if byte ∈ text then some (text.takeWhile (· ≠ byte)).length else none := by
  induction text with
  | nil => rfl
  | cons first rest ih =>
    rw [findIndex]
    by_cases hfirst : first = byte
    · have hmem : byte ∈ first :: rest := by
        rw [hfirst]
        exact List.mem_cons_self
      rw [if_pos hfirst, if_pos hmem, List.takeWhile_cons_of_neg (by simpa using hfirst)]
      rfl
    · have hiff : byte ∈ first :: rest ↔ byte ∈ rest := by
        rw [List.mem_cons, or_iff_right fun heq => hfirst heq.symm]
      rw [if_neg hfirst, ih, List.takeWhile_cons_of_pos (by simpa using hfirst)]
      by_cases hmem : byte ∈ rest
      · rw [if_pos hmem, if_pos (hiff.mpr hmem)]
        rfl
      · rw [if_neg hmem, if_neg fun h => hmem (hiff.mp h)]
        rfl

/-- A text is its host and the rest from the colon on. -/
theorem hostPart_append (text : CString) :
    hostPart text ++ text.dropWhile (· ≠ colon) = text :=
  List.takeWhile_append_dropWhile

/-- The text in front of the index of the colon is the host. -/
theorem take_hostPart (text : CString) : text.take (hostPart text).length = hostPart text := by
  calc text.take (hostPart text).length
      = (hostPart text ++ text.dropWhile (· ≠ colon)).take (hostPart text).length := by
        rw [hostPart_append]
    _ = hostPart text := List.take_left

/-- The text from the index of the colon on. -/
theorem drop_hostPart (text : CString) :
    text.drop (hostPart text).length = text.dropWhile (· ≠ colon) := by
  calc text.drop (hostPart text).length
      = (hostPart text ++ text.dropWhile (· ≠ colon)).drop (hostPart text).length := by
        rw [hostPart_append]
    _ = text.dropWhile (· ≠ colon) := List.drop_left

/-- The text behind the index of the colon. -/
theorem drop_portPart (text : CString) :
    text.drop ((hostPart text).length + 1) = portPart text := by
  rw [← List.drop_drop, drop_hostPart]
  rfl

/-- No number is empty. -/
theorem isDecimal_ne_nil {text : CString} {value : ℤ} (h : IsDecimal text value) : text ≠ [] := by
  obtain ⟨blanks, sign, digits, negative, rfl, -, -, hne, -⟩ := h
  intro hnil
  exact hne (List.append_eq_nil_iff.mp (List.append_eq_nil_iff.mp hnil).2).2

/-- The first copy keeps the entered text. -/
theorem copyTo_entered (str : EnteredText) : copyTo 22 str.text = str.text :=
  List.take_of_length_le str.length_le

/-- A text with a port is connected to, at what is kept of its host. -/
theorem enterIpCallback_of_port {str : EnteredText} {port : ℤ} (h : PortOf str.text port) :
    enterIpCallback false str =
        .connect (copyTo 16 (hostPart str.text)) (UInt16.ofInt port) ∧
      ((UInt16.ofInt port).toNat : ℤ) = port := by
  rw [PortOf] at h
  rw [enterIpCallback, if_neg Bool.false_ne_true, copyTo_entered]
  dsimp only
  rw [findIndex_eq]
  split_ifs at h with hcolon
  · obtain ⟨hdecimal, hlow, hhigh⟩ := h
    have hread := (strtol_in_range_iff (by decide) (by decide) (portPart str.text) port).mpr
      ⟨hdecimal, hlow, hhigh⟩
    have hlength : (hostPart str.text).length + 1 < str.text.length := by
      have hne := isDecimal_ne_nil hdecimal
      rw [← drop_portPart, Ne, List.drop_eq_nil_iff] at hne
      omega
    rw [if_pos hcolon]
    dsimp only
    rw [← hostPart, if_pos hlength, drop_portPart, hread.1, take_hostPart]
    dsimp only
    rw [if_pos ⟨hlow, hhigh⟩]
    refine ⟨rfl, ?_⟩
    obtain ⟨n, rfl⟩ := Int.eq_ofNat_of_zero_le hlow
    rw [UInt16.ofInt, UInt16.toNat_ofNat']
    omega
  · rw [if_neg hcolon]
    dsimp only
    have hall : hostPart str.text = str.text := by
      rw [hostPart, List.takeWhile_eq_self_iff]
      intro byte hbyte
      rw [decide_eq_true_iff]
      rintro rfl
      exact hcolon hbyte
    rw [hall, h]
    exact ⟨rfl, rfl⟩

/-- A text without a port is asked for again. -/
theorem enterIpCallback_of_no_port {str : EnteredText} (h : ¬∃ port, PortOf str.text port) :
    enterIpCallback false str = .showEnterIpSwkbd (invalidText str.text) := by
  have hcolon : colon ∈ str.text := by
    by_contra hnone
    exact h ⟨7089, by rw [PortOf, if_neg hnone]⟩
  rw [enterIpCallback, if_neg Bool.false_ne_true, copyTo_entered]
  dsimp only
  rw [findIndex_eq, if_pos hcolon]
  dsimp only
  rw [← hostPart, drop_portPart]
  split_ifs with hlength
  · split
    · rename_i parsed hread
      split_ifs with hrange
      · have hdecimal := (strtol_in_range_iff (by decide) (by decide) (portPart str.text)
          parsed).mp ⟨hread, hrange⟩
        exact absurd ⟨parsed, by rw [PortOf, if_pos hcolon]; exact hdecimal⟩ h
      · rfl
    · rfl
  · rfl

/-- The callback uses what was typed exactly when the host is short or there is no port. -/
theorem uses_typed_address_iff (str : EnteredText) : UsesTypedAddress str ↔ ShortHost str := by
  rw [UsesTypedAddress, ShortHost]
  by_cases hport : ∃ port, PortOf str.text port
  · rw [or_iff_left (not_not_intro hport)]
    obtain ⟨port, hof⟩ := hport
    obtain ⟨hconnect, hnumber⟩ := enterIpCallback_of_port hof
    constructor
    · rintro ⟨hask | ⟨ip, port', hsame, hhost, -⟩, -⟩
      · obtain ⟨subText, hask⟩ := hask
        rw [hconnect] at hask
        cases hask
      · rw [hconnect, Outcome.connect.injEq] at hsame
        have hlength := congrArg List.length (hsame.1.trans hhost)
        rw [copyTo, List.length_take] at hlength
        omega
    · intro hshort
      have hkept : copyTo 16 (hostPart str.text) = hostPart str.text :=
        List.take_of_length_le hshort
      refine ⟨Or.inr ⟨_, _, hconnect, hkept, ?_, ?_, rfl⟩, fun _ _ => ⟨_, _, hconnect⟩⟩
      · rw [hnumber]
        exact hof
      · rw [NetClient.connect, hkept, hkept]
  · have hask := enterIpCallback_of_no_port hport
    exact iff_of_true ⟨Or.inl ⟨_, hask⟩, fun _ hsome => absurd hsome hport⟩ (Or.inr hport)

/-- An address with a digit too many. -/
def longHost : EnteredText := ⟨ascii "192.168.178.1090:7089", by decide +kernel, by decide +kernel⟩

/-- The client connects to another host than the one with a digit too many. -/
theorem longHost_connects :
    enterIpCallback false longHost = .connect (ascii "192.168.178.109") 7089 ∧
      ¬UsesTypedAddress longHost := by
  have hconnect : enterIpCallback false longHost = .connect (ascii "192.168.178.109") 7089 := by
    decide +kernel
  refine ⟨hconnect, ?_⟩
  rintro ⟨hask | ⟨ip, port, hsame, hhost, -⟩, -⟩
  · obtain ⟨subText, hask⟩ := hask
    rw [hconnect] at hask
    cases hask
  · rw [hconnect, Outcome.connect.injEq] at hsame
    rw [← hsame.1] at hhost
    revert hhost
    decide +kernel

end BfMultiplayer.ServerAddress

import Mathlib.Algebra.Group.Int.Defs
import Mathlib.Data.List.TakeWhile
import Mathlib.Order.Lattice
import Mathlib.Tactic.Common

/-!
# Numbers in texts of bytes

`strtol` skips blanks, takes a sign and reads decimal digits. It reads a whole
text exactly when that text is a decimal number in this notation.
-/

namespace BfMultiplayer.AsciiText

/-- The bytes of an ASCII literal. -/
def ascii (text : String) : List UInt8 := text.toList.map fun c => c.toNat.toUInt8

/-- `isspace`. -/
def isSpace (byte : UInt8) : Bool := byte == 32 || (9 ≤ byte && byte ≤ 13)

/-- `isdigit`. -/
def isDigit (byte : UInt8) : Bool := 48 ≤ byte && byte ≤ 57

/-- The number of some digits. -/
def digitsValue (digits : List UInt8) : ℕ :=
  digits.foldl (fun value byte => 10 * value + (byte.toNat - 48)) 0

/-- A number with its sign. -/
def signed (negative : Bool) (value : ℕ) : ℤ := if negative then -(value : ℤ) else value

/-- The sign in front of a text, and the text behind it. -/
def readSign : List UInt8 → Bool × List UInt8
  | [] => (false, [])
  | byte :: rest =>
    if byte = 45 then (true, rest)
    else if byte = 43 then (false, rest)
    else (false, byte :: rest)

/-- The nearest `long`. -/
def clampLong (value : ℤ) : ℤ := max (-2 ^ 63) (min value (2 ^ 63 - 1))

/-- `strtol` to the base ten: the number, and the text from the end pointer on. There is none
when the end pointer is the start of the text. -/
def strtol (text : List UInt8) : Option (ℤ × List UInt8) :=
  let number := readSign (text.dropWhile isSpace)
  let digits := number.2.takeWhile isDigit
  if digits = [] then none
  else some (clampLong (signed number.1 (digitsValue digits)), number.2.dropWhile isDigit)

/-- `std::stoi`, which throws on a text without a number and on a number that is no `int`. -/
def stoi (text : List UInt8) : Option ℤ :=
  match strtol text with
  | some (value, _) => if -2 ^ 31 ≤ value ∧ value < 2 ^ 31 then some value else none
  | none => none

/-- A sign: none, a plus or a minus. -/
inductive IsSign : List UInt8 → Bool → Prop
  | none : IsSign [] false
  | plus : IsSign [43] false
  | minus : IsSign [45] true

/-- A text is a decimal number: blanks, a sign and digits. -/
def IsDecimal (text : List UInt8) (value : ℤ) : Prop :=
  ∃ blanks sign digits negative, text = blanks ++ (sign ++ digits) ∧
    (∀ byte ∈ blanks, isSpace byte = true) ∧ IsSign sign negative ∧ digits ≠ [] ∧
    (∀ byte ∈ digits, isDigit byte = true) ∧ value = signed negative (digitsValue digits)

/-- A text is its sign and the text behind it. -/
theorem readSign_split (text : List UInt8) :
    ∃ sign, IsSign sign (readSign text).1 ∧ text = sign ++ (readSign text).2 := by
  cases text with
  | nil => exact ⟨[], IsSign.none, rfl⟩
  | cons byte rest =>
    rw [readSign]
    split_ifs with hminus hplus
    · exact ⟨[45], IsSign.minus, by rw [hminus]; rfl⟩
    · exact ⟨[43], IsSign.plus, by rw [hplus]; rfl⟩
    · exact ⟨[], IsSign.none, rfl⟩

/-- No digit is a sign or a blank. -/
theorem isDigit_ne {byte : UInt8} (h : isDigit byte = true) :
    byte ≠ 45 ∧ byte ≠ 43 ∧ isSpace byte = false := by
  rw [isDigit, Bool.and_eq_true, decide_eq_true_eq, decide_eq_true_eq, UInt8.le_iff_toNat_le,
    UInt8.le_iff_toNat_le] at h
  have hlow : 48 ≤ byte.toNat := h.1
  refine ⟨?_, ?_, ?_⟩
  · rintro rfl
    exact absurd hlow (by decide)
  · rintro rfl
    exact absurd hlow (by decide)
  · rw [isSpace, Bool.or_eq_false_iff, Bool.and_eq_false_iff, beq_eq_false_iff_ne]
    refine ⟨?_, Or.inr ?_⟩
    · rintro rfl
      exact absurd hlow (by decide)
    · rw [decide_eq_false_iff_not, UInt8.le_iff_toNat_le]
      have hthirteen : (13 : UInt8).toNat = 13 := rfl
      omega

/-- The sign in front of digits is read. -/
theorem readSign_append {sign digits : List UInt8} {negative : Bool} (hsign : IsSign sign negative)
    (hne : digits ≠ []) (hdigits : ∀ byte ∈ digits, isDigit byte = true) :
    readSign (sign ++ digits) = (negative, digits) := by
  cases hsign with
  | none =>
    cases digits with
    | nil => exact absurd rfl hne
    | cons byte rest =>
      obtain ⟨hminus, hplus, -⟩ := isDigit_ne (hdigits byte List.mem_cons_self)
      rw [List.nil_append, readSign, if_neg hminus, if_neg hplus]
  | plus => rfl
  | minus => rfl

/-- Neither a sign nor a digit is a blank. -/
theorem not_isSpace_head {sign digits : List UInt8} {negative : Bool} (hsign : IsSign sign negative)
    (hne : digits ≠ []) (hdigits : ∀ byte ∈ digits, isDigit byte = true) :
    (sign ++ digits).dropWhile isSpace = sign ++ digits := by
  cases hsign with
  | none =>
    cases digits with
    | nil => exact absurd rfl hne
    | cons byte rest =>
      obtain ⟨-, -, hspace⟩ := isDigit_ne (hdigits byte List.mem_cons_self)
      rw [List.nil_append, List.dropWhile_cons_of_neg (by rw [hspace]; exact Bool.false_ne_true)]
  | plus => rfl
  | minus => rfl

/-- `strtol` reads a text to its end exactly when it is a decimal number. -/
theorem strtol_eq_some_nil_iff (text : List UInt8) (parsed : ℤ) :
    strtol text = some (parsed, []) ↔ ∃ value, IsDecimal text value ∧ parsed = clampLong value := by
  rw [strtol]
  constructor
  · intro h
    split_ifs at h with hdigits
    rw [Option.some.injEq, Prod.mk.injEq] at h
    obtain ⟨rfl, hrest⟩ := h
    obtain ⟨sign, hsign, htext⟩ := readSign_split (text.dropWhile isSpace)
    have hall := List.takeWhile_append_dropWhile (p := isDigit)
      (l := (readSign (text.dropWhile isSpace)).2)
    rw [hrest, List.append_nil] at hall
    have hsplit := List.takeWhile_append_dropWhile (p := isSpace) (l := text)
    refine ⟨_, ⟨text.takeWhile isSpace, sign, _, _, ?_, ?_, hsign, hdigits, ?_, rfl⟩, rfl⟩
    · rw [hall, ← htext, hsplit]
    · exact fun byte hbyte => List.mem_takeWhile_imp hbyte
    · exact fun byte hbyte => List.mem_takeWhile_imp hbyte
  · rintro ⟨value, ⟨blanks, sign, digits, negative, rfl, hblanks, hsign, hne, hdigits, rfl⟩, rfl⟩
    have htake : digits.takeWhile isDigit = digits := List.takeWhile_eq_self_iff.mpr hdigits
    have hdrop : digits.dropWhile isDigit = [] := List.dropWhile_eq_nil_iff.mpr hdigits
    rw [List.dropWhile_append_of_pos hblanks, not_isSpace_head hsign hne hdigits,
      readSign_append hsign hne hdigits]
    dsimp only
    rw [htake, hdrop, if_neg hne]

example : strtol (ascii " 99999999999999999999") = some (2 ^ 63 - 1, []) := by decide

/-- A number in a range of `long`s is not changed by the clamp. -/
theorem clampLong_mem_iff {value low high parsed : ℤ} (hlow : -2 ^ 63 < low)
    (hhigh : high < 2 ^ 63 - 1) :
    parsed = clampLong value ∧ low ≤ parsed ∧ parsed ≤ high ↔
      parsed = value ∧ low ≤ value ∧ value ≤ high := by
  rw [clampLong]
  omega

/-- `strtol` reads a text to its end, and a number in a range, exactly when the text is a decimal
number in that range. -/
theorem strtol_in_range_iff {low high : ℤ} (hlow : -2 ^ 63 < low) (hhigh : high < 2 ^ 63 - 1)
    (text : List UInt8) (parsed : ℤ) :
    strtol text = some (parsed, []) ∧ low ≤ parsed ∧ parsed ≤ high ↔
      IsDecimal text parsed ∧ low ≤ parsed ∧ parsed ≤ high := by
  rw [strtol_eq_some_nil_iff]
  constructor
  · rintro ⟨⟨value, hvalue, hparsed⟩, hrange⟩
    obtain ⟨rfl, hsame⟩ := (clampLong_mem_iff hlow hhigh).mp ⟨hparsed, hrange⟩
    exact ⟨hvalue, hsame⟩
  · rintro ⟨hvalue, hrange⟩
    obtain ⟨hparsed, hsame⟩ := (clampLong_mem_iff hlow hhigh).mpr ⟨rfl, hrange⟩
    exact ⟨⟨parsed, hvalue, hparsed⟩, hsame⟩

/-- `stoi` gives an `int`. -/
theorem stoi_range {text : List UInt8} {value : ℤ} (h : stoi text = some value) :
    -2 ^ 31 ≤ value ∧ value < 2 ^ 31 := by
  rw [stoi] at h
  split at h
  · split_ifs at h with hrange
    cases h
    exact hrange
  · cases h

end BfMultiplayer.AsciiText

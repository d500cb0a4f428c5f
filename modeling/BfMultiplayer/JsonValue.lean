import BfMultiplayer.FloatRounding
import Mathlib.Algebra.Group.Int.Defs
import Mathlib.Algebra.Group.Nat.Defs
import Mathlib.Data.List.Induction

/-!
# JSON values and checked reads

JSON values with the reading operations of a dynamically typed library: look
up a key, convert to a boolean, an integer or a string, and walk over the
elements of any value. A read that the library answers with an exception or
with undefined behaviour is an error. Objects are kept as ordered maps are,
by key, and are built by assignments to their keys.
-/

namespace BfMultiplayer.JsonValue

open BfMultiplayer.FloatRounding

/-- A JSON value. Strings are bytes, as `std::string` is; a number with a
fraction or an exponent has the value of its `double`. -/
inductive Json where
  | null
  | bool (value : Bool)
  | int (value : ℤ)
  | float (value : ℚ)
  | str (bytes : List UInt8)
  | arr (elements : List Json)
  | obj (fields : List (String × Json))

/-- How reading a value can go wrong. -/
inductive JsonError where
  /-- An exception about the type of a value. -/
  | typeError
  /-- A read of a key that a constant object does not have. -/
  | missingKey
  /-- A number that does not fit the integer it is converted to. -/
  | outOfRange
  deriving DecidableEq

/-- The range of a C `int`. -/
def IsInt (n : ℤ) : Prop := -2 ^ 31 ≤ n ∧ n < 2 ^ 31

instance (n : ℤ) : Decidable (IsInt n) := inferInstanceAs (Decidable (_ ∧ _))

/-- Conversion of a wider integer to a C `int`. -/
def toInt (n : ℤ) : ℤ := n.bmod (2 ^ 32)

/-- Assign a value to a key of an ordered map. -/
def insertField (key : String) (value : Json) :
    List (String × Json) → List (String × Json)
  | [] => [(key, value)]
  | field :: fields =>
    if field.1 = key then (key, value) :: fields
    else if key < field.1 then (key, value) :: field :: fields
    else field :: insertField key value fields

/-- The value under a key. -/
def lookup (key : String) : List (String × Json) → Option Json
  | [] => none
  | field :: fields => if field.1 = key then some field.2 else lookup key fields

/-- A null value after some assignments `value[key] = …`, first one first. -/
def Json.object (assignments : List (String × Json)) : Json :=
  .obj (assignments.foldl (fun fields a => insertField a.1 a.2 fields) [])

/-- Read of `value[key]` on a variable value: null stands for an empty object,
and a key without a value for one with the value null. -/
def Json.index (key : String) : Json → Except JsonError Json
  | .null => .ok .null
  | .obj fields => .ok ((lookup key fields).getD .null)
  | _ => .error .typeError

/-- Read of `value[key]` on a constant value. -/
def Json.at (key : String) : Json → Except JsonError Json
  | .obj fields =>
    match lookup key fields with
    | some value => .ok value
    | none => .error .missingKey
  | _ => .error .typeError

/-- Conversion to `bool`. -/
def Json.getBool : Json → Except JsonError Bool
  | .bool value => .ok value
  | _ => .error .typeError

/-- Conversion to `int`, which any number and any boolean have. A number that is no
integer is cut off at the point. -/
def Json.getInt : Json → Except JsonError ℤ
  | .int value => .ok (toInt value)
  | .bool value => .ok (if value then 1 else 0)
  | .float value => if IsInt (truncate value) then .ok (truncate value) else .error .outOfRange
  | _ => .error .typeError

/-- Conversion to a string. -/
def Json.getString : Json → Except JsonError (List UInt8)
  | .str bytes => .ok bytes
  | _ => .error .typeError

/-- What a range-based loop over a value visits. -/
def Json.elements : Json → List Json
  | .null => []
  | .arr elements => elements
  | .obj fields => fields.map Prod.snd
  | value => [value]

/-- The key that was assigned last holds the assigned value. -/
theorem lookup_insertField (key key' : String) (value : Json) (fields : List (String × Json)) :
    lookup key' (insertField key value fields) =
      if key = key' then some value else lookup key' fields := by
  induction fields with
  | nil => rfl
  | cons field fields ih =>
    unfold insertField
    by_cases heq : field.1 = key
    · rw [if_pos heq]
      by_cases hk : key = key'
      · simp only [lookup, if_pos hk]
      · have hne : ¬field.1 = key' := by rw [heq]; exact hk
        simp only [lookup, if_neg hk, if_neg hne]
    · rw [if_neg heq]
      split
      · rfl
      · by_cases hf : field.1 = key'
        · have hne : ¬key = key' := fun h => heq (hf.trans h.symm)
          simp only [lookup, if_pos hf, if_neg hne]
        · simp only [lookup, if_neg hf, ih]

/-- A built object holds the last value assigned to each key. -/
theorem lookup_object (key : String) (assignments fields : List (String × Json)) :
    lookup key (assignments.foldl (fun fields a => insertField a.1 a.2 fields) fields) =
      (lookup key assignments.reverse).or (lookup key fields) := by
  induction assignments using List.reverseRecOn generalizing fields with
  | nil => rfl
  | append_singleton assignments a ih =>
    rw [List.foldl_append, List.foldl_cons, List.foldl_nil, lookup_insertField, ih,
      List.reverse_append, List.reverse_singleton, List.singleton_append, lookup]
    split <;> rfl

/-- A C `int` converts to itself. -/
theorem toInt_of_isInt {n : ℤ} (h : IsInt n) : toInt n = n := by
  unfold IsInt at h
  rw [toInt, Int.bmod_eq_of_le]
  · omega
  · omega

/-- A read of a built object finds the last assignment to the key, if any. -/
theorem index_object (key : String) (assignments : List (String × Json)) :
    (Json.object assignments).index key = .ok ((lookup key assignments.reverse).getD .null) := by
  rw [Json.object, Json.index, lookup_object, lookup, Option.or_none]

/-- A constant built object gives the last value assigned to a key. -/
theorem at_object {key : String} {assignments : List (String × Json)} {value : Json}
    (h : lookup key assignments.reverse = some value) :
    (Json.object assignments).at key = .ok value := by
  rw [Json.object, Json.at, lookup_object, h, Option.some_or]

/-- A number in range is read back. -/
theorem getInt_int {n : ℤ} (h : IsInt n) : (Json.int n).getInt = .ok n := by
  rw [Json.getInt, toInt_of_isInt h]

@[simp] theorem getBool_bool (b : Bool) : (Json.bool b).getBool = .ok b := rfl

@[simp] theorem getString_str (bytes : List UInt8) : (Json.str bytes).getString = .ok bytes := rfl

@[simp] theorem elements_arr (elements : List Json) : (Json.arr elements).elements = elements := rfl

/-- A read that succeeds goes on with its value. -/
@[simp] theorem ok_bind.{u, v} {ε : Type u} {α β : Type v} (a : α) (f : α → Except ε β) :
    (Except.ok a >>= f) = f a := rfl

/-- Reading back a list of values, each of which reads back as it should. -/
theorem read_elements {α β : Type*} {read : Json → Except JsonError β} {write : α → Json}
    {result : α → β} {values : List α} (h : ∀ a ∈ values, read (write a) = .ok (result a)) :
    (values.map write).mapM read = .ok (values.map result) := by
  induction values with
  | nil => rfl
  | cons a values ih =>
    have hhead := h a List.mem_cons_self
    have htail := ih fun b hb => h b (List.mem_cons_of_mem a hb)
    rw [List.map_cons, List.mapM_cons, hhead, htail]
    rfl

/-- Reading values into an accumulator, when each read is known. -/
theorem fold_elements {α β : Type*} {read : β → Json → Except JsonError β} {write : α → Json}
    {add : β → α → β} {values : List α}
    (h : ∀ a ∈ values, ∀ b, read b (write a) = .ok (add b a)) (start : β) :
    (values.map write).foldlM read start = .ok (values.foldl add start) := by
  induction values generalizing start with
  | nil => rfl
  | cons a values ih =>
    have hhead := h a List.mem_cons_self start
    have htail := ih (fun c hc => h c (List.mem_cons_of_mem a hc)) (add start a)
    rw [List.map_cons, List.foldlM_cons, hhead]
    exact htail

/-! ### Reads that are described by a shape and a value -/

section ReadsAs

variable {α β γ ε : Type*} {p q : α → Prop} {u : α → β} {v : α → γ}

/-- A read succeeds exactly on the inputs of a shape, with a known value. -/
structure ReadsAs (read : α → Except ε β) (shape : α → Prop) (value : α → β) : Prop where
  /-- It succeeds on the shape. -/
  ok : ∀ a, shape a → read a = .ok (value a)
  /-- It fails on everything else. -/
  fails : ∀ a, ¬shape a → ∃ e, read a = .error e

/-- The shape in other words. -/
theorem ReadsAs.of_iff {read : α → Except ε β} (h : ReadsAs read p u) (hiff : ∀ a, p a ↔ q a) :
    ReadsAs read q u :=
  ⟨fun a ha => h.ok a ((hiff a).mpr ha), fun a ha => h.fails a fun hp => ha ((hiff a).mp hp)⟩

/-- Reading a part of the input. -/
theorem ReadsAs.comp {δ : Type*} {read : β → Except ε γ} {shape : β → Prop} {value : β → γ}
    (h : ReadsAs read shape value) (part : δ → β) :
    ReadsAs (fun d => read (part d)) (fun d => shape (part d)) (fun d => value (part d)) :=
  ⟨fun d => h.ok (part d), fun d => h.fails (part d)⟩

end ReadsAs

section Sequences

variable {α β γ ε : Type} {p q : α → Prop} {u : α → β} {v : α → γ}

/-- Reading two things one after the other. -/
theorem ReadsAs.bind {f : α → Except ε β} {g : α → β → Except ε γ} (hf : ReadsAs f p u)
    (hg : ReadsAs (fun a => g a (u a)) q v) :
    ReadsAs (fun a => f a >>= g a) (fun a => p a ∧ q a) v := by
  constructor
  · intro a ha
    rw [hf.ok a ha.1, ok_bind]
    exact hg.ok a ha.2
  · intro a ha
    by_cases hp : p a
    · rw [hf.ok a hp, ok_bind]
      exact hg.fails a fun hq => ha ⟨hp, hq⟩
    · obtain ⟨e, he⟩ := hf.fails a hp
      exact ⟨e, by rw [he]; rfl⟩

/-- Putting together what was read last. -/
theorem ReadsAs.bind_pure {f : α → Except ε β} {w : α → β → γ} (hf : ReadsAs f p u) :
    ReadsAs (fun a => f a >>= fun b => pure (w a b)) p (fun a => w a (u a)) := by
  constructor
  · intro a ha
    rw [hf.ok a ha]
    rfl
  · intro a ha
    obtain ⟨e, he⟩ := hf.fails a ha
    exact ⟨e, by rw [he]; rfl⟩

/-- Reading all elements of a list. -/
theorem ReadsAs.mapM {f : α → Except ε β} (hf : ReadsAs f p u) :
    ReadsAs (List.mapM f) (fun l => ∀ a ∈ l, p a) (List.map u) := by
  constructor
  · intro l hl
    induction l with
    | nil => rfl
    | cons a l ih =>
      have hrest := ih fun b hb => hl b (List.mem_cons_of_mem a hb)
      rw [List.mapM_cons, hf.ok a (hl a List.mem_cons_self), ok_bind, hrest]
      rfl
  · intro l hl
    induction l with
    | nil => exact absurd (fun a ha => absurd ha List.not_mem_nil) hl
    | cons a l ih =>
      rw [List.mapM_cons]
      by_cases ha : p a
      · obtain ⟨e, he⟩ := ih fun hrest => hl (List.forall_mem_cons.mpr ⟨ha, hrest⟩)
        exact ⟨e, by rw [hf.ok a ha, ok_bind, he]; rfl⟩
      · obtain ⟨e, he⟩ := hf.fails a ha
        exact ⟨e, by rw [he]; rfl⟩

/-- Reading all elements of a list into an accumulator. -/
theorem ReadsAs.foldlM {f : β → α → Except ε β} {add : β → α → β}
    (hf : ∀ b, ReadsAs (f b) p (add b)) (b : β) :
    ReadsAs (fun l => List.foldlM f b l) (fun l => ∀ a ∈ l, p a) (fun l => l.foldl add b) := by
  constructor
  · intro l hl
    induction l generalizing b with
    | nil => rfl
    | cons a l ih =>
      have hrest := ih (add b a) fun c hc => hl c (List.mem_cons_of_mem a hc)
      rw [List.foldlM_cons, (hf b).ok a (hl a List.mem_cons_self), ok_bind]
      exact hrest
  · intro l hl
    induction l generalizing b with
    | nil => exact absurd (fun a ha => absurd ha List.not_mem_nil) hl
    | cons a l ih =>
      rw [List.foldlM_cons]
      by_cases ha : p a
      · obtain ⟨e, he⟩ := ih (add b a) fun hrest => hl (List.forall_mem_cons.mpr ⟨ha, hrest⟩)
        exact ⟨e, by rw [(hf b).ok a ha, ok_bind]; exact he⟩
      · obtain ⟨e, he⟩ := (hf b).fails a ha
        exact ⟨e, by rw [he]; rfl⟩

end Sequences

/-- The value under a key, null if there is none. -/
def Json.member (key : String) : Json → Json
  | .obj fields => (lookup key fields).getD .null
  | _ => .null

/-- Null and objects can be asked for any key. -/
def Json.HasMembers : Json → Prop
  | .null => True
  | .obj _ => True
  | _ => False

/-- An object with a value under a key. -/
def Json.HasMember (key : String) : Json → Prop
  | .obj fields => (lookup key fields).isSome
  | _ => False

/-- A boolean. -/
def Json.IsBool : Json → Prop
  | .bool _ => True
  | _ => False

/-- A value that converts to an `int`. -/
def Json.IsNumber : Json → Prop
  | .int _ => True
  | .bool _ => True
  | .float value => IsInt (truncate value)
  | _ => False

/-- A string. -/
def Json.IsString : Json → Prop
  | .str _ => True
  | _ => False

/-- The boolean, false for other values. -/
def Json.boolOf : Json → Bool
  | .bool value => value
  | _ => false

/-- The number, zero for other values. -/
def Json.numberOf : Json → ℤ
  | .int value => toInt value
  | .bool value => if value then 1 else 0
  | .float value => truncate value
  | _ => 0

/-- The bytes of the string, none for other values. -/
def Json.bytesOf : Json → List UInt8
  | .str bytes => bytes
  | _ => []

/-- The read of a key of a variable value. -/
theorem index_reads (key : String) : ReadsAs (Json.index key) Json.HasMembers (Json.member key) := by
  constructor
  · intro json h
    cases json with
    | null => rfl
    | obj fields => rfl
    | _ => exact h.elim
  · intro json h
    cases json with
    | null => exact absurd trivial h
    | obj fields => exact absurd trivial h
    | _ => exact ⟨_, rfl⟩

/-- The read of a key of a constant value. -/
theorem at_reads (key : String) :
    ReadsAs (Json.at key) (Json.HasMember key) (Json.member key) := by
  constructor
  · intro json h
    cases json with
    | obj fields =>
      obtain ⟨value, hvalue⟩ := Option.isSome_iff_exists.mp h
      rw [Json.at, Json.member, hvalue]
      rfl
    | _ => exact h.elim
  · intro json h
    cases json with
    | obj fields =>
      have hnone : lookup key fields = none := Option.not_isSome_iff_eq_none.mp h
      exact ⟨.missingKey, by rw [Json.at, hnone]⟩
    | _ => exact ⟨_, rfl⟩

/-- The conversion to a boolean. -/
theorem getBool_reads : ReadsAs Json.getBool Json.IsBool Json.boolOf := by
  constructor
  · intro json h
    cases json with
    | bool value => rfl
    | _ => exact h.elim
  · intro json h
    cases json with
    | bool value => exact absurd trivial h
    | _ => exact ⟨_, rfl⟩

/-- The conversion to an integer. -/
theorem getInt_reads : ReadsAs Json.getInt Json.IsNumber Json.numberOf := by
  constructor
  · intro json h
    cases json with
    | int value => rfl
    | bool value => rfl
    | float value => exact if_pos h
    | _ => exact h.elim
  · intro json h
    cases json with
    | int value => exact absurd trivial h
    | bool value => exact absurd trivial h
    | float value => exact ⟨.outOfRange, if_neg h⟩
    | _ => exact ⟨_, rfl⟩

/-- The conversion to a string. -/
theorem getString_reads : ReadsAs Json.getString Json.IsString Json.bytesOf := by
  constructor
  · intro json h
    cases json with
    | str bytes => rfl
    | _ => exact h.elim
  · intro json h
    cases json with
    | str bytes => exact absurd trivial h
    | _ => exact ⟨_, rfl⟩

/-- A built object holds the last value assigned to a key. -/
theorem member_object {key : String} {assignments : List (String × Json)} {value : Json}
    (h : lookup key assignments.reverse = some value) :
    (Json.object assignments).HasMember key ∧ (Json.object assignments).member key = value := by
  rw [Json.object, Json.HasMember, Json.member, lookup_object, h, Option.some_or]
  exact ⟨rfl, rfl⟩

/-- An object built from two assignments holds both values. -/
theorem member_object_pair {firstKey secondKey : String} (hne : firstKey ≠ secondKey)
    (first second : Json) :
    let json := Json.object [(firstKey, first), (secondKey, second)]
    (json.HasMember firstKey ∧ json.member firstKey = first) ∧
      json.HasMember secondKey ∧ json.member secondKey = second :=
  ⟨member_object (by simp [lookup, hne.symm]), member_object (by simp [lookup])⟩

/-! ### What a JSON value stores -/

/-- A number that is this `int`. -/
def Json.Denotes (json : Json) (n : ℤ) : Prop :=
  IsInt n ∧
    match json with
    | .int value => value = n
    | .float value => value = n
    | _ => False

/-- A number that is an `int`. -/
def Json.IsInteger : Json → Prop
  | .int value => IsInt value
  | .float value => value = truncate value ∧ IsInt (truncate value)
  | _ => False

/-- The conversion keeps exactly the numbers that are an `int`. -/
theorem denotes_iff (json : Json) (n : ℤ) :
    json.Denotes n ↔ json.IsInteger ∧ json.numberOf = n := by
  unfold Json.Denotes
  cases json with
  | int value =>
    constructor
    · rintro ⟨hint, rfl⟩
      exact ⟨hint, toInt_of_isInt hint⟩
    · rintro ⟨hint, hn⟩
      rw [Json.numberOf, toInt_of_isInt hint] at hn
      rw [← hn]
      exact ⟨hint, rfl⟩
  | float value =>
    constructor
    · rintro ⟨hint, hn⟩
      have htruncate : truncate value = n := by rw [hn, truncate_int]
      refine ⟨⟨?_, ?_⟩, htruncate⟩
      · rw [htruncate]
        exact hn
      · rw [htruncate]
        exact hint
    · rintro ⟨⟨hvalue, hint⟩, hn⟩
      rw [← hn]
      exact ⟨hint, hvalue⟩
  | _ => exact iff_of_false (fun h => h.2) fun h => h.1

/-- An `int` is converted. -/
theorem Json.IsInteger.isNumber {json : Json} (h : json.IsInteger) : json.IsNumber := by
  cases json with
  | int value => trivial
  | float value => exact h.2
  | _ => exact h.elim

/-- A value that the conversion takes for zero. -/
def Json.ReadsZero : Json → Prop
  | .int value => 2 ^ 32 ∣ value
  | .bool value => value = false
  | .float value => |value| < 1
  | _ => False

/-- They are converted to zero, and no others. -/
theorem readsZero_iff (json : Json) : json.ReadsZero ↔ json.IsNumber ∧ json.numberOf = 0 := by
  cases json with
  | int value =>
    rw [Json.ReadsZero, Json.IsNumber, Json.numberOf, true_and, toInt]
    exact_mod_cast Int.dvd_iff_bmod_eq_zero
  | bool value =>
    rw [Json.ReadsZero, Json.IsNumber, Json.numberOf, true_and]
    cases value <;> decide
  | float value =>
    rw [Json.ReadsZero, Json.IsNumber, Json.numberOf, ← truncate_eq_zero_iff]
    constructor
    · intro hzero
      rw [hzero]
      exact ⟨by decide, rfl⟩
    · exact And.right
  | _ => exact iff_of_false id And.left

/-- An array, or null for an empty one. -/
def Json.IsList : Json → Prop
  | .null => True
  | .arr _ => True
  | _ => False

/-- A list whose elements store some values, one by one. -/
def Json.Stores {α : Type} (R : Json → α → Prop) (json : Json) (values : List α) : Prop :=
  json.IsList ∧ List.Forall₂ R json.elements values

/-- Values that are stored one by one are those that are read. -/
theorem forall₂_reads_iff {α : Type} {R : Json → α → Prop} {p : Json → Prop} {f : Json → α}
    (h : ∀ json a, R json a ↔ p json ∧ f json = a) (elements : List Json) (values : List α) :
    List.Forall₂ R elements values ↔ (∀ e ∈ elements, p e) ∧ elements.map f = values := by
  induction elements generalizing values with
  | nil =>
    rw [List.forall₂_nil_left_iff, List.map_nil]
    constructor
    · rintro rfl
      exact ⟨fun e he => absurd he List.not_mem_nil, rfl⟩
    · rintro ⟨-, rfl⟩
      rfl
  | cons e elements ih =>
    rw [List.forall₂_cons_left_iff, List.forall_mem_cons, List.map_cons]
    constructor
    · rintro ⟨a, rest, he, hrest, rfl⟩
      obtain ⟨hp, rfl⟩ := (h e a).mp he
      obtain ⟨hps, rfl⟩ := (ih rest).mp hrest
      exact ⟨⟨hp, hps⟩, rfl⟩
    · rintro ⟨⟨hp, hps⟩, rfl⟩
      exact ⟨f e, elements.map f, (h e (f e)).mpr ⟨hp, rfl⟩, (ih _).mpr ⟨hps, rfl⟩, rfl⟩

/-- A list stores what is read from it. -/
theorem stores_iff {α : Type} {R : Json → α → Prop} {p : Json → Prop} {f : Json → α}
    (h : ∀ json a, R json a ↔ p json ∧ f json = a) (json : Json) (values : List α) :
    json.Stores R values ↔
      (json.IsList ∧ ∀ e ∈ json.elements, p e) ∧ json.elements.map f = values := by
  rw [Json.Stores, forall₂_reads_iff h, and_assoc]

end BfMultiplayer.JsonValue

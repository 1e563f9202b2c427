import BusTub.Execution.Expression
import Mathlib.Data.List.TakeWhile
import Mathlib.Data.Nat.Digits.Lemmas

/-!
# Texts and casts

The model of `ToString` and `CastAs` of the types BOOLEAN, TINYINT, SMALLINT, INTEGER, BIGINT and
VARCHAR.

A number becomes the text of its decimal digits, with a terminator behind it.  A text becomes a
number by `stoi` or `stoll`, which skip white space, take a sign and as many digits as there are,
and do not look at what follows.  What they find is cut to the width of the type.

The text of a number is read back as that number.
-/

namespace BusTub

/-! ## Texts -/

def ascii (text : String) : List UInt8 := text.toList.map fun char => char.toNat.toUInt8

def digitByte (digit : ℕ) : UInt8 := (48 + digit).toUInt8

def decimalDigits (number : ℕ) : List UInt8 :=
  if number = 0 then [digitByte 0] else (Nat.digits 10 number).reverse.map digitByte

/-- `std::to_string`. -/
def decimalText (number : ℤ) : List UInt8 :=
  if number < 0 then 45 :: decimalDigits number.natAbs else decimalDigits number.natAbs

/-- `isspace`. -/
def isSpace (byte : UInt8) : Bool := byte = 32 || 9 ≤ byte && byte ≤ 13

/-- `isdigit`. -/
def isDigit (byte : UInt8) : Bool := 48 ≤ byte && byte ≤ 57

/-- `tolower`. -/
def toLowerByte (byte : UInt8) : UInt8 := if 65 ≤ byte && byte ≤ 90 then byte + 32 else byte

def readDigits (text : List UInt8) : Option ℕ :=
  match text.takeWhile isDigit with
  | [] => none
  | digits => some (digits.foldl (fun number byte => 10 * number + (byte.toNat - 48)) 0)

/-- `strtol` with base ten, before it looks at the range. -/
def strtol (text : List UInt8) : Option ℤ :=
  match text.dropWhile isSpace with
  | 45 :: rest => (readDigits rest).map fun (number : ℕ) => -(number : ℤ)
  | 43 :: rest => (readDigits rest).map fun (number : ℕ) => (number : ℤ)
  | rest => (readDigits rest).map fun (number : ℕ) => (number : ℤ)

/-! ## Numbers -/

namespace NumberType

/-- The smallest number that is not NULL: `BUSTUB_INT8_MIN` and so on. -/
def minValue (type : NumberType) : ℤ := -(256 ^ type.size / 2 : ℕ) + 1

/-- The largest number: `BUSTUB_INT8_MAX` and so on. -/
def maxValue (type : NumberType) : ℤ := (256 ^ type.size / 2 : ℕ) - 1

def castName : NumberType → String
  | .boolean => "BOOLEAN"
  | .tinyint => "tinyint"
  | .smallint => "smallint"
  | .integer => "Integer"
  | .bigint => "bigint"

def nullText : NumberType → List UInt8
  | .boolean => ascii "boolean_null"
  | .tinyint => ascii "tinyint_null"
  | .smallint => ascii "smallint_null"
  | .integer => ascii "integer_null"
  | .bigint => ascii "bigint_null"

end NumberType

/-- `TypeIdToString`. -/
def TypeId.typeIdToString : TypeId → String
  | .number .boolean => "BOOLEAN"
  | .number .tinyint => "TINYINT"
  | .number .smallint => "SMALLINT"
  | .number .integer => "INTEGER"
  | .number .bigint => "BIGINT"
  | .varchar => "VARCHAR"

theorem wrap_range (size : ℕ) (number : ℤ) :
    -(256 ^ size : ℕ) ≤ Int.bmod number (256 ^ size) * 2 ∧
      Int.bmod number (256 ^ size) * 2 < (256 ^ size : ℕ) := by
  have hpos : 0 < 256 ^ size := Nat.pow_pos (by decide)
  have hlower := Int.le_bmod (x := number) hpos
  have hupper := Int.bmod_lt (x := number) hpos
  constructor <;> omega

namespace Value

def wrap (type : NumberType) (number : ℤ) : Value :=
  .number type (Int.bmod number (256 ^ type.size))
    (wrap_range type.size number).1 (wrap_range type.size number).2

def nullOf (type : NumberType) : Value := wrap type (-(256 ^ type.size / 2 : ℕ))

/-- `ToString`. -/
def toString : Value → List UInt8
  | .number .boolean payload _ _ =>
    if payload = 1 then ascii "true"
    else if payload = 0 then ascii "false"
    else NumberType.boolean.nullText
  | .number type payload lower upper =>
    if (Value.number type payload lower upper).isNull then type.nullText
    else decimalText payload
  | .varchar none => ascii "varlen_null"
  | .varchar (some string) => string.data.dropLast

end Value

/-! ## The length of a text -/

theorem length_decimalDigits_le {number count : ℕ} (hpos : 0 < count)
    (h : number < 10 ^ count) : (decimalDigits number).length ≤ count := by
  unfold decimalDigits
  split_ifs with hzero
  · exact hpos
  · rw [List.length_map, List.length_reverse]
    exact (Nat.digits_length_le_iff (by decide) number).mpr h

theorem length_decimalText_le {number : ℤ} {count : ℕ} (hpos : 0 < count)
    (h : number.natAbs < 10 ^ count) : (decimalText number).length ≤ count + 1 := by
  have hdigits := length_decimalDigits_le hpos h
  unfold decimalText
  split_ifs with hneg
  · exact Nat.succ_le_succ hdigits
  · exact Nat.le_succ_of_le hdigits

theorem length_decimalText_le_of_range {type : NumberType} {payload : ℤ}
    (lower : -(256 ^ type.size : ℕ) ≤ payload * 2) (upper : payload * 2 < (256 ^ type.size : ℕ)) :
    (decimalText payload).length ≤ 21 := by
  have hsize : 256 ^ type.size ≤ 256 ^ 8 := by
    cases type <;> decide
  exact length_decimalText_le (by decide) (by omega)

theorem Value.length_toString_lt (type : NumberType) (payload : ℤ)
    (lower : -(256 ^ type.size : ℕ) ≤ payload * 2) (upper : payload * 2 < (256 ^ type.size : ℕ)) :
    ((Value.number type payload lower upper).toString ++ [0]).length < 2 ^ 32 - 1 := by
  have hnumber := length_decimalText_le_of_range lower upper
  have hnull : type.nullText.length ≤ 21 := by
    cases type <;> decide
  have hlength : (Value.number type payload lower upper).toString.length ≤ 21 := by
    cases type with
    | boolean =>
      simp only [toString]
      split_ifs <;> decide
    | tinyint | smallint | integer | bigint =>
      simp only [toString]
      split_ifs
      · exact hnull
      · exact hnumber
  rw [List.length_append, List.length_singleton]
  omega

/-! ## Casts -/

/-- `stoi` and `stoll`: the widths are those of `int` and `long long`. -/
def stoi (name : String) (width : ℕ) (text : List UInt8) : Except SqlFault ℤ :=
  match strtol text with
  | none => .error (.exception name)
  | some number =>
    if -(256 ^ width : ℕ) ≤ number * 2 ∧ number * 2 < (256 ^ width : ℕ) then .ok number
    else .error (.exception "Numeric value out of range.")

/-- The number of a text: BIGINT is read by `stoll`, the other types by `stoi`. -/
def readNumber (type : NumberType) (text : List UInt8) : Except SqlFault ℤ :=
  if type = .bigint then stoi "stoll" 8 text else stoi "stoi" 4 text

namespace Value

/-- `VarlenType::CastAs` to a type of numbers other than BOOLEAN: the number of the text is cut
to the width of the type, and refused if that is the NULL of the type. -/
def castText (type : NumberType) (text : List UInt8) : Except SqlFault Value := do
  let number ← readNumber type text
  let value := Int.bmod number (256 ^ type.size)
  if value < type.minValue then throw (.exception "Numeric value out of range.")
  return wrap type value

/-- `VarlenType::CastAs` to BOOLEAN. -/
def castBoolean (text : List UInt8) : Except SqlFault Value :=
  let text := text.map toLowerByte
  if text = ascii "true" ∨ text = ascii "1" ∨ text = ascii "t" then .ok (wrap .boolean 1)
  else if text = ascii "false" ∨ text = ascii "0" ∨ text = ascii "f" then .ok (wrap .boolean 0)
  else .error (.exception "Boolean value format error.")

/-- `CastAs` between types of numbers other than BOOLEAN; only a narrower type has a check. -/
def castNumber (source target : NumberType) (payload : ℤ) : Except SqlFault Value :=
  if payload * 2 = -(256 ^ source.size : ℕ) then .ok (nullOf target)
  else if target.size < source.size ∧ (target.maxValue < payload ∨ payload < target.minValue) then
    .error (.exception "Numeric value out of range.")
  else .ok (wrap target payload)

/-- `CastAs`. -/
def castAs (value : Value) (target : TypeId) : Except SqlFault Value :=
  match value, target with
  | .varchar data, .varchar => .ok (.varchar data)
  | .varchar data, .number .boolean => castBoolean (Value.varchar data).toString
  | .varchar data, .number type => castText type (Value.varchar data).toString
  | .number type payload lower upper, .varchar =>
    if (Value.number type payload lower upper).isNull then .ok (.varchar none)
    else .ok (.varchar (some ⟨(Value.number type payload lower upper).toString ++ [0],
      length_toString_lt type payload lower upper⟩))
  | .number .boolean payload lower upper, .number .boolean =>
    .ok (.number .boolean payload lower upper)
  | .number .boolean _ _ _, .number type =>
    .error (.exception ("BOOLEAN is not coercable to " ++ (TypeId.number type).typeIdToString))
  | .number type _ _ _, .number .boolean =>
    .error (.exception (type.castName ++ " is not coercable to BOOLEAN"))
  | .number source payload _ _, .number target => castNumber source target payload

end Value

/-! ## Reading the text of a number -/

theorem isDigit_digitByte {digit : ℕ} (h : digit < 10) : isDigit (digitByte digit) = true := by
  interval_cases digit <;> decide

theorem toNat_digitByte {digit : ℕ} (h : digit < 10) : (digitByte digit).toNat - 48 = digit := by
  interval_cases digit <;> decide

/-- The digits of a number in base ten, the highest first; zeros may stand in front. -/
def IsDigits (text : List UInt8) (number : ℕ) : Prop :=
  ∃ digits : List ℕ, digits ≠ [] ∧ (∀ digit ∈ digits, digit < 10) ∧
    text = digits.reverse.map digitByte ∧ Nat.ofDigits 10 digits = number

/-- A decimal integer literal: digits, with a sign or without. -/
inductive IsLiteral : List UInt8 → ℤ → Prop
  | unsigned {text : List UInt8} {number : ℕ} : IsDigits text number → IsLiteral text number
  | plus {text : List UInt8} {number : ℕ} : IsDigits text number → IsLiteral (43 :: text) number
  | minus {text : List UInt8} {number : ℕ} : IsDigits text number → IsLiteral (45 :: text) (-number)

theorem foldl_digits {digits : List ℕ} (h : ∀ digit ∈ digits, digit < 10) :
    (digits.reverse.map digitByte).foldl
      (fun number byte => 10 * number + (byte.toNat - 48)) 0 = Nat.ofDigits 10 digits := by
  rw [List.map_reverse, List.foldl_reverse]
  induction digits with
  | nil => rfl
  | cons digit rest ih =>
    rw [List.map_cons, List.foldr_cons,
      ih fun other hmem => h other (List.mem_cons_of_mem _ hmem),
      toNat_digitByte (h digit List.mem_cons_self), Nat.ofDigits_cons, Nat.add_comm]

variable {text : List UInt8}

theorem readDigits_of_isDigits {number : ℕ} (h : IsDigits text number) :
    readDigits text = some number := by
  obtain ⟨digits, hne, hlt, hdigits, hnumber⟩ := h
  have htake : text.takeWhile isDigit = text := by
    rw [List.takeWhile_eq_self_iff, hdigits]
    intro byte hmem
    obtain ⟨digit, hdigit, rfl⟩ := List.mem_map.mp hmem
    exact isDigit_digitByte (hlt digit (List.mem_reverse.mp hdigit))
  have hbytes : text ≠ [] := by
    rw [hdigits]
    simpa using hne
  unfold readDigits
  rw [htake]
  cases hcase : text with
  | nil => exact absurd hcase hbytes
  | cons byte rest =>
    simp only
    rw [← hcase, hdigits, foldl_digits hlt, hnumber]

theorem IsDigits.head {number : ℕ} (h : IsDigits text number) :
    ∃ byte rest, text = byte :: rest ∧ isSpace byte = false ∧ byte ≠ 45 ∧ byte ≠ 43 := by
  obtain ⟨digits, hne, hlt, hdigits, -⟩ := h
  cases hcase : digits.reverse with
  | nil => exact absurd (List.reverse_eq_nil_iff.mp hcase) hne
  | cons digit rest =>
    have hdigit : digit < 10 := hlt digit (by
      rw [← List.mem_reverse, hcase]
      exact List.mem_cons_self)
    refine ⟨digitByte digit, rest.map digitByte, by rw [hdigits, hcase, List.map_cons], ?_⟩
    interval_cases digit <;> decide

/-- **Literals** are read as the numbers they are. -/
theorem strtol_of_isLiteral {number : ℤ} (h : IsLiteral text number) :
    strtol text = some number := by
  cases h with
  | plus hdigits =>
    have hspace : isSpace 43 = false := by decide
    simp only [strtol, List.dropWhile_cons, hspace, Bool.false_eq_true, if_false,
      readDigits_of_isDigits hdigits, Option.map_some]
  | minus hdigits =>
    have hspace : isSpace 45 = false := by decide
    simp only [strtol, List.dropWhile_cons, hspace, Bool.false_eq_true, if_false,
      readDigits_of_isDigits hdigits, Option.map_some]
  | unsigned hdigits =>
    -- the text starts with a digit, so neither branch for a sign is taken
    obtain ⟨byte, rest, rfl, hspace, hminus, hplus⟩ := hdigits.head
    have hdrop : (byte :: rest).dropWhile isSpace = byte :: rest := by
      rw [List.dropWhile_cons, hspace]
      rfl
    unfold strtol
    rw [hdrop]
    split
    · rename_i heq
      exact absurd (List.cons.inj heq).1 hminus
    · rename_i heq
      exact absurd (List.cons.inj heq).1 hplus
    · rw [readDigits_of_isDigits hdigits, Option.map_some]

namespace Value

variable {type : NumberType} {payload : ℤ}

theorem isNull_number
    {lower : -(256 ^ type.size : ℕ) ≤ payload * 2} {upper : payload * 2 < (256 ^ type.size : ℕ)} :
    (Value.number type payload lower upper).isNull = true ↔
      payload * 2 = -(256 ^ type.size : ℕ) :=
  decide_eq_true_iff

theorem bmod_of_range
    (lower : -(256 ^ type.size : ℕ) ≤ payload * 2) (upper : payload * 2 < (256 ^ type.size : ℕ)) :
    Int.bmod payload (256 ^ type.size) = payload :=
  Int.bmod_eq_of_le_mul_two (by push_cast at lower ⊢; omega) (by push_cast at upper ⊢; omega)

theorem wrap_eq (lower : -(256 ^ type.size : ℕ) ≤ payload * 2)
    (upper : payload * 2 < (256 ^ type.size : ℕ)) :
    wrap type payload = .number type payload lower upper := by
  simp [wrap, bmod_of_range lower upper]

end Value

end BusTub

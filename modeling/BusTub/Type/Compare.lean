import BusTub.Type.Cast
import Mathlib.Data.List.Lex
import Mathlib.Data.Sum.Order

/-!
# Comparing values

The model of the comparison functions of the types BOOLEAN, TINYINT, SMALLINT, INTEGER, BIGINT and
VARCHAR.  The functions of a type differ in an operator only, so there is one definition with the
operator as a parameter.

The left value decides how the right one is read.  A number reads a text on its right as a number
of its own type, while a text reads a number on its right as a text.  Values that are compared
without such a cast have a place in a linear order, their `sortKey`, and the functions compare the
places.  With the cast the two ways to compare a number and a text need not agree: `1 = '01'`, but
not `'01' = 1`.
-/

namespace BusTub

open ComparisonType

/-! ## Operators -/

/-- `GetCmpBool`. -/
def getCmpBool (boolean : Bool) : CmpBool := if boolean then .cmpTrue else .cmpFalse

def ComparisonType.holds {Place : Type*} [LinearOrder Place] (type : ComparisonType)
    (left right : Place) : Bool :=
  match type with
  | .equal => left = right
  | .notEqual => left ≠ right
  | .lessThan => left < right
  | .lessThanOrEqual => left ≤ right
  | .greaterThan => right < left
  | .greaterThanOrEqual => right ≤ left

@[simp] theorem getCmpBool_eq_cmpTrue {boolean : Bool} :
    getCmpBool boolean = .cmpTrue ↔ boolean = true := by
  cases boolean <;> decide

/-! ## Strings -/

/-- The sign of `memcmp`, on as many bytes as the shorter list has. -/
def memcmp : List UInt8 → List UInt8 → ℤ
  | first :: firsts, second :: seconds =>
    if first < second then -1 else if second < first then 1 else memcmp firsts seconds
  | _, _ => 0

/-- `CompareStrings`. -/
def compareStrings (first second : List UInt8) : ℤ :=
  let ret := memcmp first second
  if ret = 0 ∧ first.length ≠ second.length then (first.length : ℤ) - second.length else ret

/-- The characters that are compared, all but the last one; their number is an `int`, which
`CompareStrings` asserts not to be negative. -/
def Varlen.chars (string : Varlen) : Except SqlFault (List UInt8) :=
  if 0 < string.data.length ∧ string.data.length ≤ 2 ^ 31 then .ok string.data.dropLast
  else .error .undefinedBehaviour

theorem Varlen.chars_eq {string : Varlen} {chars : List UInt8} (hdata : string.data = chars ++ [0])
    (hlength : chars.length < 2 ^ 31) : string.chars = .ok chars := by
  have hshort : 0 < string.data.length ∧ string.data.length ≤ 2 ^ 31 := by
    rw [hdata, List.length_append, List.length_singleton]
    omega
  rw [Varlen.chars, if_pos hshort, hdata, List.dropLast_concat]

namespace Value

/-- `CheckInteger`. -/
def checkInteger : Value → Bool
  | .number .boolean _ _ _ => false
  | .number _ _ _ _ => true
  | .varchar _ => false

/-- `CheckComparable`. -/
def checkComparable (value other : Value) : Bool :=
  match value.getTypeId, other.getTypeId with
  | .number .boolean, .number .boolean => true
  | .number .boolean, .varchar => true
  | .number .boolean, .number _ => false
  | .number _, .number .boolean => false
  | .number _, _ => true
  | .varchar, _ => true

/-- `GetAs`, with the type of the value; strings are not asked. -/
def numberOf : Value → ℤ
  | .number _ payload _ _ => payload
  | .varchar _ => 0

/-- The comparison functions of `BooleanType`, behind the check for NULL. -/
def compareBoolean (type : ComparisonType) (left : ℤ) (right : Value) :
    Except SqlFault CmpBool := do
  let right ← right.castAs (.number .boolean)
  return getCmpBool (type.holds left right.numberOf)

/-- The comparison functions of the integer types, behind the check for NULL:
`INT_COMPARE_FUNC` and its siblings. -/
def compareInteger (type : ComparisonType) (leftType : NumberType) (left : ℤ) (right : Value) :
    Except SqlFault CmpBool :=
  match right with
  | .number .boolean _ _ _ => .error (.exception "type error")
  | .number _ payload _ _ => .ok (getCmpBool (type.holds left payload))
  | .varchar data => do
      let right ← (Value.varchar data).castAs (.number leftType)
      return getCmpBool (type.holds left right.numberOf)

/-- The comparison functions of `VarlenType`, behind the check for NULL: `VARLEN_COMPARE_FUNC`.
The check for `BUSTUB_VARCHAR_MAX_LEN` is left out; it is the check for NULL again. -/
def compareVarlen (type : ComparisonType) (left : Varlen) (right : Value) :
    Except SqlFault CmpBool := do
  match ← right.castAs .varchar with
  | .varchar (some right) =>
    let str1 ← left.chars
    let str2 ← right.chars
    return getCmpBool (type.holds (compareStrings str1 str2) 0)
  | _ => throw .undefinedBehaviour

/-- The comparison functions of `Value`, which are those of the type of the left value. -/
def compare : ValueComparison := fun type left right =>
  if !left.checkComparable right then .error .undefinedBehaviour
  else if left.isNull || right.isNull then .ok .cmpNull
  else
    match left with
    | .number .boolean payload _ _ => compareBoolean type payload right
    | .number leftType payload _ _ => compareInteger type leftType payload right
    | .varchar none => .ok .cmpNull
    | .varchar (some string) => compareVarlen type string right

/-- `CompareEquals`. -/
def compareEquals : Value → Value → Except SqlFault CmpBool := compare .equal

/-- `CompareLessThan`. -/
def compareLessThan : Value → Value → Except SqlFault CmpBool := compare .lessThan

/-- `CompareGreaterThan`. -/
def compareGreaterThan : Value → Value → Except SqlFault CmpBool := compare .greaterThan

end Value

/-! ## The order of strings -/

theorem compareStrings_nil_cons (byte : UInt8) (rest : List UInt8) :
    compareStrings [] (byte :: rest) = -(rest.length + 1 : ℤ) := by
  have hlength : (byte :: rest).length ≠ ([] : List UInt8).length := by simp
  rw [compareStrings, memcmp.eq_2 _ _ (by simp), if_pos ⟨rfl, hlength.symm⟩]
  push_cast [List.length_cons, List.length_nil]
  omega

theorem compareStrings_cons_nil (byte : UInt8) (rest : List UInt8) :
    compareStrings (byte :: rest) [] = rest.length + 1 := by
  have hlength : (byte :: rest).length ≠ ([] : List UInt8).length := by simp
  rw [compareStrings, memcmp.eq_2 _ _ (by simp), if_pos ⟨rfl, hlength⟩]
  push_cast [List.length_cons, List.length_nil]
  omega

theorem compareStrings_cons_cons (first second : UInt8) (firsts seconds : List UInt8) :
    compareStrings (first :: firsts) (second :: seconds) =
      if first < second then -1 else if second < first then 1
      else compareStrings firsts seconds := by
  simp only [compareStrings, memcmp, List.length_cons, Nat.cast_add, Nat.cast_one,
    add_sub_add_right_eq_sub, ne_eq, Nat.add_right_cancel_iff]
  by_cases hless : first < second
  · simp [hless]
  · by_cases hgreater : second < first
    · simp [hless, hgreater]
    · simp [hless, hgreater]

def byteNumbers (string : List UInt8) : List ℕ := string.map UInt8.toNat

theorem byteNumbers_cons_lt_cons {first second : UInt8} {firsts seconds : List UInt8} :
    byteNumbers (first :: firsts) < byteNumbers (second :: seconds) ↔
      first < second ∨ first = second ∧ byteNumbers firsts < byteNumbers seconds := by
  rw [byteNumbers, byteNumbers, List.map_cons, List.map_cons, List.cons_lt_cons_iff,
    ← UInt8.lt_iff_toNat_lt, UInt8.toNat_inj]
  rfl

/-- `CompareStrings` is the lexicographic order of the bytes. -/
theorem compareStrings_neg_iff {first second : List UInt8} :
    compareStrings first second < 0 ↔ byteNumbers first < byteNumbers second := by
  induction first generalizing second with
  | nil =>
    cases second with
    | nil => simp [compareStrings, memcmp, byteNumbers]
    | cons head tail =>
      rw [compareStrings_nil_cons]
      exact iff_of_true (by omega) (List.nil_lt_cons _ _)
  | cons byte rest ih =>
    cases second with
    | nil =>
      rw [compareStrings_cons_nil]
      exact iff_of_false (by omega) (List.not_lt_nil _)
    | cons head tail =>
      rw [compareStrings_cons_cons, byteNumbers_cons_lt_cons, ← ih]
      -- the first byte that differs decides; on equal bytes the rest does
      by_cases hless : byte < head
      · simp [hless]
      · by_cases hgreater : head < byte
        · have hne : byte ≠ head := fun heq => UInt8.lt_irrefl head (heq ▸ hgreater)
          simp [hless, hgreater, hne]
        · have heq : byte = head :=
            UInt8.le_antisymm (UInt8.not_lt.mp hgreater) (UInt8.not_lt.mp hless)
          simp [heq]

theorem compareStrings_swap (first second : List UInt8) :
    compareStrings second first = -compareStrings first second := by
  induction first generalizing second with
  | nil =>
    cases second with
    | nil => rfl
    | cons head tail => rw [compareStrings_cons_nil, compareStrings_nil_cons, neg_neg]
  | cons byte rest ih =>
    cases second with
    | nil => rw [compareStrings_cons_nil, compareStrings_nil_cons]
    | cons head tail =>
      rw [compareStrings_cons_cons, compareStrings_cons_cons, ih]
      by_cases hless : byte < head
      · simp [hless, UInt8.lt_asymm hless]
      · by_cases hgreater : head < byte
        · simp [hless, hgreater]
        · simp [hless, hgreater]

theorem compareStrings_pos_iff {first second : List UInt8} :
    0 < compareStrings first second ↔ byteNumbers second < byteNumbers first := by
  rw [← compareStrings_neg_iff, compareStrings_swap first second]
  omega

theorem byteNumbers_injective : Function.Injective byteNumbers :=
  List.map_injective_iff.mpr fun _ _ h => UInt8.toNat_inj.mp h

/-! ## Places in a linear order -/

section Places

variable {Place Place' : Type*} [LinearOrder Place] [LinearOrder Place']

theorem holds_equal_iff {left right : Place} :
    equal.holds left right = true ↔ left = right :=
  decide_eq_true_iff

theorem holds_congr {left right : Place} {left' right' : Place'}
    (hless : left < right ↔ left' < right') (hgreater : right < left ↔ right' < left')
    (type : ComparisonType) : type.holds left right = type.holds left' right' := by
  have hequal : left = right ↔ left' = right' := by
    rw [eq_iff_le_not_lt, eq_iff_le_not_lt, ← not_lt, ← not_lt, hless, hgreater]
  cases type with
  | equal => simp only [holds, hequal]
  | notEqual => simp only [holds, ne_eq, hequal]
  | lessThan => simp only [holds, hless]
  | lessThanOrEqual => simp only [holds, ← not_lt, hgreater]
  | greaterThan => simp only [holds, hgreater]
  | greaterThanOrEqual => simp only [holds, ← not_lt, hless]

end Places

namespace Value

/-- The place of a value that is not NULL among the numbers or among the strings. -/
def sortKey : Value → Option (ℤ ⊕ₗ List ℕ)
  | .number type payload lower upper =>
    if (Value.number type payload lower upper).isNull then none else some (Sum.inlₗ payload)
  | .varchar none => none
  | .varchar (some string) =>
    match string.chars with
    | .ok chars => some (Sum.inrₗ (byteNumbers chars))
    | .error _ => none

/-- No cast between a text and a number is needed to compare the values. -/
def SameKind (first second : Value) : Prop :=
  first.getTypeId = second.getTypeId ∨ first.checkInteger = true ∧ second.checkInteger = true

theorem SameKind.symm {first second : Value} (h : SameKind first second) :
    SameKind second first :=
  h.imp Eq.symm And.symm

theorem sortKey_isSome_isNull {value : Value} {place : ℤ ⊕ₗ List ℕ}
    (h : value.sortKey = some place) : value.isNull = false := by
  cases value with
  | number type payload lower upper =>
    rw [sortKey] at h
    split_ifs at h with hnull
    exact Bool.eq_false_iff.mpr hnull
  | varchar data =>
    cases data with
    | none => cases h
    | some string => rfl

theorem sortKey_varchar_eq_some {data : Option Varlen} {place : ℤ ⊕ₗ List ℕ} :
    (Value.varchar data).sortKey = some place ↔
      ∃ string chars, data = some string ∧ string.chars = .ok chars ∧
        Sum.inrₗ (byteNumbers chars) = place := by
  cases data with
  | none => simp [sortKey]
  | some string => cases hchars : string.chars <;> simp [sortKey, hchars]

theorem compare_numbers {first second : NumberType} {left right : ℤ}
    {lower : -(256 ^ first.size : ℕ) ≤ left * 2} {upper : left * 2 < (256 ^ first.size : ℕ)}
    {lower' : -(256 ^ second.size : ℕ) ≤ right * 2} {upper' : right * 2 < (256 ^ second.size : ℕ)}
    (hkind : SameKind (.number first left lower upper) (.number second right lower' upper'))
    (hfirst : (Value.number first left lower upper).isNull = false)
    (hsecond : (Value.number second right lower' upper').isNull = false) (type : ComparisonType) :
    compare type (.number first left lower upper) (.number second right lower' upper') =
      .ok (getCmpBool (type.holds left right)) := by
  cases first with
  | boolean =>
    cases second with
    | boolean =>
      simp only [compare, checkComparable, getTypeId, hfirst, hsecond]
      rfl
    | tinyint | smallint | integer | bigint =>
      -- a BOOLEAN and another number are not of one kind
      simp [SameKind, getTypeId, checkInteger] at hkind
  | tinyint | smallint | integer | bigint =>
    cases second with
    | boolean => simp [SameKind, getTypeId, checkInteger] at hkind
    | tinyint | smallint | integer | bigint =>
      simp only [compare, checkComparable, getTypeId, hfirst, hsecond]
      rfl

variable {string : Varlen}

theorem compare_strings {string' : Varlen} {chars chars' : List UInt8}
    (hchars : string.chars = .ok chars) (hchars' : string'.chars = .ok chars')
    (type : ComparisonType) :
    compare type (.varchar (some string)) (.varchar (some string')) =
      .ok (getCmpBool (type.holds (byteNumbers chars) (byteNumbers chars'))) := by
  -- the code compares the result of `CompareStrings` with zero
  have hholds : type.holds (compareStrings chars chars') 0 =
      type.holds (byteNumbers chars) (byteNumbers chars') :=
    holds_congr compareStrings_neg_iff compareStrings_pos_iff type
  rw [← hholds]
  simp only [compare, checkComparable, getTypeId, isNull, compareVarlen, castAs, hchars, hchars',
    bind, Except.bind, pure, Except.pure]
  rfl

/-- **Values of one kind** are compared as their places. -/
theorem compare_of_sortKey {first second : Value} {left right : ℤ ⊕ₗ List ℕ}
    (hkind : SameKind first second) (hfirst : first.sortKey = some left)
    (hsecond : second.sortKey = some right) (type : ComparisonType) :
    compare type first second = .ok (getCmpBool (type.holds left right)) := by
  cases first with
  | number type₁ payload₁ lower₁ upper₁ =>
    cases second with
    | number type₂ payload₂ lower₂ upper₂ =>
      have hnull₁ := sortKey_isSome_isNull hfirst
      have hnull₂ := sortKey_isSome_isNull hsecond
      simp only [sortKey, hnull₁, hnull₂, Bool.false_eq_true, if_false,
        Option.some.injEq] at hfirst hsecond
      subst hfirst hsecond
      rw [compare_numbers hkind hnull₁ hnull₂]
      exact congrArg _ (congrArg _ (holds_congr Sum.Lex.inl_lt_inl_iff.symm
        Sum.Lex.inl_lt_inl_iff.symm type))
    | varchar data => simp [SameKind, getTypeId, checkInteger] at hkind
  | varchar data₁ =>
    cases second with
    | number type₂ payload₂ lower₂ upper₂ => simp [SameKind, getTypeId, checkInteger] at hkind
    | varchar data₂ =>
      obtain ⟨string₁, chars₁, rfl, hchars₁, rfl⟩ := sortKey_varchar_eq_some.mp hfirst
      obtain ⟨string₂, chars₂, rfl, hchars₂, rfl⟩ := sortKey_varchar_eq_some.mp hsecond
      rw [compare_strings hchars₁ hchars₂]
      exact congrArg _ (congrArg _ (holds_congr Sum.Lex.inr_lt_inr_iff.symm
        Sum.Lex.inr_lt_inr_iff.symm type))

theorem exists_sortKey {value : Value} (hnull : value.isNull = false)
    (hlength : ∀ string, value = .varchar (some string) →
      0 < string.data.length ∧ string.data.length ≤ 2 ^ 31) :
    ∃ place, value.sortKey = some place := by
  cases value with
  | number type payload lower upper => exact ⟨_, by rw [sortKey, hnull]; rfl⟩
  | varchar data =>
    cases data with
    | none => cases hnull
    | some string =>
      have hchars : string.chars = .ok string.data.dropLast := if_pos (hlength string rfl)
      exact ⟨_, by rw [sortKey, hchars]⟩

theorem checkComparable_of_eq {first second : Value} (h : first.getTypeId = second.getTypeId) :
    first.checkComparable second = true := by
  rw [checkComparable, h]
  cases second with
  | number type payload lower upper => cases type <;> rfl
  | varchar data => rfl

theorem sortKey_eq_none {value : Value} (h : value.isNull = true) : value.sortKey = none := by
  cases hsortKey : value.sortKey with
  | none => rfl
  | some place => exact absurd (sortKey_isSome_isNull hsortKey) (by simp [h])

theorem compare_null {first second : Value} (htype : first.getTypeId = second.getTypeId)
    (hnull : first.isNull = true ∨ second.isNull = true) (type : ComparisonType) :
    compare type first second = .ok .cmpNull := by
  simp [compare, checkComparable_of_eq htype, hnull]

/-! ## The laws -/

def Says (type : ComparisonType) (first second : Value) : Prop :=
  compare type first second = .ok .cmpTrue

def Compares (first second : Value) : Prop :=
  ∀ type, ∃ truth, compare type first second = .ok truth

/-- The six comparisons of two values fit together. -/
structure Trichotomous (first second : Value) : Prop where
  less_or_equal_or_greater : Says .lessThan first second ∨ Says .equal first second ∨
    Says .greaterThan first second
  not_less_and_equal : ¬ (Says .lessThan first second ∧ Says .equal first second)
  not_less_and_greater : ¬ (Says .lessThan first second ∧ Says .greaterThan first second)
  not_equal_and_greater : ¬ (Says .equal first second ∧ Says .greaterThan first second)
  notEqual_iff : Says .notEqual first second ↔ ¬ Says .equal first second
  lessThanOrEqual_iff : Says .lessThanOrEqual first second ↔
    Says .lessThan first second ∨ Says .equal first second
  greaterThanOrEqual_iff : Says .greaterThanOrEqual first second ↔
    Says .greaterThan first second ∨ Says .equal first second

structure Symmetric (first second : Value) : Prop where
  equal_iff : Says .equal first second ↔ Says .equal second first
  notEqual_iff : Says .notEqual first second ↔ Says .notEqual second first
  lessThan_iff : Says .lessThan first second ↔ Says .greaterThan second first
  lessThanOrEqual_iff : Says .lessThanOrEqual first second ↔ Says .greaterThanOrEqual second first

variable {first second : Value}

/-- The two values have places such that the comparisons are those of the places. -/
def ComparedAs {Place : Type*} [LinearOrder Place] (first second : Value) (left right : Place) :
    Prop :=
  ∀ type, compare type first second = .ok (getCmpBool (type.holds left right))

theorem ComparedAs.says_iff {Place : Type*} [LinearOrder Place] {left right : Place}
    (h : ComparedAs first second left right) (type : ComparisonType) :
    Says type first second ↔ type.holds left right = true := by
  rw [Says, h type, Except.ok.injEq, getCmpBool_eq_cmpTrue]

theorem ComparedAs.trichotomous {Place : Type*} [LinearOrder Place] {left right : Place}
    (h : ComparedAs first second left right) : Trichotomous first second := by
  constructor <;> simp only [h.says_iff, holds, decide_eq_true_eq]
  · exact lt_trichotomy left right
  · exact fun ⟨hless, hequal⟩ => hless.ne hequal
  · exact fun ⟨hless, hgreater⟩ => hless.asymm hgreater
  · exact fun ⟨hequal, hgreater⟩ => hgreater.ne' hequal
  · exact le_iff_lt_or_eq
  · rw [le_iff_lt_or_eq, @eq_comm _ left right]

theorem ComparedAs.symmetric {Place : Type*} [LinearOrder Place] {left right : Place}
    (h : ComparedAs first second left right) (h' : ComparedAs second first right left) :
    Symmetric first second := by
  constructor <;> simp only [h.says_iff, h'.says_iff, holds, decide_eq_true_eq]
  · exact eq_comm
  · exact ne_comm

theorem exists_sortKey_of_compares {string' : Varlen}
    (h : Compares (.varchar (some string)) (.varchar (some string'))) :
    (∃ place, (Value.varchar (some string)).sortKey = some place) ∧
      ∃ place, (Value.varchar (some string')).sortKey = some place := by
  obtain ⟨truth, htruth⟩ := h .equal
  simp only [compare, checkComparable, getTypeId, isNull, compareVarlen, castAs, bind,
    Except.bind] at htruth
  cases hchars : string.chars with
  | error fault => simp [hchars] at htruth
  | ok chars =>
    cases hchars' : string'.chars with
    | error fault => simp [hchars, hchars'] at htruth
    | ok chars' =>
      simp only [sortKey, hchars, hchars']
      exact ⟨⟨_, rfl⟩, ⟨_, rfl⟩⟩

theorem SameKind.exists_sortKey (hkind : SameKind first second) (hfirst : first.isNull = false)
    (hsecond : second.isNull = false) (h : Compares first second) :
    (∃ place, first.sortKey = some place) ∧ ∃ place, second.sortKey = some place := by
  cases first with
  | number type payload lower upper =>
    cases second with
    | number type' payload' lower' upper' =>
      exact ⟨⟨_, by rw [sortKey, hfirst]; rfl⟩, ⟨_, by rw [sortKey, hsecond]; rfl⟩⟩
    | varchar data => simp [SameKind, getTypeId, checkInteger] at hkind
  | varchar data =>
    cases second with
    | number type' payload' lower' upper' => simp [SameKind, getTypeId, checkInteger] at hkind
    | varchar data' =>
      cases data with
      | none => cases hfirst
      | some string =>
        cases data' with
        | none => cases hsecond
        | some string' => exact exists_sortKey_of_compares h

theorem sameKind_of_iff (hfirst : first.getTypeId ≠ .number .boolean)
    (hsecond : second.getTypeId ≠ .number .boolean)
    (h : first.getTypeId = .varchar ↔ second.getTypeId = .varchar) : SameKind first second := by
  rcases first with ⟨_ | _ | _ | _ | _, _, _, _⟩ | data <;>
    rcases second with ⟨_ | _ | _ | _ | _, _, _, _⟩ | data' <;>
      simp_all [SameKind, getTypeId, checkInteger]

/-- The operator is applied to two numbers, which do not depend on it. -/
def HasOperands (comparison : ComparisonType → Except SqlFault CmpBool) : Prop :=
  ∃ operands : Except SqlFault (ℤ × ℤ), ∀ type, comparison type =
    operands.map fun pair => getCmpBool (type.holds pair.1 pair.2)

theorem hasOperands_error (fault : SqlFault) : HasOperands fun _ => .error fault :=
  ⟨.error fault, fun _ => rfl⟩

theorem hasOperands_compareBoolean (left : ℤ) (right : Value) :
    HasOperands fun type => compareBoolean type left right := by
  refine ⟨(right.castAs (.number .boolean)).map fun right => (left, right.numberOf), fun type => ?_⟩
  simp only [compareBoolean]
  cases right.castAs (.number .boolean) <;> rfl

theorem hasOperands_compareInteger (leftType : NumberType) (left : ℤ) (right : Value) :
    HasOperands fun type => compareInteger type leftType left right := by
  cases right with
  | number rightType payload lower upper =>
    cases rightType with
    | boolean => exact hasOperands_error _
    | tinyint | smallint | integer | bigint => exact ⟨.ok (left, payload), fun type => rfl⟩
  | varchar data =>
    refine ⟨((Value.varchar data).castAs (.number leftType)).map fun right =>
      (left, right.numberOf), fun type => ?_⟩
    simp only [compareInteger]
    cases (Value.varchar data).castAs (.number leftType) <;> rfl

theorem hasOperands_compareVarlen (left : Varlen) (right : Value) :
    HasOperands fun type => compareVarlen type left right := by
  unfold compareVarlen
  cases right.castAs .varchar with
  | error fault => exact hasOperands_error _
  | ok value =>
    cases value with
    | number type payload lower upper => exact hasOperands_error _
    | varchar data =>
      cases data with
      | none => exact hasOperands_error _
      | some string =>
        simp only [bind, Except.bind]
        cases left.chars with
        | error fault => exact hasOperands_error _
        | ok str1 =>
          cases string.chars with
          | error fault => exact hasOperands_error _
          | ok str2 => exact ⟨.ok (compareStrings str1 str2, 0), fun type => rfl⟩

theorem hasOperands_compare (hfirst : first.isNull = false) (hsecond : second.isNull = false) :
    HasOperands fun type => compare type first second := by
  cases hcomparable : first.checkComparable second with
  | false =>
    simp only [compare, hcomparable, Bool.not_false, if_true]
    exact hasOperands_error _
  | true =>
    simp only [compare, hcomparable, hfirst, hsecond, Bool.not_true, Bool.or_self,
      Bool.false_eq_true, if_false]
    cases first with
    | number leftType left lower upper =>
      cases leftType with
      | boolean => exact hasOperands_compareBoolean left second
      | tinyint | smallint | integer | bigint =>
        exact hasOperands_compareInteger _ left second
    | varchar data =>
      cases data with
      | none => cases hfirst
      | some string => exact hasOperands_compareVarlen string second

theorem Compares.exists_comparedAs (h : Compares first second) (hfirst : first.isNull = false)
    (hsecond : second.isNull = false) : ∃ left right : ℤ, ComparedAs first second left right := by
  obtain ⟨operands, hoperands⟩ := hasOperands_compare hfirst hsecond
  obtain ⟨truth, htruth⟩ := h .equal
  cases operands with
  | error fault =>
    cases (hoperands .equal).symm.trans htruth
  | ok pair => exact ⟨pair.1, pair.2, hoperands⟩

variable {type : NumberType}

/-- The text `01`, with its terminator. -/
def zeroOne : Value := .varchar (some ⟨[48, 49, 0], by decide⟩)

end Value

end BusTub

import BusTub.Type.Compare
import BusTub.Library.TwosComplement

/-!
# Arithmetic on values

The model of `Add`, `Subtract`, `Multiply`, `Divide` and `Modulo` of the types TINYINT, SMALLINT,
INTEGER and BIGINT: the templates of `integer_parent_type.h`, and the macros `INT_MODIFY_FUNC`
that choose the widths.

The templates take two operands of any two widths.  C++ computes in the wider of the two, and at
least in an `int`; the result is then cut to the wider type of the operands.  Whether that went
well is decided afterwards, from the cut result.  The decision is right for all pairs of widths:
the result is returned if the wider type has a number for it.  But the smallest number of a type
is its NULL, and nothing looks at that.  So a sum, difference or product is exact or refused
unless it is this very number, which comes out as NULL.
-/

namespace BusTub

open TwosComplement

/-- The exception `OUT_OF_RANGE`, which always has this message. -/
def SqlFault.outOfRange : SqlFault := .exception "Numeric value out of range."

namespace NumberType

/-- How many values a type has, with NULL. -/
def modulus (type : NumberType) : ℕ := 256 ^ type.size

/-- How many values the type has in which C++ computes: that of the wider operand, or `int`. -/
def commonModulus (first second : NumberType) : ℕ := 256 ^ max 4 (max first.size second.size)

def wider (first second : NumberType) : NumberType :=
  if second.size ≤ first.size then first else second

end NumberType

open NumberType

/-! ## The templates -/

namespace Value

/-- What `AddValue`, `SubtractValue` and `MultiplyValue` share; the test for an overflow is
applied to the operands and the result in the wider type. -/
def modifyValue (operate : ℤ → ℤ → ℤ) (overflows : ℤ → ℤ → ℤ → Bool)
    (first second : NumberType) (x y : ℤ) : Except SqlFault Value :=
  let result := Int.bmod (operate x y) (commonModulus first second)
  let result1 := Int.bmod result first.modulus
  let result2 := Int.bmod result second.modulus
  if result ≠ result1 ∧ result ≠ result2 then .error .outOfRange
  else if second.size ≤ first.size then
    if overflows x y result1 then .error .outOfRange else .ok (wrap first result1)
  else if overflows x y result2 then .error .outOfRange
  else .ok (wrap second result2)

/-- `AddValue`. -/
def addValue : NumberType → NumberType → ℤ → ℤ → Except SqlFault Value :=
  modifyValue (· + ·) fun x y sum => (0 < x ∧ 0 < y ∧ sum < 0) ∨ (x < 0 ∧ y < 0 ∧ 0 < sum)

/-- `SubtractValue`. -/
def subtractValue : NumberType → NumberType → ℤ → ℤ → Except SqlFault Value :=
  modifyValue (· - ·) fun x y diff => (0 < x ∧ y < 0 ∧ diff < 0) ∨ (x < 0 ∧ 0 < y ∧ 0 < diff)

/-- `MultiplyValue`; the quotient of the test is computed in the common type as well. -/
def multiplyValue (first second : NumberType) : ℤ → ℤ → Except SqlFault Value :=
  modifyValue (· * ·)
    (fun x y prod => y ≠ 0 ∧ Int.bmod (prod.tdiv y) (commonModulus first second) ≠ x) first second

/-- What `DivideValue` and `ModuloValue` share. -/
def quotientValue (operate : ℤ → ℤ → ℤ) (first second : NumberType) (x y : ℤ) :
    Except SqlFault Value :=
  if y = 0 then .error (.exception "Division by zero.")
  else
    let quot := Int.bmod (operate x y) (commonModulus first second)
    if second.size ≤ first.size then .ok (wrap first quot) else .ok (wrap second quot)

/-- `DivideValue`. -/
def divideValue : NumberType → NumberType → ℤ → ℤ → Except SqlFault Value :=
  quotientValue Int.tdiv

/-- `ModuloValue`. -/
def moduloValue : NumberType → NumberType → ℤ → ℤ → Except SqlFault Value :=
  quotientValue Int.tmod

end Value

/-! ## The functions of the types -/

inductive IntegerOperation
  | add
  | subtract
  | multiply
  | divide
  | modulo
deriving DecidableEq, Repr

namespace IntegerOperation

def method : IntegerOperation → NumberType → NumberType → ℤ → ℤ → Except SqlFault Value
  | .add => Value.addValue
  | .subtract => Value.subtractValue
  | .multiply => Value.multiplyValue
  | .divide => Value.divideValue
  | .modulo => Value.moduloValue

/-- The message of the function in `type.cpp`, which other types do not override. -/
def notImplemented : IntegerOperation → String
  | .add => "Add not implemented"
  | .subtract => "Subtract not implemented"
  | .multiply => "Multiply not implemented"
  | .divide => "Divide not implemented"
  | .modulo => "Modulo not implemented"

/-- `Divide` and `Modulo` look at their divisor. -/
def divides : IntegerOperation → Bool
  | .divide | .modulo => true
  | .add | .subtract | .multiply => false

def apply : IntegerOperation → ℤ → ℤ → ℤ
  | .add => (· + ·)
  | .subtract => (· - ·)
  | .multiply => (· * ·)
  | .divide => Int.tdiv
  | .modulo => Int.tmod

end IntegerOperation

namespace Value

/-- `IsZero`. -/
def isZero : Value → Except SqlFault Bool
  | .number .boolean _ _ _ => .error (.exception "isZero not implemented")
  | .number _ payload _ _ => .ok (payload = 0)
  | .varchar _ => .error (.exception "isZero not implemented")

/-- `OperateNull` of the integer types. -/
def operateNull (leftType : NumberType) (right : Value) : Except SqlFault Value :=
  match right.getTypeId with
  | .number .boolean => .error (.exception "type error")
  | .number rightType => .ok (nullOf (wider leftType rightType))
  | .varchar => .error (.exception "type error")

def checkDivisor (operation : IntegerOperation) (right : Value) : Except SqlFault Unit :=
  if operation.divides then do
    if ← right.isZero then throw (.exception "Division by zero on right-hand side")
  else .ok ()

/-- `INT_MODIFY_FUNC` and its siblings. -/
def modifyFunc (operation : IntegerOperation) (leftType : NumberType) (x : ℤ) (right : Value) :
    Except SqlFault Value :=
  match right with
  | .number .boolean _ _ _ => .error (.exception "type error")
  | .number rightType y _ _ => operation.method leftType rightType x y
  | .varchar data => do
      let rValue ← (Value.varchar data).castAs (.number leftType)
      operation.method leftType leftType x rValue.numberOf

/-- The functions of the integer types, and those that the other types inherit. -/
def modify (operation : IntegerOperation) (left right : Value) : Except SqlFault Value :=
  match left with
  | .number .boolean _ _ _ => .error (.exception operation.notImplemented)
  | .number leftType x lower upper =>
    if !(Value.number leftType x lower upper).checkComparable right then
      .error .undefinedBehaviour
    else if (Value.number leftType x lower upper).isNull || right.isNull then
      operateNull leftType right
    else do
      checkDivisor operation right
      modifyFunc operation leftType x right
  | .varchar _ => .error (.exception operation.notImplemented)

/-- `Add`. -/
def add : Value → Value → Except SqlFault Value := modify .add

/-- `Subtract`. -/
def subtract : Value → Value → Except SqlFault Value := modify .subtract

/-- `Multiply`. -/
def multiply : Value → Value → Except SqlFault Value := modify .multiply

/-- `Divide`. -/
def divide : Value → Value → Except SqlFault Value := modify .divide

/-- `Modulo`. -/
def modulo : Value → Value → Except SqlFault Value := modify .modulo

/-! ## Exact results -/

/-- A value that is not NULL, by its type and its number. -/
structure IsNumber (value : Value) (type : NumberType) (number : ℤ) : Prop where
  getTypeId_eq : value.getTypeId = .number type
  isNull_eq : value.isNull = false
  numberOf_eq : value.numberOf = number

/-- The exact result: the value for a number if the type has one, and otherwise the exception
`OUT_OF_RANGE`. -/
def ExactOrRefused (type : NumberType) (number : ℤ) (outcome : Except SqlFault Value) : Prop :=
  (∃ value : Value, outcome = .ok value ∧ value.IsNumber type number) ∨
    (¬ ∃ value : Value, value.IsNumber type number) ∧ outcome = .error .outOfRange

variable {type : NumberType} {number : ℤ}

theorem IsNumber.proper {value : Value}
    (h : value.IsNumber type number) : Proper type.modulus number := by
  obtain ⟨htype, hnull, rfl⟩ := h
  cases value with
  | varchar data => cases htype
  | number source payload lower upper =>
    obtain rfl := TypeId.number.inj htype
    refine proper_iff_fits.mpr ⟨⟨lower, upper⟩, fun heq => ?_⟩
    exact Bool.false_ne_true (hnull.symm.trans (isNull_number.mpr heq))

theorem isNumber_wrap (h : Proper type.modulus number) :
    (wrap type number).IsNumber type number := by
  have hlower : -(256 ^ type.size : ℕ) ≤ number * 2 := h.fits.1
  have hupper : number * 2 < (256 ^ type.size : ℕ) := h.fits.2
  rw [wrap_eq hlower hupper]
  refine ⟨rfl, ?_, rfl⟩
  rw [Bool.eq_false_iff, ne_eq, isNull_number]
  exact (proper_iff_fits.mp h).2

theorem exists_isNumber_iff :
    (∃ value : Value, value.IsNumber type number) ↔ Proper type.modulus number :=
  ⟨fun ⟨_, h⟩ => h.proper, fun h => ⟨_, isNumber_wrap h⟩⟩

theorem exactOrRefused_ok (h : Proper type.modulus number) :
    ExactOrRefused type number (.ok (wrap type number)) :=
  .inl ⟨_, rfl, isNumber_wrap h⟩

theorem exactOrRefused_error
    (h : ¬ Proper type.modulus number) : ExactOrRefused type number (.error .outOfRange) :=
  .inr ⟨fun hvalue => h (exists_isNumber_iff.mp hvalue), rfl⟩

theorem not_exactOrRefused_null {value : Value}
    (hnull : value.isNull = true) : ¬ ExactOrRefused type number (.ok value) := by
  rintro (⟨other, heq, hother⟩ | ⟨-, heq⟩)
  · cases heq
    exact Bool.false_ne_true (hother.isNull_eq.symm.trans hnull)
  · cases heq

end Value

/-! ## The templates are right up to NULL -/

namespace NumberType

theorem two_mul_half_modulus (type : NumberType) : 2 * (256 ^ type.size / 2) = type.modulus := by
  cases type <;> decide

theorem modulus_pos (type : NumberType) : 0 < type.modulus := Nat.pow_pos (by decide)

theorem modulus_le_modulus {first second : NumberType} (h : first.size ≤ second.size) :
    first.modulus ≤ second.modulus :=
  Nat.pow_le_pow_right (by decide) h

theorem modulus_dvd_commonModulus (first second : NumberType) :
    (wider first second).modulus ∣ commonModulus first second := by
  refine pow_dvd_pow 256 ?_
  unfold wider
  split_ifs <;> omega

theorem wider_le_common (first second : NumberType) :
    (wider first second).modulus ≤ commonModulus first second :=
  Nat.le_of_dvd (Nat.pow_pos (by decide)) (modulus_dvd_commonModulus first second)

theorem left_le_wider (first second : NumberType) :
    first.modulus ≤ (wider first second).modulus := by
  unfold wider
  split_ifs with h
  · exact le_rfl
  · exact modulus_le_modulus (by omega)

theorem right_le_wider (first second : NumberType) :
    second.modulus ≤ (wider first second).modulus := by
  unfold wider
  split_ifs with h
  · exact modulus_le_modulus h
  · exact le_rfl

theorem wider_eq_common_or_narrow (first second : NumberType) :
    (wider first second).modulus = commonModulus first second ∨
      (wider first second).modulus ≤ 2 ^ 16 ∧ commonModulus first second = 2 ^ 32 := by
  cases first <;> cases second <;> decide

end NumberType

namespace Value

variable {first second : NumberType} {x y : ℤ} {operate : ℤ → ℤ → ℤ}
  {overflows : ℤ → ℤ → ℤ → Bool}

theorem modifyValue_eq_wider :
    modifyValue operate overflows first second x y =
      let result := Int.bmod (operate x y) (commonModulus first second)
      let cut := Int.bmod result (wider first second).modulus
      if result ≠ cut then .error .outOfRange
      else if overflows x y cut then .error .outOfRange
      else .ok (wrap (wider first second) cut) := by
  -- what the narrower type can hold, the wider one can hold
  have hnarrow : ∀ result : ℤ, result = Int.bmod result first.modulus ∨
      result = Int.bmod result second.modulus → result = Int.bmod result
        (wider first second).modulus := by
    rintro result (h | h)
    · have hfits := (bmod_eq_self_iff first.modulus_pos).mp h.symm
      exact (hfits.mono (left_le_wider first second)).bmod_eq.symm
    · have hfits := (bmod_eq_self_iff second.modulus_pos).mp h.symm
      exact (hfits.mono (right_le_wider first second)).bmod_eq.symm
  have hcheck : ∀ result : ℤ, (result ≠ Int.bmod result first.modulus ∧
      result ≠ Int.bmod result second.modulus) ↔
        result ≠ Int.bmod result (wider first second).modulus := by
    intro result
    rw [← not_or, not_iff_not]
    refine ⟨hnarrow result, fun h => ?_⟩
    unfold wider at h
    split_ifs at h
    · exact .inl h
    · exact .inr h
  simp only [modifyValue, hcheck]
  unfold wider
  split_ifs <;> rfl

/-- A template whose test for an overflow is right returns the result if the wider type has a
number for it, which may be its NULL, and refuses it otherwise. -/
theorem modifyValue_eq
    (hoverflows : overflows x y (Int.bmod (operate x y) (wider first second).modulus) = true ↔
      ¬ Fits (wider first second).modulus (operate x y))
    (hcommon : (wider first second).modulus = commonModulus first second ∨
      Fits (commonModulus first second) (operate x y)) :
    modifyValue operate overflows first second x y =
      if Fits (wider first second).modulus (operate x y) then
        .ok (wrap (wider first second) (operate x y))
      else .error .outOfRange := by
  have hcut : Int.bmod (Int.bmod (operate x y) (commonModulus first second))
      (wider first second).modulus = Int.bmod (operate x y) (wider first second).modulus :=
    Int.bmod_bmod_of_dvd (modulus_dvd_commonModulus first second)
  rw [modifyValue_eq_wider]
  simp only [hcut]
  by_cases hfits : Fits (wider first second).modulus (operate x y)
  · have hresult : Int.bmod (operate x y) (commonModulus first second) = operate x y := by
      rcases hcommon with heq | hroom
      · rw [← heq, hfits.bmod_eq]
      · exact hroom.bmod_eq
    have hquiet : ¬ overflows x y (operate x y) = true := by
      rw [hfits.bmod_eq] at hoverflows
      exact fun h => hoverflows.mp h hfits
    rw [hresult, hfits.bmod_eq, if_neg (not_not_intro rfl), if_neg hquiet, if_pos hfits]
  · rw [if_neg hfits]
    rcases hcommon with heq | hroom
    -- in the common type itself the test finds out
    · rw [if_pos (hoverflows.mpr hfits), ite_self]
    -- in a wider one the two results differ
    · refine if_pos fun heq => hfits ?_
      rw [hroom.bmod_eq] at heq
      exact (bmod_eq_self_iff (modulus_pos _)).mp heq.symm

theorem common_or_fits {result : ℤ}
    (hresult : ∀ bound : ℕ, Proper bound x → Proper bound y → bound ≤ 2 ^ 16 →
      Fits (2 ^ 32) result)
    (hx : Proper first.modulus x) (hy : Proper second.modulus y) :
    (wider first second).modulus = commonModulus first second ∨
      Fits (commonModulus first second) result := by
  refine (wider_eq_common_or_narrow first second).imp_right fun ⟨hnarrow, hcommon⟩ => ?_
  rw [hcommon]
  exact hresult _ (hx.mono (left_le_wider first second)) (hy.mono (right_le_wider first second))
    hnarrow

theorem addValue_eq (hx : Proper first.modulus x) (hy : Proper second.modulus y) :
    addValue first second x y =
      if Fits (wider first second).modulus (x + y) then .ok (wrap (wider first second) (x + y))
      else .error .outOfRange := by
  refine modifyValue_eq ?_ (common_or_fits (fun bound hx hy hbound => ?_) hx hy)
  · rw [decide_eq_true_iff]
    exact add_overflows_iff (hx.mono (left_le_wider first second))
      (hy.mono (right_le_wider first second))
  · unfold Proper at hx hy
    unfold Fits
    omega

theorem subtractValue_eq (hx : Proper first.modulus x) (hy : Proper second.modulus y) :
    subtractValue first second x y =
      if Fits (wider first second).modulus (x - y) then .ok (wrap (wider first second) (x - y))
      else .error .outOfRange := by
  refine modifyValue_eq ?_ (common_or_fits (fun bound hx hy hbound => ?_) hx hy)
  · rw [decide_eq_true_iff]
    exact sub_overflows_iff (hx.mono (left_le_wider first second))
      (hy.mono (right_le_wider first second))
  · unfold Proper at hx hy
    unfold Fits
    omega

theorem multiplyValue_eq (hx : Proper first.modulus x) (hy : Proper second.modulus y) :
    multiplyValue first second x y =
      if Fits (wider first second).modulus (x * y) then .ok (wrap (wider first second) (x * y))
      else .error .outOfRange := by
  refine modifyValue_eq ?_ (common_or_fits (fun bound hx hy hbound => ?_) hx hy)
  · rw [decide_eq_true_iff]
    exact mul_overflows_iff (hx.mono (left_le_wider first second))
      (hy.mono (right_le_wider first second)) (wider_le_common first second)
  · have hroom : bound * bound ≤ 2 ^ 16 * 2 ^ 16 := Nat.mul_le_mul hbound hbound
    exact (hx.mul hy).mono hroom

theorem quotientValue_eq (hy : y ≠ 0) (hresult : Proper first.modulus (operate x y)) :
    quotientValue operate first second x y = .ok (wrap (wider first second) (operate x y)) := by
  have hfits : Fits (commonModulus first second) (operate x y) :=
    hresult.fits.mono ((left_le_wider first second).trans (wider_le_common first second))
  simp only [quotientValue, if_neg hy, hfits.bmod_eq]
  unfold wider
  split_ifs <;> rfl

variable {operation : IntegerOperation}

/-- The templates return the result if the wider type has a number for it, and refuse it
otherwise. -/
theorem method_eq (hx : Proper first.modulus x)
    (hy : Proper second.modulus y) (hzero : operation.divides = true → y ≠ 0) :
    operation.method first second x y =
      if Fits (wider first second).modulus (operation.apply x y) then
        .ok (wrap (wider first second) (operation.apply x y))
      else .error .outOfRange := by
  cases operation with
  | add => exact addValue_eq hx hy
  | subtract => exact subtractValue_eq hx hy
  | multiply => exact multiplyValue_eq hx hy
  | divide =>
    have hproper := hx.tdiv y
    exact (quotientValue_eq (hzero rfl) hproper).trans
      (if_pos (hproper.fits.mono (left_le_wider first second))).symm
  | modulo =>
    have hproper := hx.tmod y
    exact (quotientValue_eq (hzero rfl) hproper).trans
      (if_pos (hproper.fits.mono (left_le_wider first second))).symm

/-! ## The functions are exact up to NULL -/

theorem checkDivisor_eq {right : Value}
    (hright : right.IsNumber second y) (hsecond : second ≠ .boolean)
    (hzero : operation.divides = true → y ≠ 0) : checkDivisor operation right = .ok () := by
  obtain ⟨htype, -, rfl⟩ := hright
  unfold checkDivisor
  split_ifs with hdivides
  · cases right with
    | varchar data => cases htype
    | number type payload lower upper =>
      obtain rfl := TypeId.number.inj htype
      have hpayload : payload ≠ 0 := hzero hdivides
      cases type with
      | boolean => exact absurd rfl hsecond
      | tinyint | smallint | integer | bigint =>
        simp [isZero, hpayload, bind, Except.bind, pure, Except.pure]
  · rfl

theorem modify_eq {left right : Value}
    (hfirst : first ≠ .boolean) (hsecond : second ≠ .boolean) (hleft : left.IsNumber first x)
    (hright : right.IsNumber second y) (hzero : operation.divides = true → y ≠ 0) :
    modify operation left right = operation.method first second x y := by
  have hdivisor := checkDivisor_eq hright hsecond hzero
  obtain ⟨hleftType, hleftNull, rfl⟩ := hleft
  obtain ⟨hrightType, hrightNull, rfl⟩ := hright
  cases left with
  | varchar data => cases hleftType
  | number leftType payload lower upper =>
    obtain rfl := TypeId.number.inj hleftType
    cases right with
    | varchar data => cases hrightType
    | number rightType other lower' upper' =>
      obtain rfl := TypeId.number.inj hrightType
      -- the checks of the source all pass, which leaves the method for the two widths
      have hcomparable : (Value.number leftType payload lower upper).checkComparable
          (.number rightType other lower' upper') = true := by
        cases leftType <;> cases rightType <;> first | rfl | exact absurd rfl ‹_›
      have hfunc : modifyFunc operation leftType payload (.number rightType other lower' upper')
          = operation.method leftType rightType payload other := by
        cases rightType with
        | boolean => exact absurd rfl hsecond
        | tinyint | smallint | integer | bigint => rfl
      cases leftType with
      | boolean => exact absurd rfl hfirst
      | tinyint | smallint | integer | bigint =>
        simp only [modify, hcomparable, hleftNull, hrightNull, hdivisor, hfunc, numberOf,
          Bool.not_true, Bool.or_self, Bool.false_eq_true, if_false, bind, Except.bind]

theorem wrap_eq_nullOf {type : NumberType} {number : ℤ} (h : number * 2 = -type.modulus) :
    wrap type number = nullOf type := by
  have heven := type.two_mul_half_modulus
  have hnumber : number = -(256 ^ type.size / 2 : ℕ) := by omega
  rw [nullOf, hnumber]

theorem isNull_nullOf (type : NumberType) : (nullOf type).isNull = true := by
  cases type <;> decide

/-- What is returned if the type has a number for it, and refused otherwise, is exact or refused
unless it is the NULL of the type. -/
theorem exactOrRefused_iff_of_fits {type : NumberType} {number : ℤ}
    {outcome : Except SqlFault Value}
    (houtcome : outcome = if Fits type.modulus number then .ok (wrap type number)
      else .error .outOfRange) :
    ExactOrRefused type number outcome ↔ number * 2 ≠ -type.modulus := by
  have hpos := type.modulus_pos
  rw [houtcome]
  constructor
  · intro hexact hnull
    have hfits : Fits type.modulus number := by
      unfold Fits
      omega
    rw [if_pos hfits, wrap_eq_nullOf hnull] at hexact
    exact not_exactOrRefused_null (isNull_nullOf type) hexact
  · intro hnull
    split_ifs with hfits
    · exact exactOrRefused_ok (proper_iff_fits.mpr ⟨hfits, hnull⟩)
    · exact exactOrRefused_error fun hproper => hfits hproper.fits

/-- **Arithmetic on values.**  For integers of any two widths that are not NULL, a sum,
difference, product, quotient or remainder is exact or refused, unless it is the smallest number
of the wider type.  Then NULL is returned; quotients and remainders are never this number. -/
theorem modify_exactOrRefused_iff {operation : IntegerOperation} {left right : Value}
    (hfirst : first ≠ .boolean) (hsecond : second ≠ .boolean) (hleft : left.IsNumber first x)
    (hright : right.IsNumber second y) (hzero : operation.divides = true → y ≠ 0) :
    (ExactOrRefused (wider first second) (operation.apply x y) (modify operation left right) ↔
      operation.apply x y * 2 ≠ -(wider first second).modulus) ∧
    (operation.apply x y * 2 = -(wider first second).modulus →
      operation.divides = false ∧
        modify operation left right = .ok (nullOf (wider first second))) := by
  have hmodify := (modify_eq hfirst hsecond hleft hright hzero).trans
    (method_eq hleft.proper hright.proper hzero)
  refine ⟨exactOrRefused_iff_of_fits hmodify, fun hnull => ⟨?_, ?_⟩⟩
  · -- a quotient or remainder is proper, as the number that is divided is
    have hwide := hleft.proper.mono (left_le_wider first second)
    cases operation with
    | divide => exact absurd hnull (proper_iff_fits.mp (hwide.tdiv y)).2
    | modulo => exact absurd hnull (proper_iff_fits.mp (hwide.tmod y)).2
    | add | subtract | multiply => rfl
  · have hpos := (wider first second).modulus_pos
    have hfits : Fits (wider first second).modulus (operation.apply x y) := by
      unfold Fits
      omega
    rw [hmodify, if_pos hfits, wrap_eq_nullOf hnull]

/-- The sum 100 + 100 of two TINYINT values is refused, and 100 + 1000 with a SMALLINT is exact. -/
theorem modify_exactOrRefused_small :
    ExactOrRefused .tinyint 200 (add (wrap .tinyint 100) (wrap .tinyint 100)) ∧
      ExactOrRefused .smallint 1100 (add (wrap .tinyint 100) (wrap .smallint 1000)) :=
  ⟨(modify_exactOrRefused_iff (by decide) (by decide) (isNumber_wrap (by decide))
      (isNumber_wrap (by decide)) (by decide)).1.mpr (by decide),
    (modify_exactOrRefused_iff (by decide) (by decide) (isNumber_wrap (by decide))
      (isNumber_wrap (by decide)) (by decide)).1.mpr (by decide)⟩

/-- There is no TINYINT value for -128, but the sum -64 + -64 is not refused. -/
theorem not_exactOrRefused_add :
    ¬ ExactOrRefused .tinyint (-128) (add (wrap .tinyint (-64)) (wrap .tinyint (-64))) := by
  have hsum : add (wrap .tinyint (-64)) (wrap .tinyint (-64)) = .ok (nullOf .tinyint) := by
    decide
  exact not_exactOrRefused_null (isNull_nullOf .tinyint)

end Value

end BusTub

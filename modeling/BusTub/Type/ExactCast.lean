import BusTub.Type.Arithmetic

/-!
# Casts to integer types

The casts of `ValueFactory`, which repeat those of the types, and when a cast of a number or of a
decimal literal is exact.

From number to number every cast is exact or refused.  A text is read by `stoi` or `stoll`, and
what they return is stored in an integer of the target's width before anything is checked.  For
INTEGER and BIGINT that loses nothing.  For TINYINT and SMALLINT it loses the upper bits, so that
`'300'` is the TINYINT 44.
-/

namespace BusTub

open TwosComplement

/-! ## The casts of `ValueFactory` -/

def asText (bytes : List UInt8) : String :=
  String.ofList (bytes.map fun byte => Char.ofNat byte.toNat)

namespace ValueFactory

/-- `stoi` and `stoll`, with a message of its own for a text that starts with no number. -/
def readInput (type : NumberType) (name : String) (text : List UInt8) : Except SqlFault ℤ :=
  match strtol text with
  | none => .error (.exception ("Invalid input syntax for " ++ name ++ ": '" ++ asText text ++ "'"))
  | some _ => readNumber type text

/-- The cast of a text; as in `castText`, the number is cut before it is checked. -/
def castText (type : NumberType) (name : String) (text : List UInt8) : Except SqlFault Value := do
  let number ← readInput type name text
  let value := Int.bmod number (256 ^ type.size)
  if value < type.minValue then throw .outOfRange
  return Value.wrap type value

def castAsInteger (type : NumberType) (name : String) (value : Value) : Except SqlFault Value :=
  match value with
  | .number .boolean _ _ _ =>
    .error (.exception (asText value.toString ++ " is not coercable to " ++
      (TypeId.number type).typeIdToString ++ "."))
  | .number source payload _ _ => Value.castNumber source type payload
  | .varchar none => .ok (Value.nullOf type)
  | .varchar (some string) => castText type name (Value.varchar (some string)).toString

/-- `CastAsBoolean`. -/
def castAsBoolean (value : Value) : Except SqlFault Value :=
  if value.isNull then .ok (Value.nullOf .boolean)
  else
    match value with
    | .number .boolean payload lower upper => .ok (.number .boolean payload lower upper)
    | .number _ _ _ _ =>
      .error (.exception (asText value.toString ++ " is not coercable to BOOLEAN."))
    | .varchar data => Value.castBoolean (Value.varchar data).toString

/-- `CastAsTinyInt`, `CastAsSmallInt`, `CastAsInteger`, `CastAsBigInt` and `CastAsBoolean`. -/
def cast : NumberType → Value → Except SqlFault Value
  | .boolean => castAsBoolean
  | .tinyint => castAsInteger .tinyint "tinyint"
  | .smallint => castAsInteger .smallint "smallint"
  | .integer => castAsInteger .integer "integer"
  | .bigint => castAsInteger .bigint "bigint"

end ValueFactory

/-! ## Casts of numbers -/

namespace NumberType

theorem proper_iff (type : NumberType) (number : ℤ) :
    Proper type.modulus number ↔ type.minValue ≤ number ∧ number ≤ type.maxValue := by
  have heven := type.two_mul_half_modulus
  unfold Proper minValue maxValue
  omega

def readModulus (type : NumberType) : ℕ := if type = .bigint then 256 ^ 8 else 256 ^ 4

theorem readModulus_eq (type : NumberType) :
    (4 ≤ type.size ∧ type.readModulus = type.modulus) ∨
      (¬ 4 ≤ type.size ∧ type.readModulus = 2 ^ 32 ∧ type.modulus ≤ 2 ^ 32) := by
  cases type <;> decide

theorem modulus_le_readModulus (type : NumberType) : type.modulus ≤ type.readModulus := by
  cases type <;> decide

end NumberType

namespace Value

/-- The value stands for the number: an integer that is not NULL, or a decimal literal. -/
inductive Denotes (value : Value) (number : ℤ) : Prop
  | integer (type : NumberType) (hboolean : type ≠ .boolean) (h : value.IsNumber type number)
  | literal (htype : value.getTypeId = .varchar) (h : IsLiteral value.toString number)

variable {source target : NumberType} {number : ℤ} {value : Value} {text : List UInt8}

theorem castNumber_exactOrRefused (h : Proper source.modulus number) :
    ExactOrRefused target number (castNumber source target number) := by
  have hnull : ¬ number * 2 = -(256 ^ source.size : ℕ) := (proper_iff_fits.mp h).2
  have hrange := target.proper_iff number
  rw [castNumber, if_neg hnull]
  split_ifs with hcheck
  · refine exactOrRefused_error fun hproper => ?_
    have hboth := hrange.mp hproper
    omega
  · refine exactOrRefused_ok ?_
    by_cases hnarrow : target.size < source.size
    · exact hrange.mpr (by omega)
    · exact h.mono (NumberType.modulus_le_modulus (Nat.le_of_not_lt hnarrow))

/-! ## Casts of literals -/

theorem readNumber_of_isLiteral (h : IsLiteral text number) :
    readNumber target text =
      if Fits target.readModulus number then .ok number else .error .outOfRange := by
  have hstoi : ∀ name width, stoi name width text =
      if Fits (256 ^ width) number then .ok number else .error .outOfRange := by
    intro name width
    rw [stoi, strtol_of_isLiteral h]
    rfl
  unfold readNumber NumberType.readModulus
  rw [hstoi, hstoi]
  by_cases htype : target = .bigint
  · simp [htype]
  · simp [htype]

theorem bmod_lt_minValue_iff :
    Int.bmod number target.modulus < target.minValue ↔
      Int.bmod number target.modulus * 2 = -target.modulus := by
  have hfits := fits_bmod target.modulus_pos number
  have heven := target.two_mul_half_modulus
  unfold Fits at hfits
  unfold NumberType.minValue
  omega

/-- A literal is refused if it is not in the range of `int` or `long long`, or is NULL after it
was cut. -/
theorem castText_of_isLiteral (h : IsLiteral text number) :
    castText target text =
      if Fits target.readModulus number ∧ Int.bmod number target.modulus * 2 ≠ -target.modulus then
        .ok (wrap target number)
      else .error .outOfRange := by
  have hwrap : wrap target (Int.bmod number (256 ^ target.size)) = wrap target number := by
    simp [wrap]
  have hnull : Int.bmod number (256 ^ target.size) < target.minValue ↔ _ := bmod_lt_minValue_iff
  unfold castText
  rw [readNumber_of_isLiteral h]
  by_cases hfits : Fits target.readModulus number
  · by_cases hmin : Int.bmod number target.modulus * 2 = -target.modulus
    · rw [if_pos hfits, if_neg (by simp [hmin])]
      simp only [bind, Except.bind, hnull.mpr hmin, if_true]
      rfl
    · rw [if_pos hfits, if_pos ⟨hfits, hmin⟩]
      simp only [bind, Except.bind, mt hnull.mp hmin, if_false, hwrap]
      rfl
  · rw [if_neg hfits, if_neg fun hboth => hfits hboth.1]
    rfl

/-- Where the cast of a literal is exact or refused: the target is as wide as what the text is
read into, or the number is in range, or outside of an `int`, or its low bits are those of NULL. -/
def LiteralCastable (target : NumberType) (number : ℤ) : Prop :=
  4 ≤ target.size ∨ Proper target.modulus number ∨ ¬ Fits (2 ^ 32) number ∨
    Int.bmod number target.modulus * 2 = -target.modulus

theorem castText_exactOrRefused_iff (h : IsLiteral text number) :
    ExactOrRefused target number (castText target text) ↔ LiteralCastable target number := by
  rw [castText_of_isLiteral h]
  by_cases hproper : Proper target.modulus number
  · have hfits := hproper.fits.mono target.modulus_le_readModulus
    have hmin : Int.bmod number target.modulus * 2 ≠ -target.modulus := by
      rw [hproper.fits.bmod_eq]
      exact (proper_iff_fits.mp hproper).2
    rw [if_pos ⟨hfits, hmin⟩]
    exact iff_of_true (exactOrRefused_ok hproper) (.inr (.inl hproper))
  · -- there is no value for the number, so a refusal is the only right answer
    have hrefused : ∀ outcome, ExactOrRefused target number outcome ↔
        outcome = .error .outOfRange := by
      intro outcome
      refine ⟨?_, fun heq => heq ▸ exactOrRefused_error hproper⟩
      rintro (⟨value, -, hvalue⟩ | ⟨-, heq⟩)
      · exact absurd hvalue.proper hproper
      · exact heq
    rw [hrefused]
    simp only [LiteralCastable, hproper, false_or]
    rcases target.readModulus_eq with ⟨hwide, hread⟩ | ⟨hnarrow, hread, -⟩
    · -- read into its own width, the number is refused or proper
      refine iff_of_true (if_neg ?_) (.inl hwide)
      rintro ⟨hfits, hmin⟩
      rw [hread] at hfits
      rw [hfits.bmod_eq] at hmin
      exact hproper (proper_iff_fits.mpr ⟨hfits, hmin⟩)
    · -- read into an `int`, only the low bits of the number are looked at
      simp only [hread, hnarrow, false_or]
      split_ifs with hboth
      · refine iff_of_false (fun heq => by cases heq) ?_
        rw [not_or, not_not]
        exact hboth
      · refine iff_of_true rfl ?_
        rwa [not_and_or, not_not] at hboth

theorem valueFactory_castText_eq (h : IsLiteral text number) (name : String) :
    ValueFactory.castText target name text = castText target text := by
  unfold ValueFactory.castText ValueFactory.readInput
  rw [strtol_of_isLiteral h]
  rfl

theorem cast_of_isNumber (hsource : source ≠ .boolean) (htarget : target ≠ .boolean)
    (h : value.IsNumber source number) :
    value.castAs (.number target) = castNumber source target number ∧
      ValueFactory.cast target value = castNumber source target number := by
  obtain ⟨htype, -, rfl⟩ := h
  cases value with
  | varchar data => cases htype
  | number type payload lower upper =>
    obtain rfl := TypeId.number.inj htype
    cases type with
    | boolean => exact absurd rfl hsource
    | tinyint | smallint | integer | bigint =>
      cases target with
      | boolean => exact absurd rfl htarget
      | tinyint | smallint | integer | bigint => exact ⟨rfl, rfl⟩

theorem cast_of_isLiteral (htarget : target ≠ .boolean) (htype : value.getTypeId = .varchar)
    (h : IsLiteral value.toString number) :
    value.castAs (.number target) = castText target value.toString ∧
      ValueFactory.cast target value = castText target value.toString := by
  cases value with
  | number type payload lower upper => cases htype
  | varchar data =>
    have hsome : data ≠ none := by
      -- the text of NULL starts with a letter
      rintro rfl
      have hnone : strtol (Value.varchar none).toString = none := by decide
      exact Option.some_ne_none _ ((strtol_of_isLiteral h).symm.trans hnone)
    obtain ⟨string, rfl⟩ := Option.ne_none_iff_exists'.mp hsome
    cases target with
    | boolean => exact absurd rfl htarget
    | tinyint | smallint | integer | bigint => exact ⟨rfl, valueFactory_castText_eq h _⟩

/-- **Casts to integer types.**  A cast of a number that is not NULL is exact or refused.  A cast
of a decimal literal is so for INTEGER and BIGINT, and for the narrower types unless the number is
an `int` out of range whose low bits are not those of NULL.  This holds for `CastAs` and for the
casts of `ValueFactory`. -/
theorem cast_exactOrRefused_iff (htarget : target ≠ .boolean) (h : value.Denotes number) :
    (ExactOrRefused target number (value.castAs (.number target)) ↔
      (value.getTypeId = .varchar → LiteralCastable target number)) ∧
    (ExactOrRefused target number (ValueFactory.cast target value) ↔
      (value.getTypeId = .varchar → LiteralCastable target number)) := by
  cases h with
  | integer source hsource h =>
    obtain ⟨hcastAs, hcast⟩ := cast_of_isNumber hsource htarget h
    have hexact : ExactOrRefused target number (castNumber source target number) :=
      castNumber_exactOrRefused h.proper
    have hnumber : value.getTypeId ≠ .varchar := by
      rw [h.getTypeId_eq]
      exact TypeId.noConfusion
    rw [hcastAs, hcast, and_self]
    exact iff_of_true hexact fun htype => absurd htype hnumber
  | literal htype h =>
    obtain ⟨hcastAs, hcast⟩ := cast_of_isLiteral htarget htype h
    rw [hcastAs, hcast, castText_exactOrRefused_iff h, and_self]
    exact ⟨fun hcastable _ => hcastable, fun hcastable => hcastable htype⟩

def ofText (text : List UInt8) : Value :=
  if h : (text ++ [0]).length < 2 ^ 32 - 1 then .varchar (some ⟨text ++ [0], h⟩) else .varchar none

theorem denotes_three_hundred : (ofText (ascii "300")).Denotes 300 :=
  .literal rfl (.unsigned ⟨[0, 0, 3], by decide, by decide, rfl, by decide⟩)

/-- The BIGINT 300 is refused as a TINYINT, and `'300'` is exact as a SMALLINT. -/
theorem cast_exactOrRefused_small :
    ExactOrRefused .tinyint 300 ((wrap .bigint 300).castAs (.number .tinyint)) ∧
      ExactOrRefused .smallint 300 (ValueFactory.cast .smallint (ofText (ascii "300"))) :=
  ⟨(cast_exactOrRefused_iff (by decide)
      (.integer .bigint (by decide) (isNumber_wrap (by decide)))).1.mpr
        fun h => absurd h (by decide),
    (cast_exactOrRefused_iff (by decide) denotes_three_hundred).2.mpr
      fun _ => .inr (.inl (by decide))⟩

/-- `'300'` is a literal, and a TINYINT cannot be 300, but both casts return 44. -/
theorem not_exactOrRefused_text :
    (ofText (ascii "300")).Denotes 300 ∧
      ¬ ExactOrRefused .tinyint 300 ((ofText (ascii "300")).castAs (.number .tinyint)) ∧
      ¬ ExactOrRefused .tinyint 300 (ValueFactory.cast .tinyint (ofText (ascii "300"))) := by
  have hcastAs : (ofText (ascii "300")).castAs (.number .tinyint) = .ok (wrap .tinyint 44) := by
    decide
  have hcast : ValueFactory.cast .tinyint (ofText (ascii "300")) = .ok (wrap .tinyint 44) := by
    decide
  have hwrong : ¬ ExactOrRefused .tinyint 300 (.ok (wrap .tinyint 44)) := by
    rintro (⟨value, -, hvalue⟩ | ⟨-, heq⟩)
    · exact absurd hvalue.proper (by decide)
    · cases heq
  rw [hcastAs, hcast]
  exact ⟨denotes_three_hundred, hwrong, hwrong⟩

end Value

end BusTub

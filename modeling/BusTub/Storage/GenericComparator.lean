import BusTub.Type.Compare
import Mathlib.Algebra.Order.BigOperators.Group.List

/-!
# Comparing keys of an index

The model of `GenericComparator`.  It goes through the columns of two keys and stops at the first
one in which a value is less or greater than the other.

A key is read back as the values of the tuple it was set from, so the comparator is a function of
two lists of values.  In a column with a NULL neither value is less, so the loop goes on, as if
the two were equal.  Keys that have their NULLs in the same columns are compared as the lists of
their places, in lexicographic order; between other keys `compares equal` need not be transitive.
-/

namespace BusTub

open Value

/-! ## Signs -/

section Signs

variable {Place : Type*} [LinearOrder Place] {left right : Place}

def placeSign (left right : Place) : ℤ :=
  if left < right then -1 else if right < left then 1 else 0

@[simp] theorem placeSign_self (place : Place) : placeSign place place = 0 := by
  simp [placeSign]

theorem placeSign_cases (left right : Place) :
    placeSign left right = -1 ∨ placeSign left right = 0 ∨ placeSign left right = 1 := by
  unfold placeSign
  split_ifs <;> decide

theorem placeSign_congr {Place' : Type*} [LinearOrder Place'] {left' right' : Place'}
    (hless : left < right ↔ left' < right') (hgreater : right < left ↔ right' < left') :
    placeSign left right = placeSign left' right' := by
  simp [placeSign, hless, hgreater]

theorem placeSign_swap (left right : Place) : placeSign right left = -placeSign left right := by
  unfold placeSign
  rcases lt_trichotomy left right with hless | hequal | hgreater
  · simp [hless, hless.asymm]
  · simp [hequal]
  · simp [hgreater, hgreater.asymm]

theorem placeSign_eq_neg_one_iff : placeSign left right = -1 ↔ left < right := by
  unfold placeSign
  split_ifs with hless hgreater <;> simp [hless]

theorem placeSign_neg_iff : placeSign left right < 0 ↔ left < right := by
  refine Iff.trans ?_ placeSign_eq_neg_one_iff
  rcases placeSign_cases left right with hsign | hsign | hsign <;> simp [hsign]

theorem placeSign_eq_one_iff : placeSign left right = 1 ↔ right < left := by
  rw [← placeSign_eq_neg_one_iff, placeSign_swap left right, neg_inj]

@[simp] theorem placeSign_eq_zero_iff : placeSign left right = 0 ↔ left = right := by
  unfold placeSign
  rcases lt_trichotomy left right with hless | hequal | hgreater
  · simp [hless, hless.ne]
  · simp [hequal]
  · simp [hgreater, hgreater.asymm, hgreater.ne']

end Signs

/-! ## The comparator -/

namespace GenericKey

variable {keySize : ℕ}

/-- `ToValue`; the column must exist. -/
def columnValue (key : GenericKey keySize) (schema : Schema) (index : ℕ) :
    Except SqlFault Value :=
  match key.toValue schema index with
  | none => .error .undefinedBehaviour
  | some value => .ok value

/-- The loop of `GenericComparator`, over the columns that are left. -/
def compareColumns (schema : Schema) (lhs rhs : GenericKey keySize) :
    List ℕ → Except SqlFault ℤ
  | [] => .ok 0
  | index :: rest => do
      let lhsValue ← lhs.columnValue schema index
      let rhsValue ← rhs.columnValue schema index
      let less ← lhsValue.compareLessThan rhsValue
      if less = .cmpTrue then return -1
      else
        let greater ← lhsValue.compareGreaterThan rhsValue
        if greater = .cmpTrue then return 1
        else compareColumns schema lhs rhs rest

/-- `GenericComparator`. -/
def genericComparator (schema : Schema) (lhs rhs : GenericKey keySize) : Except SqlFault ℤ :=
  compareColumns schema lhs rhs (List.range schema.columns.length)

end GenericKey

/-! ## Columns -/

namespace Value

def Terminated : Value → Prop
  | .varchar (some string) => string.data ≠ []
  | _ => True

/-- The value is NULL, or it has a place. -/
def Readable (value : Value) : Prop := value.isNull = false → ∃ place, value.sortKey = some place

def sign (first second : Value) : ℤ :=
  match first.sortKey, second.sortKey with
  | some left, some right => placeSign left right
  | _, _ => 0

theorem readable_of_terminated {value : Value} (hterminated : value.Terminated)
    (hsize : value.stringSize < 2 ^ 31) : value.Readable := by
  intro hnull
  refine exists_sortKey hnull fun string hstring => ?_
  subst hstring
  have hpos : 0 < string.data.length := List.length_pos_iff.mpr hterminated
  simp only [stringSize] at hsize
  omega

variable {first second : Value}

theorem sign_self (value : Value) : value.sign value = 0 := by
  unfold sign
  cases value.sortKey with
  | none => rfl
  | some place => exact placeSign_self place

theorem sign_swap (first second : Value) : second.sign first = -first.sign second := by
  unfold sign
  cases first.sortKey with
  | none => cases second.sortKey <;> rfl
  | some left =>
    cases second.sortKey with
    | none => rfl
    | some right => exact placeSign_swap left right

theorem Readable.isSome_eq (hfirst : first.Readable) (hsecond : second.Readable)
    (hnull : first.isNull = second.isNull) : first.sortKey.isSome = second.sortKey.isSome := by
  cases hcase : first.isNull with
  | true => rw [sortKey_eq_none hcase, sortKey_eq_none (hnull.symm.trans hcase)]
  | false =>
    obtain ⟨left, hleft⟩ := hfirst hcase
    obtain ⟨right, hright⟩ := hsecond (hnull.symm.trans hcase)
    rw [hleft, hright]
    rfl

theorem compare_sign (htype : first.getTypeId = second.getTypeId) (hfirst : first.Readable)
    (hsecond : second.Readable) :
    (∃ less, first.compareLessThan second = .ok less ∧
      (less = .cmpTrue ↔ first.sign second = -1)) ∧
    ∃ greater, first.compareGreaterThan second = .ok greater ∧
      (greater = .cmpTrue ↔ first.sign second = 1) := by
  rcases hnull : first.isNull || second.isNull with _ | _
  · rw [Bool.or_eq_false_iff] at hnull
    obtain ⟨left, hleft⟩ := hfirst hnull.1
    obtain ⟨right, hright⟩ := hsecond hnull.2
    have hsign : first.sign second = placeSign left right := by
      rw [sign, hleft, hright]
    refine ⟨⟨_, compare_of_sortKey (.inl htype) hleft hright .lessThan, ?_⟩,
      ⟨_, compare_of_sortKey (.inl htype) hleft hright .greaterThan, ?_⟩⟩
    · rw [hsign, getCmpBool_eq_cmpTrue, ComparisonType.holds, decide_eq_true_iff,
        placeSign_eq_neg_one_iff]
    · rw [hsign, getCmpBool_eq_cmpTrue, ComparisonType.holds, decide_eq_true_iff,
        placeSign_eq_one_iff]
  -- with a NULL both comparisons answer NULL, which is not true, so the loop goes on
  · rw [Bool.or_eq_true] at hnull
    have hsign : first.sign second = 0 := by
      unfold sign
      rcases hnull with hnull | hnull
      · rw [sortKey_eq_none hnull]
      · rw [sortKey_eq_none hnull]
        cases first.sortKey <;> rfl
    exact ⟨⟨_, compare_null htype hnull .lessThan, by simp [hsign]⟩,
      ⟨_, compare_null htype hnull .greaterThan, by simp [hsign]⟩⟩

end Value

def lexSign : List Value → List Value → ℤ
  | first :: firsts, second :: seconds =>
    if first.sign second = 0 then lexSign firsts seconds else first.sign second
  | _, _ => 0

theorem Value.sign_cases (first second : Value) :
    first.sign second = -1 ∨ first.sign second = 0 ∨ first.sign second = 1 := by
  unfold sign
  cases first.sortKey with
  | none => exact .inr (.inl rfl)
  | some left =>
    cases second.sortKey with
    | none => exact .inr (.inl rfl)
    | some right => exact placeSign_cases left right

namespace GenericKey

variable {keySize : ℕ} {schema : Schema} {lhs rhs : GenericKey keySize}
  {values values' : List Value}

/-- **The loop** returns the sign of the values that are left. -/
theorem compareColumns_eq (htypes : values.map getTypeId = values'.map getTypeId)
    (hreadable : ∀ value ∈ values, value.Readable) (hreadable' : ∀ value ∈ values', value.Readable)
    (hlhs : ∀ index, lhs.toValue schema index = values[index]?)
    (hrhs : ∀ index, rhs.toValue schema index = values'[index]?) (start count : ℕ)
    (hcount : start + count = values.length) :
    compareColumns schema lhs rhs (List.range' start count) =
      .ok (lexSign (values.drop start) (values'.drop start)) := by
  have hlength : values.length = values'.length := by simpa using congrArg List.length htypes
  -- on the number of columns that are left; those before `start` made no difference
  induction count generalizing start with
  | zero =>
    rw [List.drop_of_length_le (by omega), List.drop_of_length_le (by omega)]
    rfl
  | succ count ih =>
    have hstart : start < values.length := by omega
    have hstart' : start < values'.length := by omega
    have htype : values[start].getTypeId = values'[start].getTypeId := by
      simpa [hstart, hstart'] using congrArg (·[start]?) htypes
    obtain ⟨⟨less, hless, hlessIff⟩, ⟨greater, hgreater, hgreaterIff⟩⟩ :=
      compare_sign htype (hreadable _ (List.getElem_mem hstart))
        (hreadable' _ (List.getElem_mem hstart'))
    rw [List.range'_succ, compareColumns, columnValue, columnValue, hlhs, hrhs,
      List.getElem?_eq_getElem hstart, List.getElem?_eq_getElem hstart',
      List.drop_eq_getElem_cons hstart, List.drop_eq_getElem_cons hstart', lexSign]
    simp only [bind, Except.bind, hless, hgreater, hlessIff, hgreaterIff,
      ih (start + 1) (by omega)]
    rcases sign_cases values[start] values'[start] with hsign | hsign | hsign <;>
      simp [hsign] <;> rfl

/-- The key was set from a tuple of the given values, whose strings are terminated. -/
structure IsKey (columns : List Column) (key : GenericKey keySize) (values : List Value) :
    Prop where
  types : values.map getTypeId = columns.map Column.columnType
  size : encodedSize values < 2 ^ 31
  terminated : ∀ value ∈ values, value.Terminated
  built : ∃ tuple, Tuple.ofValues values (Schema.create columns) = some tuple ∧
    setFromKey keySize tuple = some key

variable {columns : List Column}

theorem exists_isKey (htypes : values.map getTypeId = columns.map Column.columnType)
    (hsize : encodedSize values < 2 ^ 31) (hfits : encodedSize values ≤ keySize)
    (hterminated : ∀ value ∈ values, value.Terminated) :
    ∃ key : GenericKey keySize, IsKey columns key values := by
  obtain ⟨tuple, htuple, hlength, -⟩ := ofValues_spec htypes hsize
  obtain ⟨key, hkey, -⟩ := setFromKey_spec (hlength.trans_le hfits)
  exact ⟨key, htypes, hsize, hterminated, tuple, htuple, hkey⟩

theorem IsKey.toValue {key : GenericKey keySize} (h : IsKey columns key values) (index : ℕ) :
    key.toValue (Schema.create columns) index = values[index]? := by
  obtain ⟨tuple, htuple, hkey⟩ := h.built
  obtain ⟨tuple', htuple', hlength, hread⟩ := ofValues_spec h.types h.size
  obtain rfl : tuple = tuple' := Option.some.inj (htuple.symm.trans htuple')
  have hfits : tuple.size ≤ keySize := by
    by_contra hnot
    rw [setFromKey, dif_neg hnot] at hkey
    cases hkey
  obtain ⟨key', hkey', hcells⟩ := setFromKey_spec hfits
  obtain rfl : key = key' := Option.some.inj (hkey.symm.trans hkey')
  exact hread _ hcells index

theorem IsKey.readable {key : GenericKey keySize} (h : IsKey columns key values) :
    ∀ value ∈ values, value.Readable := by
  intro value hmem
  have hsize : value.stringSize < 2 ^ 31 :=
    (List.le_sum_of_mem (List.mem_map_of_mem hmem)).trans_lt
      ((Nat.le_add_left _ _).trans_lt h.size)
  exact readable_of_terminated (h.terminated value hmem) hsize

/-- **The comparator** returns the sign of the values. -/
theorem genericComparator_eq (hlhs : IsKey columns lhs values) (hrhs : IsKey columns rhs values') :
    genericComparator (Schema.create columns) lhs rhs = .ok (lexSign values values') := by
  have hcount : (Schema.create columns).columns.length = values.length := by
    have hcolumns := (create_spec hlhs.types hlhs.size).2.2
    simpa using (congrArg List.length hcolumns).symm
  rw [genericComparator, hcount, List.range_eq_range']
  exact compareColumns_eq (hlhs.types.trans hrhs.types.symm) hlhs.readable hrhs.readable
    hlhs.toValue hrhs.toValue 0 values.length (Nat.zero_add _)

end GenericKey

/-! ## The laws -/

theorem lexSign_self (values : List Value) : lexSign values values = 0 := by
  induction values with
  | nil => rfl
  | cons value rest ih => rw [lexSign, sign_self, if_pos rfl, ih]

theorem lexSign_swap (values values' : List Value) :
    lexSign values' values = -lexSign values values' := by
  induction values generalizing values' with
  | nil => cases values' <;> rfl
  | cons value rest ih =>
    cases values' with
    | nil => rfl
    | cons value' rest' =>
      simp only [lexSign, ih, sign_swap value value', neg_eq_zero]
      split_ifs <;> rfl

def places (values : List Value) : List (ℤ ⊕ₗ List ℕ) := values.filterMap sortKey

theorem placeSign_cons {Place : Type*} [LinearOrder Place] (left right : Place)
    (lefts rights : List Place) :
    placeSign (left :: lefts) (right :: rights) =
      if placeSign left right = 0 then placeSign lefts rights else placeSign left right := by
  simp only [placeSign_eq_zero_iff]
  split_ifs with hequal
  · subst hequal
    exact placeSign_congr List.cons_lt_cons_self List.cons_lt_cons_self
  · refine placeSign_congr ?_ ?_
    · rw [List.cons_lt_cons_iff]
      simp [hequal]
    · rw [List.cons_lt_cons_iff]
      simp [Ne.symm hequal]

theorem lexSign_eq_placeSign {values values' : List Value}
    (h : List.Forall₂ (fun value value' => value.sortKey.isSome = value'.sortKey.isSome)
      values values') :
    lexSign values values' = placeSign (places values) (places values') := by
  induction h with
  | nil => exact (placeSign_self []).symm
  | @cons value value' rest rest' hsome _ ih =>
    simp only [lexSign, ih, places, List.filterMap_cons, sign]
    cases hleft : value.sortKey with
    | none =>
      cases hright : value'.sortKey with
      | none => exact if_pos rfl
      | some right => simp [hleft, hright] at hsome
    | some left =>
      cases hright : value'.sortKey with
      | none => simp [hleft, hright] at hsome
      | some right => exact (placeSign_cons left right _ _).symm

namespace GenericKey

variable {keySize : ℕ} {columns : List Column} {first second third lhs rhs : GenericKey keySize}
  {values values' values₁ values₂ values₃ : List Value}

/-- The comparator returns a negative number. -/
def Less (columns : List Column) (lhs rhs : GenericKey keySize) : Prop :=
  ∃ result < 0, genericComparator (Schema.create columns) lhs rhs = .ok result

def ComparesEqual (columns : List Column) (lhs rhs : GenericKey keySize) : Prop :=
  genericComparator (Schema.create columns) lhs rhs = .ok 0

theorem genericComparator_places (hlhs : IsKey columns lhs values)
    (hrhs : IsKey columns rhs values')
    (hnulls : values.map isNull = values'.map isNull) :
    genericComparator (Schema.create columns) lhs rhs =
      .ok (placeSign (places values) (places values')) := by
  rw [genericComparator_eq hlhs hrhs, lexSign_eq_placeSign]
  rw [List.forall₂_iff_get]
  refine ⟨by simpa using congrArg List.length hnulls, fun index hindex hindex' => ?_⟩
  have hnull : values[index].isNull = values'[index].isNull := by
    simpa [hindex, hindex'] using congrArg (·[index]?) hnulls
  have hreadable := hlhs.readable _ (List.getElem_mem hindex)
  have hreadable' := hrhs.readable _ (List.getElem_mem hindex')
  exact hreadable.isSome_eq hreadable' hnull

theorem less_iff (hlhs : IsKey columns lhs values) (hrhs : IsKey columns rhs values')
    (hnulls : values.map isNull = values'.map isNull) :
    Less columns lhs rhs ↔ places values < places values' := by
  simp [Less, genericComparator_places hlhs hrhs hnulls, placeSign_neg_iff]

theorem comparesEqual_iff (hlhs : IsKey columns lhs values) (hrhs : IsKey columns rhs values')
    (hnulls : values.map isNull = values'.map isNull) :
    ComparesEqual columns lhs rhs ↔ places values = places values' := by
  simp [ComparesEqual, genericComparator_places hlhs hrhs hnulls]

end GenericKey

end BusTub

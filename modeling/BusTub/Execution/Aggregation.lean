import BusTub.Library.UnorderedMap
import BusTub.Type.Compare

/-!
# The hash table of an aggregation

The model of `SimpleAggregationHashTable` with its keys and the hash of values.  The table is a
`std::unordered_map`, which asks the equality and the hash of its keys.

Two keys are equal if `CompareEquals` answers true in every column, so a key with a NULL is not
equal to any key, itself included.  `InsertCombine` asks three times for the key of a row: for its
number of entries, to insert the initial value, and to get at the entry.  With a NULL each of them
misses, and the row leaves two entries, the second of them without any value.
-/

namespace BusTub

open ByteMemory UnorderedMap

/-- `AggregationType`. -/
inductive AggregationType
  | countStarAggregate
  | countAggregate
  | sumAggregate
  | minAggregate
  | maxAggregate
deriving DecidableEq, Repr

/-- `AggregateKey`. -/
structure AggregateKey where
  groupBys : List Value
deriving DecidableEq

/-- `AggregateValue`. -/
structure AggregateValue where
  aggregates : List Value
deriving DecidableEq

/-! ## Hashes -/

namespace HashUtil

/-- A `char` as a `size_t`; the type is signed. -/
def ofChar (byte : UInt8) : UInt64 := byte.toInt8.toInt64.toUInt64

/-- `HashBytes`. -/
def hashBytes (bytes : List UInt8) : UInt64 :=
  bytes.foldl (fun hash byte => ((hash <<< 5) ^^^ (hash >>> 27)) ^^^ ofChar byte)
    (UInt64.ofNat bytes.length)

/-- `CombineHashes`. -/
def combineHashes (left right : UInt64) : UInt64 :=
  hashBytes (leBytes 8 left.toNat ++ leBytes 8 right.toNat)

/-- `HashValue`; a NULL string is not asked. -/
def hashValue : Value → UInt64
  | .number .boolean payload lower upper =>
    hashBytes [if (Value.number .boolean payload lower upper).asBool then 1 else 0]
  | .number _ payload _ _ => hashBytes (leBytes 8 (payload % 2 ^ 64).toNat)
  | .varchar none => 0
  | .varchar (some string) => hashBytes string.data

end HashUtil

namespace AggregateKey

/-- The loop of `operator==`, over the columns that are left. -/
def equalFrom : List Value → List Value → Except SqlFault Bool
  | _, [] => .ok true
  | [], _ :: _ => .error .undefinedBehaviour
  | value :: values, other :: others => do
      if (← value.compareEquals other) ≠ .cmpTrue then return false
      else equalFrom values others

/-- `operator==`. -/
def equal (key other : AggregateKey) : Except SqlFault Bool :=
  equalFrom key.groupBys other.groupBys

/-- `std::hash<AggregateKey>`. -/
def hash (key : AggregateKey) : UInt64 :=
  key.groupBys.foldl (fun currHash value =>
    if !value.isNull then HashUtil.combineHashes currHash (HashUtil.hashValue value)
    else currHash) 0

end AggregateKey

/-! ## The table -/

def aggregateTraits : KeyTraits SqlFault UInt64 AggregateKey where
  hash := AggregateKey.hash
  equal := AggregateKey.equal

/-- `SimpleAggregationHashTable`; each aggregate has an expression and a type. -/
structure SimpleAggregationHashTable where
  aggExprs : List Expression
  aggTypes : List AggregationType
  length_eq : aggExprs.length = aggTypes.length
  ht : List (AggregateKey × AggregateValue)

namespace SimpleAggregationHashTable

/-- A step of `GenerateInitialAggregateValue`. -/
def initialValue : AggregationType → Value
  | .countStarAggregate => Value.getIntegerValue 0
  | .countAggregate | .sumAggregate | .minAggregate | .maxAggregate => Value.integerNull

/-- `GenerateInitialAggregateValue`. -/
def generateInitialAggregateValue (table : SimpleAggregationHashTable) : AggregateValue :=
  ⟨table.aggTypes.map initialValue⟩

/-- A step of `CombineAggregateValues`: every case breaks. -/
def combineStep (result : AggregateValue) : AggregationType → AggregateValue
  | .countStarAggregate | .countAggregate | .sumAggregate | .minAggregate | .maxAggregate => result

/-- `CombineAggregateValues`; the input is not read. -/
def combineAggregateValues (table : SimpleAggregationHashTable)
    (result _input : AggregateValue) : AggregateValue :=
  table.aggTypes.foldl combineStep result

/-- The first statement of `InsertCombine`. -/
def insertInitial (table : SimpleAggregationHashTable) (aggKey : AggregateKey) :
    Except SqlFault (List (AggregateKey × AggregateValue)) := do
  if (← count aggregateTraits aggKey table.ht) = 0 then
    insert aggregateTraits aggKey table.generateInitialAggregateValue table.ht
  else return table.ht

/-- `InsertCombine`. -/
def insertCombine (table : SimpleAggregationHashTable) (aggKey : AggregateKey)
    (aggVal : AggregateValue) : Except SqlFault SimpleAggregationHashTable := do
  let ht ← table.insertInitial aggKey
  let (ht, position) ← access aggregateTraits aggKey ⟨[]⟩ ht
  return { table with
    ht := ht.modify position fun entry => (entry.1, table.combineAggregateValues entry.2 aggVal) }

/-- `InsertCombine` over a sequence of rows. -/
def insertRows (table : SimpleAggregationHashTable) (rows : List (AggregateKey × AggregateValue)) :
    Except SqlFault SimpleAggregationHashTable :=
  rows.foldlM (fun table row => table.insertCombine row.1 row.2) table

end SimpleAggregationHashTable

/-! ## Equality of keys -/

namespace Value

/-- A string ends in its terminator, and its length is an `int`. -/
def EndsInNul : Value → Prop
  | .varchar (some string) => ∃ chars, string.data = chars ++ [0] ∧ chars.length < 2 ^ 31
  | _ => True

variable {first second : Value}

theorem EndsInNul.exists_sortKey (h : first.EndsInNul) (hnull : first.isNull = false) :
    ∃ place, first.sortKey = some place := by
  refine Value.exists_sortKey hnull fun string hstring => ?_
  subst hstring
  obtain ⟨chars, hdata, hlength⟩ := h
  rw [hdata, List.length_append, List.length_singleton]
  omega

theorem eq_of_sortKey {place : ℤ ⊕ₗ List ℕ} (htype : first.getTypeId = second.getTypeId)
    (hfirst : first.EndsInNul) (hsecond : second.EndsInNul) (h : first.sortKey = some place)
    (h' : second.sortKey = some place) : first = second := by
  cases first with
  | number type payload lower upper =>
    cases second with
    | varchar data => cases htype
    | number type' payload' lower' upper' =>
      obtain rfl := TypeId.number.inj htype
      have hnull := sortKey_isSome_isNull h
      have hnull' := sortKey_isSome_isNull h'
      simp only [sortKey, hnull, hnull', Bool.false_eq_true, if_false] at h h'
      obtain rfl : payload = payload' := by
        simpa using h.trans h'.symm
      rfl
  | varchar data =>
    cases second with
    | number type payload lower upper => cases htype
    | varchar data' =>
      obtain ⟨string, chars, rfl, hchars, rfl⟩ := sortKey_varchar_eq_some.mp h
      obtain ⟨string', chars', rfl, hchars', hplace⟩ := sortKey_varchar_eq_some.mp h'
      obtain ⟨text, hdata, hlength⟩ := hfirst
      obtain ⟨text', hdata', hlength'⟩ := hsecond
      -- with the terminator, the characters are all of the bytes
      obtain rfl : text = chars :=
        Except.ok.inj ((Varlen.chars_eq hdata hlength).symm.trans hchars)
      obtain rfl : text' = chars' :=
        Except.ok.inj ((Varlen.chars_eq hdata' hlength').symm.trans hchars')
      have heq : byteNumbers text' = byteNumbers text := Sum.inr_injective hplace
      exact varchar_ext (by rw [hdata, hdata', byteNumbers_injective heq])

theorem compareEquals_spec (htype : first.getTypeId = second.getTypeId)
    (hfirst : first.EndsInNul) (hsecond : second.EndsInNul) :
    ∃ truth, first.compareEquals second = .ok truth ∧
      (truth = .cmpTrue ↔ first = second ∧ first.isNull = false) := by
  rcases hnull : first.isNull || second.isNull with _ | _
  · rw [Bool.or_eq_false_iff] at hnull
    obtain ⟨left, hleft⟩ := hfirst.exists_sortKey hnull.1
    obtain ⟨right, hright⟩ := hsecond.exists_sortKey hnull.2
    refine ⟨_, compare_of_sortKey (.inl htype) hleft hright .equal, ?_⟩
    refine getCmpBool_eq_cmpTrue.trans (holds_equal_iff.trans ?_)
    constructor
    · intro hplace
      exact ⟨eq_of_sortKey htype hfirst hsecond hleft (hplace ▸ hright), hnull.1⟩
    · rintro ⟨rfl, -⟩
      exact Option.some.inj (hleft.symm.trans hright)
  · rw [Bool.or_eq_true] at hnull
    refine ⟨_, compare_null htype hnull .equal, iff_of_false (by decide) ?_⟩
    rintro ⟨rfl, hfalse⟩
    simp [hfalse] at hnull

end Value

namespace AggregateKey

/-- The key has values of the given types. -/
structure WellFormed (types : List TypeId) (key : AggregateKey) : Prop where
  types_eq : key.groupBys.map Value.getTypeId = types
  endsInNul : ∀ value ∈ key.groupBys, value.EndsInNul

def NotNull (key : AggregateKey) : Prop := ∀ value ∈ key.groupBys, value.isNull = false

instance : DecidablePred NotNull := fun key =>
  inferInstanceAs (Decidable (∀ value ∈ key.groupBys, value.isNull = false))

theorem equalFrom_spec {values others : List Value}
    (htypes : values.map Value.getTypeId = others.map Value.getTypeId)
    (hvalues : ∀ value ∈ values, value.EndsInNul) (hothers : ∀ value ∈ others, value.EndsInNul) :
    ∃ truth, equalFrom values others = .ok truth ∧
      (truth = true ↔ values = others ∧ ∀ value ∈ values, value.isNull = false) := by
  induction values generalizing others with
  | nil =>
    cases others with
    | nil => exact ⟨true, rfl, by simp⟩
    | cons other rest => cases htypes
  | cons value values ih =>
    cases others with
    | nil => cases htypes
    | cons other others =>
      rw [List.map_cons, List.map_cons, List.cons.injEq] at htypes
      rw [List.forall_mem_cons] at hvalues hothers
      obtain ⟨truth, htruth, hiff⟩ := Value.compareEquals_spec htypes.1 hvalues.1 hothers.1
      obtain ⟨rest, hrest, hrestIff⟩ := ih htypes.2 hvalues.2 hothers.2
      simp only [equalFrom, htruth, bind, Except.bind, hrest, List.cons.injEq,
        List.forall_mem_cons]
      by_cases hequal : truth = .cmpTrue
      · obtain ⟨rfl, hnull⟩ := hiff.mp hequal
        exact ⟨rest, if_neg (not_not.mpr hequal), by simp [hrestIff, hnull]⟩
      -- here the first values differ, or both are NULL: NULL = NULL is not true
      · refine ⟨false, if_pos hequal, ?_⟩
        simp only [Bool.false_eq_true, false_iff]
        rintro ⟨⟨heq, -⟩, hnull, -⟩
        exact hequal (hiff.mpr ⟨heq, hnull⟩)

/-- **Equality of keys** is equality, but for the keys with a NULL. -/
theorem equalityOf (types : List TypeId) :
    EqualityOf aggregateTraits (WellFormed types) NotNull := by
  intro first second hfirst hsecond
  obtain ⟨truth, htruth, hiff⟩ := equalFrom_spec (hfirst.types_eq.trans hsecond.types_eq.symm)
    hfirst.endsInNul hsecond.endsInNul
  refine ⟨truth, htruth, ?_⟩
  cases first
  cases second
  rw [hiff, AggregateKey.mk.injEq]
  rfl

end AggregateKey

/-! ## Rows -/

namespace SimpleAggregationHashTable

variable {table : SimpleAggregationHashTable} {types : List TypeId} {key : AggregateKey}
  {rows : List (AggregateKey × AggregateValue)}

def Typed (types : List TypeId) (table : SimpleAggregationHashTable) : Prop :=
  ∀ entry ∈ table.ht, entry.1.WellFormed types

theorem combineAggregateValues_eq (table : SimpleAggregationHashTable)
    (result input : AggregateValue) : table.combineAggregateValues result input = result := by
  unfold combineAggregateValues
  induction table.aggTypes with
  | nil => rfl
  | cons type rest ih => cases type <;> exact ih

def addedEntries (table : SimpleAggregationHashTable) (key : AggregateKey) :
    List (AggregateKey × AggregateValue) :=
  if key.NotNull then
    if key ∈ table.ht.map Prod.fst then [] else [(key, table.generateInitialAggregateValue)]
  else [(key, table.generateInitialAggregateValue), (key, ⟨[]⟩)]

theorem insertInitial_of_missing (h : find aggregateTraits key table.ht = .ok none) :
    table.insertInitial key = .ok (table.ht ++ [(key, table.generateInitialAggregateValue)]) := by
  rw [insertInitial, count_of_missing h]
  exact insert_of_missing h _

theorem insertInitial_of_found {position : ℕ}
    (h : find aggregateTraits key table.ht = .ok (some position)) :
    table.insertInitial key = .ok table.ht := by
  rw [insertInitial, count_of_found h]
  rfl

theorem insertCombine_of_access {ht inserted : List (AggregateKey × AggregateValue)} {position : ℕ}
    (hinitial : table.insertInitial key = .ok inserted)
    (haccess : access aggregateTraits key ⟨[]⟩ inserted = .ok (ht, position))
    (value : AggregateValue) :
    table.insertCombine key value = .ok { table with ht := ht } := by
  have hmodify : (ht.modify position fun entry =>
      (entry.1, table.combineAggregateValues entry.2 value)) = ht := by
    simp only [combineAggregateValues_eq, Prod.mk.eta]
    exact List.modify_id position ht
  simp only [insertCombine, hinitial, haccess, bind, Except.bind, hmodify]
  rfl

theorem Typed.append {entries : List (AggregateKey × AggregateValue)} (htable : table.Typed types)
    (h : ∀ entry ∈ entries, entry.1.WellFormed types) :
    Typed types { table with ht := table.ht ++ entries } := by
  intro entry hmem
  rcases List.mem_append.mp hmem with hmem | hmem
  · exact htable entry hmem
  · exact h entry hmem

/-- **A row** adds nothing, an entry with the initial value, or two entries. -/
theorem insertCombine_spec (htable : table.Typed types) (hkey : key.WellFormed types)
    (value : AggregateValue) :
    table.insertCombine key value =
      .ok { table with ht := table.ht ++ table.addedEntries key } := by
  have hequal := AggregateKey.equalityOf types
  have hinserted : Typed types { table with
      ht := table.ht ++ [(key, table.generateInitialAggregateValue)] } :=
    htable.append (by simpa using hkey)
  unfold addedEntries
  split_ifs with hnull hmem
  -- the group is there
  · obtain ⟨position, found, hfind, -⟩ := find_eq_some hequal hkey htable hnull hmem
    rw [List.append_nil]
    exact insertCombine_of_access (insertInitial_of_found hfind) (access_of_found hfind _) value
  -- the group is new
  · have hfind : find aggregateTraits key table.ht = .ok none :=
      find_eq_none hequal hkey htable fun h => hmem h.2
    obtain ⟨position, found, hfound, -⟩ := find_eq_some hequal hkey hinserted hnull (by simp)
    exact insertCombine_of_access (insertInitial_of_missing hfind) (access_of_found hfound _) value
  · have hfind : find aggregateTraits key table.ht = .ok none :=
      find_eq_none hequal hkey htable fun h => hnull h.1
    -- a NULL is not found right after it was inserted, so `operator[]` adds a second entry
    have hmiss := find_eq_none hequal hkey hinserted fun h => hnull h.1
    rw [insertCombine_of_access (insertInitial_of_missing hfind) (access_of_missing hmiss _) value,
      List.append_assoc]
    rfl

theorem typed_addedEntries (htable : table.Typed types) (hkey : key.WellFormed types) :
    Typed types { table with ht := table.ht ++ table.addedEntries key } := by
  refine htable.append fun entry hmem => ?_
  unfold addedEntries at hmem
  split_ifs at hmem with hnull hfound
  · cases hmem
  · obtain rfl := List.mem_singleton.mp hmem
    exact hkey
  · rcases List.mem_pair.mp hmem with rfl | rfl <;> exact hkey

/-- There is one entry for each group of the rows, with a value for each aggregate. -/
structure Grouped (rows : List (AggregateKey × AggregateValue))
    (table : SimpleAggregationHashTable) : Prop where
  nodup : (table.ht.map Prod.fst).Nodup
  mem_iff : ∀ key, key ∈ table.ht.map Prod.fst ↔ key ∈ rows.map Prod.fst
  initialised : ∀ entry ∈ table.ht, entry.2 = table.generateInitialAggregateValue ∧
    entry.2.aggregates.length = table.aggExprs.length

theorem Grouped.insert (h : Grouped rows table) (hnull : key.NotNull) (value : AggregateValue) :
    Grouped (rows ++ [(key, value)]) { table with ht := table.ht ++ table.addedEntries key } := by
  unfold addedEntries
  split_ifs with hmem
  · refine ⟨by simpa using h.nodup, fun other => ?_, by simpa using h.initialised⟩
    have hold := (h.mem_iff key).mp hmem
    rw [List.append_nil, h.mem_iff other, List.map_append, List.mem_append]
    constructor
    · exact Or.inl
    · rintro (hother | hother)
      · exact hother
      · rwa [List.mem_singleton.mp hother]
  · refine ⟨?_, fun other => ?_, fun entry hentry => ?_⟩
    · rw [List.map_append, List.nodup_append_comm]
      exact List.nodup_cons.mpr ⟨hmem, h.nodup⟩
    · rw [List.map_append, List.map_append, List.mem_append, List.mem_append, h.mem_iff other]
      rfl
    · rcases List.mem_append.mp hentry with hentry | hentry
      · exact h.initialised entry hentry
      · obtain rfl := List.mem_singleton.mp hentry
        refine ⟨rfl, ?_⟩
        rw [generateInitialAggregateValue, List.length_map, table.length_eq]

theorem insertRows_grouped {seen : List (AggregateKey × AggregateValue)}
    (htable : table.Typed types) (h : Grouped seen table)
    (hrows : ∀ row ∈ rows, row.1.WellFormed types) (hnull : ∀ row ∈ rows, row.1.NotNull) :
    ∃ table', table.insertRows rows = .ok table' ∧ Grouped (seen ++ rows) table' := by
  induction rows generalizing table seen with
  | nil => exact ⟨table, rfl, by rwa [List.append_nil]⟩
  | cons row rows ih =>
    rw [List.forall_mem_cons] at hrows hnull
    obtain ⟨table', hrun, hgrouped⟩ :=
      ih (typed_addedEntries htable hrows.1) (h.insert hnull.1 row.2) hrows.2 hnull.2
    refine ⟨table', ?_, ?_⟩
    · rw [insertRows, List.foldlM_cons, insertCombine_spec htable hrows.1]
      exact hrun
    · rwa [List.append_assoc] at hgrouped

/-- Rows of any kind only add entries, and a row with a NULL adds its key twice. -/
theorem insertRows_spec (htable : table.Typed types)
    (hrows : ∀ row ∈ rows, row.1.WellFormed types) :
    ∃ table', table.insertRows rows = .ok table' ∧ table.ht <+: table'.ht ∧
      ((table'.ht.map Prod.fst).Nodup → ∀ row ∈ rows, row.1.NotNull) := by
  induction rows generalizing table with
  | nil => exact ⟨table, rfl, List.prefix_rfl, fun _ row hmem => nomatch hmem⟩
  | cons row rows ih =>
    rw [List.forall_mem_cons] at hrows
    obtain ⟨table', hrun, hextends, hnull⟩ := ih (typed_addedEntries htable hrows.1) hrows.2
    refine ⟨table', ?_, (List.prefix_append _ _).trans hextends, fun hnodup => ?_⟩
    · rw [insertRows, List.foldlM_cons, insertCombine_spec htable hrows.1]
      exact hrun
    · rw [List.forall_mem_cons]
      refine ⟨?_, hnull hnodup⟩
      by_contra hrow
      have hsublist := (hextends.sublist.map Prod.fst).nodup hnodup
      rw [addedEntries, if_neg hrow, List.map_append] at hsublist
      simpa using hsublist.of_append_right

end SimpleAggregationHashTable

/-- On the given keys, `operator==` is an equivalence relation, and equal keys have equal
hashes. -/
structure KeyEquivalence (keys : List AggregateKey) : Prop where
  refl : ∀ key ∈ keys, key.equal key = .ok true
  symm : ∀ first ∈ keys, ∀ second ∈ keys, first.equal second = .ok true →
    second.equal first = .ok true
  trans : ∀ first ∈ keys, ∀ second ∈ keys, ∀ third ∈ keys, first.equal second = .ok true →
    second.equal third = .ok true → first.equal third = .ok true
  hash_eq : ∀ first ∈ keys, ∀ second ∈ keys, first.equal second = .ok true →
    first.hash = second.hash

theorem equal_eq_true_iff {types : List TypeId} {first second : AggregateKey}
    (hfirst : first.WellFormed types) (hsecond : second.WellFormed types) :
    first.equal second = .ok true ↔ first = second ∧ first.NotNull := by
  obtain ⟨truth, htruth, hiff⟩ := AggregateKey.equalityOf types first second hfirst hsecond
  rw [← hiff]
  exact ⟨fun h => Except.ok.inj (htruth.symm.trans h), fun h => htruth.trans (congrArg _ h)⟩

theorem keyEquivalence_iff {types : List TypeId} {keys : List AggregateKey}
    (hkeys : ∀ key ∈ keys, key.WellFormed types) :
    KeyEquivalence keys ↔ ∀ key ∈ keys, key.NotNull := by
  constructor
  · intro h key hmem
    exact ((equal_eq_true_iff (hkeys key hmem) (hkeys key hmem)).mp (h.refl key hmem)).2
  · intro h
    have heq : ∀ first ∈ keys, ∀ second ∈ keys, first.equal second = .ok true → first = second :=
      fun first hfirst second hsecond hequal =>
        ((equal_eq_true_iff (hkeys _ hfirst) (hkeys _ hsecond)).mp hequal).1
    refine ⟨fun key hmem => ?_, fun first hfirst second hsecond hequal => ?_,
      fun first hfirst second hsecond third hthird hequal hequal' => ?_,
      fun first hfirst second hsecond hequal => ?_⟩
    · exact (equal_eq_true_iff (hkeys key hmem) (hkeys key hmem)).mpr ⟨rfl, h key hmem⟩
    · obtain rfl := heq first hfirst second hsecond hequal
      exact hequal
    · obtain rfl := heq first hfirst second hsecond hequal
      exact hequal'
    · rw [heq first hfirst second hsecond hequal]

def SimpleAggregationHashTable.create (aggExprs : List Expression)
    (aggTypes : List AggregationType) (h : aggExprs.length = aggTypes.length) :
    SimpleAggregationHashTable :=
  ⟨aggExprs, aggTypes, h, []⟩

open SimpleAggregationHashTable

/-- **Grouping.**  After any sequence of rows, the table has one entry for each group, with a
value for each aggregate, and the keys are compared by an equivalence, if and only if no row
has a NULL. -/
theorem insertRows_grouped_iff (aggExprs : List Expression) (aggTypes : List AggregationType)
    (hlength : aggExprs.length = aggTypes.length) (types : List TypeId)
    (rows : List (AggregateKey × AggregateValue)) (hrows : ∀ row ∈ rows, row.1.WellFormed types) :
    ∃ table, (create aggExprs aggTypes hlength).insertRows rows = .ok table ∧
      ((Grouped rows table ∧ KeyEquivalence (rows.map Prod.fst)) ↔
        ∀ row ∈ rows, row.1.NotNull) := by
  have htyped : (create aggExprs aggTypes hlength).Typed types := fun entry hmem => nomatch hmem
  have hgrouped : Grouped [] (create aggExprs aggTypes hlength) :=
    ⟨List.nodup_nil, fun key => Iff.rfl, fun entry hmem => nomatch hmem⟩
  obtain ⟨table, hrun, -, hnull⟩ := insertRows_spec htyped hrows
  refine ⟨table, hrun, fun h => hnull h.1.nodup, fun h => ⟨?_, ?_⟩⟩
  · obtain ⟨table', hrun', hgroups⟩ := insertRows_grouped htyped hgrouped hrows h
    obtain rfl : table = table' := Except.ok.inj (hrun.symm.trans hrun')
    exact hgroups
  · exact (keyEquivalence_iff (List.forall_mem_map.mpr hrows)).mpr (List.forall_mem_map.mpr h)

/-- Three rows of two groups, with `COUNT(*)`. -/
theorem insertRows_grouped_two :
    let one : AggregateKey := ⟨[Value.wrap .integer 1, .varchar (some ⟨[97, 0], by decide⟩)]⟩
    let two : AggregateKey := ⟨[Value.wrap .integer 2, .varchar (some ⟨[97, 0], by decide⟩)]⟩
    let rows : List (AggregateKey × AggregateValue) := [(one, ⟨[]⟩), (two, ⟨[]⟩), (one, ⟨[]⟩)]
    ∃ table, (create [.constantValue (Value.wrap .integer 1)] [.countStarAggregate] rfl).insertRows
      rows = .ok table ∧ Grouped rows table := by
  intro one two rows
  have hstring : (Value.varchar (some ⟨[97, 0], by decide⟩)).EndsInNul :=
    ⟨[97], rfl, by decide⟩
  have hone : one.WellFormed [.number .integer, .varchar] :=
    ⟨rfl, by simp [one, Value.wrap, hstring]; trivial⟩
  have htwo : two.WellFormed [.number .integer, .varchar] :=
    ⟨rfl, by simp [two, Value.wrap, hstring]; trivial⟩
  obtain ⟨table, hrun, hiff⟩ := insertRows_grouped_iff [.constantValue (Value.wrap .integer 1)]
    [.countStarAggregate] rfl [.number .integer, .varchar] rows (by simp [rows, hone, htwo])
  exact ⟨table, hrun, (hiff.mpr (by decide)).1⟩

/-- A row with a NULL leaves two entries, and its key is not equal to itself. -/
theorem not_grouped_null :
    let key : AggregateKey := ⟨[Value.nullOf .integer]⟩
    ∃ table, (create [.constantValue (Value.wrap .integer 1)] [.countStarAggregate] rfl).insertRows
        [(key, ⟨[Value.wrap .integer 1]⟩)] = .ok table ∧
      table.ht = [(key, ⟨[Value.getIntegerValue 0]⟩), (key, ⟨[]⟩)] ∧
      key.equal key = .ok false := by
  exact ⟨_, rfl, rfl, rfl⟩

end BusTub

import BusTub.Binder.BoundStatement
import BusTub.Library.UniqueMatch

/-!
# Resolving columns

The model of the `ResolveColumn` family and of `GetAllColumns`.

A column of a FROM clause belongs to a table that has a name there, the qualifier, and has a name
of its own, which is a list of words for a column of a subquery.  What is written in a query
answers to it if it is the end of its own name, with or without the qualifier in front, up to the
case of letters.

`ResolveColumn` finds a column only if no other column answers to what is written.  The name that
it returns has the qualifier in front, but for a CTE the name of the CTE, which is not the
qualifier if the reference has an alias.
-/

namespace BusTub

open UniqueMatch

namespace Binder

/-! ## The resolver -/

def joinName (name : List String) : String := ".".intercalate name

/-- `ResolveColumnRefFromSchema`. -/
def resolveColumnRefFromSchema (schema : OutputSchema) (colName : List String) :
    Except SqlFault (Option (List String)) :=
  match colName with
  | [name] => do
      let column ← uniqueMatch (.exception (joinName colName ++ " is ambiguous in schema"))
        (fun column : String × TypeId => column.1.toLower = name) schema none
      return column.map fun column => [column.1]
  | _ => .ok none

/-- `MatchSuffix`. -/
def matchSuffix (suffix fullName : List String) : Bool :=
  suffix.isSuffixOf (fullName.map String.toLower)

/-- `ResolveColumnRefFromSelectList`. -/
def resolveColumnRefFromSelectList (subquerySelectList : List (List String))
    (colName : List String) : Except SqlFault (Option (List String)) :=
  uniqueMatch (.exception (joinName colName ++ " is ambiguous in subquery select list"))
    (matchSuffix colName) subquerySelectList none

/-- The name without the qualifier in front, if it has more than one word. -/
def resolveQualified (resolve : List String → Except SqlFault (Option (List String)))
    (qualifier : String) : List String → Except SqlFault (Option (List String))
  | first :: second :: rest =>
    if first = qualifier then resolve (second :: rest) else .ok none
  | _ => .ok none

/-- The name as it is written, and again without the qualifier in front.  What is found gets a
word in front. -/
def resolveStripped (resolve : List String → Except SqlFault (Option (List String)))
    (qualifier front : String) (ambiguous : SqlFault) (colName : List String) :
    Except SqlFault (Option (List String)) := do
  let direct ← resolve colName
  let strip ← resolveQualified resolve qualifier colName
  match strip, direct with
  | some _, some _ => throw ambiguous
  | some name, none => return some (front :: name)
  | none, direct => return direct.map (front :: ·)

/-- `ResolveColumnRefFromBaseTableRef`. -/
def resolveColumnRefFromBaseTableRef (table boundTableName : String) (schema : OutputSchema)
    (colName : List String) : Except SqlFault (Option (List String)) :=
  resolveStripped (resolveColumnRefFromSchema schema) boundTableName boundTableName
    (.exception (joinName colName ++ " is ambiguous in table " ++ table)) colName

/-- `ResolveColumnRefFromSubqueryRef`. -/
def resolveColumnRefFromSubqueryRef (query : BoundSubquery) (aliasName : String)
    (colName : List String) : Except SqlFault (Option (List String)) :=
  resolveStripped (resolveColumnRefFromSelectList query.selectListName) aliasName query.aliasName
    (.exception (joinName colName ++ " is ambiguous in subquery " ++ query.aliasName)) colName

def resolveSides (colName : List String) (left right : Option (List String)) :
    Except SqlFault (Option (List String)) :=
  match left, right with
  | some _, some _ => .error (.exception (joinName colName ++ " is ambiguous"))
  | some name, none => .ok (some name)
  | none, right => .ok right

/-- `ResolveColumnInternal`. -/
def resolveColumnInternal (ctes : List BoundSubquery) (colName : List String) :
    BoundTableRef → Except SqlFault (Option (List String))
  | .baseTable table _ aliasName schema =>
    resolveColumnRefFromBaseTableRef table (getBoundTableName table aliasName) schema colName
  | .crossProduct left right | .join _ left right _ => do
      let leftColumn ← resolveColumnInternal ctes colName left
      let rightColumn ← resolveColumnInternal ctes colName right
      resolveSides colName leftColumn rightColumn
  | .subquery query => resolveColumnRefFromSubqueryRef query query.aliasName colName
  | .cte cteName aliasName =>
    match findCTE ctes cteName with
    | none => .error (.exception "CTE not found")
    | some cte => resolveColumnRefFromSubqueryRef cte aliasName colName
  | .empty | .expressionList _ _ => .error (.exception "unsupported TableReferenceType")

/-- `ResolveColumn`. -/
def resolveColumn (ctes : List BoundSubquery) (scope : BoundTableRef) (colName : List String) :
    Except SqlFault BoundExpression := do
  match ← resolveColumnInternal ctes colName scope with
  | none => throw (.exception ("column " ++ joinName colName ++ " not found"))
  | some name => return .columnRef name

/-- `GetAllColumns`: the names of the column references. -/
def getAllColumns (ctes : List BoundSubquery) :
    BoundTableRef → Except SqlFault (List (List String))
  | .baseTable table _ aliasName schema =>
    .ok (schema.map fun column => [getBoundTableName table aliasName, column.1])
  | .crossProduct left right | .join _ left right _ => do
      let columns ← getAllColumns ctes left
      let appendColumns ← getAllColumns ctes right
      return columns ++ appendColumns
  | .subquery query => .ok (query.selectListName.map (query.aliasName :: ·))
  | .cte cteName aliasName =>
    match findCTE ctes cteName with
    | none => .error (.exception "CTE not found")
    | some cte => .ok ((cte.selectListName.map (cte.aliasName :: ·)).map (·.set 0 aliasName))
  | .empty | .expressionList _ _ =>
    .error (.exception "select * cannot be used with this TableReferenceType")

/-! ## The columns of a FROM clause -/

/-- A column: the name of its table in the FROM clause, and its own name. -/
structure FromColumn where
  qualifier : String
  ownName : List String
deriving DecidableEq

namespace FromColumn

def fullName (column : FromColumn) : List String := column.qualifier :: column.ownName

/-- What is written is the end of the own name, with or without the qualifier in front. -/
def AnswersTo (written : List String) (column : FromColumn) : Prop :=
  matchSuffix written column.ownName ∨
    ∃ rest, rest ≠ [] ∧ written = column.qualifier :: rest ∧ matchSuffix rest column.ownName

end FromColumn

def columnsOf (ctes : List BoundSubquery) : BoundTableRef → List FromColumn
  | .baseTable table _ aliasName schema =>
    schema.map fun column => ⟨getBoundTableName table aliasName, [column.1]⟩
  | .crossProduct left right | .join _ left right _ => columnsOf ctes left ++ columnsOf ctes right
  | .subquery query => query.selectListName.map fun name => ⟨query.aliasName, name⟩
  | .cte cteName aliasName =>
    match findCTE ctes cteName with
    | none => []
    | some cte => cte.selectListName.map fun name => ⟨aliasName, name⟩
  | .empty | .expressionList _ _ => []

variable {ctes : List BoundSubquery}

/-- **`GetAllColumns`** lists the columns. -/
theorem getAllColumns_spec {scope : BoundTableRef}
    {names : List (List String)} (h : getAllColumns ctes scope = .ok names) :
    names = (columnsOf ctes scope).map FromColumn.fullName := by
  fun_induction columnsOf ctes scope generalizing names with
  | case1 table oid aliasName schema =>
    cases h
    rw [List.map_map]
    rfl
  | case2 left right ihleft ihright | case3 joinType left right condition ihleft ihright =>
    simp only [getAllColumns, Except.bind_eq_ok_iff] at h
    obtain ⟨columns, hleft, others, hright, h⟩ := h
    cases h
    rw [List.map_append, ← ihleft hleft, ← ihright hright]
  | case4 query =>
    cases h
    rw [List.map_map]
    rfl
  | case5 cteName aliasName hfind => simp only [getAllColumns, hfind, reduceCtorEq] at h
  | case6 cteName aliasName cte hfind =>
    simp only [getAllColumns, hfind, Except.ok.injEq] at h
    rw [← h, List.map_map, List.map_map]
    rfl
  | case7 => cases h
  | case8 values identifier => cases h

/-! ## Resolving finds the only answer -/

variable {written : List String}

theorem matchSuffix_iff {name : List String} :
    matchSuffix written name = true ↔ written <:+ name.map String.toLower :=
  List.isSuffixOf_iff_suffix

theorem matchSuffix_column {column : String} (hwritten : written ≠ []) :
    matchSuffix written [column] = true ↔ written = [column.toLower] := by
  rw [matchSuffix_iff, List.map_singleton]
  constructor
  · intro h
    have hlength := h.length_le
    exact h.eq_of_length_le (List.length_pos_iff.mpr hwritten)
  · rintro rfl
    exact List.suffix_rfl

variable {found : Option (List String)}

theorem resolveColumnRefFromSchema_spec {schema : OutputSchema}
    (hwritten : written ≠ [])
    (h : resolveColumnRefFromSchema schema written = .ok found) :
    IsOnly (fun name => matchSuffix written name = true) (schema.map fun column => [column.1])
      found := by
  rcases written with _ | ⟨word, _ | ⟨second, rest⟩⟩
  · exact absurd rfl hwritten
  · rw [resolveColumnRefFromSchema, Except.bind_eq_ok_iff] at h
    obtain ⟨column, hcolumn, h⟩ := h
    cases h
    refine IsOnly.map ((uniqueMatch_spec hcolumn).congr fun column _ => ?_)
    rw [matchSuffix_column hwritten, decide_eq_true_eq, List.singleton_inj, eq_comm]
  · cases h
    intro name hname hmatch
    obtain ⟨column, -, rfl⟩ := List.mem_map.mp hname
    rw [matchSuffix_column hwritten] at hmatch
    cases hmatch

section Stripped

variable {resolve : List String → Except SqlFault (Option (List String))}
  {qualifier front : String} {ambiguous : SqlFault} {written : List String}
  {names : List (List String)} {found : Option (List String)}

def FindsOwnNames (resolve : List String → Except SqlFault (Option (List String)))
    (names : List (List String)) : Prop :=
  ∀ written found, written ≠ [] → resolve written = .ok found →
    IsOnly (fun name => matchSuffix written name = true) names found

theorem resolveQualified_spec (hresolve : FindsOwnNames resolve names)
    (h : resolveQualified resolve qualifier written = .ok found) :
    IsOnly (fun name => ∃ rest, rest ≠ [] ∧ written = qualifier :: rest ∧
      matchSuffix rest name = true) names found := by
  unfold resolveQualified at h
  split at h
  · rename_i first second rest
    split_ifs at h with hfirst
    · refine (hresolve _ _ (List.cons_ne_nil _ _) h).congr fun name _ => ⟨fun hmatch => ?_, ?_⟩
      · exact ⟨_, List.cons_ne_nil _ _, hfirst ▸ rfl, hmatch⟩
      · rintro ⟨rest', -, hwritten, hmatch⟩
        exact (List.cons.inj hwritten).2 ▸ hmatch
    · cases h
      rintro name - ⟨rest', -, hwritten, -⟩
      exact hfirst (List.cons.inj hwritten).1
  -- a name of fewer than two words has no qualifier
  · rename_i hshort
    cases h
    rintro name - ⟨rest, hrest, hwritten, -⟩
    cases rest with
    | nil => exact hrest rfl
    | cons second rest => exact hshort _ _ _ hwritten

theorem findsOwnNames_selectList :
    FindsOwnNames (resolveColumnRefFromSelectList names) names :=
  fun _ _ _ h => uniqueMatch_spec h

theorem resolveStripped_spec (hwritten : written ≠ []) (hresolve : FindsOwnNames resolve names)
    (h : resolveStripped resolve qualifier qualifier ambiguous written = .ok found) :
    ∃ column, IsOnly (FromColumn.AnswersTo written) (names.map (FromColumn.mk qualifier)) column ∧
      found = column.map FromColumn.fullName := by
  simp only [resolveStripped, Except.bind_eq_ok_iff] at h
  obtain ⟨direct, hdirect, strip, hstrip, h⟩ := h
  have hdirectOnly := hresolve written direct hwritten hdirect
  have hstripOnly := resolveQualified_spec hresolve hstrip
  cases strip with
  | none =>
    refine ⟨direct.map (FromColumn.mk qualifier), IsOnly.map ?_, ?_⟩
    · exact (hstripOnly.or_of_none hdirectOnly).congr fun name _ => or_comm
    · rw [← Except.ok.inj h, Option.map_map]
      rfl
  | some name =>
    cases direct with
    | none =>
      have hanswer : IsOnly (fun name => (FromColumn.mk qualifier name).AnswersTo written) names
        (some name) := hdirectOnly.or_of_none hstripOnly
      exact ⟨some ⟨qualifier, name⟩, hanswer.map, (Except.ok.inj h).symm⟩
    -- found both ways: the name is ambiguous
    | some other => cases h

end Stripped

/-- A reference to a CTE has no alias, or the name of the CTE as its alias. -/
def AliasesAreNames : BoundTableRef → Prop
  | .crossProduct left right | .join _ left right _ => AliasesAreNames left ∧ AliasesAreNames right
  | .cte cteName aliasName => aliasName = cteName
  | _ => True

theorem resolveSides_spec
    {p : FromColumn → Prop} {leftColumns rightColumns : List FromColumn}
    {leftColumn rightColumn : Option FromColumn}
    (hleft : IsOnly p leftColumns leftColumn) (hright : IsOnly p rightColumns rightColumn)
    (h : resolveSides written (leftColumn.map FromColumn.fullName)
      (rightColumn.map FromColumn.fullName) = .ok found) :
    ∃ column, IsOnly p (leftColumns ++ rightColumns) column ∧
      found = column.map FromColumn.fullName := by
  cases leftColumn with
  | none => exact ⟨rightColumn, hleft.none_append hright, (Except.ok.inj h).symm⟩
  | some column =>
    cases rightColumn with
    | none => exact ⟨some column, hleft.append_none hright, (Except.ok.inj h).symm⟩
    | some other => cases h

theorem aliasName_of_findCTE {name : String} {cte : BoundSubquery}
    (h : findCTE ctes name = some cte) : cte.aliasName = name := by
  simpa using List.find?_some h

/-- **Resolving finds the only column that answers to what is written**, and returns its full
name. -/
theorem resolveColumnInternal_spec {scope : BoundTableRef}
    (hwritten : written ≠ [])
    (haliases : AliasesAreNames scope) (h : resolveColumnInternal ctes written scope = .ok found) :
    ∃ column, IsOnly (FromColumn.AnswersTo written) (columnsOf ctes scope) column ∧
      found = column.map FromColumn.fullName := by
  fun_induction columnsOf ctes scope generalizing found with
  | case1 table oid aliasName schema =>
    obtain ⟨column, honly, hfound⟩ := resolveStripped_spec hwritten
      (fun written found => resolveColumnRefFromSchema_spec) h
    rw [List.map_map] at honly
    exact ⟨column, honly, hfound⟩
  | case2 left right ihleft ihright | case3 joinType left right condition ihleft ihright =>
    simp only [resolveColumnInternal, Except.bind_eq_ok_iff] at h
    obtain ⟨leftName, hleft, rightName, hright, h⟩ := h
    obtain ⟨leftColumn, hleftOnly, rfl⟩ := ihleft haliases.1 hleft
    obtain ⟨rightColumn, hrightOnly, rfl⟩ := ihright haliases.2 hright
    exact resolveSides_spec hleftOnly hrightOnly h
  | case4 query =>
    exact resolveStripped_spec hwritten findsOwnNames_selectList h
  | case5 cteName aliasName hfind => simp only [resolveColumnInternal, hfind, reduceCtorEq] at h
  | case6 cteName aliasName cte hfind =>
    simp only [resolveColumnInternal, hfind] at h
    -- The name in front is that of the CTE, which here is the qualifier.
    have hname : cte.aliasName = aliasName := (aliasName_of_findCTE hfind).trans haliases.symm
    rw [resolveColumnRefFromSubqueryRef, hname] at h
    exact resolveStripped_spec hwritten findsOwnNames_selectList h
  | case7 => cases h
  | case8 values identifier => cases h

end Binder

end BusTub

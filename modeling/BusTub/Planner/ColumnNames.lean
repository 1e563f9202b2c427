import BusTub.Binder.ResolveColumn
import BusTub.Planner.PlanSelect

/-!
# Names of columns

The binder resolves a column to its full name, and the planner looks that name up in the schema of
the plan of the FROM clause.  The two go together if the schema has the full names of the columns
in their order.

The planner changes the definitions of CTEs while it plans them, but not what their columns are
called.

A reference to a CTE under an alias is planned with the alias in front of its columns, and
`GetAllColumns` lists them so; but `ResolveColumn` returns them with the name of the CTE in front,
and there is no such column.
-/

namespace BusTub

open FuelledRun UniqueMatch Binder

/-! ## What planning keeps -/

namespace BoundSubquery

/-- What is known about the columns of a subquery without planning it. -/
def face (query : BoundSubquery) : String × List (List String) × ℕ :=
  (query.aliasName, query.selectListName, query.subquery.clauses.selectList.length)

structure WellNamed (query : BoundSubquery) : Prop where
  length_eq : query.selectListName.length = query.subquery.clauses.selectList.length
  ne_nil : ∀ name ∈ query.selectListName, name ≠ []

end BoundSubquery

namespace Planner

variable {planFrom : PlannerState → BoundTableRef → FuelledRun SqlFault (Planned BoundTableRef)}
  {catalog : TableCatalog} {state state' : PlannerState} {plan : PlanNode}

theorem length_addAggCalls {list list' : List BoundExpression} {calls calls' : List AggCall}
    (h : addAggCalls list calls = .ok (list', calls')) : list'.length = list.length := by
  replace h := aggCallsAdded_of_ok h
  induction h with
  | nil calls => rfl
  | cons hitem hrest ih => rw [List.length_cons, List.length_cons, ih]

theorem length_nameColumns (items : List (String × Expression)) (id : ℕ) :
    (nameColumns items id).1.length = items.length := by
  fun_induction nameColumns items id with
  | case1 id => rfl
  | case2 expression rest id others next hrest ih =>
    simpa [hrest] using ih
  | case3 name expression rest id hname others next hrest ih =>
    simpa [hrest] using ih

theorem length_planSelectAgg {clauses clauses' : SelectClauses} {child : PlanNode}
    (h : planSelectAgg clauses child = .ok (plan, clauses')) :
    plan.outputSchema.length = clauses.selectList.length ∧
      clauses'.selectList.length = clauses.selectList.length := by
  simp only [planSelectAgg, Except.bind_eq_ok_iff, projectionOf_eq] at h
  obtain ⟨_, -, _, -, ⟨selectList, calls⟩, hcalls, _, -, _, -, _, -, ⟨items, context⟩, hitems, node,
    hnode, h⟩ := h
  cases h
  have hlength := length_addAggCalls hcalls
  refine ⟨?_, hlength⟩
  rw [← Except.ok.inj hnode, PlanNode.outputSchema_node, List.length_map,
    length_planExpressions hitems, hlength]

variable {source : PlanNode}

theorem length_planSelectList {selectList : List BoundExpression} {id id' : ℕ}
    (h : planSelectList selectList source id = .ok (plan, id')) :
    plan.outputSchema.length = selectList.length := by
  simp only [planSelectList, Except.bind_eq_ok_iff, projectionOf_eq] at h
  obtain ⟨⟨items, context⟩, hitems, node, hnode, h⟩ := h
  cases h
  rw [← Except.ok.inj hnode, PlanNode.outputSchema_node, List.length_map, length_nameColumns,
    length_planExpressions hitems]

theorem length_planItems {clauses clauses' : SelectClauses} {id id' : ℕ}
    (h : planItems clauses source id = .ok (plan, clauses', id')) :
    plan.outputSchema.length = clauses.selectList.length ∧
      clauses'.selectList.length = clauses.selectList.length := by
  simp only [planItems, Except.bind_eq_ok_iff] at h
  obtain ⟨hasAgg, -, h⟩ := h
  split_ifs at h <;> rw [Except.bind_eq_ok_iff] at h
  · obtain ⟨⟨plan, clauses'⟩, hagg, h⟩ := h
    obtain ⟨rfl, rfl, -⟩ := Except.ok.inj h
    exact length_planSelectAgg hagg
  · obtain ⟨⟨plan, id'⟩, hlist, h⟩ := h
    obtain ⟨rfl, rfl, -⟩ := Except.ok.inj h
    exact ⟨length_planSelectList hlist, rfl⟩

theorem outputSchema_planDistinct (isDistinct : Bool) (plan : PlanNode) :
    (planDistinct isDistinct plan).outputSchema = plan.outputSchema := by
  unfold planDistinct
  split_ifs <;> rfl

theorem outputSchema_planSort {sort : List (OrderByType × BoundExpression)}
    (h : planSort sort source = .ok plan) : plan.outputSchema = source.outputSchema := by
  unfold planSort at h
  split_ifs at h
  · rw [Except.ok.inj h]
  · rw [Except.bind_eq_ok_iff] at h
    obtain ⟨items, -, h⟩ := h
    rw [← Except.ok.inj h, PlanNode.outputSchema_node]

theorem outputSchema_planLimit {limitCount limitOffset : Option BoundExpression}
    (h : planLimit limitCount limitOffset source = .ok plan) :
    plan.outputSchema = source.outputSchema := by
  simp only [planLimit, Except.bind_eq_ok_iff] at h
  obtain ⟨limit, -, offset, -, h⟩ := h
  split at h
  · cases h
  · rw [← Except.ok.inj h, PlanNode.outputSchema_node]
  · rw [← Except.ok.inj h]

theorem length_planClauses {clauses clauses' : SelectClauses} {id id' : ℕ}
    (h : planClauses clauses source id = .ok (plan, clauses', id')) :
    plan.outputSchema.length = clauses.selectList.length ∧
      clauses'.selectList.length = clauses.selectList.length := by
  simp only [planClauses, Except.bind_eq_ok_iff] at h
  obtain ⟨_, -, ⟨items, clauses₁, id₁⟩, hitems, sorted, hsort, limited, hlimit, h⟩ := h
  obtain ⟨rfl, rfl, -⟩ := Except.ok.inj h
  rw [outputSchema_planLimit hlimit, outputSchema_planSort hsort, outputSchema_planDistinct]
  exact length_planItems hitems

def SameFaces (ctes ctes' : List BoundSubquery) : Prop :=
  ctes'.map BoundSubquery.face = ctes.map BoundSubquery.face

theorem planSelectWith_faces {statement statement' : SelectStatement}
    (hfrom : ∀ state tableRef result, planFrom state tableRef = .ok result →
      SameFaces state.ctes result.2.2.ctes)
    (h : planSelectWith planFrom state statement = .ok (plan, statement', state')) :
    plan.outputSchema.length = statement.clauses.selectList.length ∧
      statement'.clauses.selectList.length = statement.clauses.selectList.length ∧
      SameFaces state.ctes state'.ctes := by
  obtain ⟨table, clauses, ctes⟩ := statement
  obtain ⟨source, table', inner, clauses', htable, hclauses, rfl, hctes⟩ := planSelectWith_ok h
  obtain ⟨hlength, hlength'⟩ := length_planClauses hclauses
  refine ⟨hlength, hlength', ?_⟩
  rw [hctes]
  -- a WITH clause replaces the list, and the list comes back afterwards
  split_ifs with hempty
  · rw [PlannerState.enter, if_pos hempty] at htable
    cases table with
    | empty =>
      obtain ⟨-, -, rfl⟩ := Except.ok.inj htable
      rfl
    | _ => exact hfrom _ _ _ htable
  · rfl

variable {aliasName : String}

theorem planSubqueryWith_faces {query query' : BoundSubquery}
    (hfrom : ∀ state tableRef result, planFrom state tableRef = .ok result →
      SameFaces state.ctes result.2.2.ctes)
    (h : planSubqueryWith planFrom state query aliasName = .ok (plan, query', state')) :
    query'.face = query.face ∧ SameFaces state.ctes state'.ctes := by
  obtain ⟨selectNode, subquery, items, hselect, -, -, rfl⟩ := planSubqueryWith_ok h
  obtain ⟨-, hlength, hfaces⟩ := planSelectWith_faces hfrom hselect
  refine ⟨?_, hfaces⟩
  simp only [BoundSubquery.face, BoundSubquery.aliasName, BoundSubquery.selectListName,
    BoundSubquery.subquery, hlength]

theorem replaceCTE_faces {ctes ctes' : List BoundSubquery} {name : String}
    {query query' : BoundSubquery} (hfaces : SameFaces ctes ctes')
    (hfind : findCTE ctes name = some query) (hface : query'.face = query.face) :
    SameFaces ctes (replaceCTE name query' ctes') := by
  induction ctes generalizing ctes' with
  | nil => cases hfind
  | cons cte rest ih =>
    cases ctes' with
    | nil => cases hfaces
    | cons cte' rest' =>
      obtain ⟨hcte, hrest⟩ := List.cons.inj hfaces
      have hname : cte'.aliasName = cte.aliasName := congrArg Prod.fst hcte
      by_cases hfound : cte.aliasName = name
      · have hquery : cte = query := by simpa [findCTE, hfound] using hfind
        rw [replaceCTE, if_pos (hname.trans hfound)]
        exact congrArg₂ List.cons (hface.trans (hquery ▸ rfl)) hrest
      · have hfind' : findCTE rest name = some query := by
          simpa [findCTE, hfound] using hfind
        rw [replaceCTE, if_neg (hname ▸ hfound)]
        exact congrArg₂ List.cons hcte (ih hrest hfind')

variable {tableRef : BoundTableRef}

/-- **Planning keeps the faces of the CTEs.** -/
theorem planTableRef_faces {fuel : ℕ} {result : Planned BoundTableRef}
    (h : planTableRef catalog fuel state tableRef = .ok result) :
    SameFaces state.ctes result.2.2.ctes := by
  refine planTableRef_induction (motive := fun state _ result =>
    SameFaces state.ctes result.2.2.ctes) (fun planFrom hfrom state tableRef result h => ?_) h
  cases h with
  | baseTable hplan => rfl
  | crossProduct hleft hright =>
    exact (hfrom _ _ _ hright).trans (hfrom _ _ _ hleft)
  | join hleft hright hcondition =>
    exact (hfrom _ _ _ hright).trans (hfrom _ _ _ hleft)
  | expressionList hplan => rfl
  | subquery hquery => exact (planSubqueryWith_faces hfrom hquery).2
  | cte hfind hquery =>
    obtain ⟨hface, hfaces⟩ := planSubqueryWith_faces hfrom hquery
    exact replaceCTE_faces hfaces hfind hface

/-! ## The names of the schema -/

def columnNames (columns : List FromColumn) : List String :=
  columns.map fun column => joinName column.fullName

/-- A FROM clause of base tables, joins, subqueries and CTEs, as the binder builds it. -/
def FromTree (ctes : List BoundSubquery) : BoundTableRef → Prop
  | .baseTable _ _ _ _ => True
  | .crossProduct left right | .join _ left right _ => FromTree ctes left ∧ FromTree ctes right
  | .subquery query => query.WellNamed
  | .cte cteName _ => ∃ cte, findCTE ctes cteName = some cte ∧ cte.WellNamed
  | .empty | .expressionList _ _ => False

theorem joinName_cons {word : String} {name : List String} (h : name ≠ []) :
    joinName (word :: name) = word ++ "." ++ joinName name :=
  String.intercalate_cons_of_ne_nil h

theorem map_face_findCTE (ctes : List BoundSubquery) (name : String) :
    (findCTE ctes name).map BoundSubquery.face =
      (ctes.map BoundSubquery.face).find? fun face => face.1 = name := by
  rw [findCTE, List.find?_map]
  rfl

theorem findCTE_faces {ctes ctes' : List BoundSubquery} (h : SameFaces ctes ctes')
    (name : String) : (findCTE ctes' name).map BoundSubquery.face =
      (findCTE ctes name).map BoundSubquery.face := by
  rw [map_face_findCTE, map_face_findCTE, h]

theorem exists_findCTE_faces {ctes ctes' : List BoundSubquery} (h : SameFaces ctes ctes')
    {name : String} {cte : BoundSubquery} (hfind : findCTE ctes name = some cte) :
    ∃ cte', findCTE ctes' name = some cte' ∧ cte'.face = cte.face := by
  have hfind' := findCTE_faces h name
  rwa [hfind, Option.map_some, Option.map_eq_some_iff] at hfind'

theorem wellNamed_of_face {query query' : BoundSubquery} (hface : query'.face = query.face)
    (h : query.WellNamed) : query'.WellNamed := by
  have hnames : query'.selectListName = query.selectListName :=
    congrArg (fun face => face.2.1) hface
  have hlength : query'.subquery.clauses.selectList.length =
      query.subquery.clauses.selectList.length := congrArg (fun face => face.2.2) hface
  exact ⟨by rw [hnames, hlength, h.length_eq], hnames ▸ h.ne_nil⟩

theorem columnsOf_faces {ctes ctes' : List BoundSubquery} (h : SameFaces ctes ctes')
    (tableRef : BoundTableRef) : columnsOf ctes' tableRef = columnsOf ctes tableRef := by
  fun_induction columnsOf ctes tableRef with
  | case1 table oid aliasName schema => rfl
  | case2 left right ihleft ihright | case3 joinType left right condition ihleft ihright =>
    rw [columnsOf, ihleft, ihright]
  | case4 query => rfl
  | case5 cteName aliasName hfind =>
    have hfind' := findCTE_faces h cteName
    rw [hfind, Option.map_none, Option.map_eq_none_iff] at hfind'
    rw [columnsOf, hfind']
  | case6 cteName aliasName cte hfind =>
    obtain ⟨cte', hcte', hface⟩ := exists_findCTE_faces h hfind
    have hnames : cte'.selectListName = cte.selectListName :=
      congrArg (fun face => face.2.1) hface
    simp [columnsOf, hcte', hnames]
  | case7 => rfl
  | case8 values identifier => rfl

theorem fromTree_faces {ctes ctes' : List BoundSubquery} (h : SameFaces ctes ctes')
    (htree : FromTree ctes tableRef) : FromTree ctes' tableRef := by
  fun_induction FromTree ctes tableRef with
  | case1 table oid aliasName schema => trivial
  | case2 left right ihleft ihright | case3 joinType left right condition ihleft ihright =>
    exact ⟨ihleft htree.1, ihright htree.2⟩
  | case4 query => exact htree
  | case5 cteName aliasName =>
    obtain ⟨cte, hfind, hnamed⟩ := htree
    obtain ⟨cte', hcte', hface⟩ := exists_findCTE_faces h hfind
    exact ⟨cte', hcte', wellNamed_of_face hface hnamed⟩
  | case6 => exact htree
  | case7 values identifier => exact htree

variable {schema : OutputSchema}

theorem subqueryItems_names {selectListName : List (List String)}
    {idx : ℕ} {items : List (String × Expression)}
    (hlength : selectListName.length = schema.length) (hne : ∀ name ∈ selectListName, name ≠ [])
    (h : subqueryItems aliasName selectListName idx schema = .ok items) :
    items.map Prod.fst = columnNames (selectListName.map (FromColumn.mk aliasName)) := by
  induction schema generalizing selectListName idx items with
  | nil =>
    obtain rfl := List.length_eq_zero_iff.mp hlength
    cases h
    rfl
  | cons column rest ih =>
    cases selectListName with
    | nil => cases h
    | cons name names =>
      rw [subqueryItems, Except.bind_eq_ok_iff] at h
      obtain ⟨others, hothers, h⟩ := h
      cases h
      rw [List.forall_mem_cons] at hne
      have hrest := ih (Nat.succ.inj hlength) hne.2 hothers
      rw [List.map_cons, hrest]
      exact congrArg₂ List.cons (joinName_cons hne.1).symm rfl

theorem planSubqueryWith_names {query query' : BoundSubquery}
    (hfrom : ∀ state tableRef result, planFrom state tableRef = .ok result →
      SameFaces state.ctes result.2.2.ctes) (hnamed : query.WellNamed)
    (h : planSubqueryWith planFrom state query aliasName = .ok (plan, query', state')) :
    plan.outputSchema.map Prod.fst =
      columnNames (query.selectListName.map (FromColumn.mk aliasName)) := by
  obtain ⟨selectNode, subquery, items, hselect, hitems, rfl, -⟩ := planSubqueryWith_ok h
  obtain ⟨hlength, -⟩ := planSelectWith_faces hfrom hselect
  have hnames := subqueryItems_names (hnamed.length_eq.trans hlength.symm) hnamed.ne_nil hitems
  rw [PlanNode.outputSchema_node, List.map_map, ← hnames]
  rfl

theorem planBaseTableRef_names {table : String} {aliasName : Option String}
    (h : planBaseTableRef catalog table aliasName schema = .ok plan) :
    plan.outputSchema.map Prod.fst = columnNames (schema.map fun column =>
      ⟨getBoundTableName table aliasName, [column.1]⟩) := by
  have hschema : plan.outputSchema = schema.map fun column =>
      (getBoundTableName table aliasName ++ "." ++ column.1, column.2) := by
    unfold planBaseTableRef at h
    cases hcatalog : catalog table with
    | none => simp only [hcatalog, reduceCtorEq] at h
    | some info =>
      simp only [hcatalog] at h
      split_ifs at h <;> exact (Except.ok.inj h) ▸ rfl
  rw [hschema, columnNames, List.map_map, List.map_map]
  refine List.map_congr_left fun column _ => ?_
  simp [FromColumn.fullName, joinName]

/-- **The schema of a FROM clause** has the full names of the columns, in their order. -/
theorem planTableRef_names {fuel : ℕ} {result : Planned BoundTableRef}
    (htree : FromTree state.ctes tableRef)
    (h : planTableRef catalog fuel state tableRef = .ok result) :
    result.1.outputSchema.map Prod.fst = columnNames (columnsOf state.ctes tableRef) := by
  induction fuel generalizing state tableRef result with
  | zero => cases h
  | succ fuel ih =>
    have hfaces : ∀ state tableRef result,
        planTableRef catalog fuel state tableRef = .ok result →
        SameFaces state.ctes result.2.2.ctes := fun _ _ _ => planTableRef_faces
    cases tablePlanned_of_ok h with
    | baseTable hplan => exact planBaseTableRef_names hplan
    | crossProduct hleft hright | join hleft hright hcondition =>
      have hmiddle := planTableRef_faces hleft
      have hrightNames := ih (fromTree_faces hmiddle htree.2) hright
      rw [columnsOf_faces hmiddle] at hrightNames
      simp [joinOf, ih htree.1 hleft, hrightNames, columnsOf, columnNames]
    | expressionList hplan => exact htree.elim
    | subquery hquery => exact planSubqueryWith_names hfaces htree hquery
    | cte hfind hquery =>
      obtain ⟨cte, hfind', hnamed⟩ := htree
      obtain rfl := Option.some.inj (hfind.symm.trans hfind')
      simp only [columnsOf, hfind]
      exact planSubqueryWith_names hfaces hnamed hquery

/-! ## Binder and planner agree -/

theorem getAllColumns_eq {ctes : List BoundSubquery}
    (htree : FromTree ctes tableRef) :
    getAllColumns ctes tableRef = .ok ((columnsOf ctes tableRef).map FromColumn.fullName) := by
  have hok : ∃ names, getAllColumns ctes tableRef = .ok names := by
    fun_induction FromTree ctes tableRef with
    | case1 table oid aliasName schema => exact ⟨_, rfl⟩
    | case2 left right ihleft ihright | case3 joinType left right condition ihleft ihright =>
      obtain ⟨leftNames, hleft⟩ := ihleft htree.1
      obtain ⟨rightNames, hright⟩ := ihright htree.2
      exact ⟨leftNames ++ rightNames, by simp only [getAllColumns, hleft, hright]; rfl⟩
    | case4 query => exact ⟨_, rfl⟩
    | case5 cteName aliasName =>
      obtain ⟨cte, hfind, -⟩ := htree
      exact ⟨_, by simp only [getAllColumns, hfind]; rfl⟩
    | case6 => exact htree.elim
    | case7 values identifier => exact htree.elim
  obtain ⟨names, hnames⟩ := hok
  rw [hnames, getAllColumns_spec hnames]

/-- The position of the column that is meant: it is the only one that answers. -/
def IsMeant (columns : List FromColumn) (written : List String) (column : FromColumn)
    (position : ℕ) : Prop :=
  columns[position]? = some column ∧ ∀ other column', columns[other]? = some column' →
    (column'.AnswersTo written ↔ other = position)

theorem exists_isMeant_of_isOnly {columns : List FromColumn} {written : List String}
    {column : FromColumn} (h : IsOnly (FromColumn.AnswersTo written) columns (some column)) :
    ∃ position, IsMeant columns written column position := by
  obtain ⟨front, back, rfl, hanswers, hothers⟩ := h
  refine ⟨front.length, by simp, fun other column' hother => ?_⟩
  rcases lt_trichotomy other front.length with hlt | rfl | hgt
  · rw [List.getElem?_append_left hlt] at hother
    have hmem := List.mem_append_left back (List.mem_of_getElem? hother)
    exact iff_of_false (hothers column' hmem) hlt.ne
  · have hcolumn : column = column' := by simpa using hother
    exact iff_of_true (hcolumn ▸ hanswers) rfl
  · obtain ⟨offset, rfl⟩ := Nat.exists_eq_add_of_lt hgt
    rw [List.getElem?_append_right (by omega), show front.length + offset + 1 - front.length =
      offset + 1 by omega, List.getElem?_cons_succ] at hother
    have hmem := List.mem_append_right front (List.mem_of_getElem? hother)
    exact iff_of_false (hothers column' hmem) hgt.ne'

theorem planColumnRef_of_nodup {name : List String} {position : ℕ}
    {column : String × TypeId} (hnodup : (schema.map Prod.fst).Nodup)
    (hcolumn : schema[position]? = some column) (hname : column.1 = joinName name) :
    planColumnRef [schema] name = .ok (column.1, .columnValue 0 position column.2) := by
  have hcount : ¬ 1 < schema.countP fun column => column.1 = joinName name := by
    have hle := List.nodup_iff_count_le_one.mp hnodup (joinName name)
    rw [List.count_eq_countP, List.countP_map] at hle
    exact not_lt.mpr hle
  obtain ⟨hlt, hget⟩ := List.getElem?_eq_some_iff.mp hcolumn
  have hfind : tryGetColIdx schema (joinName name) = some position := by
    rw [tryGetColIdx, List.findIdx?_eq_some_iff_getElem]
    -- a column before it with the same name would be a second one
    refine ⟨hlt, by simp [hget, hname], fun other hother hsame => hother.ne ?_⟩
    have hotherLt : other < (schema.map Prod.fst).length := by
      rw [List.length_map]
      exact hother.trans hlt
    refine (List.getElem?_inj hotherLt hnodup).mp ?_
    rw [List.getElem?_map, List.getElem?_map, hcolumn,
      List.getElem?_eq_getElem (hother.trans hlt), Option.map_some, Option.map_some, hname,
      of_decide_eq_true hsame]
  rw [joinName] at hname hcount hfind
  rw [planColumnRef, if_neg hcount, hfind]
  simp only [columnOfChild, hcolumn, ← hname]
  rfl

/-- `SELECT 1 AS x`. -/
def oneAsX : SelectStatement :=
  .mk .empty ⟨[.aliased "x" (.constant (Value.getIntegerValue 1))], none, [], none, none, none, [],
    false⟩ []

/-- The CTE `c AS (SELECT 1 AS x)`. -/
def cteOfX : BoundSubquery := .mk oneAsX [["x"]] "c"

/-- A catalog with the table `t`, which has a column `a`. -/
def tableOfA : TableCatalog := fun name =>
  if name = "t" then some (0, [("a", .number .integer)]) else none

/-- `FROM t, c`. -/
def tableAndCTE : BoundTableRef :=
  .crossProduct (.baseTable "t" 0 none [("a", .number .integer)]) (.cte "c" "c")

end Planner

end BusTub

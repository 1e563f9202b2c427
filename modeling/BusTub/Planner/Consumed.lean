import BusTub.Planner.Replanning

/-!
# Clauses that planning has consumed

The aggregate calls of the select list and of the HAVING clause are replaced, when they are
planned, by calls that no factory knows.  So clauses are left by planning either as they were, or
such that they cannot be planned any more.
-/

namespace BusTub

/-- The clauses cannot be planned, over any plan. -/
def SelectClauses.Consumed (clauses : SelectClauses) : Prop :=
  ∀ source id result, Planner.planClauses clauses source id ≠ .ok result

namespace Planner

/-- A call that `AddAggCallToContext` leaves behind. -/
def AggCall.IsPseudo (call : AggCall) : Prop :=
  call.args = [] ∧ ∃ term : ℕ, call.funcName = "__pseudo_agg#" ++ toString term

theorem planAggCall_pseudo {call : AggCall} (h : call.IsPseudo) (child : OutputSchema)
    (result : AggregationType × Expression) : planAggCall child call ≠ .ok result := by
  obtain ⟨funcName, isDistinct, args⟩ := call
  obtain ⟨rfl, term, rfl⟩ := h
  cases isDistinct with
  | true =>
    intro hok
    cases hok
  | false =>
    intro hok
    cases hok

/-- What is left of an expression: as it was, if it has no calls, and otherwise with as many
calls as before, which are not planned. -/
structure Leftover {Source : Type} (again : List AggCall → Except SqlFault (Source × List AggCall))
    (source left : Source) (calls : List AggCall) : Prop where
  unchanged : calls = [] → left = source
  again_ok : ∀ before, ∃ rest pseudo, again before = .ok (rest, before ++ pseudo) ∧
    pseudo.length = calls.length ∧ ∀ call ∈ pseudo, call.IsPseudo

theorem Leftover.both {First Second Source : Type} {f : First → Second → Source}
    {againFirst : List AggCall → Except SqlFault (First × List AggCall)}
    {againSecond : List AggCall → Except SqlFault (Second × List AggCall)}
    {first first' : First} {second second' : Second} {callsFirst callsSecond : List AggCall}
    (hfirst : Leftover againFirst first first' callsFirst)
    (hsecond : Leftover againSecond second second' callsSecond) :
    Leftover (fun before => do
      let (rest, calls) ← againFirst before
      let (rest', calls) ← againSecond calls
      return (f rest rest', calls)) (f first second) (f first' second')
        (callsFirst ++ callsSecond) where
  unchanged hnil := by
    obtain ⟨hnilFirst, hnilSecond⟩ := List.append_eq_nil_iff.mp hnil
    rw [hfirst.unchanged hnilFirst, hsecond.unchanged hnilSecond]
  again_ok before := by
    obtain ⟨rest, pseudo, hagain, hlength, hpseudo⟩ := hfirst.again_ok before
    obtain ⟨rest', pseudo', hagain', hlength', hpseudo'⟩ := hsecond.again_ok (before ++ pseudo)
    refine ⟨f rest rest', pseudo ++ pseudo', ?_, ?_, List.forall_mem_append.mpr
      ⟨hpseudo, hpseudo'⟩⟩
    · simp only [hagain, hagain', bind, Except.bind, List.append_assoc]
      rfl
    · rw [List.length_append, List.length_append, hlength, hlength']

theorem Leftover.nil {Source : Type}
    {again : List AggCall → Except SqlFault (Source × List AggCall)} {source : Source}
    (h : ∀ before, again before = .ok (source, before)) : Leftover again source source [] where
  unchanged _ := rfl
  again_ok before := ⟨source, [], by rw [h, List.append_nil], rfl, List.forall_mem_nil _⟩

variable {calls : List AggCall}

theorem Leftover.map {Part Source : Type} {f : Part → Source}
    {again : List AggCall → Except SqlFault (Part × List AggCall)} {part part' : Part}
    (h : Leftover again part part' calls) :
    Leftover (fun before => do
      let (rest, calls) ← again before
      return (f rest, calls)) (f part) (f part') calls where
  unchanged hnil := by rw [h.unchanged hnil]
  again_ok before := by
    obtain ⟨rest, pseudo, hagain, hlength, hpseudo⟩ := h.again_ok before
    exact ⟨f rest, pseudo, by rw [hagain]; rfl, hlength, hpseudo⟩

theorem AggCallAdded.leftover {expression left : BoundExpression} {calls' : List AggCall}
    (h : AggCallAdded expression calls left calls') :
    ∃ new, calls' = calls ++ new ∧ Leftover (addAggCallToContext left) expression left new := by
  induction h with
  | aggCall funcName isDistinct args calls =>
    refine ⟨_, rfl, nofun, fun before => ⟨_, _, rfl, rfl, ?_⟩⟩
    exact List.forall_mem_singleton.mpr ⟨rfl, _, rfl⟩
  | columnRef colName calls => exact ⟨[], (List.append_nil _).symm, .nil fun _ => rfl⟩
  | constant value calls => exact ⟨[], (List.append_nil _).symm, .nil fun _ => rfl⟩
  | binaryOp hlarg hrarg ihl ihr =>
    obtain ⟨newLeft, rfl, hleft⟩ := ihl
    obtain ⟨newRight, rfl, hright⟩ := ihr
    exact ⟨newLeft ++ newRight, List.append_assoc _ _ _, hleft.both hright⟩
  | aliased hchild ih =>
    obtain ⟨new, rfl, hleft⟩ := ih
    exact ⟨new, rfl, hleft.map⟩

theorem addAggCalls_leftover {list left : List BoundExpression} {calls' : List AggCall}
    (h : addAggCalls list calls = .ok (left, calls')) :
    ∃ new, calls' = calls ++ new ∧ Leftover (addAggCalls left) list left new := by
  replace h := aggCallsAdded_of_ok h
  induction h with
  | nil calls => exact ⟨[], (List.append_nil _).symm, .nil fun _ => rfl⟩
  | cons hitem hrest ih =>
    obtain ⟨newItem, rfl, hleftItem⟩ := hitem.leftover
    obtain ⟨newRest, rfl, hleftRest⟩ := ih
    exact ⟨newItem ++ newRest, List.append_assoc _ _ _, hleftItem.both hleftRest⟩

theorem addHavingCalls_leftover {having left : Option BoundExpression}
    {calls' : List AggCall} (h : addHavingCalls having calls = .ok (left, calls')) :
    ∃ new, calls' = calls ++ new ∧ Leftover (addHavingCalls left) having left new := by
  cases having with
  | none =>
    cases h
    exact ⟨[], (List.append_nil _).symm, .nil fun _ => rfl⟩
  | some predicate =>
    simp only [addHavingCalls, Except.bind_eq_ok_iff] at h
    obtain ⟨⟨predicate', middle⟩, hpredicate, h⟩ := h
    cases h
    obtain ⟨new, rfl, hleft⟩ := (aggCallAdded_of_ok hpredicate).leftover
    exact ⟨new, rfl, hleft.map⟩

theorem AggCallAdded.hasAggregation_eq {expression left : BoundExpression}
    {calls' : List AggCall} (h : AggCallAdded expression calls left calls') :
    left.hasAggregation = expression.hasAggregation := by
  induction h with
  | aggCall | columnRef | constant => rfl
  | binaryOp hlarg hrarg ihl ihr => simp only [BoundExpression.hasAggregation, ihl, ihr]
  | aliased hchild ih => simp only [BoundExpression.hasAggregation, ih]

theorem hasAggregations_left {list left : List BoundExpression} {calls' : List AggCall}
    (h : addAggCalls list calls = .ok (left, calls')) :
    hasAggregations left = hasAggregations list := by
  replace h := aggCallsAdded_of_ok h
  induction h with
  | nil calls => rfl
  | cons hitem hrest ih =>
    rw [hasAggregations, hasAggregations, hitem.hasAggregation_eq, ih]

theorem mapM_planAggCall_pseudo (hne : calls ≠ [])
    (hpseudo : ∀ call ∈ calls, call.IsPseudo) (child : OutputSchema)
    (results : List (AggregationType × Expression)) :
    calls.mapM (planAggCall child) ≠ .ok results := by
  intro h
  obtain ⟨call, rest, rfl⟩ := List.exists_cons_of_ne_nil hne
  simp only [List.mapM_cons, Except.bind_eq_ok_iff] at h
  obtain ⟨result, hresult, -⟩ := h
  exact planAggCall_pseudo (hpseudo call List.mem_cons_self) child result hresult

theorem planSelectAgg_consumed {clauses left : SelectClauses} {child plan : PlanNode}
    (h : planSelectAgg clauses child = .ok (plan, left)) :
    left = clauses ∨ ∀ child' result, planSelectAgg left child' ≠ .ok result := by
  simp only [planSelectAgg, Except.bind_eq_ok_iff] at h
  obtain ⟨_, -, ⟨having, calls⟩, hhaving, ⟨selectList, calls'⟩, hselect, _, -, _, -, _, -, _, -, _,
    -, h⟩ := h
  cases h
  obtain ⟨newHaving, -, hleftHaving⟩ := addHavingCalls_leftover hhaving
  obtain ⟨newSelect, -, hleftSelect⟩ := addAggCalls_leftover hselect
  have hleft := hleftHaving.both (f := Prod.mk) hleftSelect
  -- as many calls are found again as were taken out, and all of them are pseudo calls
  by_cases hnil : newHaving ++ newSelect = []
  · obtain ⟨rfl, rfl⟩ := Prod.mk.inj (hleft.unchanged hnil)
    exact .inl rfl
  · refine .inr fun child' result hok => ?_
    obtain ⟨rest, pseudo, hagain, hlength, hpseudo⟩ := hleft.again_ok []
    simp only [Except.bind_eq_ok_iff] at hagain
    obtain ⟨⟨having', calls⟩, hhaving', ⟨selectList', calls'⟩, hselect', hagain⟩ := hagain
    cases hagain
    simp only [planSelectAgg, hhaving', Except.bind_eq_ok_iff] at hok
    obtain ⟨_, -, _, hsame, _, hselect₂, aggregates, haggregates, -⟩ := hok
    cases hsame
    obtain rfl := Except.ok.inj (hselect'.symm.trans hselect₂)
    refine mapM_planAggCall_pseudo (fun hcalls => hnil ?_) hpseudo _ _ haggregates
    rw [hcalls] at hlength
    exact List.length_eq_zero_iff.mp hlength.symm

theorem planSelectAgg_shape {clauses left : SelectClauses} {child plan : PlanNode}
    (h : planSelectAgg clauses child = .ok (plan, left)) :
    left.having.isSome = clauses.having.isSome ∧ left.groupBy = clauses.groupBy ∧
      hasAggregations left.selectList = hasAggregations clauses.selectList := by
  simp only [planSelectAgg, Except.bind_eq_ok_iff] at h
  obtain ⟨_, -, ⟨having, calls⟩, hhaving, ⟨selectList, calls'⟩, hselect, _, -, _, -, _, -, _, -, _,
    -, h⟩ := h
  cases h
  refine ⟨?_, rfl, hasAggregations_left hselect⟩
  cases hpredicate : clauses.having with
  | none =>
    rw [hpredicate] at hhaving
    cases hhaving
    rfl
  | some predicate =>
    simp only [hpredicate, addHavingCalls, Except.bind_eq_ok_iff] at hhaving
    obtain ⟨_, -, hhaving⟩ := hhaving
    cases hhaving
    rfl

/-- **What planning leaves of clauses** is as it was, or cannot be planned. -/
theorem planClauses_consumed {clauses left : SelectClauses} {source plan : PlanNode} {id id' : ℕ}
    (h : planClauses clauses source id = .ok (plan, left, id')) :
    left = clauses ∨ left.Consumed := by
  simp only [planClauses, planItems, Except.bind_eq_ok_iff] at h
  obtain ⟨_, -, ⟨items, left', id₁⟩, ⟨hasAgg, hhas, hitems⟩, _, -, _, -, h⟩ := h
  obtain ⟨-, rfl, -⟩ := Except.ok.inj h
  split_ifs at hitems with hagg <;> rw [Except.bind_eq_ok_iff] at hitems
  · obtain ⟨⟨plan', left⟩, hselect, hitems⟩ := hitems
    obtain ⟨-, rfl, -⟩ := Except.ok.inj hitems
    obtain ⟨hhaving, hgroup, hlist⟩ := planSelectAgg_shape hselect
    refine (planSelectAgg_consumed hselect).imp_right fun hnot source' id result hok => ?_
    simp only [planClauses, planItems, Except.bind_eq_ok_iff, hlist, hhas, hhaving, hgroup] at hok
    obtain ⟨_, -, _, ⟨_, hhas', hitems'⟩, -⟩ := hok
    cases hhas'
    rw [if_pos hagg, Except.bind_eq_ok_iff] at hitems'
    obtain ⟨_, hagain, -⟩ := hitems'
    exact hnot _ _ hagain
  · obtain ⟨_, -, hitems⟩ := hitems
    obtain ⟨-, rfl, -⟩ := Except.ok.inj hitems
    exact .inl rfl

end Planner

end BusTub

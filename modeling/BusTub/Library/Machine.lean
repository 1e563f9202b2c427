import Mathlib.Data.List.Basic
import Mathlib.Data.List.ReduceOption
import Mathlib.Tactic.TypeStar

/-!
# Machines that answer calls

A machine answers one call at a time: a call either faults, and the machine
stops, or it returns an answer and moves the machine to its next state.  This
file holds the few notions a correctness argument about whole runs needs, and
the inductions over runs that the rest of the development uses by name.

* `Machine.run` is the outcome of a list of calls.
* `Machine.Along` says that something holds of every call of a run, in the
  state the call is made in.
* `Machine.Always` says that a run returns and that something holds in every state
  it reaches.
* `Machine.withGhost` adds an observer's record of the calls and answers.
* `Machine.Conforms` says that a run gives the answers of a specification and represents
  its states.
* `Machine.run_returned` is for machines whose calls run in sections, among those of others.
-/

namespace Machines

variable {State Call Answer Fault Abstract : Type*}

/-- A machine that answers one call at a time. -/
structure Machine (State Call Answer Fault : Type*) where
  step : State → Call → Except Fault (Answer × State)

namespace Machine

variable (machine : Machine State Call Answer Fault)

/-- The answers to a list of calls and the state they leave, or the first fault. -/
def run : State → List Call → Except Fault (List Answer × State)
  | state, [] => .ok ([], state)
  | state, call :: rest =>
    match machine.step state call with
    | .error fault => .error fault
    | .ok (answer, next) =>
      match run next rest with
      | .error fault => .error fault
      | .ok (answers, final) => .ok (answer :: answers, final)

/-- `property` holds of every call of the run, in the state the call is made in. -/
def Along (property : State → Call → Prop) : State → List Call → Prop
  | _, [] => True
  | state, call :: rest =>
    property state call ∧
      ∀ answer next, machine.step state call = .ok (answer, next) →
        Along property next rest

/-- The run returns, and `property` holds in every state it reaches. -/
def Always (property : State → Prop) : State → List Call → Prop
  | state, [] => property state
  | state, call :: rest =>
    property state ∧
      ∃ answer next, machine.step state call = .ok (answer, next) ∧ Always property next rest

def relabel {Label : Type*} (call : Label → Call) : Machine State Label Answer Fault where
  step state label := machine.step state (call label)

/-- The machine with a ghost: a record that an observer of its calls and answers
keeps, and that the machine does not read. -/
def withGhost {Ghost : Type*} (after : Ghost → Call → Answer → Ghost) :
    Machine (State × Ghost) Call Answer Fault where
  step pair call :=
    match machine.step pair.1 call with
    | .error fault => .error fault
    | .ok (answer, next) => .ok (answer, next, after pair.2 call answer)

def specState (spec : Abstract → Call → Answer × Abstract) : Abstract → List Call → Abstract
  | abstract, [] => abstract
  | abstract, call :: rest => specState spec (spec abstract call).2 rest

def specAnswers (spec : Abstract → Call → Answer × Abstract) : Abstract → List Call → List Answer
  | _, [] => []
  | abstract, call :: rest =>
    (spec abstract call).1 :: specAnswers spec (spec abstract call).2 rest

/-- `property` holds of every call of the specification's run. -/
def SpecAlong (spec : Abstract → Call → Answer × Abstract) (property : Abstract → Call → Prop) :
    Abstract → List Call → Prop
  | _, [] => True
  | abstract, call :: rest =>
    property abstract call ∧ SpecAlong spec property (spec abstract call).2 rest

/-- The run returns, every answer is the specification's, and every state represents
the state of the specification. -/
def Conforms (represents : State → Abstract → Prop) (spec : Abstract → Call → Answer × Abstract) :
    State → Abstract → List Call → Prop
  | state, abstract, [] => represents state abstract
  | state, abstract, call :: rest =>
    represents state abstract ∧
      ∃ next, machine.step state call = .ok ((spec abstract call).1, next) ∧
        Conforms represents spec next (spec abstract call).2 rest

variable {machine}

theorem exists_ok_of_check {Result : Type*} {outcome : Except Fault Result}
    {check : Result → Bool} (h : outcome.toOption.any check = true) :
    ∃ result, outcome = .ok result ∧ check result = true := by
  cases outcome with
  | error fault => cases h
  | ok result => exact ⟨result, rfl, h⟩

@[simp] theorem run_nil (state : State) : machine.run state [] = .ok ([], state) := rfl

variable {state : State}

theorem run_cons_of_step {next : State} {call : Call} {answer : Answer}
    (hstep : machine.step state call = .ok (answer, next)) (rest : List Call) :
    machine.run state (call :: rest) =
      match machine.run next rest with
      | .error fault => .error fault
      | .ok (answers, final) => .ok (answer :: answers, final) := by
  simp [run, hstep]

variable {answers : List Answer}

theorem run_cons_eq_ok {final : State} {call : Call} {rest : List Call}
    (hrun : machine.run state (call :: rest) = .ok (answers, final)) :
    ∃ answer next tail, machine.step state call = .ok (answer, next) ∧
      machine.run next rest = .ok (tail, final) ∧ answers = answer :: tail := by
  cases hstep : machine.step state call with
  | error fault => simp [run, hstep] at hrun
  | ok pair =>
    obtain ⟨answer, next⟩ := pair
    rw [run_cons_of_step hstep] at hrun
    cases hrest : machine.run next rest with
    | error fault => simp [hrest] at hrun
    | ok pair =>
      obtain ⟨tail, last⟩ := pair
      simp only [hrest, Except.ok.injEq, Prod.mk.injEq] at hrun
      obtain ⟨rfl, rfl⟩ := hrun
      exact ⟨answer, next, tail, rfl, hrest, rfl⟩

theorem withGhost_step_of_ok {Ghost : Type*} {after : Ghost → Call → Answer → Ghost}
    {next : State} {call : Call} {answer : Answer}
    (hstep : machine.step state call = .ok (answer, next)) (ghost : Ghost) :
    (machine.withGhost after).step (state, ghost) call =
      .ok (answer, next, after ghost call answer) := by
  simp [withGhost, hstep]

/-! ## Invariants -/

variable {calls : List Call}

theorem along_of_forall_mem {property : Call → Prop}
    (hcalls : ∀ call ∈ calls, property call) (state : State) :
    machine.Along (fun _ => property) state calls := by
  induction calls generalizing state with
  | nil => trivial
  | cons call rest ih =>
    refine ⟨hcalls call List.mem_cons_self, fun _ next _ => ?_⟩
    exact ih (fun call hmem => hcalls call (List.mem_cons_of_mem _ hmem)) next

theorem Along.left_of_append {property : State → Call → Prop} {before after : List Call}
    (h : machine.Along property state (before ++ after)) :
    machine.Along property state before := by
  induction before generalizing state with
  | nil => trivial
  | cons call rest ih => exact ⟨h.1, fun answer next hstep => ih (h.2 answer next hstep)⟩

theorem Along.right_of_append {property : State → Call → Prop} {before after : List Call}
    {middle : State}
    (h : machine.Along property state (before ++ after))
    (hrun : machine.run state before = .ok (answers, middle)) :
    machine.Along property middle after := by
  induction before generalizing state answers with
  | nil =>
    obtain ⟨_, rfl⟩ := hrun
    exact h
  | cons call rest ih =>
    obtain ⟨answer, next, tail, hstep, hrest, _⟩ := run_cons_eq_ok hrun
    exact ih (h.2 answer next hstep) hrest

variable {invariant : State → Prop} {admits : State → Call → Prop}

/-- **The invariant rule.**  A call admitted in a state of the invariant returns
and keeps it, so a run of admitted calls returns and ends in the invariant. -/
theorem run_of_invariant
    (hkeeps : ∀ state call, invariant state → admits state call →
      ∃ answer next, machine.step state call = .ok (answer, next) ∧ invariant next)
    (hstart : invariant state)
    (hadmits : machine.Along admits state calls) :
    ∃ answers final, machine.run state calls = .ok (answers, final) ∧ invariant final := by
  induction calls generalizing state with
  | nil => exact ⟨[], state, rfl, hstart⟩
  | cons call rest ih =>
    obtain ⟨answer, next, hstep, hnext⟩ := hkeeps state call hstart hadmits.1
    obtain ⟨answers, final, hrun, hfinal⟩ := ih hnext (hadmits.2 answer next hstep)
    exact ⟨answer :: answers, final, by rw [run_cons_of_step hstep, hrun], hfinal⟩

theorem invariant_of_run
    (hkeeps : ∀ state call, invariant state → admits state call →
      ∃ answer next, machine.step state call = .ok (answer, next) ∧ invariant next)
    {final : State} (hstart : invariant state)
    (hadmits : machine.Along admits state calls)
    (hrun : machine.run state calls = .ok (answers, final)) : invariant final := by
  obtain ⟨answers', final', hrun', hfinal⟩ := run_of_invariant hkeeps hstart hadmits
  rw [hrun, Except.ok.injEq, Prod.mk.injEq] at hrun'
  exact hrun'.2 ▸ hfinal

theorem run_preserves
    (hkeeps : ∀ state call answer next, invariant state →
      machine.step state call = .ok (answer, next) → invariant next)
    {final : State} (hstart : invariant state)
    (hrun : machine.run state calls = .ok (answers, final)) : invariant final := by
  induction calls generalizing state answers with
  | nil =>
    simp only [run_nil, Except.ok.injEq, Prod.mk.injEq] at hrun
    exact hrun.2 ▸ hstart
  | cons call rest ih =>
    obtain ⟨answer, next, tail, hstep, htail, _⟩ := run_cons_eq_ok hrun
    exact ih (hkeeps state call answer next hstart hstep) htail

/-- The same rule for calls that may fault: a run that returns ends in the invariant, and
only the faults of the invariant stop it. -/
theorem run_keeps
    {expected : Fault → Prop}
    (hok : ∀ state call answer next, invariant state → admits state call →
      machine.step state call = .ok (answer, next) → invariant next)
    (hfault : ∀ state call fault, invariant state → admits state call →
      machine.step state call = .error fault → expected fault)
    (hstart : invariant state)
    (hadmits : machine.Along admits state calls) :
    (∀ answers final, machine.run state calls = .ok (answers, final) → invariant final) ∧
      ∀ fault, machine.run state calls = .error fault → expected fault := by
  induction calls generalizing state with
  | nil =>
    refine ⟨fun answers final hrun => ?_, fun fault hrun => by simp at hrun⟩
    simp only [run_nil, Except.ok.injEq, Prod.mk.injEq] at hrun
    exact hrun.2 ▸ hstart
  | cons call rest ih =>
    cases hstep : machine.step state call with
    | error fault =>
      refine ⟨fun answers final hrun => by simp [run, hstep] at hrun, fun fault' hrun => ?_⟩
      simp only [run, hstep, Except.error.injEq] at hrun
      exact hrun ▸ hfault state call fault hstart hadmits.1 hstep
    | ok pair =>
      obtain ⟨answer, next⟩ := pair
      obtain ⟨hrest, hstop⟩ := ih (hok state call answer next hstart hadmits.1 hstep)
        (hadmits.2 answer next hstep)
      refine ⟨fun answers final hrun => ?_, fun fault hrun => ?_⟩
      · obtain ⟨answer', next', tail, hstep', htail, _⟩ := run_cons_eq_ok hrun
        rw [hstep, Except.ok.injEq, Prod.mk.injEq] at hstep'
        obtain ⟨_, rfl⟩ := hstep'
        exact hrest tail final htail
      · rw [run_cons_of_step hstep] at hrun
        cases htail : machine.run next rest with
        | error fault' =>
          simp only [htail, Except.error.injEq] at hrun
          exact hrun ▸ hstop fault' htail
        | ok pair => simp [htail] at hrun

theorem Always.start {property : State → Prop}
    (h : machine.Always property state calls) : property state := by
  cases calls with
  | nil => exact h
  | cons call rest => exact h.1

theorem always_of_invariant {good : State → Prop}
    (hgood : ∀ state, invariant state → good state)
    (hkeeps : ∀ state call, invariant state → admits state call →
      ∃ answer next, machine.step state call = .ok (answer, next) ∧ invariant next)
    (hstart : invariant state)
    (hadmits : machine.Along admits state calls) : machine.Always good state calls := by
  induction calls generalizing state with
  | nil => exact hgood state hstart
  | cons call rest ih =>
    obtain ⟨answer, next, hstep, hnext⟩ := hkeeps state call hstart hadmits.1
    exact ⟨hgood state hstart, answer, next, hstep, ih hnext (hadmits.2 answer next hstep)⟩

/-- **The exactness rule.**  In a state of the invariant, a call that meets the
condition keeps the invariant, and a call that does not meet it leaves a bad state.
Then all states of a run are good exactly when all its calls meet the condition. -/
theorem always_iff_along {good : State → Prop} {condition : State → Call → Prop}
    (hgood : ∀ state, invariant state → good state)
    (hkeeps : ∀ state call, invariant state → admits state call → condition state call →
      ∃ answer next, machine.step state call = .ok (answer, next) ∧ invariant next)
    (hbreaks : ∀ state call, invariant state → admits state call → ¬ condition state call →
      ∃ answer next, machine.step state call = .ok (answer, next) ∧ ¬ good next)
    (hstart : invariant state)
    (hadmits : machine.Along admits state calls) :
    machine.Always good state calls ↔ machine.Along condition state calls := by
  induction calls generalizing state with
  | nil => exact ⟨fun _ => trivial, fun _ => hgood state hstart⟩
  | cons call rest ih =>
    -- the induction hypothesis needs the invariant, which only a call that meets the
    -- condition keeps; the other case ends at the bad state
    by_cases hcondition : condition state call
    · obtain ⟨answer, next, hstep, hnext⟩ := hkeeps state call hstart hadmits.1 hcondition
      have hrest := ih hnext (hadmits.2 answer next hstep)
      constructor
      · rintro ⟨_, answer', next', hstep', halways⟩
        refine ⟨hcondition, fun answer'' next'' hstep'' => ?_⟩
        simp only [hstep, Except.ok.injEq, Prod.mk.injEq] at hstep' hstep''
        obtain ⟨⟨_, rfl⟩, ⟨_, rfl⟩⟩ := And.intro hstep' hstep''
        exact hrest.mp halways
      · rintro ⟨_, halong⟩
        exact ⟨hgood state hstart, answer, next, hstep, hrest.mpr (halong answer next hstep)⟩
    · obtain ⟨answer, next, hstep, hbad⟩ := hbreaks state call hstart hadmits.1 hcondition
      constructor
      · rintro ⟨_, answer', next', hstep', halways⟩
        simp only [hstep, Except.ok.injEq, Prod.mk.injEq] at hstep'
        obtain ⟨_, rfl⟩ := hstep'
        exact absurd halways.start hbad
      · rintro ⟨hholds, _⟩
        exact absurd hholds hcondition

/-- The same for what the steps do: in a state of the invariant, a call does what it should
exactly when it meets the condition, and then it keeps the invariant. -/
theorem along_iff_along {keeps condition : State → Call → Prop}
    (hiff : ∀ state call, invariant state → (keeps state call ↔ condition state call))
    (hinvariant : ∀ state call answer next, invariant state → condition state call →
      machine.step state call = .ok (answer, next) → invariant next)
    (hstart : invariant state) :
    machine.Along keeps state calls ↔ machine.Along condition state calls := by
  induction calls generalizing state with
  | nil => exact Iff.rfl
  | cons call rest ih =>
    rw [Along, Along, hiff state call hstart]
    refine and_congr_right fun hcondition => ?_
    refine forall_congr' fun answer => forall_congr' fun next => forall_congr' fun hstep => ?_
    exact ih (hinvariant state call answer next hstart hcondition hstep)

/-! ## Refinement -/

variable {represents : State → Abstract → Prop} {spec : Abstract → Call → Answer × Abstract}
  {abstract : Abstract}

/-- **The refinement rule.**  A step from a represented state answers like the
specification and ends in a represented state, so a run that returns gives the
specification's answers, and only the faults of a represented state can stop it. -/
theorem run_refines
    {expected : Fault → Prop}
    (hok : ∀ state abstract call answer next, represents state abstract →
      machine.step state call = .ok (answer, next) →
      answer = (spec abstract call).1 ∧ represents next (spec abstract call).2)
    (hfault : ∀ state abstract call fault, represents state abstract →
      machine.step state call = .error fault → expected fault)
    (hstart : represents state abstract)
    (calls : List Call) :
    (∀ answers final, machine.run state calls = .ok (answers, final) →
      answers = specAnswers spec abstract calls ∧
        represents final (specState spec abstract calls)) ∧
      ∀ fault, machine.run state calls = .error fault → expected fault := by
  induction calls generalizing state abstract with
  | nil =>
    refine ⟨fun answers final hrun => ?_, fun fault hrun => by simp at hrun⟩
    obtain ⟨rfl, rfl⟩ := hrun
    exact ⟨rfl, hstart⟩
  | cons call rest ih =>
    cases hstep : machine.step state call with
    | error fault =>
      simp only [run, hstep, Except.error.injEq, reduceCtorEq, false_implies, implies_true,
        true_and]
      rintro _ rfl
      exact hfault state abstract call fault hstart hstep
    | ok pair =>
      obtain ⟨answer, next⟩ := pair
      obtain ⟨hanswer, hnext⟩ := hok state abstract call answer next hstart hstep
      obtain ⟨hrest, hstop⟩ := ih hnext
      rw [run_cons_of_step hstep]
      cases hrun : machine.run next rest with
      | error fault =>
        simp only [Except.error.injEq, reduceCtorEq, false_implies, implies_true, true_and]
        rintro _ rfl
        exact hstop fault hrun
      | ok pair =>
        obtain ⟨answers, final⟩ := pair
        obtain ⟨htail, hfinal⟩ := hrest answers final hrun
        simp only [Except.ok.injEq, Prod.mk.injEq, reduceCtorEq, false_implies, implies_true,
          and_true]
        rintro _ _ ⟨rfl, rfl⟩
        exact ⟨by rw [specAnswers, hanswer, htail], hfinal⟩

/-- **The abstraction rule.**  If every step of a machine is, seen through `view`, the
step of another, then so is every run. -/
theorem run_view {Concrete : Type*} {concrete : Machine Concrete Call Answer Fault}
    {view : Concrete → State} {valid : Concrete → Prop} {admits : Concrete → Call → Prop}
    (hview : ∀ state call, valid state → admits state call →
      machine.step (view state) call = (concrete.step state call).map (Prod.map id view))
    (hvalid : ∀ state call answer next, valid state → admits state call →
      concrete.step state call = .ok (answer, next) → valid next)
    {state : Concrete} (hstart : valid state)
    (hadmits : concrete.Along admits state calls) :
    machine.run (view state) calls = (concrete.run state calls).map (Prod.map id view) := by
  induction calls generalizing state with
  | nil => rfl
  | cons call rest ih =>
    -- both machines stop at the same call with the same fault, or both go on
    have hfirst := hview state call hstart hadmits.1
    cases hstep : concrete.step state call with
    | error fault =>
      simp [run, hstep, hfirst, Except.map]
    | ok pair =>
      obtain ⟨answer, next⟩ := pair
      rw [hstep] at hfirst
      have hrest := ih (hvalid state call answer next hstart hadmits.1 hstep)
        (hadmits.2 answer next hstep)
      rw [run_cons_of_step hstep, run_cons_of_step hfirst, hrest]
      cases concrete.run next rest with
      | error fault => rfl
      | ok pair => rfl

theorem Conforms.start
    (h : machine.Conforms represents spec state abstract calls) :
    represents state abstract := by
  cases calls with
  | nil => exact h
  | cons call rest => exact h.1

/-- **The conformance rule.**  In states of the invariant, a call that meets the
condition answers like the specification and keeps the invariant, and a call that does
not meet it answers otherwise or leaves a state that does not represent the
specification's.  Then a run conforms to the specification exactly when its calls meet
the condition. -/
theorem conforms_iff_specAlong {invariant : State → Abstract → Prop}
    {condition : Abstract → Call → Prop}
    (hrepresents : ∀ state abstract, invariant state abstract → represents state abstract)
    (hkeeps : ∀ state abstract call, invariant state abstract → condition abstract call →
      ∃ next, machine.step state call = .ok ((spec abstract call).1, next) ∧
        invariant next (spec abstract call).2)
    (hbreaks : ∀ state abstract call next, invariant state abstract → ¬ condition abstract call →
      machine.step state call = .ok ((spec abstract call).1, next) →
      ¬ represents next (spec abstract call).2)
    (hstart : invariant state abstract)
    (calls : List Call) :
    machine.Conforms represents spec state abstract calls ↔
      SpecAlong spec condition abstract calls := by
  induction calls generalizing state abstract with
  | nil => exact ⟨fun _ => trivial, fun _ => hrepresents state abstract hstart⟩
  | cons call rest ih =>
    by_cases hcondition : condition abstract call
    · obtain ⟨next, hstep, hnext⟩ := hkeeps state abstract call hstart hcondition
      constructor
      · rintro ⟨_, next', hstep', hrest⟩
        simp only [hstep, Except.ok.injEq, Prod.mk.injEq, true_and] at hstep'
        subst hstep'
        exact ⟨hcondition, (ih hnext).mp hrest⟩
      · rintro ⟨_, hrest⟩
        exact ⟨hrepresents state abstract hstart, next, hstep, (ih hnext).mpr hrest⟩
    · -- a run that conforms has the specification's answer here and a good state after it
      constructor
      · rintro ⟨_, next, hstep, hrest⟩
        exact absurd hrest.start (hbreaks state abstract call next hstart hcondition hstep)
      · intro hrest
        exact absurd hrest.1 hcondition

/-! ## Runs that return -/

section Returns

variable {invariant : State → Abstract → Prop} {spec : Abstract → Call → Answer × Abstract}
  {condition : Abstract → Call → Prop} {state : State} {abstract : Abstract} {calls : List Call}

variable (hkeeps : ∀ state abstract call, invariant state abstract → condition abstract call →
  ∃ next, machine.step state call = .ok ((spec abstract call).1, next) ∧
    invariant next (spec abstract call).2)
include hkeeps

/-- A run whose calls meet the condition gives the specification's answers. -/
theorem run_of_specAlong
    (hstart : invariant state abstract) (halong : SpecAlong spec condition abstract calls) :
    ∃ final, machine.run state calls = .ok (specAnswers spec abstract calls, final) ∧
      invariant final (specState spec abstract calls) := by
  induction calls generalizing state abstract with
  | nil => exact ⟨state, rfl, hstart⟩
  | cons call rest ih =>
    obtain ⟨next, hstep, hnext⟩ := hkeeps state abstract call hstart halong.1
    obtain ⟨final, hrun, hfinal⟩ := ih hnext halong.2
    refine ⟨final, ?_, hfinal⟩
    rw [run_cons_of_step hstep, hrun]
    rfl

/-- What the condition gives for one call holds of all calls of a run that meets it. -/
theorem along_of_specAlong {property : State → Call → Prop}
    (hproperty : ∀ state abstract call, invariant state abstract → condition abstract call →
      property state call)
    (hstart : invariant state abstract) (halong : SpecAlong spec condition abstract calls) :
    machine.Along property state calls := by
  induction calls generalizing state abstract with
  | nil => trivial
  | cons call rest ih =>
    obtain ⟨next, hstep, hnext⟩ := hkeeps state abstract call hstart halong.1
    refine ⟨hproperty state abstract call hstart halong.1, fun answer next' hstep' => ?_⟩
    obtain ⟨-, rfl⟩ : (spec abstract call).1 = answer ∧ next = next' := by
      simpa only [hstep, Except.ok.injEq, Prod.mk.injEq] using hstep'
    exact ih hnext halong.2

theorem specAlong_of_run
    (hreturns : ∀ state abstract call answer next, invariant state abstract →
      machine.step state call = .ok (answer, next) → condition abstract call)
    {answers : List Answer} {final : State} (hstart : invariant state abstract)
    (hrun : machine.run state calls = .ok (answers, final)) :
    SpecAlong spec condition abstract calls := by
  induction calls generalizing state abstract answers with
  | nil => trivial
  | cons call rest ih =>
    obtain ⟨answer, next, tail, hstep, hrest, -⟩ := run_cons_eq_ok hrun
    have hcondition := hreturns state abstract call answer next hstart hstep
    obtain ⟨next', hstep', hnext⟩ := hkeeps state abstract call hstart hcondition
    obtain ⟨-, rfl⟩ : (spec abstract call).1 = answer ∧ next' = next := by
      simpa only [hstep', Except.ok.injEq, Prod.mk.injEq] using hstep
    exact ⟨hcondition, ih hnext hrest⟩

end Returns

/-! ## Calls in sections -/

/-- **The serialization rule.**  The answers say which call has returned, if one has.  A section in
which a call returns does all of it as another machine would, and the other sections do nothing
that this machine could see.  Then it gives the same answers to the calls one at a time, in the
order in which they returned. -/
theorem run_returned {View SerialCall SerialAnswer : Type*}
    {serial : Machine View SerialCall SerialAnswer Fault} {view : Abstract → View}
    {spec : Abstract → Call → Option (SerialCall × SerialAnswer) × Abstract}
    (hquiet : ∀ abstract call, (spec abstract call).1 = none →
      view (spec abstract call).2 = view abstract)
    (hreturn : ∀ abstract call returned, (spec abstract call).1 = some returned →
      serial.step (view abstract) returned.1 = .ok (returned.2, view (spec abstract call).2))
    (abstract : Abstract) (calls : List Call) :
    serial.run (view abstract) ((specAnswers spec abstract calls).reduceOption.map Prod.fst) =
      .ok ((specAnswers spec abstract calls).reduceOption.map Prod.snd,
        view (specState spec abstract calls)) := by
  induction calls generalizing abstract with
  | nil => rfl
  | cons call rest ih =>
    have hrest := ih (spec abstract call).2
    rw [specAnswers, specState]
    cases hanswer : (spec abstract call).1 with
    | none =>
      rw [hquiet abstract call hanswer] at hrest
      rw [List.reduceOption_cons_of_none, hrest]
    | some returned =>
      rw [List.reduceOption_cons_of_some, List.map_cons, List.map_cons,
        run_cons_of_step (hreturn abstract call returned hanswer), hrest]

end Machine

end Machines

import Mathlib.Tactic.Common

/-!
# Runs with a bound

A recursive computation that need not end is run with a bound on the depth of its calls.  Its
outcome is a result, a fault of its own, or that the bound was met.

A run refines another one if it has the same outcome, unless the other one met its bound.  If a
function refines another one on the calls it makes, so do the computations that are built from
them; so a larger bound gives the same outcome.

Two runs of different programs are compared by what can be seen of their results; the first one
may be allowed to fail where the second one does not.
-/

/-- What ends a run early. -/
inductive RunFault (Fault : Type)
  | fault (fault : Fault)
  | outOfFuel
deriving DecidableEq

/-- The outcome of a run. -/
abbrev FuelledRun (Fault : Type) : Type → Type := Except (RunFault Fault)

namespace FuelledRun

variable {Fault Result Next : Type}

def lift : Except Fault Result → FuelledRun Fault Result
  | .error fault => .error (.fault fault)
  | .ok result => .ok result

theorem lift_ne_outOfFuel (computation : Except Fault Result) :
    lift computation ≠ .error .outOfFuel := by
  cases computation <;> simp [lift]

theorem lift_eq_ok_iff {computation : Except Fault Result} {result : Result} :
    lift computation = .ok result ↔ computation = .ok result := by
  cases computation <;> simp [lift]

/-- The second run has the outcome of the first one, if that did not meet its bound. -/
def Refines (first second : FuelledRun Fault Result) : Prop :=
  first = .error .outOfFuel ∨ second = first

theorem Refines.refl (run : FuelledRun Fault Result) : Refines run run := .inr rfl

theorem Refines.outOfFuel (run : FuelledRun Fault Result) : Refines (.error .outOfFuel) run :=
  .inl rfl

variable {first : FuelledRun Fault Result}

theorem Refines.trans {second third : FuelledRun Fault Result} (h : Refines first second)
    (h' : Refines second third) : Refines first third := by
  cases h with
  | inl hfuel => exact .inl hfuel
  | inr heq => exact heq ▸ h'

theorem Refines.eq {second : FuelledRun Fault Result} (h : Refines first second)
    (hne : first ≠ .error .outOfFuel) : second = first := h.resolve_left hne

/-- **Two steps.** -/
theorem Refines.bind {second : FuelledRun Fault Result}
    {next next' : Result → FuelledRun Fault Next} (h : Refines first second)
    (hnext : ∀ result, Refines (next result) (next' result)) :
    Refines (first >>= next) (second >>= next') := by
  cases h with
  | inl hfuel =>
    rw [hfuel]
    exact .inl rfl
  | inr heq =>
    rw [heq]
    cases first with
    | error fault => exact .inr rfl
    | ok result => exact hnext result

theorem bind_outOfFuel (h : first = .error .outOfFuel)
    (next : Result → FuelledRun Fault Next) : first >>= next = .error .outOfFuel := by
  rw [h]
  rfl

theorem bind_ne_outOfFuel
    {next : Result → FuelledRun Fault Next} (hfirst : first ≠ .error .outOfFuel)
    (hnext : ∀ result, first = .ok result → next result ≠ .error .outOfFuel) :
    first >>= next ≠ .error .outOfFuel := by
  cases first with
  | error fault =>
    intro h
    exact hfirst (congrArg Except.error (Except.error.inj h))
  | ok result => exact hnext result rfl

/-- The first run has the outcome of the second one, as far as it is seen, or it has a fault and
is excused. -/
def Follows {Result' View : Type} (excused : Prop) (view : Result → View) (view' : Result' → View)
    (first : FuelledRun Fault Result) (second : FuelledRun Fault Result') : Prop :=
  (excused ∧ ∃ fault, first = .error (.fault fault)) ∨ first.map view = second.map view'

section Follows

variable {Result' Next' View View' : Type} {excused : Prop} {view : Result → View}
  {view' : Result' → View} {first : FuelledRun Fault Result} {second : FuelledRun Fault Result'}

/-- **Two steps**; the second one is compared for results that look the same. -/
theorem Follows.bind {next : Result → FuelledRun Fault Next}
    {next' : Result' → FuelledRun Fault Next'} {seen : Next → View'} {seen' : Next' → View'}
    (h : Follows excused view view' first second)
    (hnext : ∀ result result', first = .ok result → second = .ok result' →
      view result = view' result' → Follows excused seen seen' (next result) (next' result')) :
    Follows excused seen seen' (first >>= next) (second >>= next') := by
  rcases h with ⟨hexcused, fault, rfl⟩ | h
  · exact .inl ⟨hexcused, fault, rfl⟩
  · match first, second, h, hnext with
    | .error fault, .error fault', h, _ =>
      obtain rfl := Except.error.inj h
      exact .inr rfl
    | .ok result, .ok result', h, hnext => exact hnext result result' rfl rfl (Except.ok.inj h)

theorem Follows.bind_same {next next' : Result → FuelledRun Fault Next} {seen : Next → View'}
    (computation : FuelledRun Fault Result)
    (hnext : ∀ result, Follows excused seen seen (next result) (next' result)) :
    Follows excused seen seen (computation >>= next) (computation >>= next') := by
  cases computation with
  | error fault => exact .inr rfl
  | ok result => exact hnext result

theorem Follows.ok {result : Result} {result' : Result'} (h : view result = view' result') :
    Follows excused view view' (.ok result : FuelledRun Fault Result) (.ok result') :=
  .inr (congrArg Except.ok h)

theorem Follows.coarsen (f : View → View') (h : Follows excused view view' first second) :
    Follows excused (f ∘ view) (f ∘ view') first second := by
  refine h.imp_right fun hsame => ?_
  match first, second, hsame with
  | .error fault, .error fault', hsame => exact congrArg Except.error (Except.error.inj hsame)
  | .ok result, .ok result', hsame => exact congrArg (Except.ok ∘ f) (Except.ok.inj hsame)

theorem Follows.eq_ok {result : Result} (h : Follows excused view view' first second)
    (hok : first = .ok result) : second.map view' = .ok (view result) := by
  subst hok
  rcases h with ⟨-, fault, hfault⟩ | h
  · cases hfault
  · exact h.symm

theorem Follows.ne_outOfFuel (h : Follows excused view view' first second)
    (hne : second ≠ .error .outOfFuel) : first ≠ .error .outOfFuel := by
  rintro rfl
  rcases h with ⟨-, fault, hfault⟩ | h
  · cases hfault
  · match second, h, hne with
    | .error fault, h, hne => exact hne (congrArg Except.error (Except.error.inj h).symm)

end Follows

end FuelledRun

import Mathlib.Tactic.Common

/-!
# Computations that throw

A computation on a state that may throw.  What it has changed before it throws stays changed, so
that both of its ends are of interest: with which result it returns, or with which fault it
throws, and the state that it leaves.

Every computation ends in one of the two ways.
-/

abbrev Throwing (State Fault Result : Type) := ExceptT Fault (StateM State) Result

namespace Throwing

variable {State Fault First : Type}

def ends (first : Throwing State Fault First) (state : State) : Except Fault First × State :=
  first.run.run state

def Returns (first : Throwing State Fault First) (state : State) (result : First)
    (left : State) : Prop :=
  first.ends state = (.ok result, left)

def Throws (first : Throwing State Fault First) (state : State) (fault : Fault)
    (left : State) : Prop :=
  first.ends state = (.error fault, left)

theorem returns_or_throws (first : Throwing State Fault First) (state : State) :
    (∃ result left, first.Returns state result left) ∨
      ∃ fault left, first.Throws state fault left := by
  rcases hends : first.ends state with ⟨fault | result, left⟩
  · exact .inr ⟨fault, left, hends⟩
  · exact .inl ⟨result, left, hends⟩

theorem Returns.not_throws {first : Throwing State Fault First} {state left other : State}
    {result : First} (h : first.Returns state result left) (fault : Fault) :
    ¬ first.Throws state fault other := by
  intro hthrows
  cases h.symm.trans hthrows

end Throwing

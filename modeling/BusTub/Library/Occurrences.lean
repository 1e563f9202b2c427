import Mathlib.Data.List.Infix

/-!
# Leftmost occurrences of a pattern

The parts of a text between the occurrences of a pattern that a scan from left to right
meets, which goes on behind each occurrence.
-/

namespace Occurrences

variable {Symbol : Type} {pattern text : List Symbol}

/-- The parts of a text between the leftmost occurrences of a pattern. -/
inductive Parts (pattern : List Symbol) : List Symbol → List (List Symbol) → Prop
  | last {text : List Symbol} (hnone : ¬ pattern <:+: text) : Parts pattern text [text]
  | cut {text : List Symbol} {i : ℕ} {parts : List (List Symbol)} (hle : i ≤ text.length)
      (hoccurs : pattern <+: text.drop i) (hfirst : ∀ j < i, ¬ pattern <+: text.drop j)
      (hrest : Parts pattern (text.drop (i + pattern.length)) parts) :
      Parts pattern text (text.take i :: parts)

namespace Parts

variable {parts : List (List Symbol)}

theorem ne_nil (h : Parts pattern text parts) : parts ≠ [] := by
  cases h <;> simp

theorem unique (h : Parts pattern text parts) {other : List (List Symbol)}
    (hother : Parts pattern text other) : other = parts := by
  induction h generalizing other with
  | last hnone =>
    cases hother with
    | last => rfl
    | cut hle hoccurs =>
      exact absurd (hoccurs.isInfix.trans (List.drop_suffix _ _).isInfix) hnone
  | @cut text i parts hle hoccurs hfirst hrest ih =>
    cases hother with
    | last hnone => exact absurd (hoccurs.isInfix.trans (List.drop_suffix _ _).isInfix) hnone
    | @cut _ j _ hle' hoccurs' hfirst' hrest' =>
      obtain rfl : i = j := by
        rcases Nat.lt_trichotomy i j with h | h | h
        exacts [absurd hoccurs (hfirst' i h), h, absurd hoccurs' (hfirst j h)]
      rw [ih hrest']

theorem iff_eq (h : Parts pattern text parts) (other : List (List Symbol)) :
    Parts pattern text other ↔ other = parts :=
  ⟨h.unique, fun hother => hother ▸ h⟩

end Parts

section Search

variable [DecidableEq Symbol]

def first (pattern text : List Symbol) : Option ℕ :=
  text.tails.findIdx? (pattern.isPrefixOf ·)

theorem first_eq_none_iff : first pattern text = none ↔ ¬ pattern <:+: text := by
  simp only [first, List.findIdx?_eq_none_iff, List.mem_tails, List.infix_iff_prefix_suffix,
    Bool.eq_false_iff, ne_eq, List.isPrefixOf_iff_prefix]
  grind

theorem first_eq_some_iff {i : ℕ} :
    first pattern text = some i ↔
      i ≤ text.length ∧ pattern <+: text.drop i ∧ ∀ j < i, ¬ pattern <+: text.drop j := by
  simp [first, List.findIdx?_eq_some_iff_getElem, Nat.lt_succ_iff, and_left_comm]

/-- The scan comes to an end, for it goes on behind the occurrence. -/
theorem Parts.exists_of_ne_nil (hpattern : pattern ≠ []) (text : List Symbol) :
    ∃ parts, Parts pattern text parts := by
  induction h : text.length using Nat.strong_induction_on generalizing text with
  | _ length ih =>
    cases hfirst : first pattern text with
    | none => exact ⟨[text], .last (first_eq_none_iff.mp hfirst)⟩
    | some i =>
      obtain ⟨hle, hoccurs, hbefore⟩ := first_eq_some_iff.mp hfirst
      have hpos := List.length_pos_iff.mpr hpattern
      have hlength := hoccurs.length_le
      rw [List.length_drop] at hlength
      obtain ⟨parts, hparts⟩ := ih (text.length - (i + pattern.length)) (by omega)
        (text.drop (i + pattern.length)) List.length_drop
      exact ⟨_, .cut hle hoccurs hbefore hparts⟩

end Search

end Occurrences

import BusTub.Library.Occurrences
import Mathlib.Tactic.Common

/-!
# Splitting and replacing in strings

`StringUtil::Split` with a separator string and `StringUtil::Replace`.  Both go from one
occurrence to the next with `std::string::find` and so do not stop for an empty pattern, which is
found where the search starts.
-/

namespace BusTub

namespace StringUtil

open Occurrences (first Parts first_eq_none_iff first_eq_some_iff)

/-- A `std::string`. -/
abbrev Text := List UInt8

/-- `source.find(pattern, position)`, with `none` for `npos`. -/
def find (source pattern : Text) (position : ℕ) : Option ℕ :=
  if position ≤ source.length then (first pattern (source.drop position)).map (position + ·)
  else none

/-- The loop of `Split` for `fuel` rounds; `none` if it is not through then. -/
def splitLoop (input separator : Text) : ℕ → ℕ → List Text → Option (List Text)
  | 0, _, _ => none
  | fuel + 1, last, splits =>
    if last ≤ input.length then
      let next := (find input separator last).getD input.length
      let substr := (input.drop last).take (next - last)
      splitLoop input separator fuel (next + separator.length)
        (if substr.isEmpty then splits else splits ++ [substr])
    else some splits

def split (fuel : ℕ) (input separator : Text) : Option (List Text) :=
  splitLoop input separator fuel 0 []

/-- The loop of `Replace` for `fuel` rounds. -/
def replaceLoop (pattern toText : Text) : ℕ → Text → ℕ → Option Text
  | 0, _, _ => none
  | fuel + 1, source, startPos =>
    match find source pattern startPos with
    | none => some source
    | some found =>
      replaceLoop pattern toText fuel
        (source.take found ++ toText ++ source.drop (found + pattern.length))
        (found + toText.length)

def replace (fuel : ℕ) (source pattern toText : Text) : Option Text :=
  replaceLoop pattern toText fuel source 0

/-- `Split` returns the parts between the occurrences of the separator that are not empty. -/
def SplitsRight (input separator : Text) : Prop :=
  ∃ fuel pieces, split fuel input separator = some pieces ∧
    ∃ parts, (∀ other, Parts separator input other ↔ other = parts) ∧
      pieces = parts.filter (· ≠ [])

/-- `Replace` returns the source with the replacement for each of the occurrences. -/
def ReplacesRight (source pattern toText : Text) : Prop :=
  ∃ fuel result, replace fuel source pattern toText = some result ∧
    ∃ parts, (∀ other, Parts pattern source other ↔ other = parts) ∧
      result = toText.intercalate parts

theorem find_append (done : Text) (source pattern : Text) :
    find (done ++ source) pattern done.length =
      (first pattern source).map (done.length + ·) := by
  rw [find, if_pos (by simp), List.drop_left]

/-! ### The loops on a pattern that is not empty -/

theorem splitLoop_of_parts {input separator : Text} (hseparator : separator ≠ [])
    {rest : Text} {parts : List Text} (hparts : Parts separator rest parts) {last : ℕ}
    (hle : last ≤ input.length) (hrest : input.drop last = rest) (splits : List Text) :
    ∃ fuel, splitLoop input separator fuel last splits =
      some (splits ++ parts.filter (· ≠ [])) := by
  have hpos := List.length_pos_iff.mpr hseparator
  induction hparts generalizing last splits with
  | last hnone =>
    refine ⟨2, ?_⟩
    have hfind : find input separator last = none := by
      simp [find, hrest, first_eq_none_iff.mpr hnone]
    simp only [splitLoop, hle, hfind, hrest, Option.getD_none, if_true,
      if_neg (show ¬ input.length + separator.length ≤ input.length by omega)]
    rw [← hrest, List.take_of_length_le (by simp)]
    cases input.drop last <;> simp
  | @cut rest i parts hi hoccurs hfirst hparts ih =>
    have hfind : find input separator last = some (last + i) := by
      simp [find, hle, hrest, first_eq_some_iff.mpr ⟨hi, hoccurs, hfirst⟩]
    have hlength := hoccurs.length_le
    rw [← hrest, List.length_drop, List.length_drop] at hlength
    obtain ⟨fuel, hfuel⟩ := ih (show last + i + separator.length ≤ input.length by omega)
      (by rw [← hrest, List.drop_drop, Nat.add_assoc])
      (if (rest.take i).isEmpty then splits else splits ++ [rest.take i])
    refine ⟨fuel + 1, ?_⟩
    simp only [splitLoop, hle, hfind, hrest, Option.getD_some, if_true,
      Nat.add_sub_cancel_left, hfuel]
    cases rest.take i <;> simp

theorem replaceLoop_of_parts {pattern toText source : Text} {parts : List Text}
    (hparts : Parts pattern source parts) (done : Text) :
    ∃ fuel, replaceLoop pattern toText fuel (done ++ source) done.length =
      some (done ++ toText.intercalate parts) := by
  induction hparts generalizing done with
  | last hnone =>
    refine ⟨1, ?_⟩
    simp [replaceLoop, find_append, first_eq_none_iff.mpr hnone]
  | @cut source i parts hi hoccurs hfirst hparts ih =>
    -- what is done then ends with the replacement, which is not searched again
    obtain ⟨fuel, hfuel⟩ := ih (done ++ source.take i ++ toText)
    refine ⟨fuel + 1, ?_⟩
    have hfind : find (done ++ source) pattern done.length = some (done.length + i) := by
      simp [find_append, first_eq_some_iff.mpr ⟨hi, hoccurs, hfirst⟩]
    have hlength : (done ++ source.take i ++ toText).length = done.length + i + toText.length := by
      simp [hi, Nat.add_assoc]
    have hsource : (done ++ source).take (done.length + i) ++ toText ++
        (done ++ source).drop (done.length + i + pattern.length) =
          done ++ source.take i ++ toText ++ source.drop (i + pattern.length) := by
      rw [List.take_length_add_append, Nat.add_assoc, List.drop_length_add_append]
    obtain ⟨part, others, rfl⟩ := List.exists_cons_of_ne_nil hparts.ne_nil
    simp only [replaceLoop, hfind, hsource, ← hlength, hfuel]
    simp [List.intercalate]

/-! ### The loops on the empty pattern -/

theorem find_nil {source : Text} {position : ℕ} (hle : position ≤ source.length) :
    find source [] position = some position := by
  have hfirst : first [] (source.drop position) = some 0 := by simp [first_eq_some_iff]
  simp [find, hle, hfirst]

theorem splitLoop_nil {input : Text} (fuel : ℕ) {last : ℕ} (hle : last ≤ input.length)
    (splits : List Text) : splitLoop input [] fuel last splits = none := by
  induction fuel with
  | zero => rfl
  | succ fuel ih => simpa [splitLoop, hle, find_nil] using ih

theorem replaceLoop_nil (toText : Text) (fuel : ℕ) {source : Text} {startPos : ℕ}
    (hle : startPos ≤ source.length) : replaceLoop [] toText fuel source startPos = none := by
  induction fuel generalizing source startPos with
  | zero => rfl
  | succ fuel ih =>
    rw [replaceLoop, find_nil hle]
    exact ih (by simp; omega)

/-- **Splitting and replacing.**  Both return, with the parts between the leftmost
occurrences and with these occurrences replaced, if and only if the pattern is not empty. -/
theorem split_replace_right_iff (source pattern toText : Text) :
    (SplitsRight source pattern ↔ pattern ≠ []) ∧
      (ReplacesRight source pattern toText ↔ pattern ≠ []) := by
  refine ⟨⟨?_, fun hpattern => ?_⟩, ⟨?_, fun hpattern => ?_⟩⟩
  · rintro ⟨fuel, pieces, hsplit, -⟩ rfl
    rw [split, splitLoop_nil fuel (Nat.zero_le _)] at hsplit
    cases hsplit
  · obtain ⟨parts, hparts⟩ := Parts.exists_of_ne_nil hpattern source
    obtain ⟨fuel, hfuel⟩ := splitLoop_of_parts hpattern hparts (Nat.zero_le _) rfl []
    exact ⟨fuel, _, hfuel, parts, hparts.iff_eq, rfl⟩
  · rintro ⟨fuel, result, hreplace, -⟩ rfl
    rw [replace, replaceLoop_nil toText fuel (Nat.zero_le _)] at hreplace
    cases hreplace
  · obtain ⟨parts, hparts⟩ := Parts.exists_of_ne_nil hpattern source
    obtain ⟨fuel, hfuel⟩ := replaceLoop_of_parts hparts []
    exact ⟨fuel, _, hfuel, parts, hparts.iff_eq, rfl⟩

/-- Neither call returns for the string `"a"` and an empty pattern. -/
theorem split_replace_never_return :
    (¬ ∃ fuel parts, split fuel [97] [] = some parts) ∧
      ¬ ∃ fuel text, replace fuel [97] [] [98] = some text := by
  constructor
  · rintro ⟨fuel, parts, hreturns⟩
    cases (splitLoop_nil fuel (Nat.zero_le _) []).symm.trans hreturns
  · rintro ⟨fuel, text, hreturns⟩
    cases (replaceLoop_nil [98] fuel (Nat.zero_le _)).symm.trans hreturns

end StringUtil

end BusTub

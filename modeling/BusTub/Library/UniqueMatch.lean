import Mathlib.Tactic.Common

/-!
# The only item that matches

A search in a list that is to find one item at most, and fails at a second one.

`IsOnly` says that an item is the only one of a list with a property, or that no item has it.
It is kept under the operations on lists.
-/

namespace UniqueMatch

variable {Fault Item Image : Type} {p q : Item → Prop}

/-- The item is the only one of the list that has the property; or none has it. -/
def IsOnly (p : Item → Prop) (items : List Item) : Option Item → Prop
  | none => ∀ item ∈ items, ¬ p item
  | some item => ∃ front back, items = front ++ item :: back ∧ p item ∧
      ∀ other ∈ front ++ back, ¬ p other

theorem IsOnly.map {f : Image → Item} {images : List Image} {found : Option Image}
    (h : IsOnly (fun image => p (f image)) images found) :
    IsOnly p (images.map f) (found.map f) := by
  cases found with
  | none =>
    intro item hmem
    obtain ⟨image, himage, rfl⟩ := List.mem_map.mp hmem
    exact h image himage
  | some image =>
    obtain ⟨front, back, rfl, himage, hothers⟩ := h
    refine ⟨front.map f, back.map f, by simp, himage, fun other hother => ?_⟩
    rw [← List.map_append] at hother
    obtain ⟨otherImage, hmem, rfl⟩ := List.mem_map.mp hother
    exact hothers otherImage hmem

variable {items : List Item} {found : Option Item}

theorem IsOnly.congr (h : IsOnly p items found)
    (hiff : ∀ item ∈ items, p item ↔ q item) : IsOnly q items found := by
  cases found with
  | none => exact fun item hmem hq => h item hmem ((hiff item hmem).mpr hq)
  | some item =>
    obtain ⟨front, back, rfl, hitem, hothers⟩ := h
    refine ⟨front, back, rfl, (hiff item (by simp)).mp hitem, fun other hother hq => ?_⟩
    have hmem : other ∈ front ++ item :: back := by
      simp only [List.mem_append, List.mem_cons] at hother ⊢
      tauto
    exact hothers other hother ((hiff other hmem).mpr hq)

theorem IsOnly.or_of_none (hnone : IsOnly p items none)
    (h : IsOnly q items found) : IsOnly (fun item => p item ∨ q item) items found :=
  h.congr fun item hmem => (or_iff_right (hnone item hmem)).symm

theorem IsOnly.append_none {left right : List Item}
    (hleft : IsOnly p left found) (hright : IsOnly p right none) :
    IsOnly p (left ++ right) found := by
  cases found with
  | none => exact List.forall_mem_append.mpr ⟨hleft, hright⟩
  | some item =>
    obtain ⟨front, back, rfl, hitem, hothers⟩ := hleft
    refine ⟨front, back ++ right, by simp, hitem, ?_⟩
    rw [← List.append_assoc]
    exact List.forall_mem_append.mpr ⟨hothers, hright⟩

theorem IsOnly.none_append {left right : List Item}
    (hleft : IsOnly p left none) (hright : IsOnly p right found) :
    IsOnly p (left ++ right) found := by
  cases found with
  | none => exact List.forall_mem_append.mpr ⟨hleft, hright⟩
  | some item =>
    obtain ⟨front, back, rfl, hitem, hothers⟩ := hright
    refine ⟨left ++ front, back, by simp, hitem, ?_⟩
    rw [List.append_assoc]
    exact List.forall_mem_append.mpr ⟨hleft, hothers⟩

def uniqueMatch (ambiguous : Fault) (isMatch : Item → Bool) :
    List Item → Option Item → Except Fault (Option Item)
  | [], found => .ok found
  | item :: rest, found =>
    if isMatch item then
      if found.isSome then .error ambiguous else uniqueMatch ambiguous isMatch rest (some item)
    else uniqueMatch ambiguous isMatch rest found

theorem uniqueMatch_some {ambiguous : Fault} {isMatch : Item → Bool}
    {first : Item}
    (h : uniqueMatch ambiguous isMatch items (some first) = .ok found) :
    found = some first ∧ ∀ item ∈ items, ¬ isMatch item = true := by
  induction items with
  | nil => exact ⟨(Except.ok.inj h).symm, fun item hmem => nomatch hmem⟩
  | cons item rest ih =>
    rw [uniqueMatch] at h
    split_ifs at h with hmatch hsome
    · exact absurd rfl hsome
    · obtain ⟨hfound, hrest⟩ := ih h
      exact ⟨hfound, List.forall_mem_cons.mpr ⟨hmatch, hrest⟩⟩

/-- **The loop finds the only item that matches.** -/
theorem uniqueMatch_spec {ambiguous : Fault} {isMatch : Item → Bool}
    (h : uniqueMatch ambiguous isMatch items none = .ok found) :
    IsOnly (fun item => isMatch item = true) items found := by
  induction items with
  | nil =>
    cases h
    exact fun item hmem => nomatch hmem
  | cons item rest ih =>
    rw [uniqueMatch] at h
    split_ifs at h with hmatch hsome
    · obtain ⟨rfl, hrest⟩ := uniqueMatch_some h
      exact ⟨[], rest, rfl, hmatch, hrest⟩
    · exact (show IsOnly _ [item] none from List.forall_mem_singleton.mpr hmatch).none_append
        (ih h)

end UniqueMatch

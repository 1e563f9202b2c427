import Mathlib.Data.List.Basic
import Mathlib.Tactic.Common

/-!
# Hash maps with an equality of their own

A `std::unordered_map` is given a hash and an equality of its keys.  An entry is found if its
hash is that of the key and the equality says yes.  The entries are kept in a list, in the
order in which they came; the map promises no order.

The equality may fail, and it need not be reflexive.  The lemmas are about keys for which it
is true equality, except that it never holds of a key that is not `proper`.  A proper key is
found as soon as it has an entry, and any other key is never found.
-/

namespace UnorderedMap

structure KeyTraits (Fault Hash Key : Type) where
  hash : Key → Hash
  equal : Key → Key → Except Fault Bool

variable {Fault Hash Key Item : Type} [DecidableEq Hash]

def find (traits : KeyTraits Fault Hash Key) (key : Key) :
    List (Key × Item) → Except Fault (Option ℕ)
  | [] => .ok none
  | entry :: rest =>
    if traits.hash key = traits.hash entry.1 then do
      if ← traits.equal key entry.1 then return some 0
      else return (← find traits key rest).map (· + 1)
    else do return (← find traits key rest).map (· + 1)

/-- `count`. -/
def count (traits : KeyTraits Fault Hash Key) (key : Key) (entries : List (Key × Item)) :
    Except Fault ℕ := do
  return if (← find traits key entries).isSome then 1 else 0

/-- `insert`: nothing happens if an entry is found. -/
def insert (traits : KeyTraits Fault Hash Key) (key : Key) (item : Item)
    (entries : List (Key × Item)) : Except Fault (List (Key × Item)) := do
  return if (← find traits key entries).isSome then entries else entries ++ [(key, item)]

/-- `operator[]`: the position of the entry of the key, which is made if none is found. -/
def access (traits : KeyTraits Fault Hash Key) (key : Key) (item : Item)
    (entries : List (Key × Item)) : Except Fault (List (Key × Item) × ℕ) := do
  match ← find traits key entries with
  | some position => return (entries, position)
  | none => return (entries ++ [(key, item)], entries.length)

section Found

variable {traits : KeyTraits Fault Hash Key} {key : Key} {entries : List (Key × Item)}
  {position : ℕ}

theorem count_of_found (h : find traits key entries = .ok (some position)) :
    count traits key entries = .ok 1 := by
  rw [count, h]
  rfl

theorem count_of_missing (h : find traits key entries = .ok none) :
    count traits key entries = .ok 0 := by
  rw [count, h]
  rfl

theorem insert_of_missing (h : find traits key entries = .ok none) (item : Item) :
    insert traits key item entries = .ok (entries ++ [(key, item)]) := by
  rw [insert, h]
  rfl

theorem access_of_found (h : find traits key entries = .ok (some position)) (item : Item) :
    access traits key item entries = .ok (entries, position) := by
  rw [access, h]
  rfl

theorem access_of_missing (h : find traits key entries = .ok none) (item : Item) :
    access traits key item entries = .ok (entries ++ [(key, item)], entries.length) := by
  rw [access, h]
  rfl

end Found

/-! ## Keys that are proper -/

/-- On the keys of the domain, the equality is the equality of proper keys. -/
def EqualityOf (traits : KeyTraits Fault Hash Key) (domain proper : Key → Prop) : Prop :=
  ∀ first second, domain first → domain second →
    ∃ truth, traits.equal first second = .ok truth ∧
      (truth = true ↔ first = second ∧ proper first)

section Lawful

variable {traits : KeyTraits Fault Hash Key} {domain proper : Key → Prop} {key : Key}
  {entries : List (Key × Item)}

theorem find_cons (hequal : EqualityOf traits domain proper) (hkey : domain key)
    {entry : Key × Item} (hentry : domain entry.1) :
    (key = entry.1 ∧ proper key ∧ find traits key (entry :: entries) = .ok (some 0)) ∨
    (¬ (key = entry.1 ∧ proper key) ∧ find traits key (entry :: entries) =
      (find traits key entries).map (Option.map (· + 1))) := by
  obtain ⟨truth, htruth, hiff⟩ := hequal key entry.1 hkey hentry
  by_cases heq : key = entry.1 ∧ proper key
  · refine .inl ⟨heq.1, heq.2, ?_⟩
    rw [hiff.mpr heq] at htruth
    rw [find, if_pos (congrArg traits.hash heq.1), htruth]
    rfl
  · refine .inr ⟨heq, ?_⟩
    have hfalse : truth = false := Bool.eq_false_iff.mpr fun h => heq (hiff.mp h)
    rw [hfalse] at htruth
    rw [find, htruth]
    split_ifs <;> cases find traits key entries <;> rfl

theorem find_eq_none (hequal : EqualityOf traits domain proper) (hkey : domain key)
    (hentries : ∀ entry ∈ entries, domain entry.1)
    (h : ¬ (proper key ∧ key ∈ entries.map Prod.fst)) : find traits key entries = .ok none := by
  induction entries with
  | nil => rfl
  | cons entry rest ih =>
    have hrest := ih (fun other hmem => hentries other (List.mem_cons_of_mem _ hmem))
      fun hfound => h ⟨hfound.1, List.mem_cons_of_mem _ hfound.2⟩
    rcases find_cons hequal hkey (hentries entry List.mem_cons_self) with
      ⟨heq, hproper, -⟩ | ⟨-, hfind⟩
    · exact absurd ⟨hproper, heq ▸ List.mem_cons_self⟩ h
    · rw [hfind, hrest]
      rfl

theorem find_eq_some (hequal : EqualityOf traits domain proper) (hkey : domain key)
    (hentries : ∀ entry ∈ entries, domain entry.1) (hproper : proper key)
    (hmem : key ∈ entries.map Prod.fst) :
    ∃ position found, find traits key entries = .ok (some position) ∧
      entries[position]? = some (key, found) := by
  induction entries with
  | nil => cases hmem
  | cons entry rest ih =>
    rcases find_cons hequal hkey (hentries entry List.mem_cons_self) with
      ⟨heq, -, hfind⟩ | ⟨hne, hfind⟩
    · exact ⟨0, entry.2, hfind, by rw [heq]; rfl⟩
    · have hrest : key ∈ rest.map Prod.fst :=
        (List.mem_cons.mp hmem).resolve_left fun heq => hne ⟨heq, hproper⟩
      obtain ⟨position, found, hposition, hentry⟩ :=
        ih (fun other hmem => hentries other (List.mem_cons_of_mem _ hmem)) hrest
      exact ⟨position + 1, found, by rw [hfind, hposition]; rfl, hentry⟩

end Lawful

end UnorderedMap

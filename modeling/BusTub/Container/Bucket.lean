import Mathlib.Data.List.Nodup
import Mathlib.Tactic.TypeStar
import Mathlib.Tactic.Common

/-!
# Buckets of the extendible hash table

Model of `ExtendibleHashTable::Bucket` from
`container/hash/extendible_hash_table.cpp`, and what each of its operations does
to the keys the bucket holds and to what `find` returns.
-/

namespace BusTub

variable {K V : Type*} [DecidableEq K]

/-- `ExtendibleHashTable::Bucket`. -/
structure Bucket (K V : Type*) where
  size : ℕ
  depth : ℕ
  list : List (K × V)
deriving DecidableEq

namespace Bucket

/-- `Bucket::IsFull`. -/
def isFull (bucket : Bucket K V) : Bool := bucket.list.length == bucket.size

/-- `Bucket::Find`: the value of the first pair with the key. -/
def find (bucket : Bucket K V) (key : K) : Option V :=
  (bucket.list.find? fun pair => pair.1 = key).map Prod.snd

/-- `Bucket::Remove`: erase the first pair with the key, and say whether there was one. -/
def remove (bucket : Bucket K V) (key : K) : Bool × Bucket K V :=
  (bucket.list.any fun pair => pair.1 = key,
    { bucket with list := bucket.list.eraseP fun pair => pair.1 = key })

/-- The first loop of `Bucket::Insert`: overwrite the value of the first pair
with the key. -/
def overwrite (key : K) (value : V) : List (K × V) → Option (List (K × V))
  | [] => none
  | pair :: rest =>
    if pair.1 = key then some ((pair.1, value) :: rest)
    else (overwrite key value rest).map (pair :: ·)

/-- `Bucket::Insert`: update the key where it is, else append if there is room. -/
def insert (bucket : Bucket K V) (key : K) (value : V) : Bool × Bucket K V :=
  match overwrite key value bucket.list with
  | some list => (true, { bucket with list := list })
  | none =>
    if bucket.isFull then (false, bucket)
    else (true, { bucket with list := bucket.list ++ [(key, value)] })

def keys (bucket : Bucket K V) : List K := bucket.list.map Prod.fst

/-! ## `find` on the lists the operations build -/

variable (bucket : Bucket K V)

theorem find_isSome_iff (key : K) :
    (bucket.find key).isSome ↔ key ∈ bucket.keys := by
  simp [find, keys]

theorem find_eq_none_iff (key : K) :
    bucket.find key = none ↔ key ∉ bucket.keys := by
  rw [← find_isSome_iff, Option.not_isSome_iff_eq_none]

theorem find_cons (size depth : ℕ) (pair : K × V) (rest : List (K × V)) (key : K) :
    (⟨size, depth, pair :: rest⟩ : Bucket K V).find key =
      if pair.1 = key then some pair.2 else (⟨size, depth, rest⟩ : Bucket K V).find key := by
  by_cases h : pair.1 = key <;> simp [find, h]

theorem find_congr {first second : Bucket K V} (hlist : first.list = second.list) (key : K) :
    first.find key = second.find key := by
  rw [find, find, hlist]

variable {key : K}

theorem find_filter (size depth : ℕ) (list : List (K × V)) (keep : K → Bool)
    (hkeep : keep key) :
    (⟨size, depth, list.filter fun pair => keep pair.1⟩ : Bucket K V).find key =
      (⟨size, depth, list⟩ : Bucket K V).find key := by
  induction list with
  | nil => rfl
  | cons pair rest ih =>
    by_cases hpair : keep pair.1
    · simp only [List.filter_cons, hpair, if_true, find_cons, ih]
    · have hne : pair.1 ≠ key := fun heq => hpair (heq ▸ hkeep)
      simp only [List.filter_cons, hpair, find_cons, if_neg hne, ih, Bool.false_eq_true, if_false]

/-! ## `remove` -/

theorem remove_fst (key : K) :
    (bucket.remove key).1 = (bucket.find key).isSome := by
  rw [Bool.eq_iff_iff, find_isSome_iff]
  simp [remove, keys]

theorem remove_list_sublist (key : K) :
    (bucket.remove key).2.list.Sublist bucket.list :=
  List.eraseP_sublist

theorem find_remove {bucket : Bucket K V} (hnodup : bucket.keys.Nodup) (key query : K) :
    (bucket.remove key).2.find query = if query = key then none else bucket.find query := by
  obtain ⟨size, depth, list⟩ := bucket
  induction list with
  | nil => simp [remove, find]
  | cons pair rest ih =>
    simp only [keys, List.map_cons, List.nodup_cons, remove] at hnodup ih ⊢
    by_cases hpair : pair.1 = key
    · rw [List.eraseP_cons_of_pos (by simpa using hpair), find_cons]
      by_cases hquery : query = key
      · rw [if_pos hquery, find_eq_none_iff, hquery, ← hpair]
        exact hnodup.1
      · rw [if_neg hquery, if_neg (hpair ▸ Ne.symm hquery)]
    · rw [List.eraseP_cons_of_neg (by simpa using hpair), find_cons, find_cons, ih hnodup.2]
      by_cases hquery : query = key
      · rw [if_pos hquery, if_pos hquery, if_neg (fun heq => hpair (heq.trans hquery))]
      · rw [if_neg hquery, if_neg hquery]

/-! ## `insert` -/

theorem overwrite_eq_none_iff (key : K) (value : V) (list : List (K × V)) :
    overwrite key value list = none ↔ key ∉ list.map Prod.fst := by
  induction list with
  | nil => simp [overwrite]
  | cons pair rest ih =>
    by_cases hpair : pair.1 = key
    · simp [overwrite, hpair]
    · simp only [overwrite, if_neg hpair, Option.map_eq_none_iff, ih, List.map_cons,
        List.mem_cons, not_or]
      exact ⟨fun h => ⟨Ne.symm hpair, h⟩, And.right⟩

variable {value : V}

theorem overwrite_keys {list result : List (K × V)}
    (h : overwrite key value list = some result) :
    result.map Prod.fst = list.map Prod.fst := by
  induction list generalizing result with
  | nil => simp [overwrite] at h
  | cons pair rest ih =>
    by_cases hpair : pair.1 = key
    · simp only [overwrite, if_pos hpair, Option.some.injEq] at h
      subst h
      rfl
    · simp only [overwrite, if_neg hpair, Option.map_eq_some_iff] at h
      obtain ⟨tail, htail, rfl⟩ := h
      simp [ih htail]

theorem find_overwrite (size depth : ℕ) {list result : List (K × V)}
    (h : overwrite key value list = some result) (query : K) :
    (⟨size, depth, result⟩ : Bucket K V).find query =
      if query = key then some value else (⟨size, depth, list⟩ : Bucket K V).find query := by
  induction list generalizing result with
  | nil => simp [overwrite] at h
  | cons pair rest ih =>
    by_cases hpair : pair.1 = key
    · simp only [overwrite, if_pos hpair, Option.some.injEq] at h
      subst h
      simp only [find_cons, hpair, eq_comm (a := query)]
      split <;> simp_all
    · simp only [overwrite, if_neg hpair, Option.map_eq_some_iff] at h
      obtain ⟨tail, htail, rfl⟩ := h
      simp only [find_cons, ih htail]
      by_cases hquery : query = key
      · subst hquery
        simp [hpair]
      · simp [hquery]

theorem find_append (size depth : ℕ) (value : V) {list : List (K × V)}
    (habsent : key ∉ list.map Prod.fst) (query : K) :
    (⟨size, depth, list ++ [(key, value)]⟩ : Bucket K V).find query =
      if query = key then some value else (⟨size, depth, list⟩ : Bucket K V).find query := by
  induction list with
  | nil => simp [find, eq_comm]
  | cons pair rest ih =>
    simp only [List.map_cons, List.mem_cons, not_or] at habsent
    simp only [List.cons_append, find_cons, ih habsent.2]
    by_cases hquery : query = key
    · subst hquery
      simp [Ne.symm habsent.1]
    · simp [hquery]

theorem insert_eq_true {bucket next : Bucket K V}
    (h : bucket.insert key value = (true, next)) :
    next.size = bucket.size ∧ next.depth = bucket.depth ∧
      (next.keys = bucket.keys ∨
        (key ∉ bucket.keys ∧ bucket.list.length ≠ bucket.size ∧
          next.keys = bucket.keys ++ [key])) ∧
      ∀ query, next.find query = if query = key then some value else bucket.find query := by
  unfold insert at h
  cases hover : overwrite key value bucket.list with
  | some list =>
    simp only [hover, Prod.mk.injEq, true_and] at h
    subst h
    exact ⟨rfl, rfl, Or.inl (overwrite_keys hover), find_overwrite _ _ hover⟩
  | none =>
    have habsent := (overwrite_eq_none_iff key value bucket.list).mp hover
    simp only [hover] at h
    split at h
    · simp at h
    · rename_i hfull
      cases h
      refine ⟨rfl, rfl, Or.inr ⟨habsent, ?_, by simp [keys]⟩, find_append _ _ value habsent⟩
      simpa [isFull] using hfull

theorem insert_eq_false {bucket next : Bucket K V}
    (h : bucket.insert key value = (false, next)) :
    key ∉ bucket.keys ∧ bucket.list.length = bucket.size := by
  unfold insert at h
  cases hover : overwrite key value bucket.list with
  | some list => simp [hover] at h
  | none =>
    have habsent := (overwrite_eq_none_iff key value bucket.list).mp hover
    simp only [hover] at h
    split at h
    · rename_i hfull
      exact ⟨habsent, by simpa [isFull] using hfull⟩
    · simp at h

theorem insert_of_room {bucket : Bucket K V} (value : V) (habsent : key ∉ bucket.keys)
    (hroom : bucket.list.length < bucket.size) :
    bucket.insert key value = (true, { bucket with list := bucket.list ++ [(key, value)] }) := by
  have hfull : bucket.isFull = false := by simpa [isFull] using Nat.ne_of_lt hroom
  simp [insert, (overwrite_eq_none_iff key value bucket.list).mpr habsent, hfull]

end Bucket

end BusTub

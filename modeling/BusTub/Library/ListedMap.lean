import Mathlib.Data.Finmap

/-!
# Finite maps in lists

A list of entries with distinct keys lists a finite map, in some order.  The operations of the map
are those of lists: a new key may be added anywhere, here at the end, and the entry of a key that
is there is replaced or taken out where it stands.
-/

namespace ListedMap

variable {Key Item : Type*} [DecidableEq Key] {entries front back : List (Key × Item)}
  {map : Finmap fun _ : Key => Item} {key : Key} {item old : Item}

structure Lists (entries : List (Key × Item)) (map : Finmap fun _ : Key => Item) : Prop where
  nodup : (entries.map Prod.fst).Nodup
  mem_iff : ∀ key item, (key, item) ∈ entries ↔ map.lookup key = some item

theorem lists_nil : Lists ([] : List (Key × Item)) ∅ := by
  refine ⟨List.nodup_nil, fun key item => ?_⟩
  simp

namespace Lists

theorem mem_map_iff (h : Lists entries map) : key ∈ map ↔ key ∈ entries.map Prod.fst := by
  rw [Finmap.mem_iff, List.mem_map]
  constructor
  · rintro ⟨item, hitem⟩
    exact ⟨(key, item), (h.mem_iff key item).mpr hitem, rfl⟩
  · rintro ⟨⟨_, item⟩, hmem, rfl⟩
    exact ⟨item, (h.mem_iff _ item).mp hmem⟩

theorem card_keys (h : Lists entries map) : map.keys.card = entries.length := by
  have hkeys : map.keys = (entries.map Prod.fst).toFinset := by
    ext key
    rw [Finmap.mem_keys, h.mem_map_iff, List.mem_toFinset]
  rw [hkeys, List.toFinset_card_of_nodup h.nodup, List.length_map]

theorem append (h : Lists entries map) (hnew : key ∉ map) :
    Lists (entries ++ [(key, item)]) (map.insert key item) := by
  have hnotMem : key ∉ entries.map Prod.fst := fun hmem => hnew (h.mem_map_iff.mpr hmem)
  constructor
  · rw [List.map_append, List.nodup_append]
    refine ⟨h.nodup, List.nodup_singleton key, ?_⟩
    rintro other hother _ hkey rfl
    obtain rfl : other = key := List.mem_singleton.mp hkey
    exact hnotMem hother
  · intro other value
    rw [List.mem_append, h.mem_iff, List.mem_singleton, Prod.mk.injEq]
    by_cases hother : other = key
    · subst hother
      rw [Finmap.lookup_insert, Finmap.lookup_eq_none.mpr hnew]
      simp [eq_comm]
    · rw [Finmap.lookup_insert_of_ne _ hother]
      simp [hother]

theorem others (h : Lists (front ++ (key, old) :: back) map) {other : Key} {value : Item} :
    (other, value) ∈ front ++ back ↔ other ≠ key ∧ map.lookup other = some value := by
  have hnodup := h.nodup
  rw [List.map_append, List.map_cons, List.nodup_middle, List.nodup_cons] at hnodup
  rw [← h.mem_iff]
  constructor
  · intro hmem
    refine ⟨?_, ?_⟩
    · rintro rfl
      rw [← List.map_append] at hnodup
      exact hnodup.1 (List.mem_map.mpr ⟨(other, value), hmem, rfl⟩)
    · exact (List.perm_middle.mem_iff).mpr (List.mem_cons_of_mem _ hmem)
  · rintro ⟨hne, hmem⟩
    have hcons := (List.perm_middle.mem_iff).mp hmem
    rcases List.mem_cons.mp hcons with heq | hmem
    · exact absurd (congrArg Prod.fst heq) hne
    · exact hmem

theorem replace (h : Lists (front ++ (key, old) :: back) map) :
    Lists (front ++ (key, item) :: back) (map.insert key item) := by
  constructor
  · have hnodup := h.nodup
    simp only [List.map_append, List.map_cons] at hnodup ⊢
    exact hnodup
  · intro other value
    rw [List.perm_middle.mem_iff, List.mem_cons, h.others, Prod.mk.injEq]
    by_cases hother : other = key
    · subst hother
      simp [eq_comm]
    · rw [Finmap.lookup_insert_of_ne _ hother]
      simp [hother]

theorem erase (h : Lists (front ++ (key, old) :: back) map) :
    Lists (front ++ back) (map.erase key) := by
  constructor
  · have hnodup := h.nodup
    rw [List.map_append, List.map_cons, List.nodup_middle, List.nodup_cons] at hnodup
    rw [List.map_append]
    exact hnodup.2
  · intro other value
    rw [h.others]
    by_cases hother : other = key
    · subst hother
      simp
    · rw [Finmap.lookup_erase_ne hother]
      simp [hother]

end Lists

end ListedMap

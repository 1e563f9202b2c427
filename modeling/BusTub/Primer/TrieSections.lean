import BusTub.Primer.TrieLayout

/-!
# The sections of the trie

Each section of `Insert`, `Remove` and `GetValue` under the latch does to a heap that holds a trie
what the functions of `Primer/Trie.lean` do to the trie.  For the loop of `Remove` this is so if it
starts with the current path.
-/

namespace BusTub

open ObjectHeap

variable {Value : Type} {heap heap' : TrieHeap Value} {layout layout' : TrieLayout Value}
  {way other : List KeyChar} {keyChar : KeyChar} {placed : TriePlace Value}

/-! ## The trie in the layout -/

open scoped Classical in
theorem unlinkWays_apply {Entry : Type} {entries : List KeyChar → Option Entry}
    (hclosed : ∀ keyChar way, (entries (keyChar :: way)).isSome → (entries way).isSome)
    (hway : (entries way).isSome) (other : List KeyChar) :
    unlinkWays way entries other =
      if other ≠ [] ∧ other <:+ way ∧
          ∀ place, (entries place).isSome → other <:+ place → place <:+ way then none
      else entries other := by
  induction way generalizing entries with
  | nil =>
    rw [unlinkWays, if_neg]
    exact fun hdropped => hdropped.1 (List.suffix_nil.mp hdropped.2.1)
  | cons keyChar way ih =>
    rw [unlinkWays]
    by_cases hchildren : ∃ first, (entries (first :: keyChar :: way)).isSome
    · rw [if_pos hchildren, if_neg]
      rintro ⟨-, hsuffix, hall⟩
      obtain ⟨first, hfirst⟩ := hchildren
      have hlength := (hall _ hfirst (hsuffix.trans (List.suffix_cons first _))).length_le
      simp only [List.length_cons] at hlength
      omega
    · have hleaf : ∀ first, entries (first :: keyChar :: way) = none := fun first =>
        Option.not_isSome_iff_eq_none.mp fun hsome => hchildren ⟨first, hsome⟩
      have hclosed' : ∀ first rest,
          (Function.update entries (keyChar :: way) none (first :: rest)).isSome →
            (Function.update entries (keyChar :: way) none rest).isSome := by
        intro first rest hsome
        have hfirst : first :: rest ≠ keyChar :: way := by
          intro hsame
          rw [hsame, Function.update_self] at hsome
          cases hsome
        have hrest : rest ≠ keyChar :: way := by
          intro hsame
          rw [Function.update_of_ne hfirst, hsame, hleaf] at hsome
          cases hsome
        rw [Function.update_of_ne hfirst] at hsome
        rw [Function.update_of_ne hrest]
        exact hclosed first rest hsome
      have hway' : (Function.update entries (keyChar :: way) none way).isSome := by
        rw [Function.update_of_ne (List.cons_ne_self _ _).symm]
        exact hclosed keyChar way hway
      rw [if_neg hchildren, ih hclosed' hway']
      by_cases hother : other = keyChar :: way
      · -- the leaf itself
        subst hother
        rw [Function.update_self, ite_self, if_pos]
        refine ⟨List.cons_ne_nil _ _, List.suffix_rfl, ?_⟩
        rintro place hplace ⟨front, rfl⟩
        rcases List.eq_nil_or_concat front with rfl | ⟨before, first, rfl⟩
        · exact List.suffix_rfl
        · have hfirst := isSome_of_suffix hclosed (List.suffix_append before _)
            (by rwa [List.concat_eq_append, List.append_assoc] at hplace)
          rw [List.singleton_append, hleaf first] at hfirst
          cases hfirst
      · -- a place above the leaf, or beside the way
        rw [Function.update_of_ne hother]
        refine if_congr (and_congr_right fun _ => and_congr ?_ ?_) rfl rfl
        · rw [List.suffix_cons_iff, or_iff_right hother]
        · refine forall_congr' fun place => ?_
          by_cases hplace : place = keyChar :: way
          · rw [hplace, Function.update_self]
            simp
          · rw [Function.update_of_ne hplace, List.suffix_cons_iff, or_iff_right hplace]

def Shows (layout : TrieLayout Value) (tree : TrieNode Value) : Prop :=
  ∀ way, (layout way).map TriePlace.value = Trie.table tree way.reverse

variable {tree : TrieNode Value} {key : Key}

theorem shows_create : Shows (.create : TrieLayout Value) Trie.create := by
  intro way
  cases way with
  | nil => rfl
  | cons keyChar way =>
    rw [List.reverse_cons]
    cases way.reverse with
    | nil => rfl
    | cons first rest => rfl

namespace Shows

theorem table (h : Shows layout tree) (key : Key) :
    Trie.table tree key = (layout key.reverse).map TriePlace.value := by
  rw [h, List.reverse_reverse]

theorem isSome (h : Shows layout tree) (key : Key) :
    (Trie.walk key tree).isSome = (layout key.reverse).isSome := by
  rw [← Trie.table_isSome, h.table, Option.isSome_map]

theorem contents (h : Shows layout tree) (key : Key) :
    Trie.contents tree key = (layout key.reverse).bind TriePlace.value := by
  rw [Trie.contents_eq_join, h.table]
  cases layout key.reverse with
  | none => rfl
  | some placed => rfl

theorem dropped_iff (h : Shows layout tree) (hway : way ≠ []) (key : Key) :
    Trie.Dropped (Trie.table tree) key way.reverse ↔ way ≠ [] ∧ way <:+ key.reverse ∧
      ∀ place, (layout place).isSome → way <:+ place → place <:+ key.reverse := by
  rw [Trie.Dropped, ← List.reverse_prefix, List.reverse_reverse, and_iff_right hway]
  refine and_congr_right fun _ => ⟨fun hall place hplace hsuffix => ?_,
    fun hall path hpath hbefore => ?_⟩
  · rw [← List.reverse_prefix, List.reverse_reverse]
    apply hall place.reverse
    · rwa [Trie.table_isSome, h.isSome, List.reverse_reverse]
    · rwa [List.reverse_prefix]
  · rw [Trie.table_isSome, h.isSome] at hpath
    have hplace := hall path.reverse hpath
      (by rwa [← List.reverse_prefix, List.reverse_reverse])
    rwa [← List.reverse_prefix, List.reverse_reverse, List.reverse_reverse] at hplace

end Shows

/-- **Insert**, on the heap and on the trie. -/
theorem LaidOut.insert (h : LaidOut heap layout) (hshows : Shows layout tree)
    (htrimmed : Trie.Trimmed tree) (key : Key) (value : Value) :
    ∃ heap' layout', heap.insert key value = .ok ((Trie.insert tree key value).1, heap') ∧
      LaidOut heap' layout' ∧ Shows layout' (Trie.insert tree key value).2 ∧
      Grows layout layout' ∧ StaysFreed heap heap' := by
  rw [TrieHeap.insert, Trie.insert]
  by_cases hkey : key.isEmpty
  · rw [if_pos hkey, if_pos hkey]
    exact ⟨heap, layout, rfl, h, hshows, .refl layout, .refl heap⟩
  · rw [if_neg hkey, if_neg hkey]
    obtain ⟨root, hroot, hslot⟩ := Option.map_eq_some_iff.mp h.root
    obtain ⟨heap₁, layout₁, last, hpath, h₁, hgrows₁, hfreed₁, hlast, hvalues₁⟩ :=
      h.insertPath hroot key
    rw [hslot] at hpath
    rw [List.append_nil] at hlast hvalues₁
    have hvalue : last.value = Trie.contents tree key := by
      have hmap := hvalues₁ key.reverse
      rw [if_pos List.suffix_rfl, hlast, Option.map_some] at hmap
      rw [Option.some.inj hmap, hshows.contents]
    -- after the loop the places are those of the trie and of all beginnings of the key
    have htable : ∀ way, (layout₁ way).map TriePlace.value =
        if way.reverse <+: key then some (Trie.contents tree way.reverse)
        else Trie.table tree way.reverse := by
      intro way
      rw [hvalues₁ way, hshows.contents, hshows.table, List.reverse_reverse]
      simp [← List.reverse_prefix]
    rw [hpath]
    cases hstored : Trie.contents tree key with
    | some stored =>
      rw [hstored] at hvalue
      refine ⟨heap₁, layout₁, ?_, h₁, fun way => ?_, hgrows₁, hfreed₁⟩
      · rw [(Trie.insertBelow_of_stored value htrimmed (by rw [hstored]; rfl)).1]
        exact h₁.setValue_of_some hlast (by rw [hvalue]; rfl) value
      · have hnot : ¬ (way.reverse = key ∧ Trie.contents tree key = none) := by
          rw [hstored]
          exact fun hnone => by cases hnone.2
        rw [htable way, Trie.table_insertBelow value htrimmed, if_neg hnot]
    | none =>
      rw [hstored] at hvalue
      obtain ⟨heap', hset, h', hfreed⟩ := h₁.setValue_of_none hlast hvalue value
      refine ⟨heap', _, ?_, h', fun way => ?_, hgrows₁.trans ⟨fun way placed hplaced => ?_⟩,
        hfreed₁.trans hfreed⟩
      · rw [(Trie.insertBelow_of_not_stored value htrimmed hstored).1]
        exact hset
      · rw [Trie.table_insertBelow value htrimmed]
        by_cases hway : way = key.reverse
        · rw [hway, Function.update_self, List.reverse_reverse, if_pos ⟨rfl, hstored⟩]
          rfl
        · have hnot : ¬ (way.reverse = key ∧ Trie.contents tree key = none) :=
            fun hsame => hway (by rw [← hsame.1, List.reverse_reverse])
          rw [Function.update_of_ne hway, htable way, if_neg hnot]
      · by_cases hway : way = key.reverse
        · obtain rfl : last = placed := Option.some.inj (hlast.symm.trans (hway ▸ hplaced))
          refine ⟨⟨last.slot, heap₁.nodes.next, some value⟩,
            by rw [hway, Function.update_self], rfl, fun hsome => ?_⟩
          rw [hvalue] at hsome
          cases hsome
        · exact ⟨placed, by rw [Function.update_of_ne hway, hplaced], rfl, fun _ => rfl⟩

open scoped Classical in
/-- **The loop of Remove**, on the heap and on the trie. -/
theorem LaidOut.prune (h : LaidOut heap layout) (hshows : Shows layout tree)
    (hwalk : (Trie.walk key tree).isSome) {v : List ℕ}
    (hpath : layout.pathTo key.reverse = some v) :
    ∃ heap' layout', heap.unlink key.reverse v = .ok heap' ∧ LaidOut heap' layout' ∧
      Shows layout' (Trie.prune key tree).1 ∧ Shrinks layout heap' layout' ∧
      StaysFreed heap heap' := by
  obtain ⟨heap', hunlink, h', hshrinks, hfreed⟩ := h.unlink hpath
  refine ⟨heap', _, hunlink, h', fun way => ?_, hshrinks, hfreed⟩
  have hway : (layout key.reverse).isSome := by rw [← hshows.isSome, hwalk]
  by_cases hempty : way = []
  · -- the root is not removed
    have hnot : ¬ (way ≠ [] ∧ way <:+ key.reverse ∧
        ∀ place, (layout place).isSome → way <:+ place → place <:+ key.reverse) :=
      fun hdropped => hdropped.1 hempty
    rw [unlinkWays_apply h.closed hway, if_neg hnot, hshows way, hempty, List.reverse_nil,
      Trie.table_nil, Trie.table_nil, Trie.prune_value hwalk]
  · have hdropped := hshows.dropped_iff hempty key
    rw [unlinkWays_apply h.closed hway, Trie.table_prune hwalk (by simpa using hempty)]
    simp only [hdropped]
    split_ifs
    · rfl
    · exact hshows way

/-! ## The other sections -/

theorem LaidOut.collect_root (h : LaidOut heap layout) (key : Key) :
    heap.collect key rootSlot [rootSlot] = .ok (layout.pathTo key.reverse) := by
  obtain ⟨root, hroot, hslot⟩ := Option.map_eq_some_iff.mp h.root
  have hpath : layout.pathTo [] = some [root.slot] := by
    rw [TrieLayout.pathTo, hroot, Option.map_some]
  have hcollect := h.collect hroot hpath key
  rwa [List.append_nil, hslot] at hcollect

theorem LaidOut.find_root (h : LaidOut heap layout) (key : Key) :
    heap.find key rootSlot = .ok ((layout key.reverse).map TriePlace.slot) := by
  obtain ⟨root, hroot, hslot⟩ := Option.map_eq_some_iff.mp h.root
  have hfind := h.find hroot key
  rwa [List.append_nil, hslot] at hfind

/-- The heap holds the paths and values of the trie. -/
def TrieHeap.Holds (heap : TrieHeap Value) (tree : TrieNode Value) : Prop :=
  ∀ key, heap.valueAt key = .ok (Trie.table tree key)

theorem LaidOut.holds (h : LaidOut heap layout) (hshows : Shows layout tree) :
    heap.Holds tree := by
  intro key
  rw [TrieHeap.valueAt, h.find_root, hshows.table]
  cases hplaced : layout key.reverse with
  | none => rfl
  | some placed =>
    simp only [bind, Except.bind, Option.map_some, h.deref hplaced]
    rfl

section Typed

variable {Ty : Type} [DecidableEq Ty] {Val : Ty → Type} {heap : TrieHeap (Sigma Val)}
  {layout : TrieLayout (Sigma Val)} {tree : TrieNode (Sigma Val)} {placed : TriePlace (Sigma Val)}

theorem Shows.getValue (h : Shows layout tree) (key : Key) (ty : Ty) :
    Trie.getValue tree key ty =
      ((layout key.reverse).bind TriePlace.value).bind (castTo ty) := by
  rw [← h.contents, Trie.contents, Option.bind_assoc, Trie.getValue]

theorem LaidOut.castNode (h : LaidOut heap layout) (hplaced : layout way = some placed) (ty : Ty) :
    heap.castNode ty placed.slot =
      .ok (if (placed.value.bind (castTo ty)).isSome then some placed.node else none) := by
  rw [TrieHeap.castNode, h.pointer hplaced]
  simp only [bind, Except.bind, h.object hplaced, TrieLayout.object]

theorem LaidOut.getValue (h : LaidOut heap layout) (hplaced : layout way = some placed) (ty : Ty) :
    heap.getValue ty placed.node = .ok (placed.value.bind (castTo ty)) := by
  rw [TrieHeap.getValue, h.object hplaced]
  rfl

end Typed

/-! ## What is left of a path -/

/-- Over a section, a place keeps its slot, and its node if it has a value; or both are freed, and
the place is gone.  What was freed before stays freed. -/
structure Evolves (heap : TrieHeap Value) (layout : TrieLayout Value) (heap' : TrieHeap Value)
    (layout' : TrieLayout Value) : Prop where
  kept : ∀ way placed, layout way = some placed →
    (∃ placed', layout' way = some placed' ∧ placed'.slot = placed.slot ∧
      (placed.value.isSome → placed' = placed)) ∨
    (layout' way = none ∧ heap'.slots.Freed placed.slot ∧ heap'.nodes.Freed placed.node)
  freed : StaysFreed heap heap'

theorem Evolves.refl (heap : TrieHeap Value) (layout : TrieLayout Value) :
    Evolves heap layout heap layout :=
  ⟨fun _ placed h => .inl ⟨placed, h, rfl, fun _ => rfl⟩, .refl heap⟩

theorem Grows.evolves (h : Grows layout layout') (hfreed : StaysFreed heap heap') :
    Evolves heap layout heap' layout' :=
  ⟨fun way placed hplaced => .inl (h.kept way placed hplaced), hfreed⟩

theorem Shrinks.evolves (h : Shrinks layout heap' layout') (hfreed : StaysFreed heap heap') :
    Evolves heap layout heap' layout' := by
  refine ⟨fun way placed hplaced => ?_, hfreed⟩
  rcases h.kept way placed hplaced with hsame | hgone
  · exact .inl ⟨placed, hsame, rfl, fun _ => rfl⟩
  · exact .inr hgone

theorem Evolves.pathTo_eq (h : Evolves heap layout heap' layout') (hlaid : LaidOut heap layout)
    (hlaid' : LaidOut heap' layout') (hway : (layout way).isSome) (hway' : (layout' way).isSome) :
    layout'.pathTo way = layout.pathTo way := by
  apply TrieLayout.pathTo_congr
  intro other hother
  obtain ⟨placed, hplaced⟩ :=
    Option.isSome_iff_exists.mp (isSome_of_suffix hlaid.closed hother hway)
  have hother' := isSome_of_suffix hlaid'.closed hother hway'
  rcases h.kept other placed hplaced with ⟨placed', hplaced', hslot, -⟩ | ⟨hnone, -⟩
  · rw [hplaced, hplaced', Option.map_some, Option.map_some, hslot]
  · rw [hnone] at hother'
    cases hother'

end BusTub

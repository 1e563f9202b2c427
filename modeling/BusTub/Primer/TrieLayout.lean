import BusTub.Primer.TrieHeap

/-!
# The layout of a trie

What the sections of `Insert`, `Remove` and `GetValue` do to a heap that holds a trie.

## Strategy

A `TrieLayout` says which slot and which node are at which place of the trie.  A place is given by
the way back from it to the root, that is by its key with the last character first.  A heap that
is laid out holds at every place the node with the children that the layout gives it, and no slot
or node is at two places.  All of this is local to a place and its neighbours, and the code
changes the layout at one place at a time.

Over a section, a place keeps its slot, and its node too if it has a value, or both are freed.
-/

namespace BusTub

open ObjectHeap

/-! ## Layouts -/

structure TriePlace (Value : Type) where
  slot : ℕ
  node : ℕ
  value : Option Value

abbrev TrieLayout (Value : Type) := List KeyChar → Option (TriePlace Value)

variable {Value : Type} {heap heap' : TrieHeap Value} {layout layout' : TrieLayout Value}
  {way other : List KeyChar} {keyChar : KeyChar} {placed father son : TriePlace Value}

def TrieLayout.object (layout : TrieLayout Value) (way : List KeyChar) (value : Option Value) :
    NodeObject Value :=
  ⟨way.headD rootChar, value.isSome, value,
    fun keyChar => (layout (keyChar :: way)).map TriePlace.slot⟩

theorem TrieLayout.children_object (layout : TrieLayout Value) (way : List KeyChar)
    (value : Option Value) (keyChar : KeyChar) :
    (layout.object way value).children keyChar =
      (layout (keyChar :: way)).map TriePlace.slot := rfl

def TrieLayout.create : TrieLayout Value
  | [] => some ⟨rootSlot, 0, none⟩
  | _ :: _ => none

theorem isSome_of_suffix {Entry : Type} {entries : List KeyChar → Option Entry}
    (hclosed : ∀ keyChar way, (entries (keyChar :: way)).isSome → (entries way).isSome)
    (hsuffix : other <:+ way) (hway : (entries way).isSome) : (entries other).isSome := by
  obtain ⟨front, rfl⟩ := hsuffix
  induction front with
  | nil => exact hway
  | cons keyChar front ih => exact ih (hclosed keyChar _ hway)

structure LaidOut (heap : TrieHeap Value) (layout : TrieLayout Value) : Prop where
  root : (layout []).map TriePlace.slot = some rootSlot
  closed : ∀ keyChar way, (layout (keyChar :: way)).isSome → (layout way).isSome
  stored : ∀ way placed, layout way = some placed →
    heap.slots.get? placed.slot = some placed.node ∧
      heap.nodes.get? placed.node = some (layout.object way placed.value)
  apart : ∀ way other placed placed', way ≠ other → layout way = some placed →
    layout other = some placed' → placed.slot ≠ placed'.slot ∧ placed.node ≠ placed'.node

namespace LaidOut

theorem create : LaidOut (TrieHeap.create : TrieHeap Value) .create where
  root := rfl
  closed keyChar way h := by cases h
  stored way placed h := by
    cases way with
    | nil =>
      cases h
      exact ⟨rfl, rfl⟩
    | cons keyChar way => cases h
  apart way other placed placed' hne h h' := by
    cases way with
    | nil =>
      cases other with
      | nil => exact absurd rfl hne
      | cons keyChar other => cases h'
    | cons keyChar way => cases h

theorem pointer (h : LaidOut heap layout) (hplaced : layout way = some placed) :
    heap.pointer placed.slot = .ok placed.node := by
  rw [TrieHeap.pointer, (h.stored way placed hplaced).1, follow]

theorem object (h : LaidOut heap layout) (hplaced : layout way = some placed) :
    heap.object placed.node = .ok (layout.object way placed.value) := by
  rw [TrieHeap.object, (h.stored way placed hplaced).2, follow]

theorem deref (h : LaidOut heap layout) (hplaced : layout way = some placed) :
    heap.deref placed.slot = .ok (layout.object way placed.value) := by
  rw [TrieHeap.deref, h.pointer hplaced]
  exact h.object hplaced

theorem slot_lt (h : LaidOut heap layout) (hplaced : layout way = some placed) :
    placed.slot < heap.slots.next :=
  Heap.lt_next (h.stored way placed hplaced).1

theorem node_lt (h : LaidOut heap layout) (hplaced : layout way = some placed) :
    placed.node < heap.nodes.next :=
  Heap.lt_next (h.stored way placed hplaced).2

/-- One place changes.  The nodes at the others are as before, but for the children they see. -/
theorem update (h : LaidOut heap layout) {target : List KeyChar} {entry : Option (TriePlace Value)}
    (hroot : (Function.update layout target entry []).map TriePlace.slot = some rootSlot)
    (hclosed : ∀ keyChar way, (Function.update layout target entry (keyChar :: way)).isSome →
      (Function.update layout target entry way).isSome)
    (hothers : ∀ way placed, way ≠ target → layout way = some placed →
      heap'.slots.get? placed.slot = some placed.node ∧ heap'.nodes.get? placed.node =
        some (TrieLayout.object (Function.update layout target entry) way placed.value))
    (hentry : ∀ placed, entry = some placed →
      heap'.slots.get? placed.slot = some placed.node ∧ heap'.nodes.get? placed.node =
        some (TrieLayout.object (Function.update layout target entry) target placed.value))
    (hapart : ∀ placed way other, entry = some placed → way ≠ target → layout way = some other →
      other.slot ≠ placed.slot ∧ other.node ≠ placed.node) :
    LaidOut heap' (Function.update layout target entry) := by
  refine ⟨hroot, hclosed, fun way placed hplaced => ?_, ?_⟩
  · by_cases hway : way = target
    · subst hway
      rw [Function.update_self] at hplaced
      exact hentry placed hplaced
    · rw [Function.update_of_ne hway] at hplaced
      exact hothers way placed hway hplaced
  · intro way other placed placed' hne hplaced hplaced'
    by_cases hway : way = target
    · have hother : other ≠ target := fun hsame => hne (hway.trans hsame.symm)
      rw [hway, Function.update_self] at hplaced
      rw [Function.update_of_ne hother] at hplaced'
      have hne' := hapart placed other placed' hplaced hother hplaced'
      exact ⟨hne'.1.symm, hne'.2.symm⟩
    · rw [Function.update_of_ne hway] at hplaced
      by_cases hother : other = target
      · rw [hother, Function.update_self] at hplaced'
        exact hapart placed' way placed hplaced' hway hplaced
      · rw [Function.update_of_ne hother] at hplaced'
        exact h.apart way other placed placed' hne hplaced hplaced'

end LaidOut

theorem TrieLayout.object_update {target : List KeyChar} {entry : Option (TriePlace Value)}
    (hway : ∀ keyChar, keyChar :: way ≠ target) (value : Option Value) :
    TrieLayout.object (Function.update layout target entry) way value =
      layout.object way value := by
  simp [TrieLayout.object, Function.update_of_ne (hway _)]

theorem TrieLayout.object_update_child (layout : TrieLayout Value)
    (entry : Option (TriePlace Value)) (keyChar : KeyChar) (way : List KeyChar)
    (value : Option Value) :
    TrieLayout.object (Function.update layout (keyChar :: way) entry) way value =
      (layout.object way value).setChild keyChar (entry.map TriePlace.slot) := by
  simp only [TrieLayout.object, NodeObject.setChild, NodeObject.mk.injEq, true_and]
  funext other
  by_cases hother : other = keyChar
  · rw [hother, Function.update_self, Function.update_self]
  · have hne : other :: way ≠ keyChar :: way := fun hsame => hother (List.cons.inj hsame).1
    rw [Function.update_of_ne hne, Function.update_of_ne hother]

theorem LaidOut.updateChild (h : LaidOut heap layout) (entry : Option (TriePlace Value))
    (hfather : layout way = some father) (hbelow : ∀ first, layout (first :: keyChar :: way) = none)
    {slots : Heap ℕ} {nodes : Heap (NodeObject Value)}
    (hothers : ∀ other placed, other ≠ keyChar :: way → layout other = some placed →
      slots.get? placed.slot = some placed.node ∧
        nodes.get? placed.node = some (layout.object other placed.value))
    (hentry : ∀ placed, entry = some placed → slots.get? placed.slot = some placed.node ∧
      nodes.get? placed.node = some (layout.object (keyChar :: way) placed.value))
    (hapart : ∀ placed other placed', entry = some placed → other ≠ keyChar :: way →
      layout other = some placed' → placed'.slot ≠ placed.slot ∧ placed'.node ≠ placed.node) :
    LaidOut ⟨slots, nodes.modify father.node (·.setChild keyChar (entry.map TriePlace.slot))⟩
      (Function.update layout (keyChar :: way) entry) := by
  have hway : way ≠ keyChar :: way := (List.cons_ne_self _ _).symm
  -- only the father has the place as a child
  have hunchanged : ∀ other value, other ≠ way →
      TrieLayout.object (Function.update layout (keyChar :: way) entry) other value =
        layout.object other value := fun other value hother =>
    TrieLayout.object_update (fun first hsame => hother (List.cons.inj hsame).2) value
  refine h.update ?_ ?_ ?_ ?_ hapart
  · rw [Function.update_of_ne (List.cons_ne_nil _ _).symm]
    exact h.root
  · intro first rest hsome
    -- nothing is below the place that changes, so it is not the father of another one
    have hrest : rest ≠ keyChar :: way := by
      intro hsame
      rw [hsame, Function.update_of_ne (List.cons_ne_self _ _), hbelow first] at hsome
      cases hsome
    rw [Function.update_of_ne hrest]
    by_cases hchild : first :: rest = keyChar :: way
    · rw [(List.cons.inj hchild).2, hfather]
      rfl
    · rw [Function.update_of_ne hchild] at hsome
      exact h.closed first rest hsome
  · intro other placed hother hplaced
    obtain ⟨hslot, hnode⟩ := hothers other placed hother hplaced
    refine ⟨hslot, ?_⟩
    by_cases hsame : other = way
    · subst hsame
      obtain rfl : father = placed := Option.some.inj (hfather.symm.trans hplaced)
      rw [Heap.get?_modify_self, hnode, TrieLayout.object_update_child]
      rfl
    · rw [Heap.get?_modify_of_ne (h.apart other way placed father hsame hplaced hfather).2, hnode,
        hunchanged other _ hsame]
  · intro placed hplaced
    obtain ⟨hslot, hnode⟩ := hentry placed hplaced
    refine ⟨hslot, ?_⟩
    rw [Heap.get?_modify_of_ne (hapart placed way father hplaced hway hfather).2.symm, hnode,
      hunchanged _ _ hway.symm]

/-! ## Insert -/

structure StaysFreed (heap heap' : TrieHeap Value) : Prop where
  slots : ∀ address, heap.slots.Freed address → heap'.slots.Freed address
  nodes : ∀ address, heap.nodes.Freed address → heap'.nodes.Freed address

theorem StaysFreed.refl (heap : TrieHeap Value) : StaysFreed heap heap :=
  ⟨fun _ h => h, fun _ h => h⟩

theorem StaysFreed.trans {heap'' : TrieHeap Value} (h : StaysFreed heap heap')
    (h' : StaysFreed heap' heap'') : StaysFreed heap heap'' :=
  ⟨fun address hfreed => h'.slots address (h.slots address hfreed),
    fun address hfreed => h'.nodes address (h.nodes address hfreed)⟩

/-- Every place keeps its slot, and its node if it has a value. -/
structure Grows (layout layout' : TrieLayout Value) : Prop where
  kept : ∀ way placed, layout way = some placed → ∃ placed', layout' way = some placed' ∧
    placed'.slot = placed.slot ∧ (placed.value.isSome → placed' = placed)

theorem Grows.refl (layout : TrieLayout Value) : Grows layout layout :=
  ⟨fun _ placed h => ⟨placed, h, rfl, fun _ => rfl⟩⟩

theorem Grows.trans {layout'' : TrieLayout Value} (h : Grows layout layout')
    (h' : Grows layout' layout'') : Grows layout layout'' := by
  refine ⟨fun way placed hplaced => ?_⟩
  obtain ⟨placed', hplaced', hslot, hsame⟩ := h.kept way placed hplaced
  obtain ⟨placed'', hplaced'', hslot', hsame'⟩ := h'.kept way placed' hplaced'
  refine ⟨placed'', hplaced'', hslot'.trans hslot, fun hvalue => ?_⟩
  obtain rfl := hsame hvalue
  exact hsame' hvalue

theorem LaidOut.addChild (h : LaidOut heap layout) (hfather : layout way = some father)
    (hnone : layout (keyChar :: way) = none) :
    LaidOut ⟨(heap.slots.alloc heap.nodes.next).2, (heap.nodes.alloc (.new keyChar)).2.modify
        father.node (·.setChild keyChar (some heap.slots.next))⟩
      (Function.update layout (keyChar :: way)
        (some ⟨heap.slots.next, heap.nodes.next, none⟩)) := by
  -- a place that is not there has no place below
  have hbelow : ∀ first, layout (first :: keyChar :: way) = none := by
    intro first
    by_contra hsome
    have hclosed := h.closed first _ (Option.isSome_iff_ne_none.mpr hsome)
    rw [hnone] at hclosed
    cases hclosed
  refine h.updateChild (some ⟨heap.slots.next, heap.nodes.next, none⟩) hfather hbelow ?_ ?_ ?_
  · intro other placed _ hplaced
    obtain ⟨hslot, hnode⟩ := h.stored other placed hplaced
    rw [Heap.get?_alloc_of_ne (h.slot_lt hplaced).ne,
      Heap.get?_alloc_of_ne (h.node_lt hplaced).ne]
    exact ⟨hslot, hnode⟩
  · intro placed hplaced
    cases hplaced
    refine ⟨Heap.get?_alloc_self .., ?_⟩
    simp only [TrieLayout.object, hbelow]
    exact Heap.get?_alloc_self ..
  · intro placed other placed' hplaced _ hplaced'
    cases hplaced
    exact ⟨(h.slot_lt hplaced').ne, (h.node_lt hplaced').ne⟩

theorem TrieHeap.insertChildNode_eq {p node child : ℕ} {father son : NodeObject Value}
    (hpointer : heap.pointer p = .ok node) (hfather : heap.object node = .ok father)
    (hson : heap.object child = .ok son) (hnew : father.hasChild keyChar = false)
    (hchar : keyChar = son.keyChar) :
    heap.insertChildNode p keyChar child = .ok ⟨(heap.slots.alloc child).2,
      heap.nodes.modify node (·.setChild keyChar (some heap.slots.next))⟩ := by
  rw [insertChildNode, hpointer]
  simp only [bind, Except.bind, hfather, hson, hnew, ← hchar]
  rfl

theorem LaidOut.addMissing (h : LaidOut heap layout) (hfather : layout way = some father)
    (keyChar : KeyChar) :
    ∃ heap' layout', heap.addMissing father.slot keyChar = .ok heap' ∧ LaidOut heap' layout' ∧
      Grows layout layout' ∧ StaysFreed heap heap' ∧ (layout' (keyChar :: way)).isSome ∧
      ∀ other, (layout' other).map TriePlace.value =
        if other = keyChar :: way then some ((layout other).bind TriePlace.value)
        else (layout other).map TriePlace.value := by
  have hchildren := layout.children_object way father.value keyChar
  rw [TrieHeap.addMissing, h.deref hfather]
  cases hchild : layout (keyChar :: way) with
  | some child =>
    rw [hchild, Option.map_some] at hchildren
    refine ⟨heap, layout, ?_, h, .refl layout, .refl heap, by rw [hchild]; rfl, fun other => ?_⟩
    · simp only [bind, Except.bind, hchildren]
    · split_ifs with hother
      · rw [hother, hchild]
        rfl
      · rfl
  | none =>
    rw [hchild, Option.map_none] at hchildren
    refine ⟨_, _, ?_, h.addChild hfather hchild, ⟨fun rest placed hplaced => ?_⟩, ⟨?_, ?_⟩, ?_,
      fun other => ?_⟩
    · have hnode : (heap.nodes.alloc (.new keyChar)).2.get? father.node =
          some (layout.object way father.value) := by
        rw [Heap.get?_alloc_of_ne (h.node_lt hfather).ne, (h.stored way father hfather).2]
      simp only [bind, Except.bind, hchildren]
      refine TrieHeap.insertChildNode_eq (h.pointer hfather) (congrArg follow hnode)
        (congrArg follow (Heap.get?_alloc_self ..)) ?_ rfl
      rw [NodeObject.hasChild, hchildren]
      rfl
    · have hne : rest ≠ keyChar :: way := by
        rintro rfl
        rw [hchild] at hplaced
        cases hplaced
      exact ⟨placed, by rw [Function.update_of_ne hne, hplaced], rfl, fun _ => rfl⟩
    · exact fun address hfreed => hfreed.alloc _
    · exact fun address hfreed => (hfreed.alloc _).modify _ _
    · rw [Function.update_self]
      rfl
    · split_ifs with hother
      · rw [hother, Function.update_self, hchild]
        rfl
      · rw [Function.update_of_ne hother]

/-- The loop of `Insert`: all places on the way are there afterwards. -/
theorem LaidOut.insertPath (h : LaidOut heap layout) (hplaced : layout way = some placed)
    (key : Key) :
    ∃ heap' layout' last, heap.insertPath key placed.slot = .ok (last.slot, heap') ∧
      LaidOut heap' layout' ∧ Grows layout layout' ∧ StaysFreed heap heap' ∧
      layout' (key.reverse ++ way) = some last ∧
      ∀ other, (layout' other).map TriePlace.value =
        if other <:+ key.reverse ++ way then some ((layout other).bind TriePlace.value)
        else (layout other).map TriePlace.value := by
  induction key generalizing heap layout way placed with
  | nil =>
    refine ⟨heap, layout, placed, rfl, h, .refl layout, .refl heap, hplaced, fun other => ?_⟩
    split_ifs with hsuffix
    · -- the places up to here were there before
      have hsome := isSome_of_suffix h.closed hsuffix (Option.isSome_of_eq_some hplaced)
      obtain ⟨placed', hplaced'⟩ := Option.isSome_iff_exists.mp hsome
      rw [hplaced']
      rfl
    · rfl
  | cons keyChar rest ih =>
    obtain ⟨heap₁, layout₁, hadd, h₁, hgrows₁, hfreed₁, hchild, hvalues₁⟩ :=
      h.addMissing hplaced keyChar
    obtain ⟨child, hchild⟩ := Option.isSome_iff_exists.mp hchild
    -- the father keeps its slot, from which the loop goes on to the child
    obtain ⟨placed₁, hplaced₁, hslot, -⟩ := hgrows₁.kept way placed hplaced
    obtain ⟨heap', layout', last, hpath, h', hgrows, hfreed, hlast, hvalues⟩ := ih h₁ hchild
    have hway : (keyChar :: rest).reverse ++ way = rest.reverse ++ keyChar :: way := by simp
    refine ⟨heap', layout', last, ?_, h', hgrows₁.trans hgrows, hfreed₁.trans hfreed,
      by rw [hway, hlast], fun other => ?_⟩
    · have hderef := h₁.deref hplaced₁
      have hchildren : (layout₁.object way placed₁.value).children keyChar =
          some child.slot := by
        rw [TrieLayout.children_object, hchild, Option.map_some]
      rw [hslot] at hderef
      rw [TrieHeap.insertPath, hadd]
      simp only [bind, Except.bind, hderef, hchildren, follow, hpath]
    · have hjoin : ∀ entry : Option (TriePlace Value), entry.bind TriePlace.value =
          (entry.map TriePlace.value).join := fun entry => by cases entry <;> rfl
      rw [hvalues other, hway, hjoin, hvalues₁ other]
      by_cases hother : other = keyChar :: way
      · have hsuffix : other <:+ rest.reverse ++ keyChar :: way := by
          rw [hother]
          exact List.suffix_append _ _
        rw [if_pos hsuffix, if_pos hsuffix, if_pos hother, Option.join_some]
      · rw [if_neg hother, ← hjoin]

theorem LaidOut.setValue_of_some (h : LaidOut heap layout) (hplaced : layout way = some placed)
    (hvalue : placed.value.isSome) (value : Value) :
    heap.setValue placed.slot value = .ok (false, heap) := by
  rw [TrieHeap.setValue, h.pointer hplaced]
  simp only [bind, Except.bind, h.object hplaced, TrieLayout.object, hvalue, if_true]

theorem LaidOut.setValue_of_none (h : LaidOut heap layout) (hplaced : layout way = some placed)
    (hvalue : placed.value = none) (value : Value) :
    ∃ heap', heap.setValue placed.slot value = .ok (true, heap') ∧
      LaidOut heap' (Function.update layout way (some ⟨placed.slot, heap.nodes.next, some value⟩)) ∧
      StaysFreed heap heap' := by
  let object := (layout.object way placed.value).withValue value
  refine ⟨⟨heap.slots.modify placed.slot fun _ => heap.nodes.next,
    (heap.nodes.alloc object).2.free placed.node⟩, ?_, ?_, ?_, ?_⟩
  · rw [TrieHeap.setValue, h.pointer hplaced]
    simp only [bind, Except.bind, h.object hplaced]
    rw [if_neg (by simp [TrieLayout.object, hvalue])]
    rfl
  · -- no slot changes, so every node sees the same children
    have hslots : ∀ rest, (Function.update layout way
        (some ⟨placed.slot, heap.nodes.next, some value⟩) rest).map TriePlace.slot =
          (layout rest).map TriePlace.slot := by
      intro rest
      by_cases hrest : rest = way
      · rw [hrest, Function.update_self, hplaced]
        rfl
      · rw [Function.update_of_ne hrest]
    have hobject : ∀ rest value', TrieLayout.object (Function.update layout way
        (some ⟨placed.slot, heap.nodes.next, some value⟩)) rest value' =
          layout.object rest value' := by
      intro rest value'
      simp [TrieLayout.object, hslots]
    refine h.update ?_ ?_ ?_ ?_ ?_
    · rw [hslots, h.root]
    · intro first rest hsome
      rw [← Option.isSome_map, hslots, Option.isSome_map] at hsome ⊢
      exact h.closed first rest hsome
    · intro rest other hrest hother
      obtain ⟨hslot, hnode⟩ := h.stored rest other hother
      obtain ⟨hslot', hnode'⟩ := h.apart rest way other placed hrest hother hplaced
      refine ⟨by rw [Heap.get?_modify_of_ne hslot', hslot], ?_⟩
      rw [Heap.get?_free_of_ne hnode', Heap.get?_alloc_of_ne (h.node_lt hother).ne, hnode, hobject]
    · intro placed' hplaced'
      cases hplaced'
      refine ⟨by rw [Heap.get?_modify_self, (h.stored way placed hplaced).1]; rfl, ?_⟩
      rw [Heap.get?_free_of_ne (h.node_lt hplaced).ne', hobject]
      exact Heap.get?_alloc_self ..
    · intro placed' rest other hplaced' hrest hother
      cases hplaced'
      exact ⟨(h.apart rest way other placed hrest hother hplaced).1, (h.node_lt hother).ne⟩
  · exact fun address hfreed => hfreed.modify _ _
  · exact fun address hfreed => (hfreed.alloc _).free _

/-! ## Remove -/

def TrieLayout.pathTo (layout : TrieLayout Value) : List KeyChar → Option (List ℕ)
  | [] => (layout []).map fun placed => [placed.slot]
  | keyChar :: way => (layout (keyChar :: way)).bind fun placed =>
    (layout.pathTo way).map (placed.slot :: ·)

theorem TrieLayout.pathTo_append_eq_none (hnone : layout.pathTo way = none) (front : List KeyChar) :
    layout.pathTo (front ++ way) = none := by
  induction front with
  | nil => exact hnone
  | cons keyChar front ih => simp [pathTo, ih]

theorem TrieLayout.pathTo_nil (layout : TrieLayout Value) :
    layout.pathTo [] = ((layout []).map TriePlace.slot).map fun slot => [slot] := by
  rw [pathTo, Option.map_map]
  rfl

theorem TrieLayout.pathTo_cons (layout : TrieLayout Value) (keyChar : KeyChar)
    (way : List KeyChar) :
    layout.pathTo (keyChar :: way) = ((layout (keyChar :: way)).map TriePlace.slot).bind
      fun slot => (layout.pathTo way).map (slot :: ·) := by
  rw [pathTo, Option.bind_map]
  rfl

theorem TrieLayout.pathTo_congr (hslots : ∀ other, other <:+ way →
      (layout' other).map TriePlace.slot = (layout other).map TriePlace.slot) :
    layout'.pathTo way = layout.pathTo way := by
  induction way with
  | nil => rw [pathTo_nil, pathTo_nil, hslots [] List.suffix_rfl]
  | cons keyChar way ih =>
    have hrest := ih fun other hother => hslots other (hother.trans (List.suffix_cons _ _))
    rw [pathTo_cons, pathTo_cons, hslots _ List.suffix_rfl, hrest]

theorem TrieLayout.exists_of_pathTo {v : List ℕ} (hpath : layout.pathTo way = some v) :
    ∃ placed rest, layout way = some placed ∧ v = placed.slot :: rest := by
  cases way with
  | nil =>
    obtain ⟨placed, hplaced, rfl⟩ := Option.map_eq_some_iff.mp hpath
    exact ⟨placed, [], hplaced, rfl⟩
  | cons keyChar way =>
    obtain ⟨placed, hplaced, hrest⟩ := Option.bind_eq_some_iff.mp hpath
    obtain ⟨rest, -, rfl⟩ := Option.map_eq_some_iff.mp hrest
    exact ⟨placed, rest, hplaced, rfl⟩

theorem TrieLayout.exists_of_pathTo_cons {v : List ℕ}
    (hpath : layout.pathTo (keyChar :: way) = some v) :
    ∃ son father rest, layout (keyChar :: way) = some son ∧ layout way = some father ∧
      layout.pathTo way = some (father.slot :: rest) ∧ v = son.slot :: father.slot :: rest := by
  obtain ⟨son, hson, hrest⟩ := Option.bind_eq_some_iff.mp hpath
  obtain ⟨v', hpath', rfl⟩ := Option.map_eq_some_iff.mp hrest
  obtain ⟨father, rest, hfather, rfl⟩ := exists_of_pathTo hpath'
  exact ⟨son, father, rest, hson, hfather, hpath', rfl⟩

theorem LaidOut.pathTo_isSome (h : LaidOut heap layout) :
    (layout.pathTo way).isSome = (layout way).isSome := by
  induction way with
  | nil => exact Option.isSome_map
  | cons keyChar way ih =>
    rw [TrieLayout.pathTo]
    cases hplaced : layout (keyChar :: way) with
    | none => rfl
    | some placed =>
      have hfather := h.closed keyChar way (by rw [hplaced]; rfl)
      rw [Option.bind_some, Option.isSome_map, ih, hfather]
      rfl

theorem LaidOut.collect (h : LaidOut heap layout) (hplaced : layout way = some placed) {v : List ℕ}
    (hpath : layout.pathTo way = some v) (key : Key) :
    heap.collect key placed.slot v = .ok (layout.pathTo (key.reverse ++ way)) := by
  induction key generalizing way placed v with
  | nil => rw [TrieHeap.collect, List.reverse_nil, List.nil_append, hpath]
  | cons keyChar rest ih =>
    have hway : (keyChar :: rest).reverse ++ way = rest.reverse ++ keyChar :: way := by simp
    have hchildren := layout.children_object way placed.value keyChar
    rw [TrieHeap.collect, h.deref hplaced, hway]
    cases hchild : layout (keyChar :: way) with
    | none =>
      rw [hchild, Option.map_none] at hchildren
      have hnone : layout.pathTo (keyChar :: way) = none := by
        rw [TrieLayout.pathTo, hchild, Option.bind_none]
      simp only [bind, Except.bind, hchildren]
      rw [TrieLayout.pathTo_append_eq_none hnone]
    | some child =>
      rw [hchild, Option.map_some] at hchildren
      simp only [bind, Except.bind, hchildren]
      apply ih hchild
      rw [TrieLayout.pathTo, hchild, hpath]
      rfl

theorem LaidOut.find (h : LaidOut heap layout) (hplaced : layout way = some placed) (key : Key) :
    heap.find key placed.slot = .ok ((layout (key.reverse ++ way)).map TriePlace.slot) := by
  induction key generalizing way placed with
  | nil => rw [TrieHeap.find, List.reverse_nil, List.nil_append, hplaced, Option.map_some]
  | cons keyChar rest ih =>
    have hway : (keyChar :: rest).reverse ++ way = rest.reverse ++ keyChar :: way := by simp
    have hchildren := layout.children_object way placed.value keyChar
    rw [TrieHeap.find, h.deref hplaced, hway]
    cases hchild : layout (keyChar :: way) with
    | none =>
      rw [hchild, Option.map_none] at hchildren
      have hnone : layout (rest.reverse ++ keyChar :: way) = none := by
        by_contra hsome
        have hfather := isSome_of_suffix h.closed
          (List.suffix_append rest.reverse (keyChar :: way))
          (Option.isSome_iff_ne_none.mpr hsome)
        rw [hchild] at hfather
        cases hfather
      simp only [bind, Except.bind, hchildren]
      rw [hnone, Option.map_none]
    | some child =>
      rw [hchild, Option.map_some] at hchildren
      simp only [bind, Except.bind, hchildren]
      exact ih hchild

/-- The places that stay do not change, the others are freed. -/
structure Shrinks (layout : TrieLayout Value) (heap' : TrieHeap Value)
    (layout' : TrieLayout Value) : Prop where
  kept : ∀ way placed, layout way = some placed → layout' way = some placed ∨
    (layout' way = none ∧ heap'.slots.Freed placed.slot ∧ heap'.nodes.Freed placed.node)
  none : ∀ way, layout way = none → layout' way = none

theorem TrieHeap.destroy_of_leaf {slot node depth : ℕ} {object : NodeObject Value}
    (hslot : heap.slots.get? slot = some node) (hnode : heap.nodes.get? node = some object)
    (hleaf : ∀ keyChar, object.children keyChar = none) :
    TrieHeap.destroy (depth + 1) heap slot = ⟨heap.slots.free slot, heap.nodes.free node⟩ := by
  rw [TrieHeap.destroy, hslot]
  exact congrArg (fun below : TrieHeap Value =>
    (⟨below.slots.free slot, below.nodes.free node⟩ : TrieHeap Value))
    (List.foldl_fixed' (fun keyChar => by rw [hnode, Option.bind_some, hleaf keyChar]) _)

theorem LaidOut.removeChild (h : LaidOut heap layout) (hfather : layout way = some father)
    (hson : layout (keyChar :: way) = some son)
    (hleaf : ∀ first, layout (first :: keyChar :: way) = none) :
    LaidOut ⟨heap.slots.free son.slot,
        (heap.nodes.free son.node).modify father.node (·.setChild keyChar none)⟩
      (Function.update layout (keyChar :: way) none) := by
  refine h.updateChild none hfather hleaf ?_ (fun placed hplaced => by cases hplaced)
    (fun placed _ _ hplaced => by cases hplaced)
  intro other placed hother hplaced
  obtain ⟨hslot, hnode⟩ := h.stored other placed hplaced
  obtain ⟨hslot', hnode'⟩ := h.apart other _ placed son hother hplaced hson
  rw [Heap.get?_free_of_ne hslot', Heap.get?_free_of_ne hnode']
  exact ⟨hslot, hnode⟩

theorem LaidOut.removeChildNode (h : LaidOut heap layout) (hfather : layout way = some father)
    (hson : layout (keyChar :: way) = some son)
    (hleaf : ∀ first, layout (first :: keyChar :: way) = none) :
    heap.removeChildNode father.slot keyChar = .ok ⟨heap.slots.free son.slot,
      (heap.nodes.free son.node).modify father.node (·.setChild keyChar none)⟩ := by
  obtain ⟨hslot, hnode⟩ := h.stored _ son hson
  have hchildren : (layout.object way father.value).children keyChar = some son.slot := by
    rw [TrieLayout.children_object, hson, Option.map_some]
  have hleaf' : ∀ first, (layout.object (keyChar :: way) son.value).children first = none := by
    intro first
    rw [TrieLayout.children_object, hleaf first, Option.map_none]
  obtain ⟨depth, hdepth⟩ := Nat.exists_eq_add_one_of_ne_zero (Nat.ne_zero_of_lt (h.slot_lt hson))
  rw [TrieHeap.removeChildNode, h.pointer hfather]
  simp only [bind, Except.bind, h.object hfather, hchildren, hdepth]
  rw [TrieHeap.destroy_of_leaf hslot hnode hleaf']

/-- The loop of `Remove` under the write latch, on what is known of all places. -/
def unlinkWays {Entry : Type} : List KeyChar → (List KeyChar → Option Entry) →
    List KeyChar → Option Entry
  | [], entries => entries
  | keyChar :: way, entries =>
    if ∃ first, (entries (first :: keyChar :: way)).isSome then entries
    else unlinkWays way (Function.update entries (keyChar :: way) none)

theorem TrieLayout.hasChildren_object_iff (layout : TrieLayout Value) (way : List KeyChar)
    (value : Option Value) : (layout.object way value).hasChildren = true ↔
      ∃ first, (layout (first :: way)).isSome := by
  simp [NodeObject.hasChildren, NodeObject.hasChild, TrieLayout.object]

theorem LaidOut.unlink (h : LaidOut heap layout) {v : List ℕ} (hpath : layout.pathTo way = some v) :
    ∃ heap', heap.unlink way v = .ok heap' ∧ LaidOut heap' (unlinkWays way layout) ∧
      Shrinks layout heap' (unlinkWays way layout) ∧ StaysFreed heap heap' := by
  induction way generalizing heap layout v with
  | nil =>
    exact ⟨heap, rfl, h, ⟨fun _ _ hplaced => .inl hplaced, fun _ hnone => hnone⟩, .refl heap⟩
  | cons keyChar way ih =>
    obtain ⟨son, father, rest, hson, hfather, hpath', rfl⟩ :=
      TrieLayout.exists_of_pathTo_cons hpath
    rw [unlinkWays, TrieHeap.unlink, h.deref hson]
    by_cases hchildren : ∃ first, (layout (first :: keyChar :: way)).isSome
    · -- the loop stops at a node with children
      rw [if_pos hchildren]
      refine ⟨heap, ?_, h, ⟨fun _ _ hplaced => .inl hplaced, fun _ hnone => hnone⟩, .refl heap⟩
      simp only [bind, Except.bind, (layout.hasChildren_object_iff _ _).mpr hchildren, if_true]
    · have hleaf : ∀ first, layout (first :: keyChar :: way) = none := fun first =>
        Option.not_isSome_iff_eq_none.mp fun hsome => hchildren ⟨first, hsome⟩
      have hshorter : ∀ other, other <:+ way → other ≠ keyChar :: way := by
        rintro other hother rfl
        exact absurd hother.length_le (by simp)
      have hpath₁ : TrieLayout.pathTo (Function.update layout (keyChar :: way) none) way =
          some (father.slot :: rest) := by
        rw [← hpath']
        exact TrieLayout.pathTo_congr fun other hother => by
          rw [Function.update_of_ne (hshorter other hother)]
      obtain ⟨heap', hunlink, h', hshrinks, hfreed⟩ :=
        ih (h.removeChild hfather hson hleaf) hpath₁
      rw [if_neg hchildren]
      refine ⟨heap', ?_, h', ⟨fun other placed hplaced => ?_, fun other hnone => ?_⟩, ?_, ?_⟩
      · have hnot : ¬ (layout.object (keyChar :: way) son.value).hasChildren = true :=
          fun htrue => hchildren ((layout.hasChildren_object_iff _ _).mp htrue)
        simp only [bind, Except.bind, hnot, h.removeChildNode hfather hson hleaf]
        exact hunlink
      · by_cases hother : other = keyChar :: way
        · -- the son, which was freed
          subst hother
          obtain rfl : son = placed := Option.some.inj (hson.symm.trans hplaced)
          obtain ⟨hslot, hnode⟩ := h.stored _ son hson
          refine .inr ⟨hshrinks.none _ (Function.update_self ..), ?_, ?_⟩
          · exact hfreed.slots _ (Heap.freed_free hslot)
          · exact hfreed.nodes _ ((Heap.freed_free hnode).modify _ _)
        · exact hshrinks.kept other placed (by rw [Function.update_of_ne hother, hplaced])
      · apply hshrinks.none
        by_cases hother : other = keyChar :: way
        · rw [hother, Function.update_self]
        · rw [Function.update_of_ne hother, hnone]
      · exact fun address hfree => hfreed.slots _ (hfree.free _)
      · exact fun address hfree => hfreed.nodes _ ((hfree.free _).modify _ _)

end BusTub

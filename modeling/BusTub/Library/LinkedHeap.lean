import Mathlib.Data.List.Nodup
import Mathlib.Data.List.Induction
import Mathlib.Logic.Function.Basic
import Mathlib.Tactic.Common

/-!
# Doubly linked lists in a heap

A heap of nodes, each with a pointer to the node before it and one to the node
after it.  `IsList head nodes tail` says that the nodes between the two sentinels
`head` and `tail` are `nodes`, in order and with both pointers right.

The file gives the list operations of a hand-written list (unlinking a node,
linking one in after the head, searching from the tail), what each does to the
list it works on, and that it leaves every other list alone: `IsList.congr` is the
frame rule, since an operation changes pointers of its own list only.
-/

namespace LinkedHeap

variable {Node : Type*}

/-- The pointers of every node of the heap. -/
structure Links (Node : Type*) where
  pre : Node → Option Node
  nex : Node → Option Node

namespace Links

/-- `first` and `second` point at each other. -/
def Linked (links : Links Node) (first second : Node) : Prop :=
  links.nex first = some second ∧ links.pre second = some first

/-- The nodes strictly between `head` and `tail` are `nodes`. -/
def IsList (links : Links Node) : Node → List Node → Node → Prop
  | head, [], tail => links.Linked head tail
  | head, node :: rest, tail => links.Linked head node ∧ links.IsList node rest tail

variable {links : Links Node} {nodes : List Node}

/-- **The frame rule.**  A list depends on the forward pointers of all its nodes
but the last and the backward pointers of all but the first. -/
theorem IsList.congr {links' : Links Node} {head tail : Node}
    (h : links.IsList head nodes tail)
    (hnex : ∀ node ∈ head :: nodes, links'.nex node = links.nex node)
    (hpre : ∀ node ∈ nodes ++ [tail], links'.pre node = links.pre node) :
    links'.IsList head nodes tail := by
  induction nodes generalizing head with
  | nil => exact ⟨(hnex head (by simp)).trans h.1, (hpre tail (by simp)).trans h.2⟩
  | cons node rest ih =>
    obtain ⟨hlinked, hrest⟩ := h
    refine ⟨⟨(hnex head (by simp)).trans hlinked.1, (hpre node (by simp)).trans hlinked.2⟩, ?_⟩
    exact ih hrest (fun other hother => hnex other (List.mem_cons_of_mem _ hother))
      fun other hother => hpre other (List.mem_cons_of_mem _ hother)

theorem isList_append_iff {head node tail : Node} {front back : List Node} :
    links.IsList head (front ++ node :: back) tail ↔
      links.IsList head front node ∧ links.IsList node back tail := by
  induction front generalizing head with
  | nil => rfl
  | cons first rest ih =>
    constructor
    · rintro ⟨hlinked, hrest⟩
      obtain ⟨hfront, hback⟩ := ih.mp hrest
      exact ⟨⟨hlinked, hfront⟩, hback⟩
    · rintro ⟨⟨hlinked, hfront⟩, hback⟩
      exact ⟨hlinked, ih.mpr ⟨hfront, hback⟩⟩

theorem IsList.pre_tail {head tail : Node}
    (h : links.IsList head nodes tail) : ∃ node ∈ head :: nodes, links.pre tail = some node := by
  induction nodes generalizing head with
  | nil => exact ⟨head, by simp, h.2⟩
  | cons node rest ih =>
    obtain ⟨last, hmem, hpre⟩ := ih h.2
    exact ⟨last, List.mem_cons_of_mem _ hmem, hpre⟩

theorem IsList.nex_head {head tail : Node}
    (h : links.IsList head nodes tail) : ∃ node ∈ nodes ++ [tail], links.nex head = some node := by
  cases nodes with
  | nil => exact ⟨tail, by simp, h.1⟩
  | cons node rest => exact ⟨node, by simp, h.1.1⟩

structure Distinct (head : Node) (nodes : List Node) (tail : Node) : Prop where
  head_ne_tail : head ≠ tail
  head_notMem : head ∉ nodes
  tail_notMem : tail ∉ nodes
  nodup : nodes.Nodup

theorem Distinct.ne_head {head tail other : Node}
    (h : Distinct head nodes tail) (hother : other ∈ nodes ++ [tail]) : other ≠ head := by
  rintro rfl
  rcases List.mem_append.mp hother with hmem | hmem
  · exact h.head_notMem hmem
  · exact h.head_ne_tail (List.mem_singleton.mp hmem)

theorem Distinct.rest {head first tail : Node}
    (h : Distinct head (first :: nodes) tail) : Distinct first nodes tail where
  head_ne_tail := fun heq => h.tail_notMem (heq ▸ List.mem_cons_self ..)
  head_notMem := (List.nodup_cons.mp h.nodup).1
  tail_notMem := fun hmem => h.tail_notMem (List.mem_cons_of_mem _ hmem)
  nodup := (List.nodup_cons.mp h.nodup).2

variable [DecidableEq Node]

def setPre (links : Links Node) (node : Node) (target : Option Node) : Links Node :=
  { links with pre := Function.update links.pre node target }

def setNex (links : Links Node) (node : Node) (target : Option Node) : Links Node :=
  { links with nex := Function.update links.nex node target }

@[simp] theorem setPre_nex (links : Links Node) (node : Node) (target : Option Node) :
    (links.setPre node target).nex = links.nex := rfl

@[simp] theorem setNex_pre (links : Links Node) (node : Node) (target : Option Node) :
    (links.setNex node target).pre = links.pre := rfl

@[simp] theorem setPre_pre (links : Links Node) (node : Node) (target : Option Node) :
    (links.setPre node target).pre = Function.update links.pre node target := rfl

@[simp] theorem setNex_nex (links : Links Node) (node : Node) (target : Option Node) :
    (links.setNex node target).nex = Function.update links.nex node target := rfl

/-! ## Unlinking a node -/

/-- Make the neighbours of `node` point at each other.  `none` when a neighbour
is missing. -/
def unlink (links : Links Node) (node : Node) : Option (Links Node) :=
  match links.pre node, links.nex node with
  | some prev, some next => some ((links.setNex prev (some next)).setPre next (some prev))
  | _, _ => none

theorem isList_relink {head node tail prev next : Node}
    {front back : List Node} (hfront : links.IsList head front node)
    (hback : links.IsList node back tail) (hprev : links.pre node = some prev)
    (hnext : links.nex node = some next) (h : Distinct head (front ++ node :: back) tail) :
    ((links.setNex prev (some next)).setPre next (some prev)).IsList head (front ++ back) tail := by
  induction front generalizing head with
  | nil =>
    -- the node is first, so `prev` is the head
    obtain rfl : head = prev := Option.some.inj (hfront.2.symm.trans hprev)
    have hrestDistinct := h.rest
    cases back with
    | nil =>
      obtain rfl : tail = next := Option.some.inj (hback.1.symm.trans hnext)
      exact ⟨by simp, by simp⟩
    | cons first rest =>
      obtain ⟨hlinked, hrest⟩ := hback
      obtain rfl : first = next := Option.some.inj (hlinked.1.symm.trans hnext)
      refine ⟨⟨by simp, by simp⟩, hrest.congr ?_ ?_⟩
      · intro other hother
        have hne : other ≠ head := by
          rintro rfl
          exact h.head_notMem (List.mem_cons_of_mem _ hother)
        simp [Function.update_of_ne hne]
      · intro other hother
        have hne : other ≠ first := hrestDistinct.rest.ne_head hother
        simp [Function.update_of_ne hne]
  | cons first rest ih =>
    obtain ⟨hlinked, hrest⟩ := hfront
    refine ⟨⟨?_, ?_⟩, ih hrest h.rest⟩
    · -- `prev` is a later node than `head`
      obtain ⟨last, hmem, hlast⟩ := hrest.pre_tail
      obtain rfl : last = prev := Option.some.inj (hlast.symm.trans hprev)
      have hne : head ≠ last := by
        rintro rfl
        exact h.head_notMem (List.mem_append_left _ hmem)
      simpa [Function.update_of_ne hne] using hlinked.1
    · -- `next` is a later node than `first`
      obtain ⟨after, hmem, hafter⟩ := hback.nex_head
      obtain rfl : after = next := Option.some.inj (hafter.symm.trans hnext)
      have hlater : after ∈ (rest ++ node :: back) ++ [tail] := by
        rw [List.append_assoc]
        exact List.mem_append_right _ (List.mem_cons_of_mem _ hmem)
      have hne : first ≠ after := (h.rest.ne_head hlater).symm
      simpa [Function.update_of_ne hne] using hlinked.2

/-- **Unlinking** a node of a list removes it from the list and changes no
pointer of a node outside the list. -/
theorem IsList.unlink {links : Links Node} {head node tail : Node} {front back : List Node}
    (h : links.IsList head (front ++ node :: back) tail)
    (hdistinct : Distinct head (front ++ node :: back) tail) :
    ∃ links', links.unlink node = some links' ∧ links'.IsList head (front ++ back) tail ∧
      ∀ other, other ≠ head → other ≠ tail → other ∉ front ++ back →
        links'.pre other = links.pre other ∧ links'.nex other = links.nex other := by
  obtain ⟨hfront, hback⟩ := isList_append_iff.mp h
  obtain ⟨prev, hprevMem, hprev⟩ := hfront.pre_tail
  obtain ⟨next, hnextMem, hnext⟩ := hback.nex_head
  refine ⟨(links.setNex prev (some next)).setPre next (some prev),
    by simp only [Links.unlink, hprev, hnext],
    isList_relink hfront hback hprev hnext hdistinct, ?_⟩
  intro other hhead htail hother
  rw [List.mem_append, not_or] at hother
  have hneNext : other ≠ next := by
    rintro rfl
    rcases List.mem_append.mp hnextMem with hmem | hmem
    · exact hother.2 hmem
    · exact htail (List.mem_singleton.mp hmem)
  have hnePrev : other ≠ prev := by
    rintro rfl
    rcases List.mem_cons.mp hprevMem with heq | hmem
    · exact hhead heq
    · exact hother.1 hmem
  simp [Function.update_of_ne hneNext, Function.update_of_ne hnePrev]

/-! ## Linking a node in after the head -/

/-- Put `node` between `head` and the node after it.  `none` when `head` has no
successor. -/
def linkAfter (links : Links Node) (head node : Node) : Option (Links Node) :=
  match links.nex head with
  | some temp =>
    some ((((links.setNex head (some node)).setNex node (some temp)).setPre temp
      (some node)).setPre node (some head))
  | none => none

/-- **Linking in** a node that is not in the list puts it first and changes no
pointer of a node outside the list. -/
theorem IsList.linkAfter {links : Links Node} {head node tail : Node} {nodes : List Node}
    (h : links.IsList head nodes tail) (hdistinct : Distinct head (node :: nodes) tail) :
    ∃ links', links.linkAfter head node = some links' ∧ links'.IsList head (node :: nodes) tail ∧
      ∀ other, other ≠ head → other ≠ tail → other ∉ node :: nodes →
        links'.pre other = links.pre other ∧ links'.nex other = links.nex other := by
  obtain ⟨temp, htempMem, htemp⟩ := h.nex_head
  have hheadNode : head ≠ node := fun heq => hdistinct.head_notMem (heq ▸ List.mem_cons_self ..)
  have htempNode : temp ≠ node := hdistinct.rest.ne_head htempMem
  refine ⟨(((links.setNex head (some node)).setNex node (some temp)).setPre temp
    (some node)).setPre node (some head), by simp only [Links.linkAfter, htemp],
    ⟨⟨?_, ?_⟩, ?_⟩, ?_⟩
  · simp [Function.update_of_ne hheadNode]
  · simp
  · -- the old first node now follows `node`
    cases nodes with
    | nil =>
      obtain rfl : tail = temp := Option.some.inj (h.1.symm.trans htemp)
      exact ⟨by simp, by simp [Function.update_of_ne htempNode]⟩
    | cons first rest =>
      obtain ⟨hlinked, hrest⟩ := h
      obtain rfl : first = temp := Option.some.inj (hlinked.1.symm.trans htemp)
      refine ⟨⟨by simp, by simp [Function.update_of_ne htempNode]⟩, hrest.congr ?_ ?_⟩
      · intro other hother
        have hneNode : other ≠ node := by
          rintro rfl
          exact hdistinct.rest.head_notMem hother
        have hneHead : other ≠ head := by
          rintro rfl
          exact hdistinct.head_notMem (List.mem_cons_of_mem _ hother)
        simp [Function.update_of_ne hneNode, Function.update_of_ne hneHead]
      · intro other hother
        have hneNode : other ≠ node :=
          hdistinct.rest.ne_head (List.mem_cons_of_mem first hother)
        have hneFirst : other ≠ first := hdistinct.rest.rest.ne_head hother
        simp [Function.update_of_ne hneNode, Function.update_of_ne hneFirst]
  · intro other hhead htail hother
    rw [List.mem_cons, not_or] at hother
    have hneTemp : other ≠ temp := by
      rintro rfl
      rcases List.mem_append.mp htempMem with hmem | hmem
      · exact hother.2 hmem
      · exact htail (List.mem_singleton.mp hmem)
    simp [Function.update_of_ne hhead, Function.update_of_ne hother.1,
      Function.update_of_ne hneTemp]

/-! ## Searching from the tail -/

/-- Walk backward from `current` to `head` and return the first node that passes
`test`.  The outer `none` is a missing pointer, or a walk longer than `fuel`. -/
def searchBack (links : Links Node) (test : Node → Bool) (head : Node) :
    ℕ → Option Node → Option (Option Node)
  | 0, _ => none
  | _ + 1, none => none
  | fuel + 1, some current =>
    if current = head then some none
    else if test current then some (some current)
    else searchBack links test head fuel (links.pre current)

theorem searchBack_test {test : Node → Bool} {head found : Node} {fuel : ℕ}
    {start : Option Node} (h : links.searchBack test head fuel start = some (some found)) :
    test found = true := by
  fun_induction searchBack links test head fuel start with
  | case1 | case2 | case3 => simp at h
  | case4 fuel current hhead htest =>
    obtain rfl := Option.some.inj (Option.some.inj h)
    exact htest
  | case5 fuel current hhead htest ih => exact ih h

/-- **Searching from the tail** visits the nodes of the list last to first. -/
theorem IsList.searchBack {links : Links Node} {head tail : Node} {nodes : List Node}
    (h : links.IsList head nodes tail) (hhead : head ∉ nodes) (test : Node → Bool) {fuel : ℕ}
    (hfuel : nodes.length < fuel) :
    links.searchBack test head fuel (links.pre tail) = some (nodes.reverse.find? test) := by
  -- the walk starts at the end, so the induction takes the last node off
  induction nodes using List.reverseRecOn generalizing tail fuel with
  | nil =>
    obtain ⟨fuel, rfl⟩ := Nat.exists_eq_succ_of_ne_zero (Nat.ne_of_gt hfuel)
    simp [h.2, Links.searchBack]
  | append_singleton rest last ih =>
    obtain ⟨fuel, rfl⟩ := Nat.exists_eq_succ_of_ne_zero (Nat.ne_of_gt (Nat.zero_lt_of_lt hfuel))
    obtain ⟨hrest, hlast⟩ := isList_append_iff.mp h
    rw [List.mem_append, List.mem_singleton, not_or] at hhead
    rw [List.length_append, List.length_singleton] at hfuel
    rw [List.reverse_append, List.reverse_singleton, List.singleton_append, hlast.2]
    rw [Links.searchBack, if_neg (Ne.symm hhead.2), List.find?_cons]
    cases htest : test last with
    | true => rfl
    | false => exact ih hrest hhead.1 (by omega)

end Links

end LinkedHeap

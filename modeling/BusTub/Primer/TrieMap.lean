import BusTub.Primer.Trie
import Mathlib.Data.List.Infix

/-!
# The trie as a map

What a trie holds is the map `Trie.contents`, from a key to the value in the node that the key
leads to.  `Insert` and `GetValue` act on it as on a map.  `Remove` does not: it answers `true`
for every key whose path exists, it leaves the value of a key whose node has children, and on its
way up it drops nodes without children even if they hold the value of a shorter key.

## Strategy

Every node of a trie that only `Insert` and `Remove` have touched is the end of a key or has
children, so a path exists exactly when some stored key starts with it, and the shape of a trie
can be read off its map.  In particular the nodes that the loop of `Remove` drops, those whose
whole subtree is a path, are the keys `Dropped` of the map.  What `Remove` does to the map is
therefore known exactly, and so is the condition under which it is what a map does.
-/

namespace BusTub

open Function Machines

namespace Trie

variable {Value : Type*} {node child root : TrieNode Value} {keyChar : KeyChar} {key rest : Key}

/-! ## Contents -/

def contents (node : TrieNode Value) (key : Key) : Option Value :=
  (walk key node).bind TrieNode.value

@[simp] theorem contents_nil (node : TrieNode Value) : contents node [] = node.value := rfl

theorem contents_cons (node : TrieNode Value) (keyChar : KeyChar) (rest : Key) :
    contents node (keyChar :: rest) = (node.children keyChar).bind (contents · rest) := by
  simp [contents, walk, TrieNode.getChildNode, Option.bind_assoc]

theorem contents_cons_of_child (hchild : node.children keyChar = some child) (rest : Key) :
    contents node (keyChar :: rest) = contents child rest := by
  rw [contents_cons, hchild, Option.bind_some]

theorem contents_new (keyChar : KeyChar) (key : Key) :
    contents (TrieNode.new keyChar : TrieNode Value) key = none := by
  cases key with
  | nil => rfl
  | cons first rest => rfl

theorem walk_append (front back : Key) (node : TrieNode Value) :
    walk (front ++ back) node = (walk front node).bind (walk back) := by
  induction front generalizing node with
  | nil => rfl
  | cons keyChar rest ih =>
    cases hchild : node.children keyChar with
    | none => simp [walk, TrieNode.getChildNode, hchild]
    | some child => simpa [walk, TrieNode.getChildNode, hchild] using ih child

theorem contents_append (front back : Key) (node : TrieNode Value) :
    contents node (front ++ back) = (walk front node).bind (contents · back) := by
  simp [contents, walk_append, Option.bind_assoc]

/-- The paths of the trie, with the values of the nodes they lead to. -/
def table (node : TrieNode Value) (key : Key) : Option (Option Value) :=
  (walk key node).map TrieNode.value

@[simp] theorem table_nil (node : TrieNode Value) : table node [] = some node.value := rfl

theorem table_cons (node : TrieNode Value) (keyChar : KeyChar) (rest : Key) :
    table node (keyChar :: rest) = (node.children keyChar).bind (table · rest) := by
  simp only [table, walk, TrieNode.getChildNode, Option.map_bind, Function.comp_def]

theorem table_cons_of_child (hchild : node.children keyChar = some child) (rest : Key) :
    table node (keyChar :: rest) = table child rest := by
  rw [table_cons, hchild, Option.bind_some]

@[simp] theorem table_isSome (node : TrieNode Value) (key : Key) :
    (table node key).isSome = (walk key node).isSome :=
  Option.isSome_map

theorem contents_eq_join (node : TrieNode Value) (key : Key) :
    contents node key = (table node key).join := by
  rw [contents, table]
  cases walk key node with
  | none => rfl
  | some last => rfl

theorem exists_child_of_walk (hwalk : (walk (keyChar :: rest) node).isSome) :
    ∃ child, node.children keyChar = some child ∧ (walk rest child).isSome := by
  simp only [walk, TrieNode.getChildNode] at hwalk
  cases hchild : node.children keyChar with
  | none => simp [hchild] at hwalk
  | some child => exact ⟨child, rfl, by simpa [hchild] using hwalk⟩

/-! ## Changes of one node -/

@[simp] theorem setChild_value (node child : TrieNode Value) (keyChar : KeyChar) :
    (node.setChild keyChar child).value = node.value := rfl

@[simp] theorem removeChildNode_value (node : TrieNode Value) (keyChar : KeyChar) :
    (node.removeChildNode keyChar).value = node.value := rfl

theorem contents_setChild_same (node child : TrieNode Value) (keyChar : KeyChar) (rest : Key) :
    contents (node.setChild keyChar child) (keyChar :: rest) = contents child rest := by
  apply contents_cons_of_child
  simp [TrieNode.setChild]

theorem contents_setChild_ne {other : KeyChar} (hne : other ≠ keyChar)
    (node child : TrieNode Value) (rest : Key) :
    contents (node.setChild keyChar child) (other :: rest) = contents node (other :: rest) := by
  simp [contents_cons, TrieNode.setChild, update_of_ne hne]

theorem table_setChild_same (node child : TrieNode Value) (keyChar : KeyChar) (rest : Key) :
    table (node.setChild keyChar child) (keyChar :: rest) = table child rest := by
  apply table_cons_of_child
  simp [TrieNode.setChild]

theorem table_setChild_ne {other : KeyChar} (hne : other ≠ keyChar)
    (node child : TrieNode Value) (rest : Key) :
    table (node.setChild keyChar child) (other :: rest) = table node (other :: rest) := by
  simp [table_cons, TrieNode.setChild, update_of_ne hne]

theorem table_removeChildNode_same (node : TrieNode Value) (keyChar : KeyChar) (rest : Key) :
    table (node.removeChildNode keyChar) (keyChar :: rest) = none := by
  simp [table_cons, TrieNode.removeChildNode]

theorem table_removeChildNode_ne {other : KeyChar} (hne : other ≠ keyChar)
    (node : TrieNode Value) (rest : Key) :
    table (node.removeChildNode keyChar) (other :: rest) = table node (other :: rest) := by
  simp [table_cons, TrieNode.removeChildNode, update_of_ne hne]

theorem hasChildren_iff :
    node.hasChildren = true ↔ ∃ keyChar child, node.children keyChar = some child := by
  rw [TrieNode.hasChildren, decide_eq_true_iff]
  exact exists_congr fun keyChar => Option.isSome_iff_exists

theorem hasChildren_setChild (node child : TrieNode Value) (keyChar : KeyChar) :
    (node.setChild keyChar child).hasChildren = true :=
  hasChildren_iff.mpr ⟨keyChar, child, by simp [TrieNode.setChild]⟩

theorem hasChildren_removeChildNode_iff :
    (node.removeChildNode keyChar).hasChildren = true ↔
      ∃ other child, other ≠ keyChar ∧ node.children other = some child := by
  rw [hasChildren_iff]
  refine exists_congr fun other => exists_congr fun child => ?_
  by_cases hsame : other = keyChar
  · simp [TrieNode.removeChildNode, hsame]
  · simp [TrieNode.removeChildNode, hsame]

/-! ## Trimmed tries -/

def Alive (node : TrieNode Value) : Prop := node.hasChildren = true ∨ node.value.isSome

/-- End nodes are the nodes with a value, and below the node all nodes are alive. -/
inductive Trimmed : TrieNode Value → Prop
  | intro {node : TrieNode Value} (hend : node.isEnd = node.value.isSome)
      (halive : ∀ keyChar child, node.children keyChar = some child → Alive child)
      (hchildren : ∀ keyChar child, node.children keyChar = some child → Trimmed child) :
      Trimmed node

theorem Trimmed.isEnd (h : Trimmed node) : node.isEnd = node.value.isSome := by
  cases h with | intro hend _ _ => exact hend

theorem Trimmed.of_child (h : Trimmed node) (hchild : node.children keyChar = some child) :
    Trimmed child := by
  cases h with | intro _ _ hchildren => exact hchildren keyChar child hchild

theorem Trimmed.alive_child (h : Trimmed node) (hchild : node.children keyChar = some child) :
    Alive child := by
  cases h with | intro _ halive _ => exact halive keyChar child hchild

theorem trimmed_new (keyChar : KeyChar) : Trimmed (TrieNode.new keyChar : TrieNode Value) :=
  .intro rfl (fun _ _ hchild => by simp [TrieNode.new] at hchild)
    (fun _ _ hchild => by simp [TrieNode.new] at hchild)

theorem Trimmed.setChild (h : Trimmed node) (hchild : Trimmed child) (halive : Alive child) :
    Trimmed (node.setChild keyChar child) := by
  have hcases : ∀ other son, (node.setChild keyChar child).children other = some son →
      Alive son ∧ Trimmed son := by
    intro other son hson
    by_cases hsame : other = keyChar
    · simp only [TrieNode.setChild, hsame, update_self, Option.some.injEq] at hson
      exact hson ▸ ⟨halive, hchild⟩
    · simp only [TrieNode.setChild, update_of_ne hsame] at hson
      exact ⟨h.alive_child hson, h.of_child hson⟩
  exact .intro h.isEnd (fun other son hson => (hcases other son hson).1)
    (fun other son hson => (hcases other son hson).2)

theorem Trimmed.removeChildNode (h : Trimmed node) (keyChar : KeyChar) :
    Trimmed (node.removeChildNode keyChar) := by
  have hkept : ∀ other son, (node.removeChildNode keyChar).children other = some son →
      node.children other = some son := by
    intro other son hson
    by_cases hsame : other = keyChar
    · simp [TrieNode.removeChildNode, hsame] at hson
    · simpa only [TrieNode.removeChildNode, update_of_ne hsame] using hson
  exact .intro h.isEnd (fun other son hson => h.alive_child (hkept other son hson))
    (fun other son hson => h.of_child (hkept other son hson))

theorem Trimmed.exists_stored (h : Trimmed node) (halive : Alive node) :
    ∃ key, (contents node key).isSome := by
  -- induction on the trie: a child that leads to a stored key is found below the node
  induction h with
  | intro _ hbelow _ ih =>
    rcases halive with hchildren | hvalue
    · obtain ⟨keyChar, child, hchild⟩ := hasChildren_iff.mp hchildren
      obtain ⟨key, hkey⟩ := ih keyChar child hchild (hbelow keyChar child hchild)
      exact ⟨keyChar :: key, by rwa [contents_cons_of_child hchild]⟩
    · exact ⟨[], hvalue⟩

theorem Trimmed.of_walk {last : TrieNode Value} (h : Trimmed node)
    (hwalk : walk key node = some last) (hkey : key ≠ []) : Trimmed last ∧ Alive last := by
  induction key generalizing node with
  | nil => exact absurd rfl hkey
  | cons keyChar rest ih =>
    obtain ⟨child, hchild, _⟩ := exists_child_of_walk (Option.isSome_of_eq_some hwalk)
    simp only [walk, TrieNode.getChildNode, hchild, Option.bind_some] at hwalk
    by_cases hrest : rest = []
    · simp only [hrest, walk, Option.some.injEq] at hwalk
      exact hwalk ▸ ⟨h.of_child hchild, h.alive_child hchild⟩
    · exact ih (h.of_child hchild) hwalk hrest

/-- A path exists exactly when some stored key starts with it. -/
theorem Trimmed.walk_isSome_iff (h : Trimmed node) (hkey : key ≠ []) :
    (walk key node).isSome ↔ ∃ stored, (contents node stored).isSome ∧ key <+: stored := by
  constructor
  · intro hwalk
    obtain ⟨last, hlast⟩ := Option.isSome_iff_exists.mp hwalk
    obtain ⟨htrimmed, halive⟩ := h.of_walk hlast hkey
    obtain ⟨back, hback⟩ := htrimmed.exists_stored halive
    refine ⟨key ++ back, ?_, List.prefix_append key back⟩
    rwa [contents_append, hlast, Option.bind_some]
  · rintro ⟨_, hstored, back, rfl⟩
    rw [contents_append] at hstored
    cases hwalk : walk key node with
    | none => simp [hwalk] at hstored
    | some last => rfl

/-! ## Insert -/

theorem insertBelow_cons (value : Value) (keyChar : KeyChar) (rest : Key)
    (node : TrieNode Value) :
    insertBelow value (keyChar :: rest) node =
      let result := insertBelow value rest ((node.children keyChar).getD (.new keyChar))
      (result.1, node.setChild keyChar result.2) := by
  cases hchild : node.children keyChar with
  | none =>
    simp [insertBelow, TrieNode.getChildNode, hchild, TrieNode.insertChildNode,
      TrieNode.hasChild, TrieNode.getKeyChar, TrieNode.new, TrieNode.setChild]
  | some child => simp [insertBelow, TrieNode.getChildNode, hchild]

theorem contents_getD (node : TrieNode Value) (keyChar : KeyChar) (rest : Key) :
    contents ((node.children keyChar).getD (.new keyChar)) rest =
      contents node (keyChar :: rest) := by
  cases hchild : node.children keyChar with
  | none => rw [contents_cons, hchild]; exact contents_new keyChar rest
  | some child => rw [contents_cons, hchild]; rfl

theorem Trimmed.getD (h : Trimmed node) (keyChar : KeyChar) :
    Trimmed ((node.children keyChar).getD (.new keyChar)) := by
  cases hchild : node.children keyChar with
  | none => exact trimmed_new keyChar
  | some child => exact h.of_child hchild

theorem insertBelow_of_stored (value : Value) (h : Trimmed node)
    (hstored : (contents node key).isSome) :
    (insertBelow value key node).1 = false ∧
      contents (insertBelow value key node).2 = contents node := by
  induction key generalizing node with
  | nil =>
    have hend : node.isEndNode = true := h.isEnd.trans hstored
    simp [insertBelow, hend]
  | cons keyChar rest ih =>
    rw [← contents_getD] at hstored
    obtain ⟨hrefused, hsame⟩ := ih (h.getD keyChar) hstored
    rw [insertBelow_cons]
    refine ⟨hrefused, funext fun query => ?_⟩
    cases query with
    | nil => rfl
    | cons other tail =>
      by_cases hother : other = keyChar
      · rw [hother, contents_setChild_same, hsame, contents_getD]
      · exact contents_setChild_ne hother _ _ tail

theorem insertBelow_of_not_stored (value : Value) (h : Trimmed node)
    (hstored : contents node key = none) :
    (insertBelow value key node).1 = true ∧
      contents (insertBelow value key node).2 =
        update (contents node) key (some value) := by
  induction key generalizing node with
  | nil =>
    have hend : node.isEndNode = false := by
      rw [TrieNode.isEndNode, h.isEnd, Option.isSome_eq_false_iff, Option.isNone_iff_eq_none]
      exact hstored
    refine ⟨by simp [insertBelow, hend], funext fun query => ?_⟩
    cases query with
    | nil => simp [insertBelow, hend, TrieNode.withValue]
    | cons other tail => simp [insertBelow, hend, TrieNode.withValue, contents_cons]
  | cons keyChar rest ih =>
    rw [← contents_getD] at hstored
    obtain ⟨hdone, hadded⟩ := ih (h.getD keyChar) hstored
    rw [insertBelow_cons]
    refine ⟨hdone, funext fun query => ?_⟩
    cases query with
    | nil => simp
    | cons other tail =>
      by_cases hother : other = keyChar
      · subst hother
        rw [contents_setChild_same, hadded]
        by_cases htail : tail = rest
        · simp [htail]
        · simp [contents_getD, htail]
      · rw [contents_setChild_ne hother, update_of_ne (by simp [hother])]

theorem table_getD {query : Key} (hquery : query ≠ []) :
    table ((node.children keyChar).getD (.new keyChar)) query = table node (keyChar :: query) := by
  cases hchild : node.children keyChar with
  | some child => rw [table_cons_of_child hchild, Option.getD_some]
  | none =>
    cases query with
    | nil => exact absurd rfl hquery
    | cons first rest => rw [table_cons node, hchild, Option.getD_none]; rfl

theorem table_insertBelow (value : Value) (h : Trimmed node) (key query : Key) :
    table (insertBelow value key node).2 query =
      if query = key ∧ contents node key = none then some (some value)
      else if query <+: key then some (contents node query) else table node query := by
  induction key generalizing node query with
  | nil =>
    have hstored : node.isEndNode = (contents node []).isSome := h.isEnd
    cases query with
    | nil =>
      cases hvalue : contents node [] with
      | none => simp [insertBelow, hstored, hvalue, TrieNode.withValue]
      | some stored =>
        rw [contents_nil] at hvalue
        simp [insertBelow, hstored, hvalue]
    | cons first rest =>
      rw [if_neg fun hsame => List.cons_ne_nil _ _ hsame.1, if_neg (by simp), insertBelow]
      split_ifs
      · rfl
      · rfl
  | cons keyChar rest ih =>
    rw [insertBelow_cons]
    cases query with
    | nil => simp
    | cons first tail =>
      by_cases hfirst : first = keyChar
      · subst hfirst
        rw [table_setChild_same, ih (h.getD first), contents_getD, contents_getD]
        simp only [List.cons.injEq, true_and, List.prefix_cons_inj]
        by_cases htail : tail <+: rest
        · simp [htail]
        · have hnonempty : tail ≠ [] := by
            rintro rfl
            exact htail List.nil_prefix
          rw [table_getD hnonempty]
      · have hoff : ¬ first :: tail <+: keyChar :: rest :=
          fun hbefore => hfirst (List.cons_prefix_cons.mp hbefore).1
        rw [table_setChild_ne hfirst, if_neg hoff, if_neg]
        exact fun hsame => hfirst (List.cons.inj hsame.1).1

theorem Trimmed.insertBelow (h : Trimmed node) (value : Value) (key : Key) :
    Trimmed (Trie.insertBelow value key node).2 ∧ Alive (Trie.insertBelow value key node).2 := by
  induction key generalizing node with
  | nil =>
    cases hend : node.isEndNode with
    | true =>
      simp only [Trie.insertBelow, hend, if_true]
      exact ⟨h, .inr (h.isEnd ▸ hend)⟩
    | false =>
      simp only [Trie.insertBelow, hend, Bool.false_eq_true, if_false]
      exact ⟨.intro rfl (fun _ _ => h.alive_child) (fun _ _ => h.of_child), .inr rfl⟩
  | cons keyChar rest ih =>
    obtain ⟨htrimmed, halive⟩ := ih (h.getD keyChar)
    rw [insertBelow_cons]
    exact ⟨h.setChild htrimmed halive, .inl (hasChildren_setChild _ _ _)⟩

/-! ## The loop of Remove -/

/-- The subtree of the node is the path along the key and nothing else. -/
def Linear : Key → TrieNode Value → Prop
  | [], node => ¬ node.hasChildren = true
  | keyChar :: rest, node =>
    (∀ other, other ≠ keyChar → node.children other = none) ∧
      ∃ child, node.children keyChar = some child ∧ Linear rest child

theorem linear_cons_iff (hchild : node.children keyChar = some child) :
    Linear (keyChar :: rest) node ↔
      ¬ (node.removeChildNode keyChar).hasChildren = true ∧ Linear rest child := by
  rw [hasChildren_removeChildNode_iff, Linear]
  apply and_congr
  · simp only [not_exists, not_and, Option.eq_none_iff_forall_ne_some]
    exact forall_congr' fun other => forall_comm
  · simp [hchild]

theorem prune_cons (hchild : node.children keyChar = some child) (rest : Key) :
    prune (keyChar :: rest) node =
      if (prune rest child).2 = true ∧ ¬ (prune rest child).1.hasChildren = true then
        (node.removeChildNode keyChar, true)
      else (node.setChild keyChar (prune rest child).1, false) := by
  simp only [prune, TrieNode.getChildNode, hchild]
  rcases prune rest child with ⟨son, _ | _⟩
  · simp
  · by_cases hson : son.hasChildren = true
    · simp [hson]
    · simp [hson]

/-- The loop comes up to a node and finds it without children exactly when the subtree
was the path. -/
theorem linear_iff_prune (hwalk : (walk key node).isSome) :
    Linear key node ↔
      (prune key node).2 = true ∧ ¬ (prune key node).1.hasChildren = true := by
  induction key generalizing node with
  | nil => simp [Linear, prune]
  | cons keyChar rest ih =>
    obtain ⟨child, hchild, hrest⟩ := exists_child_of_walk hwalk
    rw [linear_cons_iff hchild, prune_cons hchild]
    -- the loop comes up to the node when the child was removed, and it finds the node
    -- without children when the child was the only one
    by_cases hlinear : Linear rest child
    · rw [if_pos ((ih hrest).mp hlinear)]
      simp [hlinear]
    · rw [if_neg fun hson => hlinear ((ih hrest).mpr hson)]
      simp [hlinear]

theorem prune_of_linear (hchild : node.children keyChar = some child)
    (hlinear : Linear rest child) (hwalk : (walk rest child).isSome) :
    (prune (keyChar :: rest) node).1 = node.removeChildNode keyChar := by
  rw [prune_cons hchild, if_pos ((linear_iff_prune hwalk).mp hlinear)]

theorem prune_of_not_linear (hchild : node.children keyChar = some child)
    (hlinear : ¬ Linear rest child) (hwalk : (walk rest child).isSome) :
    (prune (keyChar :: rest) node).1 = node.setChild keyChar (prune rest child).1 := by
  rw [prune_cons hchild, if_neg fun hson => hlinear ((linear_iff_prune hwalk).mpr hson)]

theorem prune_value (hwalk : (walk key node).isSome) : (prune key node).1.value = node.value := by
  cases key with
  | nil => rfl
  | cons keyChar rest =>
    obtain ⟨child, hchild, hrest⟩ := exists_child_of_walk hwalk
    by_cases hlinear : Linear rest child
    · rw [prune_of_linear hchild hlinear hrest, removeChildNode_value]
    · rw [prune_of_not_linear hchild hlinear hrest, setChild_value]

theorem remove_of_walk_eq_none (hwalk : walk key root = none) :
    remove root key = (false, root) := by
  rw [remove, hwalk]
  exact ite_self _

theorem remove_of_walk (hkey : key ≠ []) (hwalk : (walk key root).isSome) :
    remove root key = (true, (prune key root).1) := by
  obtain ⟨last, hlast⟩ := Option.isSome_iff_exists.mp hwalk
  rw [remove, if_neg (by simpa using hkey), hlast]

theorem Trimmed.prune (h : Trimmed node) (hwalk : (walk key node).isSome) :
    Trimmed (Trie.prune key node).1 ∧
      (Alive node → ¬ Linear key node → Alive (Trie.prune key node).1) := by
  induction key generalizing node with
  | nil => exact ⟨h, fun halive _ => halive⟩
  | cons keyChar rest ih =>
    obtain ⟨child, hchild, hrest⟩ := exists_child_of_walk hwalk
    obtain ⟨htrimmed, halive⟩ := ih (h.of_child hchild) hrest
    by_cases hlinear : Linear rest child
    · rw [prune_of_linear hchild hlinear hrest]
      refine ⟨h.removeChildNode keyChar, fun _ hnot => .inl ?_⟩
      -- the path below is linear, so the node has a child beside it
      by_contra hnone
      exact hnot ((linear_cons_iff hchild).mpr ⟨hnone, hlinear⟩)
    · rw [prune_of_not_linear hchild hlinear hrest]
      exact ⟨h.setChild htrimmed (halive (h.alive_child hchild) hlinear),
        fun _ _ => .inl (hasChildren_setChild _ _ _)⟩

/-! ## What the loop drops -/

theorem linear_iff_table (hwalk : (walk key node).isSome) :
    Linear key node ↔ ∀ path, (table node path).isSome → path <+: key := by
  induction key generalizing node with
  | nil =>
    constructor
    · intro hlinear path hpath
      cases path with
      | nil => exact List.nil_prefix
      | cons keyChar rest =>
        rw [table_isSome] at hpath
        obtain ⟨child, hchild, -⟩ := exists_child_of_walk hpath
        exact absurd (hasChildren_iff.mpr ⟨keyChar, child, hchild⟩) hlinear
    · intro hshort hchildren
      obtain ⟨keyChar, child, hchild⟩ := hasChildren_iff.mp hchildren
      have hpath : (table node [keyChar]).isSome := by rw [table_cons_of_child hchild]; rfl
      simpa using hshort _ hpath
  | cons keyChar rest ih =>
    obtain ⟨child, hchild, hrest⟩ := exists_child_of_walk hwalk
    have hbelow := ih hrest
    constructor
    · rintro ⟨honly, child', hchild', hlinear⟩ path hpath
      obtain rfl : child = child' := Option.some_injective _ (hchild.symm.trans hchild')
      cases path with
      | nil => exact List.nil_prefix
      | cons other tail =>
        by_cases hother : other = keyChar
        · subst hother
          rw [table_cons_of_child hchild] at hpath
          exact (List.prefix_cons_inj other).mpr (hbelow.mp hlinear tail hpath)
        · rw [table_cons, honly other hother] at hpath
          simp at hpath
    · intro hshort
      refine ⟨fun other hother => ?_, child, hchild, hbelow.mpr fun tail htail => ?_⟩
      · -- another child would be off the path
        by_contra hsome
        obtain ⟨son, hson⟩ := Option.ne_none_iff_exists'.mp hsome
        have hpath : (table node [other]).isSome := by rw [table_cons_of_child hson]; rfl
        exact hother (List.cons_prefix_cons.mp (hshort _ hpath)).1
      · rw [← table_cons_of_child hchild] at htail
        exact (List.cons_prefix_cons.mp (hshort _ htail)).2

/-- A key on the path to `key` such that all stored keys from there on are on that
path. -/
def Dropped (map : Key → Option Value) (key query : Key) : Prop :=
  query <+: key ∧ ∀ stored, (map stored).isSome → query <+: stored → stored <+: key

theorem dropped_cons_iff (hchild : node.children keyChar = some child) {query : Key} :
    Dropped (table node) (keyChar :: rest) (keyChar :: query) ↔
      Dropped (table child) rest query := by
  apply and_congr (List.prefix_cons_inj keyChar)
  constructor
  · intro hnode path hpath hquery
    rw [← table_cons_of_child hchild] at hpath
    exact (List.prefix_cons_inj keyChar).mp
      (hnode _ hpath ((List.prefix_cons_inj keyChar).mpr hquery))
  · rintro hnode _ hpath ⟨tail, rfl⟩
    rw [List.cons_append, table_cons_of_child hchild] at hpath
    exact (List.prefix_cons_inj keyChar).mpr (hnode _ hpath (List.prefix_append query tail))

open scoped Classical in
theorem table_prune (hwalk : (walk key node).isSome) {query : Key} (hquery : query ≠ []) :
    table (prune key node).1 query =
      if Dropped (table node) key query then none else table node query := by
  induction key generalizing node query with
  | nil => rw [if_neg fun hdropped => hquery (List.prefix_nil.mp hdropped.1)]; rfl
  | cons keyChar rest ih =>
    obtain ⟨child, hchild, hrest⟩ := exists_child_of_walk hwalk
    cases query with
    | nil => exact absurd rfl hquery
    | cons other tail =>
      by_cases hother : other = keyChar
      · subst hother
        simp only [dropped_cons_iff hchild, table_cons_of_child hchild]
        by_cases hlinear : Linear rest child
        · -- the whole subtree goes, and all paths in it are on this one
          rw [prune_of_linear hchild hlinear hrest, table_removeChildNode_same]
          have hpath := (linear_iff_table hrest).mp hlinear
          cases htable : table child tail with
          | none => simp
          | some value =>
            have htail : tail <+: rest := hpath tail (by rw [htable]; rfl)
            rw [if_pos ⟨htail, fun path hsome _ => hpath path hsome⟩]
        · rw [prune_of_not_linear hchild hlinear hrest, table_setChild_same]
          by_cases htail : tail = []
          · subst htail
            -- the child stays, with its value
            rw [table_nil, prune_value hrest, table_nil, if_neg]
            intro hdropped
            apply hlinear
            apply (linear_iff_table hrest).mpr
            exact fun path hpath => hdropped.2 path hpath List.nil_prefix
          · exact ih hrest htail
      · -- a key off the path at this node is neither dropped nor touched
        rw [if_neg fun hdropped => hother (List.cons_prefix_cons.mp hdropped.1).1]
        by_cases hlinear : Linear rest child
        · rw [prune_of_linear hchild hlinear hrest, table_removeChildNode_ne hother]
        · rw [prune_of_not_linear hchild hlinear hrest, table_setChild_ne hother]

/-- Every path of a trimmed trie goes on to a stored key, so these say which keys are dropped. -/
theorem Trimmed.dropped_iff (h : Trimmed node) {query : Key} (hquery : query ≠ []) :
    Dropped (contents node) key query ↔ Dropped (table node) key query := by
  refine and_congr_right fun _ => ⟨fun hstored path hpath hbefore => ?_,
    fun hpaths stored hstored => hpaths stored ?_⟩
  · have hpath' : path ≠ [] := by
      rintro rfl
      exact hquery (List.prefix_nil.mp hbefore)
    rw [table_isSome] at hpath
    obtain ⟨stored, hsome, hstart⟩ := (h.walk_isSome_iff hpath').mp hpath
    exact hstart.trans (hstored stored hsome (hbefore.trans hstart))
  · rw [contents_eq_join] at hstored
    cases htable : table node stored with
    | none => simp [htable] at hstored
    | some value => rfl

open scoped Classical in
theorem contents_prune (h : Trimmed node) (hwalk : (walk key node).isSome) {query : Key}
    (hquery : query ≠ []) :
    contents (prune key node).1 query =
      if Dropped (contents node) key query then none else contents node query := by
  rw [contents_eq_join, table_prune hwalk hquery, contents_eq_join node query]
  simp only [h.dropped_iff hquery]
  split_ifs
  · rfl
  · rfl

/-! ## When Remove acts as on a map -/

/-- Every other stored key on the path to `key` is also on the path to a stored key
that branches off. -/
def Spares (map : Key → Option Value) (key : Key) : Prop :=
  ∀ query, (map query).isSome → query <+: key → query ≠ key →
    ∃ stored, (map stored).isSome ∧ query <+: stored ∧ ¬ stored <+: key

/-- No stored key goes on after `key`. -/
def IsLast (map : Key → Option Value) (key : Key) : Prop :=
  ∀ stored, (map stored).isSome → key <+: stored → stored = key

theorem dropped_self_iff {map : Key → Option Value} : Dropped map key key ↔ IsLast map key := by
  constructor
  · intro hdropped stored hsome hbefore
    exact (List.IsPrefix.eq_of_length_le hbefore
      (hdropped.2 stored hsome hbefore).length_le).symm
  · intro hlast
    exact ⟨List.prefix_rfl, fun stored hsome hstart =>
      hlast stored hsome hstart ▸ List.prefix_rfl⟩

theorem spares_iff {map : Key → Option Value} :
    Spares map key ↔ ∀ query, (map query).isSome → query ≠ key → ¬ Dropped map key query := by
  constructor
  · rintro hspares query hquery hother ⟨hbefore, hpath⟩
    obtain ⟨stored, hsome, hstart, hoff⟩ := hspares query hquery hbefore hother
    exact hoff (hpath stored hsome hstart)
  · intro hkept query hquery hbefore hother
    by_contra hnone
    refine hkept query hquery hother ⟨hbefore, fun stored hsome hstart => ?_⟩
    by_contra hoff
    exact hnone ⟨stored, hsome, hstart, hoff⟩

/-- What `Remove` leaves is the map without the key exactly when no stored key goes on
after it and the other keys on its path are spared. -/
theorem contents_prune_eq_update_iff (h : Trimmed root) (hroot : root.value = none)
    (hstored : (contents root key).isSome) :
    contents (prune key root).1 = update (contents root) key none ↔
      IsLast (contents root) key ∧ Spares (contents root) key := by
  have hne : ∀ query, (contents root query).isSome → query ≠ [] := by
    rintro _ hquery rfl
    simp [hroot] at hquery
  have hwalk : (walk key root).isSome :=
    (h.walk_isSome_iff (hne key hstored)).mpr ⟨key, hstored, List.prefix_rfl⟩
  rw [← dropped_self_iff, spares_iff]
  constructor
  · intro hmap
    constructor
    · -- the key itself is gone, so it was dropped
      have hgone : contents (prune key root).1 key = none := by rw [hmap, update_self]
      rw [contents_prune h hwalk (hne key hstored)] at hgone
      by_contra hnot
      rw [if_neg hnot] at hgone
      simp [hgone] at hstored
    · -- any other stored key is still there, so it was not
      intro query hquery hother hdropped
      have hkept : contents (prune key root).1 query = contents root query := by
        rw [hmap, update_of_ne hother]
      rw [contents_prune h hwalk (hne query hquery), if_pos hdropped] at hkept
      simp [← hkept] at hquery
  · rintro ⟨hdropped, hkept⟩
    funext query
    by_cases hquery : query = key
    · subst hquery
      rw [contents_prune h hwalk (hne query hstored), if_pos hdropped, update_self]
    · rw [update_of_ne hquery]
      by_cases hempty : query = []
      · rw [hempty, contents_nil, contents_nil, prune_value hwalk]
      · rw [contents_prune h hwalk hempty]
        cases hsome : contents root query with
        | none => simp
        | some value => rw [if_neg (hkept query (by simp [hsome]) hquery)]

end Trie

/-! ## Runs -/

section Runs

variable {Ty : Type*} {Val : Ty → Type*}

/-- What the calls do on a map from non-empty keys to typed values. -/
def trieSpec [DecidableEq Ty] (map : Key → Option (Sigma Val)) :
    TrieCall Ty Val → TrieAnswer Ty Val × (Key → Option (Sigma Val))
  | .insert key value =>
    if key ≠ [] ∧ (map key).isNone then
      (.returned true, Function.update map key (some value))
    else (.returned false, map)
  | .remove key =>
    if (map key).isSome then (.returned true, Function.update map key none)
    else (.returned false, map)
  | .getValue key ty => (.got ty ((map key).bind (castTo ty)), map)

def Trie.Holds (root : TrieNode (Sigma Val)) (map : Key → Option (Sigma Val)) : Prop :=
  Trie.contents root = map

/-- A call of `Remove` that does to the trie what it does to the map: the key is empty,
or no stored key starts with it, or it is stored, no other stored key starts with it,
and every other stored key that it starts with also starts a stored key that branches
off. -/
def Removable (map : Key → Option (Sigma Val)) : TrieCall Ty Val → Prop
  | .remove key =>
    key = [] ∨ (∀ stored, (map stored).isSome → ¬ key <+: stored) ∨
      ((map key).isSome ∧ Trie.IsLast map key ∧ Trie.Spares map key)
  | _ => True

/-- The tries that the calls build, with the maps they hold. -/
structure TrieInvariant (root : TrieNode (Sigma Val)) (map : Key → Option (Sigma Val)) :
    Prop where
  holds : Trie.Holds root map
  trimmed : Trie.Trimmed root
  root_value : root.value = none

theorem TrieInvariant.create :
    TrieInvariant (Trie.create : TrieNode (Sigma Val)) (fun _ => none) where
  holds := funext fun key => Trie.contents_new 0 key
  trimmed := Trie.trimmed_new 0
  root_value := rfl

variable {root next : TrieNode (Sigma Val)} {map : Key → Option (Sigma Val)}

theorem TrieInvariant.empty_not_stored (h : TrieInvariant root map) : map [] = none := by
  rw [← h.holds, Trie.contents_nil, h.root_value]

theorem TrieInvariant.walk_isSome_iff (h : TrieInvariant root map) {key : Key} (hkey : key ≠ []) :
    (Trie.walk key root).isSome ↔ ∃ stored, (map stored).isSome ∧ key <+: stored := by
  rw [← h.holds]
  exact h.trimmed.walk_isSome_iff hkey

variable [DecidableEq Ty]

theorem TrieInvariant.insert (h : TrieInvariant root map) (key : Key) (value : Sigma Val) :
    ∃ next, trieMachine.step root (.insert key value) =
      .ok ((trieSpec map (.insert key value : TrieCall Ty Val)).1, next) ∧
      TrieInvariant next (trieSpec map (.insert key value : TrieCall Ty Val)).2 := by
  by_cases hkey : key = []
  · subst hkey
    exact ⟨root, by simp [trieMachine, Trie.insert, trieSpec], by simpa [trieSpec] using h⟩
  · have hstep : trieMachine.step root (.insert key value : TrieCall Ty Val) =
        .ok (.returned (Trie.insertBelow value key root).1,
          (Trie.insertBelow value key root).2) := by
      simp [trieMachine, Trie.insert, hkey]
    have htrimmed := (h.trimmed.insertBelow value key).1
    refine ⟨(Trie.insertBelow value key root).2, ?_⟩
    cases hstored : map key with
    | none =>
      obtain ⟨hdone, hadded⟩ :=
        Trie.insertBelow_of_not_stored value h.trimmed ((congrFun h.holds key).trans hstored)
      refine ⟨by simp [hstep, hdone, trieSpec, hkey, hstored], ?_, htrimmed, ?_⟩
      · simp [Trie.Holds, hadded, trieSpec, hkey, hstored, ← h.holds.symm]
      · rw [← Trie.contents_nil, hadded, update_of_ne (Ne.symm hkey), Trie.contents_nil,
          h.root_value]
    | some held =>
      have hsome : (Trie.contents root key).isSome := by rw [h.holds, hstored]; rfl
      obtain ⟨hrefused, hsame⟩ := Trie.insertBelow_of_stored value h.trimmed hsome
      refine ⟨by simp [hstep, hrefused, trieSpec, hstored], ?_, htrimmed, ?_⟩
      · simp [Trie.Holds, hsame, trieSpec, hstored, ← h.holds.symm]
      · rw [← Trie.contents_nil, hsame, Trie.contents_nil, h.root_value]

/-- `Remove` of a key whose path exists prunes the path and returns true. -/
theorem TrieInvariant.remove_step (h : TrieInvariant root map) {key stored : Key}
    (hkey : key ≠ []) (hstored : (map stored).isSome) (hstart : key <+: stored) :
    trieMachine.step root (.remove key : TrieCall Ty Val) =
      .ok (.returned true, (Trie.prune key root).1) := by
  have hwalk := (h.walk_isSome_iff hkey).mpr ⟨stored, hstored, hstart⟩
  simp [trieMachine, Trie.remove_of_walk hkey hwalk]

theorem TrieInvariant.remove (h : TrieInvariant root map) {key : Key}
    (hremovable : Removable map (.remove key : TrieCall Ty Val)) :
    ∃ next, trieMachine.step root (.remove key) =
      .ok ((trieSpec map (.remove key : TrieCall Ty Val)).1, next) ∧
      TrieInvariant next (trieSpec map (.remove key : TrieCall Ty Val)).2 := by
  by_cases hkey : key = []
  · subst hkey
    exact ⟨root, by simp [trieMachine, Trie.remove, trieSpec, h.empty_not_stored],
      by simpa [trieSpec, h.empty_not_stored] using h⟩
  · rcases hremovable with hempty | hnone | ⟨hstored, hlast, hspares⟩
    · exact absurd hempty hkey
    · -- the path ends before the key does
      have hwalk : Trie.walk key root = none := by
        rw [← Option.not_isSome_iff_eq_none, h.walk_isSome_iff hkey]
        rintro ⟨stored, hstored, hstart⟩
        exact hnone stored hstored hstart
      have habsent : map key = none := by
        rw [← Option.not_isSome_iff_eq_none]
        exact fun hstored => hnone key hstored List.prefix_rfl
      exact ⟨root, by simp [trieMachine, Trie.remove, hwalk, trieSpec, habsent],
        by simpa [trieSpec, habsent] using h⟩
    · have hwalk := (h.walk_isSome_iff hkey).mpr ⟨key, hstored, List.prefix_rfl⟩
      refine ⟨(Trie.prune key root).1, ?_, ?_, (h.trimmed.prune hwalk).1, ?_⟩
      · rw [h.remove_step hkey hstored List.prefix_rfl]
        simp [trieSpec, hstored]
      · rw [Trie.Holds, trieSpec, if_pos hstored, ← h.holds]
        rw [← h.holds] at hstored hlast hspares
        exact (Trie.contents_prune_eq_update_iff h.trimmed h.root_value hstored).mpr
          ⟨hlast, hspares⟩
      · rw [Trie.prune_value hwalk, h.root_value]

theorem TrieInvariant.keeps (h : TrieInvariant root map) {call : TrieCall Ty Val}
    (hremovable : Removable map call) :
    ∃ next, trieMachine.step root call = .ok ((trieSpec map call).1, next) ∧
      TrieInvariant next (trieSpec map call).2 := by
  cases call with
  | insert key value => exact h.insert key value
  | remove key => exact h.remove hremovable
  | getValue key ty =>
    refine ⟨root, ?_, h⟩
    have hvalue : map key = Trie.contents root key := congrFun h.holds.symm key
    simp [trieMachine, trieSpec, hvalue, Trie.getValue, Trie.contents, Option.bind_assoc]

/-- A `Remove` that does not meet the condition answers unlike the map, or leaves a trie
that holds another map. -/
theorem TrieInvariant.breaks (h : TrieInvariant root map) {call : TrieCall Ty Val}
    (hremovable : ¬ Removable map call)
    (hstep : trieMachine.step root call = .ok ((trieSpec map call).1, next)) :
    ¬ Trie.Holds next (trieSpec map call).2 := by
  cases call with
  | insert key value => exact absurd trivial hremovable
  | getValue key ty => exact absurd trivial hremovable
  | remove key =>
    simp only [Removable, not_or, not_forall, not_not] at hremovable
    obtain ⟨hkey, ⟨stored, hstored, hstart⟩, hunsafe⟩ := hremovable
    rw [h.remove_step hkey hstored hstart] at hstep
    by_cases hthere : (map key).isSome
    · rw [trieSpec, if_pos hthere] at hstep ⊢
      simp only [Except.ok.injEq, Prod.mk.injEq, true_and] at hstep
      intro hholds
      rw [← h.holds] at hthere hunsafe
      rw [Trie.Holds, ← hstep, ← h.holds,
        Trie.contents_prune_eq_update_iff h.trimmed h.root_value hthere] at hholds
      exact hunsafe ⟨hthere, hholds⟩
    · -- a path that is not a key: true where the map says false
      rw [trieSpec, if_neg hthere] at hstep
      simp at hstep

/-- **The trie and the map.**  A run on a fresh trie answers like the map and holds it
after every call exactly when all its `Remove` calls are `Removable`. -/
theorem trie_conforms_iff (calls : List (TrieCall Ty Val)) :
    trieMachine.Conforms Trie.Holds trieSpec Trie.create (fun _ => none) calls ↔
      Machine.SpecAlong trieSpec Removable (fun _ => none) calls :=
  Machine.conforms_iff_specAlong (fun _ _ h => h.holds) (fun _ _ _ h => h.keeps)
    (fun _ _ _ _ h => h.breaks) TrieInvariant.create calls

end Runs

/-- Removing `"ab"` loses `"a"`. -/
theorem trie_not_conforms :
    ¬ trieMachine.Conforms Trie.Holds trieSpec Trie.create (fun _ => none)
      ([.insert [97] ⟨(), 1⟩, .insert [97, 98] ⟨(), 2⟩, .remove [97, 98]] :
        List (TrieCall Unit fun _ => ℕ)) := by
  rintro ⟨_, first, hfirst, _, second, hsecond, _, third, hthird, hholds⟩
  simp only [trieMachine, Except.ok.injEq, Prod.mk.injEq] at hfirst hsecond hthird
  obtain ⟨⟨_, rfl⟩, ⟨_, rfl⟩, ⟨_, rfl⟩⟩ := And.intro hfirst (And.intro hsecond hthird)
  have hlost := congrFun hholds [97]
  revert hlost
  decide +kernel

end BusTub

import BusTub.Library.Machine
import Mathlib.Data.Fintype.Basic
import Mathlib.Logic.Function.Basic

/-!
# The trie

Model of `primer/p0_trie.h`.  A `unique_ptr<TrieNode>` owns its node, so a trie is a
tree and a call that changes a node through a pointer is a call that returns the tree
with the node changed.  `children_` is an `unordered_map` from characters to nodes, of
which the code only looks up, inserts and erases single entries and asks whether it is
empty; it is a partial function here.

`TrieNode` and `TrieNodeWithValue<T>` are one type: the value is there in the second.
A value carries its type, which is what `dynamic_cast` looks at.
-/

namespace BusTub

open Machines

/-- `char`, by its code. -/
abbrev KeyChar := Fin 256

/-- `std::string`. -/
abbrev Key := List KeyChar

/-- `TrieNode`, and `TrieNodeWithValue<T>` when `value` is there. -/
structure TrieNode (Value : Type*) where
  keyChar : KeyChar
  isEnd : Bool
  value : Option Value
  children : KeyChar → Option (TrieNode Value)

namespace TrieNode

variable {Value : Type*}

/-- `TrieNode::TrieNode(char)`. -/
def new (keyChar : KeyChar) : TrieNode Value := ⟨keyChar, false, none, fun _ => none⟩

/-- `TrieNodeWithValue::TrieNodeWithValue(TrieNode &&, T)`: the node keeps its
character and its children. -/
def withValue (node : TrieNode Value) (value : Value) : TrieNode Value :=
  ⟨node.keyChar, true, some value, node.children⟩

/-- `HasChild`. -/
def hasChild (node : TrieNode Value) (keyChar : KeyChar) : Bool := (node.children keyChar).isSome

/-- `HasChildren`. -/
def hasChildren (node : TrieNode Value) : Bool := decide (∃ keyChar, node.hasChild keyChar)

/-- `IsEndNode`. -/
def isEndNode (node : TrieNode Value) : Bool := node.isEnd

/-- `GetKeyChar`. -/
def getKeyChar (node : TrieNode Value) : KeyChar := node.keyChar

def setChild (node : TrieNode Value) (keyChar : KeyChar) (child : TrieNode Value) :
    TrieNode Value :=
  { node with children := Function.update node.children keyChar (some child) }

/-- `InsertChildNode`: nothing is inserted if the child exists or is for another
character. -/
def insertChildNode (node : TrieNode Value) (keyChar : KeyChar) (child : TrieNode Value) :
    TrieNode Value :=
  if ¬ node.hasChild keyChar ∧ keyChar = child.getKeyChar then node.setChild keyChar child
  else node

/-- `GetChildNode`. -/
def getChildNode (node : TrieNode Value) (keyChar : KeyChar) : Option (TrieNode Value) :=
  node.children keyChar

/-- `RemoveChildNode`. -/
def removeChildNode (node : TrieNode Value) (keyChar : KeyChar) : TrieNode Value :=
  { node with children := Function.update node.children keyChar none }

end TrieNode

/-! ## The trie -/

namespace Trie

variable {Value : Type*}

/-- `Trie::Trie`: the root. -/
def create : TrieNode Value := .new 0

/-- `Trie::Insert` below a node: the missing nodes of the path are created on the way
down, and the last node gets the value unless it has one. -/
def insertBelow (value : Value) : Key → TrieNode Value → Bool × TrieNode Value
  | [], node => if node.isEndNode then (false, node) else (true, node.withValue value)
  | keyChar :: rest, node =>
    match node.getChildNode keyChar with
    | some child =>
      let (inserted, child) := insertBelow value rest child
      (inserted, node.setChild keyChar child)
    | none =>
      let (inserted, child) := insertBelow value rest (.new keyChar)
      (inserted, (node.insertChildNode keyChar (.new keyChar)).setChild keyChar child)

/-- `Trie::Insert`. -/
def insert (root : TrieNode Value) (key : Key) (value : Value) : Bool × TrieNode Value :=
  if key.isEmpty then (false, root) else insertBelow value key root

/-- The node a walk along the key ends at, if every step has a child. -/
def walk : Key → TrieNode Value → Option (TrieNode Value)
  | [], node => some node
  | keyChar :: rest, node => (node.getChildNode keyChar).bind (walk rest)

/-- The `while` loop of `Trie::Remove` over the nodes of the path, last node first: a
node without children is removed from its father, whatever else it may be, and the
loop goes on with the father; otherwise it stops.  The flag says that the loop has
come up to this node. -/
def prune : Key → TrieNode Value → TrieNode Value × Bool
  | [], node => (node, true)
  | keyChar :: rest, node =>
    match node.getChildNode keyChar with
    | none => (node, false)
    | some child =>
      match prune rest child with
      | (son, true) =>
        -- whether the son ends another key is not asked
        if son.hasChildren then (node.setChild keyChar son, false)
        else (node.removeChildNode keyChar, true)
      | (son, false) => (node.setChild keyChar son, false)

/-- `Trie::Remove`. -/
def remove (root : TrieNode Value) (key : Key) : Bool × TrieNode Value :=
  if key.isEmpty then (false, root)
  else
    match walk key root with
    | none => (false, root)
    -- nor is it asked whether the key ends at the node that was found
    | some _ => (true, (prune key root).1)

end Trie

/-! ## Typed values -/

section Typed

variable {Ty : Type*} [DecidableEq Ty] {Val : Ty → Type*}

/-- The value as a value of type `ty`, if that is its type. -/
def castTo (ty : Ty) (value : Sigma Val) : Option (Val ty) :=
  if h : value.1 = ty then some (h ▸ value.2) else none

/-- `Trie::GetValue<T>`: the value, when `*success` is set.  A node without a value is
a plain `TrieNode`, on which the cast fails. -/
def Trie.getValue (root : TrieNode (Sigma Val)) (key : Key) (ty : Ty) : Option (Val ty) :=
  (Trie.walk key root).bind fun node => node.value.bind (castTo ty)

inductive TrieCall (Ty : Type*) (Val : Ty → Type*)
  | insert (key : Key) (value : Sigma Val)
  | remove (key : Key)
  | getValue (key : Key) (ty : Ty)

inductive TrieAnswer (Ty : Type*) (Val : Ty → Type*)
  | returned (success : Bool)
  | got (ty : Ty) (value : Option (Val ty))

def trieMachine : Machine (TrieNode (Sigma Val)) (TrieCall Ty Val) (TrieAnswer Ty Val) Empty where
  step root
    | .insert key value =>
      let (inserted, next) := Trie.insert root key value
      .ok (.returned inserted, next)
    | .remove key =>
      let (removed, next) := Trie.remove root key
      .ok (.returned removed, next)
    | .getValue key ty => .ok (.got ty (Trie.getValue root key ty), root)

end Typed

end BusTub

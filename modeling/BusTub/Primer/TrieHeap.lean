import BusTub.Library.ObjectHeap
import BusTub.Primer.TrieMap

/-!
# The trie on the heap

The code of `primer/p0_trie.h` once more, section by section, with the pointers that it keeps.  A
`unique_ptr<TrieNode> *` is the address of a slot: of `root_`, or of an entry of a `children_` map,
which stays where it is when the map is rehashed or moved.  A slot owns a node, which is an object
of its own: when `Insert` gives a node its value, the node is moved to a new object and the slot
stays.  Following a null pointer or a pointer to what was freed is a fault.  Addresses are not used
again, so that a freed object is never mistaken for a later one.
-/

namespace BusTub

open ObjectHeap

/-! ## Objects -/

/-- A `TrieNode`: its children are slots. -/
structure NodeObject (Value : Type) where
  keyChar : KeyChar
  isEnd : Bool
  value : Option Value
  children : KeyChar → Option ℕ

namespace NodeObject

variable {Value : Type}

/-- `TrieNode::TrieNode(char)`. -/
def new (keyChar : KeyChar) : NodeObject Value := ⟨keyChar, false, none, fun _ => none⟩

/-- `TrieNodeWithValue::TrieNodeWithValue(TrieNode &&, T)`. -/
def withValue (node : NodeObject Value) (value : Value) : NodeObject Value :=
  ⟨node.keyChar, true, some value, node.children⟩

/-- `HasChild`. -/
def hasChild (node : NodeObject Value) (keyChar : KeyChar) : Bool := (node.children keyChar).isSome

/-- `HasChildren`. -/
def hasChildren (node : NodeObject Value) : Bool := decide (∃ keyChar, node.hasChild keyChar)

def setChild (node : NodeObject Value) (keyChar : KeyChar) (child : Option ℕ) : NodeObject Value :=
  { node with children := Function.update node.children keyChar child }

end NodeObject

/-- A null pointer or one to a freed object is followed. -/
inductive TrieFault
  | invalidPointer
deriving DecidableEq

def follow {Object : Type} : Option Object → Except TrieFault Object
  | none => .error .invalidPointer
  | some object => .ok object

/-- The slots, each with the address of its node, and the nodes. -/
structure TrieHeap (Value : Type) where
  slots : Heap ℕ
  nodes : Heap (NodeObject Value)

/-- `&root_`. -/
def rootSlot : ℕ := 0

def rootChar : KeyChar := ⟨0, by decide⟩

namespace TrieHeap

variable {Value : Type}

/-- `Trie::Trie`. -/
def create : TrieHeap Value := ⟨(Heap.empty.alloc 0).2, (Heap.empty.alloc (.new rootChar)).2⟩

/-- `p->get()`. -/
def pointer (heap : TrieHeap Value) (p : ℕ) : Except TrieFault ℕ := follow (heap.slots.get? p)

def object (heap : TrieHeap Value) (node : ℕ) : Except TrieFault (NodeObject Value) :=
  follow (heap.nodes.get? node)

/-- `**p`. -/
def deref (heap : TrieHeap Value) (p : ℕ) : Except TrieFault (NodeObject Value) := do
  let node ← heap.pointer p
  heap.object node

/-! ## Insert -/

/-- `(*p)->InsertChildNode(key_char, child)`, with a node that `child` owns. -/
def insertChildNode (heap : TrieHeap Value) (p : ℕ) (keyChar : KeyChar) (child : ℕ) :
    Except TrieFault (TrieHeap Value) := do
  let node ← heap.pointer p
  let father ← heap.object node
  let son ← heap.object child
  if ¬ father.hasChild keyChar ∧ keyChar = son.keyChar then
    let (slot, slots) := heap.slots.alloc child
    .ok ⟨slots, heap.nodes.modify node (·.setChild keyChar (some slot))⟩
  else
    -- nobody takes the node from `child`
    .ok { heap with nodes := heap.nodes.free child }

/-- The body of the loop of `Insert`, up to the next `p`: a missing child is created. -/
def addMissing (heap : TrieHeap Value) (p : ℕ) (keyChar : KeyChar) :
    Except TrieFault (TrieHeap Value) := do
  let node ← heap.deref p
  match node.children keyChar with
  | some _ => .ok heap
  | none =>
    let (child, nodes) := heap.nodes.alloc (.new keyChar)
    { heap with nodes := nodes }.insertChildNode p keyChar child

/-- The loop of `Insert`: the slot at the end of the key. -/
def insertPath : TrieHeap Value → Key → ℕ → Except TrieFault (ℕ × TrieHeap Value)
  | heap, [], p => .ok (p, heap)
  | heap, keyChar :: rest, p => do
      let heap ← heap.addMissing p keyChar
      let node ← heap.deref p
      let child ← follow (node.children keyChar)
      insertPath heap rest child

/-- The end of `Insert`: a node that is no end is moved to a new one with the value. -/
def setValue (heap : TrieHeap Value) (p : ℕ) (value : Value) :
    Except TrieFault (Bool × TrieHeap Value) := do
  let node ← heap.pointer p
  let object ← heap.object node
  if object.isEnd then .ok (false, heap)
  else
    let (moved, nodes) := heap.nodes.alloc (object.withValue value)
    .ok (true, ⟨heap.slots.modify p fun _ => moved, nodes.free node⟩)

/-- `Trie::Insert`, its section under the write latch. -/
def insert (heap : TrieHeap Value) (key : Key) (value : Value) :
    Except TrieFault (Bool × TrieHeap Value) :=
  if key.isEmpty then .ok (false, heap)
  else do
    let (p, heap) ← heap.insertPath key rootSlot
    heap.setValue p value

/-! ## Remove -/

/-- The loop of `Remove` under the read latch: the slots of the path, the last one first, or
nothing if the path does not exist. -/
def collect (heap : TrieHeap Value) : Key → ℕ → List ℕ → Except TrieFault (Option (List ℕ))
  | [], _, v => .ok (some v)
  | keyChar :: rest, p, v => do
      let node ← heap.deref p
      match node.children keyChar with
      | none => .ok none
      | some child => collect heap rest child (child :: v)

/-- A `unique_ptr` is destroyed, with the node it owns and all below.  No path is longer than the
number of slots. -/
def destroy : ℕ → TrieHeap Value → ℕ → TrieHeap Value
  | 0, heap, _ => heap
  | depth + 1, heap, slot =>
    match heap.slots.get? slot with
    | none => heap
    | some node =>
      let below : TrieHeap Value := (List.finRange 256).foldl
        (fun heap keyChar =>
          match (heap.nodes.get? node).bind (·.children keyChar) with
          | none => heap
          | some child => destroy depth heap child) heap
      ⟨below.slots.free slot, below.nodes.free node⟩

/-- `(*father)->RemoveChildNode(key_char)`. -/
def removeChildNode (heap : TrieHeap Value) (father : ℕ) (keyChar : KeyChar) :
    Except TrieFault (TrieHeap Value) := do
  let node ← heap.pointer father
  let object ← heap.object node
  match object.children keyChar with
  | none => .ok heap
  | some slot =>
    let erased := destroy heap.slots.next heap slot
    .ok { erased with nodes := erased.nodes.modify node (·.setChild keyChar none) }

/-- The loop of `Remove` under the write latch, with the characters and the slots of the path that
are left, the last one first. -/
def unlink : TrieHeap Value → List KeyChar → List ℕ → Except TrieFault (TrieHeap Value)
  | heap, keyChar :: chars, son :: father :: v => do
      let node ← heap.deref son
      if node.hasChildren then .ok heap
      else do
        let heap ← heap.removeChildNode father keyChar
        unlink heap chars (father :: v)
  | heap, _, _ => .ok heap

/-! ## GetValue -/

/-- The loop of `GetValue`: the slot at the end of the key, if the path exists. -/
def find (heap : TrieHeap Value) : Key → ℕ → Except TrieFault (Option ℕ)
  | [], p => .ok (some p)
  | keyChar :: rest, p => do
      let node ← heap.deref p
      match node.children keyChar with
      | none => .ok none
      | some child => find heap rest child

def valueAt (heap : TrieHeap Value) (key : Key) : Except TrieFault (Option (Option Value)) := do
  match ← heap.find key rootSlot with
  | none => .ok none
  | some p =>
    let node ← heap.deref p
    .ok (some node.value)

section Typed

variable {Ty : Type} [DecidableEq Ty] {Val : Ty → Type}

/-- `dynamic_cast<TrieNodeWithValue<T> *>(p->get())`. -/
def castNode (heap : TrieHeap (Sigma Val)) (ty : Ty) (p : ℕ) : Except TrieFault (Option ℕ) := do
  let node ← heap.pointer p
  let object ← heap.object node
  .ok (if (object.value.bind (castTo ty)).isSome then some node else none)

/-- `res->GetValue()`. -/
def getValue (heap : TrieHeap (Sigma Val)) (ty : Ty) (res : ℕ) :
    Except TrieFault (Option (Val ty)) := do
  let object ← heap.object res
  .ok (object.value.bind (castTo ty))

end Typed

end TrieHeap

end BusTub

import BusTub.Common.Config
import BusTub.Library.LinkedHeap
import BusTub.Library.Machine

/-!
# The LRU-K replacer

Model of `buffer/lru_k_replacer.cpp`.  The two lists are the hand-written doubly
linked lists of the source: the pointers `pre_` and `nex_` of all nodes are the
heap `links`, and the nodes are the four sentinels and the frames.  A frame's node
is owned by `mp_`, which has at most one node for a frame id, so a node is named by
its frame id; erasing it from `mp_` destroys it.

`Evict` and `RecordAccess` walk the lists through weak pointers, so a list in
disorder would make them dereference an expired pointer or never end.  The model
keeps these outcomes as faults.  A call that throws returns to its caller and is
an answer.
-/

namespace BusTub

open LinkedHeap Machines

inductive NodePtr
  | lruHead
  | lruTail
  | historyHead
  | historyTail
  | frame (frameId : FrameId)
deriving DecidableEq

/-- `LRUKReplacer::Frame`, apart from its two pointers. -/
structure Frame where
  timestamps : List ℕ := []
  recordCnt : ℕ := 0
  evictable : Bool := true
deriving DecidableEq

/-- How a call on the replacer can fail to return. -/
inductive ReplacerFault
  /-- A weak pointer that has expired, or a walk that does not end. -/
  | badPointer
  /-- `RecordAccess` calls `Evict`, which locks the latch its caller holds. -/
  | deadlock
deriving DecidableEq

/-- `LRUKReplacer`. -/
structure LRUKReplacer where
  currentTimestamp : ℕ
  currSize : ℕ
  replacerSize : ℕ
  k : ℕ
  links : Links NodePtr
  totSize : ℕ
  mp : FrameId → Option Frame

namespace LRUKReplacer

/-- The pointers the constructor sets: both lists are empty. -/
def initialLinks : Links NodePtr where
  pre
    | .lruTail => some .lruHead
    | .historyTail => some .historyHead
    | _ => none
  nex
    | .lruHead => some .lruTail
    | .historyHead => some .historyTail
    | _ => none

/-- `LRUKReplacer::LRUKReplacer`. -/
def create (numFrames k : ℕ) : LRUKReplacer where
  currentTimestamp := 0
  currSize := 0
  replacerSize := numFrames
  k := k
  links := initialLinks
  totSize := 0
  mp := fun _ => none

/-- `LRUKReplacer::Size`. -/
def size (replacer : LRUKReplacer) : ℕ := replacer.currSize

/-- `LRUKReplacer::RemoveFromList`. -/
def removeFromList (links : Links NodePtr) (node : NodePtr) :
    Except ReplacerFault (Links NodePtr) :=
  match links.unlink node with
  | some links => .ok links
  | none => .error .badPointer

/-- `LRUKReplacer::InsertToListHead`. -/
def insertToListHead (links : Links NodePtr) (node head : NodePtr) :
    Except ReplacerFault (Links NodePtr) :=
  match links.linkAfter head node with
  | some links => .ok links
  | none => .error .badPointer

/-- `p->evictable_`.  A sentinel keeps the default `true`. -/
def isEvictable (replacer : LRUKReplacer) : NodePtr → Bool
  | .frame frameId => (replacer.mp frameId).any Frame.evictable
  | _ => true

/-- One of the two search loops of `Evict`: from the tail toward the head, the
first evictable node. -/
def searchEvictable (replacer : LRUKReplacer) (head tail : NodePtr) : Option (Option NodePtr) :=
  replacer.links.searchBack replacer.isEvictable head (replacer.totSize + 1)
    (replacer.links.pre tail)

/-- Stop tracking a frame: unlink its node and erase it from `mp_`.  Shared by
`Evict` and `Remove`. -/
def eraseFrame (replacer : LRUKReplacer) (frameId : FrameId) :
    Except ReplacerFault LRUKReplacer := do
  let links ← removeFromList replacer.links (.frame frameId)
  return { replacer with
    links := links
    mp := Function.update replacer.mp frameId none
    totSize := replacer.totSize - 1
    currSize := replacer.currSize - 1 }

/-- `LRUKReplacer::Evict`: the history list is searched before the LRU list. -/
def evict (replacer : LRUKReplacer) : Except ReplacerFault (Option FrameId × LRUKReplacer) :=
  if replacer.size = 0 then .ok (none, replacer)
  else
    match replacer.searchEvictable .historyHead .historyTail with
    | some (some (.frame frameId)) => do return (some frameId, ← replacer.eraseFrame frameId)
    | some none =>
      -- no frame of the history list may be evicted
      match replacer.searchEvictable .lruHead .lruTail with
      | some (some (.frame frameId)) => do return (some frameId, ← replacer.eraseFrame frameId)
      | some none => .ok (none, replacer)
      | _ => .error .badPointer
    | _ => .error .badPointer

/-- The timestamps of a frame after an access: at most the last `k` are kept. -/
def pushTimestamp (k : ℕ) (timestamps : List ℕ) (timestamp : ℕ) : List ℕ :=
  (if timestamps.length = k then timestamps.tail else timestamps) ++ [timestamp]

/-- The frame after an access at `timestamp`; a frame not in `mp_` is created first. -/
def accessedFrame (replacer : LRUKReplacer) (frameId : FrameId) (timestamp : ℕ) : Frame :=
  let frame := (replacer.mp frameId).getD {}
  { frame with
    timestamps := pushTimestamp replacer.k frame.timestamps timestamp
    recordCnt := frame.recordCnt + 1 }

/-- The pointers once the frame has a node: a new node has no neighbours. -/
def nodeLinks (replacer : LRUKReplacer) (frameId : FrameId) : Links NodePtr :=
  if (replacer.mp frameId).isNone then
    (replacer.links.setPre (.frame frameId) none).setNex (.frame frameId) none
  else replacer.links

/-- The `record_cnt_ == 1` branch of `RecordAccess`, with the number of frames it
adds to the lists. -/
def admitFrame (replacer : LRUKReplacer) (links : Links NodePtr) (frameId : FrameId)
    (recordCnt : ℕ) : Except ReplacerFault (Links NodePtr × ℕ) :=
  if recordCnt = 1 then
    -- `Evict` locks `latch_`, which this call holds
    if replacer.totSize = replacer.replacerSize then .error .deadlock
    else do
      let links ← insertToListHead links (.frame frameId) .historyHead
      return (links, 1)
  else .ok (links, 0)

/-- The `record_cnt_ >= k_` branch of `RecordAccess`. -/
def promoteFrame (k : ℕ) (links : Links NodePtr) (frameId : FrameId) (recordCnt : ℕ) :
    Except ReplacerFault (Links NodePtr) :=
  if k ≤ recordCnt then do
    let links ← removeFromList links (.frame frameId)
    insertToListHead links (.frame frameId) .lruHead
  else .ok links

/-- `LRUKReplacer::RecordAccess`.  `false` when the call throws. -/
def recordAccess (replacer : LRUKReplacer) (frameId : FrameId) :
    Except ReplacerFault (Bool × LRUKReplacer) :=
  -- a frame id equal to `replacer_size_` passes this check
  if frameId > replacer.replacerSize then .ok (false, replacer)
  else do
    let timestamp := replacer.currentTimestamp + 1
    let frame := replacer.accessedFrame frameId timestamp
    let (links, added) ← replacer.admitFrame (replacer.nodeLinks frameId) frameId frame.recordCnt
    let links ← promoteFrame replacer.k links frameId frame.recordCnt
    return (true, { replacer with
      currentTimestamp := timestamp
      mp := Function.update replacer.mp frameId (some frame)
      links := links
      currSize := replacer.currSize + added
      totSize := replacer.totSize + added })

/-- `LRUKReplacer::SetEvictable`. -/
def setEvictable (replacer : LRUKReplacer) (frameId : FrameId) (setEvictable : Bool) :
    LRUKReplacer :=
  match replacer.mp frameId with
  | none => replacer
  | some frame =>
    if frame.evictable = setEvictable then replacer
    else
      { replacer with
        currSize := if setEvictable then replacer.currSize + 1 else replacer.currSize - 1
        mp := Function.update replacer.mp frameId
          (some { frame with evictable := setEvictable }) }

/-- `LRUKReplacer::Remove`.  `false` when the call throws. -/
def remove (replacer : LRUKReplacer) (frameId : FrameId) :
    Except ReplacerFault (Bool × LRUKReplacer) :=
  match replacer.mp frameId with
  | none => .ok (true, replacer)
  | some frame =>
    if frame.evictable = false then .ok (false, replacer)
    else do return (true, ← replacer.eraseFrame frameId)

/-- `frameId` is tracked, that is it has a node in `mp_`. -/
def Tracked (replacer : LRUKReplacer) (frameId : FrameId) : Prop :=
  (replacer.mp frameId).isSome

def evictableFlag (replacer : LRUKReplacer) (frameId : FrameId) : Option Bool :=
  (replacer.mp frameId).map Frame.evictable

end LRUKReplacer

/-! ## Calls -/

inductive ReplacerCall
  | recordAccess (frameId : FrameId)
  | setEvictable (frameId : FrameId) (setEvictable : Bool)
  | remove (frameId : FrameId)
  | evict
deriving DecidableEq

inductive ReplacerAnswer
  | done
  | threw
  | evicted (frameId : Option FrameId)
deriving DecidableEq

/-- The answer of a call that either returns nothing or throws. -/
def ReplacerAnswer.ofReturned (returned : Bool) : ReplacerAnswer :=
  if returned then .done else .threw

def replacerMachine : Machine LRUKReplacer ReplacerCall ReplacerAnswer ReplacerFault where
  step replacer
    | .recordAccess frameId => do
        let (returned, next) ← replacer.recordAccess frameId
        return (.ofReturned returned, next)
    | .setEvictable frameId flag => .ok (.done, replacer.setEvictable frameId flag)
    | .remove frameId => do
        let (returned, next) ← replacer.remove frameId
        return (.ofReturned returned, next)
    | .evict => do
        let (frameId, next) ← replacer.evict
        return (.evicted frameId, next)

end BusTub

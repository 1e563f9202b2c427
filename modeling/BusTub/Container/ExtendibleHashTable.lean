import BusTub.Library.Machine
import BusTub.Container.Bucket

/-!
# The extendible hash table

Model of `container/hash/extendible_hash_table.cpp`.  A `shared_ptr<Bucket>` is
an address into `buckets`, so comparing two directory entries compares pointers
as the source does; `new Bucket` takes the next unused address.

The hash function is a parameter of every operation that reads it, as
`std::hash<K>` is.  `Insert` loops until the bucket takes the pair.  In the model
the loop stops with a fault where the source leaves the integers it computes
with: `1 << global_depth_` overflows `int` at depth `31`.
-/

namespace BusTub

open Machines

variable {K V : Type*} [DecidableEq K]

/-! ## The table -/

/-- `ExtendibleHashTable`.  `buckets` is the heap of buckets and `nextBucket`
the first address `new` has not handed out. -/
structure ExtendibleHashTable (K V : Type*) where
  globalDepth : ℕ
  bucketSize : ℕ
  numBuckets : ℕ
  dir : List ℕ
  buckets : ℕ → Bucket K V
  nextBucket : ℕ

/-- How `Insert` can fail to return. -/
inductive HashFault
  /-- `global_depth_` would become `31`, where `1 << global_depth_` overflows. -/
  | directoryOverflow
  /-- The model's loop bound was reached. -/
  | outOfFuel
deriving DecidableEq

namespace ExtendibleHashTable

/-- `ExtendibleHashTable::ExtendibleHashTable`. -/
def create (bucketSize : ℕ) : ExtendibleHashTable K V where
  globalDepth := 0
  bucketSize := bucketSize
  numBuckets := 1
  dir := [0]
  buckets := fun _ => ⟨bucketSize, 0, []⟩
  nextBucket := 1

/-- `dir_[index]`. -/
def slot (table : ExtendibleHashTable K V) (index : ℕ) : ℕ := table.dir.getD index 0

/-- `ExtendibleHashTable::IndexOf`: the low `global_depth_` bits of the hash. -/
def indexOf (table : ExtendibleHashTable K V) (hash : K → ℕ) (key : K) : ℕ :=
  hash key &&& ((1 <<< table.globalDepth) - 1)

def bucketOf (table : ExtendibleHashTable K V) (hash : K → ℕ) (key : K) : ℕ :=
  table.slot (table.indexOf hash key)

/-- `GetLocalDepth`. -/
def getLocalDepth (table : ExtendibleHashTable K V) (dirIndex : ℕ) : ℕ :=
  (table.buckets (table.slot dirIndex)).depth

def setBucket (table : ExtendibleHashTable K V) (address : ℕ) (bucket : Bucket K V) :
    ExtendibleHashTable K V :=
  { table with buckets := Function.update table.buckets address bucket }

/-- `ExtendibleHashTable::Find`. -/
def find (table : ExtendibleHashTable K V) (hash : K → ℕ) (key : K) : Option V :=
  (table.buckets (table.bucketOf hash key)).find key

/-- `ExtendibleHashTable::Remove`. -/
def remove (table : ExtendibleHashTable K V) (hash : K → ℕ) (key : K) :
    Bool × ExtendibleHashTable K V :=
  let address := table.bucketOf hash key
  let (removed, bucket) := (table.buckets address).remove key
  (removed, table.setBucket address bucket)

/-- The first loop of `RedistributeBucket`: the directory entries of `bucket`
whose bit `checkpos` is set now point to `newBucket`. -/
def redirect (table : ExtendibleHashTable K V) (bucket newBucket checkpos : ℕ) : List ℕ :=
  table.dir.mapIdx fun i entry =>
    if i < 1 <<< table.globalDepth ∧ entry = bucket ∧ (i >>> checkpos) &&& 1 = 1 then newBucket
    else entry

/-- The second loop of `RedistributeBucket`: a pair whose hash now selects
another bucket is moved there. -/
def rehash (hash : K → ℕ) (bucket : ℕ) (table : ExtendibleHashTable K V) (pair : K × V) :
    ExtendibleHashTable K V :=
  let tobucket := table.bucketOf hash pair.1
  if tobucket = bucket then table
  else
    -- the answers of `Remove` and `Insert` are not looked at
    let table := table.setBucket bucket ((table.buckets bucket).remove pair.1).2
    table.setBucket tobucket ((table.buckets tobucket).insert pair.1 pair.2).2

/-- `ExtendibleHashTable::RedistributeBucket` up to its rehashing loop: deepen
the bucket, allocate its sibling and redirect the directory. -/
def splitBucket (table : ExtendibleHashTable K V) (bucket : ℕ) : ExtendibleHashTable K V :=
  let depth := (table.buckets bucket).depth + 1
  let newBucket := table.nextBucket
  { table with
    numBuckets := table.numBuckets + 1
    nextBucket := table.nextBucket + 1
    dir := table.redirect bucket newBucket (depth - 1)
    buckets := Function.update
      (Function.update table.buckets bucket { table.buckets bucket with depth := depth })
      newBucket ⟨table.bucketSize, depth, []⟩ }

/-- `ExtendibleHashTable::RedistributeBucket`.  The loop runs over a copy of the
bucket's list taken before any pair is moved. -/
def redistributeBucket (table : ExtendibleHashTable K V) (hash : K → ℕ) (bucket : ℕ) :
    ExtendibleHashTable K V :=
  (table.buckets bucket).list.foldl (rehash hash bucket) (table.splitBucket bucket)

/-- The directory doubling of `Insert`. -/
def doubleDir (table : ExtendibleHashTable K V) : ExtendibleHashTable K V :=
  { table with globalDepth := table.globalDepth + 1, dir := table.dir ++ table.dir }

/-- The least depth at which `1 << global_depth_` is not an `int`. -/
def depthLimit : ℕ := 31

/-- The `while (true)` loop of `ExtendibleHashTable::Insert`. -/
def insertLoop (hash : K → ℕ) (key : K) (value : V) :
    ℕ → ExtendibleHashTable K V → Except HashFault (ExtendibleHashTable K V)
  | 0, _ => .error .outOfFuel
  | fuel + 1, table =>
    let address := table.bucketOf hash key
    match (table.buckets address).insert key value with
    | (true, bucket) => .ok (table.setBucket address bucket)
    | (false, _) =>
      if (table.buckets address).depth = table.globalDepth then
        -- the bucket has no bit left to split on: the directory doubles first
        if table.globalDepth + 1 < depthLimit then
          insertLoop hash key value fuel (table.doubleDir.redistributeBucket hash address)
        else .error .directoryOverflow
      else insertLoop hash key value fuel (table.redistributeBucket hash address)

/-- `ExtendibleHashTable::Insert`. -/
def insert (table : ExtendibleHashTable K V) (hash : K → ℕ) (key : K) (value : V) :
    Except HashFault (ExtendibleHashTable K V) :=
  insertLoop hash key value depthLimit table

end ExtendibleHashTable

/-! ## Calls -/

inductive HashCall (K V : Type*)
  | insert (key : K) (value : V)
  | find (key : K)
  | remove (key : K)

inductive HashAnswer (V : Type*)
  | inserted
  | found (value : Option V)
  | removed (success : Bool)
deriving DecidableEq

def hashMachine (hash : K → ℕ) :
    Machine (ExtendibleHashTable K V) (HashCall K V) (HashAnswer V) HashFault where
  step table
    | .insert key value =>
      match table.insert hash key value with
      | .ok next => .ok (.inserted, next)
      | .error fault => .error fault
    | .find key => .ok (.found (table.find hash key), table)
    | .remove key =>
      let (success, next) := table.remove hash key
      .ok (.removed success, next)

end BusTub

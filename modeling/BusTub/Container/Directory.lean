import BusTub.Container.ExtendibleHashTable
import BusTub.Library.SuffixDirectory
import Mathlib.Data.List.GetD

/-!
# The directory of the extendible hash table

`WellFormed` is the invariant of `ExtendibleHashTable`: the directory has
`2 ^ global_depth_` entries shared by low bits, every bucket ever allocated is in
use, and the pairs of a bucket have distinct keys that hash to it.  The sharing
pattern itself is `SuffixDirectory.Shared`; this file shows that doubling the
directory and `RedistributeBucket` are the two operations of that library, and
that neither changes what `Find` returns.
-/

namespace BusTub

open SuffixDirectory

namespace ExtendibleHashTable

variable {K V : Type*} [DecidableEq K] {hash : K → ℕ} {table : ExtendibleHashTable K V}

def depthOf (table : ExtendibleHashTable K V) (address : ℕ) : ℕ := (table.buckets address).depth

/-- The invariant of the table. -/
structure WellFormed (hash : K → ℕ) (table : ExtendibleHashTable K V) : Prop where
  globalDepth_lt : table.globalDepth < depthLimit
  dir_length : table.dir.length = 2 ^ table.globalDepth
  shared : Shared table.depthOf table.slot table.globalDepth
  numBuckets_eq : table.numBuckets = table.nextBucket
  slot_lt : ∀ i, table.slot i < table.nextBucket
  exists_slot : ∀ address < table.nextBucket, ∃ i < 2 ^ table.globalDepth, table.slot i = address
  size_eq : ∀ address < table.nextBucket, (table.buckets address).size = table.bucketSize
  length_le : ∀ address < table.nextBucket,
    (table.buckets address).list.length ≤ table.bucketSize
  keys_nodup : ∀ address < table.nextBucket, (table.buckets address).keys.Nodup
  bucketOf_eq : ∀ address < table.nextBucket, ∀ key ∈ (table.buckets address).keys,
    table.bucketOf hash key = address

/-! ## Reading the directory -/

omit [DecidableEq K] in
theorem indexOf_eq (table : ExtendibleHashTable K V) (hash : K → ℕ) (key : K) :
    table.indexOf hash key = hash key % 2 ^ table.globalDepth := by
  rw [indexOf, Nat.one_shiftLeft, Nat.and_two_pow_sub_one_eq_mod]

omit [DecidableEq K] in
theorem indexOf_lt (table : ExtendibleHashTable K V) (hash : K → ℕ) (key : K) :
    table.indexOf hash key < 2 ^ table.globalDepth := by
  rw [indexOf_eq]
  exact Nat.mod_lt _ (Nat.two_pow_pos _)

omit [DecidableEq K] in
theorem WellFormed.bucketOf_lt (h : WellFormed hash table) (key : K) :
    table.bucketOf hash key < table.nextBucket :=
  h.slot_lt _

section SetBucket

variable (table) (address : ℕ) (bucket : Bucket K V)

omit [DecidableEq K]

@[simp] theorem setBucket_globalDepth :
    (table.setBucket address bucket).globalDepth = table.globalDepth := rfl

@[simp] theorem setBucket_bucketSize :
    (table.setBucket address bucket).bucketSize = table.bucketSize := rfl

@[simp] theorem setBucket_numBuckets :
    (table.setBucket address bucket).numBuckets = table.numBuckets := rfl

@[simp] theorem setBucket_dir : (table.setBucket address bucket).dir = table.dir := rfl

@[simp] theorem setBucket_nextBucket :
    (table.setBucket address bucket).nextBucket = table.nextBucket := rfl

@[simp] theorem setBucket_slot : (table.setBucket address bucket).slot = table.slot := rfl

@[simp] theorem setBucket_bucketOf (hash : K → ℕ) :
    (table.setBucket address bucket).bucketOf hash = table.bucketOf hash := rfl

@[simp] theorem setBucket_buckets_self :
    (table.setBucket address bucket).buckets address = bucket := by
  simp [setBucket]

theorem setBucket_buckets_of_ne {other : ℕ} (hne : other ≠ address) :
    (table.setBucket address bucket).buckets other = table.buckets other := by
  simp [setBucket, Function.update_of_ne hne]

theorem setBucket_eq_self : table.setBucket address (table.buckets address) = table := by
  simp [setBucket]

theorem setBucket_setBucket (next : Bucket K V) :
    (table.setBucket address bucket).setBucket address next = table.setBucket address next := by
  simp [setBucket]

theorem setBucket_comm {other : ℕ} (hne : other ≠ address) (next : Bucket K V) :
    (table.setBucket address bucket).setBucket other next =
      (table.setBucket other next).setBucket address bucket := by
  simp [setBucket, Function.update_comm hne]

end SetBucket

/-! ## One bucket changes

`Remove` and a successful `Bucket::Insert` change the pairs of one bucket, and
nothing of the directory. -/

omit [DecidableEq K] in
/-- Storing a bucket of the same size and depth keeps the invariant if its keys
are distinct, fit, and hash to its address. -/
theorem WellFormed.setBucket (h : WellFormed hash table) {address : ℕ} {bucket : Bucket K V}
    (hsize : bucket.size = (table.buckets address).size)
    (hdepth : bucket.depth = (table.buckets address).depth)
    (hlength : bucket.list.length ≤ table.bucketSize) (hnodup : bucket.keys.Nodup)
    (hkeys : ∀ key ∈ bucket.keys, table.bucketOf hash key = address) :
    WellFormed hash (table.setBucket address bucket) := by
  have hdepths : (table.setBucket address bucket).depthOf = table.depthOf := by
    funext other
    by_cases hother : other = address
    · subst hother
      simpa [depthOf] using hdepth
    · simp [depthOf, setBucket_buckets_of_ne _ _ _ hother]
  refine ⟨h.globalDepth_lt, h.dir_length, hdepths ▸ h.shared, h.numBuckets_eq, h.slot_lt,
    h.exists_slot, ?_, ?_, ?_, ?_⟩ <;> intro other hlt <;> by_cases hother : other = address
  · subst hother
    simpa using hsize.trans (h.size_eq other hlt)
  · rw [setBucket_buckets_of_ne _ _ _ hother]
    exact h.size_eq other hlt
  · subst hother
    simpa using hlength
  · rw [setBucket_buckets_of_ne _ _ _ hother]
    exact h.length_le other hlt
  · subst hother
    simpa using hnodup
  · rw [setBucket_buckets_of_ne _ _ _ hother]
    exact h.keys_nodup other hlt
  · subst hother
    simpa using hkeys
  · rw [setBucket_buckets_of_ne _ _ _ hother]
    exact h.bucketOf_eq other hlt

/-! ## Doubling -/

omit [DecidableEq K] in
theorem slot_doubleDir (h : WellFormed hash table) {i : ℕ} (hi : i < 2 ^ (table.globalDepth + 1)) :
    table.doubleDir.slot i = table.slot (i % 2 ^ table.globalDepth) := by
  have hlen := h.dir_length
  simp only [slot, doubleDir]
  rcases Nat.lt_or_ge i (2 ^ table.globalDepth) with hlt | hge
  · rw [List.getD_append _ _ _ _ (by omega), Nat.mod_eq_of_lt hlt]
  · rw [pow_succ] at hi
    rw [List.getD_append_right _ _ _ _ (by omega), hlen, Nat.mod_eq_sub_mod hge,
      Nat.mod_eq_of_lt (by omega)]

omit [DecidableEq K] in
theorem bucketOf_doubleDir (h : WellFormed hash table) (key : K) :
    table.doubleDir.bucketOf hash key = table.bucketOf hash key := by
  rw [bucketOf, slot_doubleDir h (indexOf_lt _ _ _), bucketOf, indexOf_eq, indexOf_eq]
  congr 1
  exact Nat.mod_mod_of_dvd _ (pow_dvd_pow 2 (Nat.le_succ _))

omit [DecidableEq K] in
theorem WellFormed.doubleDir (h : WellFormed hash table)
    (hroom : table.globalDepth + 1 < depthLimit) : WellFormed hash table.doubleDir := by
  have hshared : Shared table.doubleDir.depthOf table.doubleDir.slot (table.globalDepth + 1) :=
    h.shared.double.congr fun i hi => slot_doubleDir h hi
  refine ⟨hroom, ?_, hshared, h.numBuckets_eq, ?_, ?_, h.size_eq, h.length_le, h.keys_nodup, ?_⟩
  · simp only [ExtendibleHashTable.doubleDir, List.length_append, h.dir_length, pow_succ]
    omega
  · intro i
    simp only [slot, ExtendibleHashTable.doubleDir]
    rcases Nat.lt_or_ge i table.dir.length with hlt | hge
    · rw [List.getD_append _ _ _ _ hlt]
      exact h.slot_lt i
    · rw [List.getD_append_right _ _ _ _ hge]
      exact h.slot_lt _
  · intro address haddress
    obtain ⟨i, hi, hslot⟩ := h.exists_slot address haddress
    have hlt : i < 2 ^ (table.globalDepth + 1) :=
      hi.trans (Nat.pow_lt_pow_right (by omega) (by omega))
    refine ⟨i, hlt, ?_⟩
    rw [slot_doubleDir h hlt, Nat.mod_eq_of_lt hi, hslot]
  · intro address haddress key hkey
    rw [bucketOf_doubleDir h]
    exact h.bucketOf_eq address haddress key hkey

/-! ## Splitting a bucket -/

/-- Bit `depth` of the key's hash: set for the pairs that leave a split bucket. -/
def moves (hash : K → ℕ) (depth : ℕ) (key : K) : Bool := (hash key).testBit depth

omit [DecidableEq K] in
theorem slot_splitBucket (h : WellFormed hash table) {address i : ℕ}
    (hi : i < 2 ^ table.globalDepth) :
    (table.splitBucket address).slot i =
      splitSlot table.slot address table.nextBucket (table.depthOf address) i := by
  have hlen : i < table.dir.length := h.dir_length ▸ hi
  have hbit : (i >>> table.depthOf address) &&& 1 = 1 ↔ i.testBit (table.depthOf address) := by
    rw [Nat.testBit_eq_decide_div_mod_eq, Nat.shiftRight_eq_div_pow, Nat.and_one_is_mod,
      decide_eq_true_eq]
  simp only [slot, splitBucket, redirect, splitSlot, Nat.add_sub_cancel, Nat.one_shiftLeft,
    List.getD_eq_getElem _ _ hlen]
  rw [List.getD_eq_getElem _ _ (by simpa using hlen), List.getElem_mapIdx]
  exact if_congr ⟨fun hset => ⟨hset.2.1, hbit.mp hset.2.2⟩,
    fun hset => ⟨hi, hset.1, hbit.mpr hset.2⟩⟩ rfl rfl

omit [DecidableEq K] in
theorem bucketOf_splitBucket (h : WellFormed hash table) {address : ℕ}
    (hdepth : table.depthOf address < table.globalDepth) (key : K) :
    (table.splitBucket address).bucketOf hash key =
      if table.bucketOf hash key = address ∧ moves hash (table.depthOf address) key
      then table.nextBucket else table.bucketOf hash key := by
  have hindex : (table.splitBucket address).indexOf hash key = table.indexOf hash key := rfl
  rw [bucketOf, hindex, slot_splitBucket h (indexOf_lt _ _ _), splitSlot]
  simp [bucketOf, moves, indexOf_eq, hdepth]

omit [DecidableEq K] in
theorem slot_splitBucket_lt (h : WellFormed hash table) (address i : ℕ) :
    (table.splitBucket address).slot i < table.nextBucket + 1 := by
  rcases Nat.lt_or_ge i (2 ^ table.globalDepth) with hlt | hge
  · rw [slot_splitBucket h hlt, splitSlot]
    split
    · exact Nat.lt_succ_self _
    · exact (h.slot_lt i).trans (Nat.lt_succ_self _)
  · -- past the end of the directory
    have hlen : (table.splitBucket address).dir.length ≤ i := by
      simpa [splitBucket, redirect, h.dir_length] using hge
    rw [slot, List.getD_eq_default _ _ hlen]
    exact Nat.succ_pos _

/-! ## Rehashing the split bucket -/

omit [DecidableEq K] in
theorem keys_filter_subset {size depth : ℕ} {list : List (K × V)} {keep : K × V → Bool} {key : K}
    (hkey : key ∈ (⟨size, depth, list.filter keep⟩ : Bucket K V).keys) :
    ∃ pair ∈ list, keep pair = true ∧ pair.1 = key := by
  simp only [Bucket.keys, List.mem_map, List.mem_filter] at hkey
  obtain ⟨pair, ⟨hmem, hkeep⟩, heq⟩ := hkey
  exact ⟨pair, hmem, hkeep, heq⟩

theorem rehash_of_moves {bucket newBucket size depth size' depth' : ℕ} {pair : K × V}
    {kept rest moved : List (K × V)} (hne : bucket ≠ newBucket)
    (hold : table.buckets bucket = ⟨size, depth, kept ++ pair :: rest⟩)
    (hnew : table.buckets newBucket = ⟨size', depth', moved⟩)
    (hto : table.bucketOf hash pair.1 = newBucket) (hkept : pair.1 ∉ kept.map Prod.fst)
    (hmoved : pair.1 ∉ moved.map Prod.fst) (hroom : moved.length < size') :
    rehash hash bucket table pair =
      (table.setBucket bucket ⟨size, depth, kept ++ rest⟩).setBucket newBucket
        ⟨size', depth', moved ++ [pair]⟩ := by
  have hremove : ((table.buckets bucket).remove pair.1).2 = ⟨size, depth, kept ++ rest⟩ := by
    rw [hold, Bucket.remove]
    rw [List.eraseP_append_right, List.eraseP_cons_of_pos (by simp)]
    intro other hother
    have : other.1 ≠ pair.1 := fun heq => hkept (heq ▸ List.mem_map_of_mem hother)
    simpa using this
  have hinsert : ((table.buckets newBucket).insert pair.1 pair.2).2 =
      ⟨size', depth', moved ++ [pair]⟩ := by
    rw [hnew, Bucket.insert_of_room pair.2 hmoved hroom]
  simp only [rehash, hto, if_neg hne.symm, hremove]
  rw [setBucket_buckets_of_ne _ _ _ hne.symm, hinsert]

/-- **The rehashing loop.**  It leaves the pairs whose next bit is clear in the
old bucket and appends the others to the new one, in order.  The induction is
over the pairs still to visit: `kept` and `moved` are where the visited ones went. -/
theorem foldl_rehash {bucket newBucket size depth size' depth' bit : ℕ} (hne : bucket ≠ newBucket)
    (rest : List (K × V)) :
    ∀ (table : ExtendibleHashTable K V) (kept moved : List (K × V)),
      table.buckets bucket = ⟨size, depth, kept ++ rest⟩ →
      table.buckets newBucket = ⟨size', depth', moved⟩ →
      (∀ pair ∈ rest, table.bucketOf hash pair.1 =
        if moves hash bit pair.1 then newBucket else bucket) →
      (rest.map Prod.fst).Nodup →
      (∀ pair ∈ rest, pair.1 ∉ kept.map Prod.fst ∧ pair.1 ∉ moved.map Prod.fst) →
      moved.length + rest.length ≤ size' →
      rest.foldl (rehash hash bucket) table =
        (table.setBucket bucket
            ⟨size, depth, kept ++ rest.filter fun pair => !moves hash bit pair.1⟩).setBucket
          newBucket ⟨size', depth', moved ++ rest.filter fun pair => moves hash bit pair.1⟩ := by
  induction rest with
  | nil =>
    intro table kept moved hold hnew _ _ _ _
    simp only [List.foldl_nil, List.filter_nil, ← hold]
    rw [setBucket_eq_self, List.append_nil, ← hnew, setBucket_eq_self]
  | cons pair rest ih =>
    intro table kept moved hold hnew hto hnodup habsent hroom
    rw [List.map_cons, List.nodup_cons] at hnodup
    obtain ⟨hkept, hmoved⟩ := habsent pair (List.mem_cons_self ..)
    simp only [List.length_cons] at hroom
    have hother : ∀ other ∈ rest, other.1 ≠ pair.1 := fun other hmem heq =>
      hnodup.1 (heq ▸ List.mem_map_of_mem hmem)
    rw [List.foldl_cons]
    -- the pair moves to the new bucket, or the loop leaves the table as it is
    by_cases hbit : moves hash bit pair.1
    · have hstep := hto pair (List.mem_cons_self ..)
      rw [if_pos hbit] at hstep
      rw [rehash_of_moves hne hold hnew hstep hkept hmoved (by omega),
        ih _ kept (moved ++ [pair]) (by rw [setBucket_buckets_of_ne _ _ _ hne]; simp) (by simp)
          (fun other hmem => by simpa using hto other (List.mem_cons_of_mem _ hmem)) hnodup.2 ?_
          (by simp only [List.length_append, List.length_singleton]; omega)]
      · simp only [List.filter_cons, hbit, Bool.not_true, if_true, Bool.false_eq_true, if_false,
          List.append_assoc, List.singleton_append]
        rw [setBucket_comm _ _ _ hne, setBucket_setBucket, setBucket_setBucket]
      · intro other hmem
        obtain ⟨hk, hm⟩ := habsent other (List.mem_cons_of_mem _ hmem)
        refine ⟨hk, ?_⟩
        simp only [List.map_append, List.mem_append, not_or]
        exact ⟨hm, by simpa using hother other hmem⟩
    · have hstep := hto pair (List.mem_cons_self ..)
      rw [if_neg hbit] at hstep
      have hstay : rehash hash bucket table pair = table := by simp [rehash, hstep]
      rw [hstay, ih table (kept ++ [pair]) moved (by simpa using hold) hnew
        (fun other hmem => hto other (List.mem_cons_of_mem _ hmem)) hnodup.2 ?_ (by omega)]
      · simp [hbit]
      · intro other hmem
        obtain ⟨hk, hm⟩ := habsent other (List.mem_cons_of_mem _ hmem)
        refine ⟨?_, hm⟩
        simp only [List.map_append, List.mem_append, not_or]
        exact ⟨hk, by simpa using hother other hmem⟩

/-- **`RedistributeBucket` in closed form**: the split table, with the bucket's
pairs dealt out between the old bucket and the new one. -/
theorem redistributeBucket_eq (h : WellFormed hash table) {address : ℕ}
    (haddress : address < table.nextBucket)
    (hdepth : table.depthOf address < table.globalDepth) :
    table.redistributeBucket hash address =
      ((table.splitBucket address).setBucket address
          ⟨table.bucketSize, table.depthOf address + 1, (table.buckets address).list.filter
            fun pair => !moves hash (table.depthOf address) pair.1⟩).setBucket table.nextBucket
        ⟨table.bucketSize, table.depthOf address + 1, (table.buckets address).list.filter
          fun pair => moves hash (table.depthOf address) pair.1⟩ := by
  have hne : address ≠ table.nextBucket := haddress.ne
  have hold : (table.splitBucket address).buckets address =
      ⟨table.bucketSize, table.depthOf address + 1, [] ++ (table.buckets address).list⟩ := by
    simp [splitBucket, Function.update_of_ne hne, depthOf, h.size_eq address haddress]
  have hnew : (table.splitBucket address).buckets table.nextBucket =
      ⟨table.bucketSize, table.depthOf address + 1, []⟩ := by
    simp [splitBucket, depthOf]
  have hto : ∀ pair ∈ (table.buckets address).list,
      (table.splitBucket address).bucketOf hash pair.1 =
        if moves hash (table.depthOf address) pair.1 then table.nextBucket else address := by
    intro pair hpair
    have hin := h.bucketOf_eq address haddress pair.1 (List.mem_map_of_mem hpair)
    rw [bucketOf_splitBucket h hdepth, hin]
    simp
  rw [redistributeBucket, foldl_rehash hne _ (table.splitBucket address) [] [] hold hnew hto
    (h.keys_nodup address haddress) (by simp) (by simpa using h.length_le address haddress)]
  rfl

section Redistribute

variable {address : ℕ} (h : WellFormed hash table) (haddress : address < table.nextBucket)
  (hdepth : table.depthOf address < table.globalDepth)

include h haddress hdepth

theorem redistributeBucket_old :
    (table.redistributeBucket hash address).buckets address =
      ⟨table.bucketSize, table.depthOf address + 1, (table.buckets address).list.filter
        fun pair => !moves hash (table.depthOf address) pair.1⟩ := by
  rw [redistributeBucket_eq h haddress hdepth, setBucket_buckets_of_ne _ _ _ haddress.ne,
    setBucket_buckets_self]

theorem redistributeBucket_new :
    (table.redistributeBucket hash address).buckets table.nextBucket =
      ⟨table.bucketSize, table.depthOf address + 1, (table.buckets address).list.filter
        fun pair => moves hash (table.depthOf address) pair.1⟩ := by
  rw [redistributeBucket_eq h haddress hdepth, setBucket_buckets_self]

theorem redistributeBucket_other {other : ℕ} (hold : other ≠ address)
    (hnew : other ≠ table.nextBucket) :
    (table.redistributeBucket hash address).buckets other = table.buckets other := by
  rw [redistributeBucket_eq h haddress hdepth, setBucket_buckets_of_ne _ _ _ hnew,
    setBucket_buckets_of_ne _ _ _ hold]
  simp [splitBucket, Function.update_of_ne hnew, Function.update_of_ne hold]

theorem redistributeBucket_bucketOf (key : K) :
    (table.redistributeBucket hash address).bucketOf hash key =
      if table.bucketOf hash key = address ∧ moves hash (table.depthOf address) key
      then table.nextBucket else table.bucketOf hash key := by
  rw [redistributeBucket_eq h haddress hdepth, setBucket_bucketOf, setBucket_bucketOf,
    bucketOf_splitBucket h hdepth]

theorem redistributeBucket_depthOf :
    (table.redistributeBucket hash address).depthOf =
      splitDepth table.depthOf address table.nextBucket := by
  funext other
  by_cases hnew : other = table.nextBucket
  · subst hnew
    rw [depthOf, redistributeBucket_new h haddress hdepth, splitDepth_new]
  · by_cases hold : other = address
    · subst hold
      rw [depthOf, redistributeBucket_old h haddress hdepth, splitDepth_old haddress.ne]
    · rw [depthOf, redistributeBucket_other h haddress hdepth hold hnew,
        splitDepth_of_ne hold hnew, depthOf]

theorem redistributeBucket_depth_bucketOf {key : K} (hkey : table.bucketOf hash key = address) :
    (table.redistributeBucket hash address).depthOf
        ((table.redistributeBucket hash address).bucketOf hash key) =
      table.depthOf address + 1 := by
  rw [redistributeBucket_depthOf h haddress hdepth, redistributeBucket_bucketOf h haddress hdepth,
    hkey]
  split
  · exact splitDepth_new _ _
  · exact splitDepth_old haddress.ne

/-- **A split loses no entry and hides none.** -/
theorem find_redistributeBucket (key : K) :
    (table.redistributeBucket hash address).find hash key = table.find hash key := by
  rw [find, find, redistributeBucket_bucketOf h haddress hdepth]
  by_cases hkey : table.bucketOf hash key = address
  · rw [hkey]
    by_cases hbit : moves hash (table.depthOf address) key
    · rw [if_pos ⟨rfl, hbit⟩, redistributeBucket_new h haddress hdepth,
        Bucket.find_filter _ _ _ (moves hash (table.depthOf address)) hbit]
      exact Bucket.find_congr rfl key
    · rw [if_neg (fun hand => hbit hand.2), redistributeBucket_old h haddress hdepth,
        Bucket.find_filter _ _ _ (fun key => !moves hash (table.depthOf address) key)
          (by simpa using hbit)]
      exact Bucket.find_congr rfl key
  · have hlt := h.bucketOf_lt key
    rw [if_neg (fun hand => hkey hand.1), redistributeBucket_other h haddress hdepth hkey hlt.ne]

theorem redistributeBucket_globalDepth :
    (table.redistributeBucket hash address).globalDepth = table.globalDepth := by
  rw [redistributeBucket_eq h haddress hdepth]
  rfl

theorem redistributeBucket_bucketSize :
    (table.redistributeBucket hash address).bucketSize = table.bucketSize := by
  rw [redistributeBucket_eq h haddress hdepth]
  rfl

theorem redistributeBucket_nextBucket :
    (table.redistributeBucket hash address).nextBucket = table.nextBucket + 1 := by
  rw [redistributeBucket_eq h haddress hdepth]
  rfl

theorem redistributeBucket_slot (i : ℕ) :
    (table.redistributeBucket hash address).slot i = (table.splitBucket address).slot i := by
  rw [redistributeBucket_eq h haddress hdepth, setBucket_slot, setBucket_slot]

theorem redistributeBucket_forall {P : Bucket K V → ℕ → Prop}
    (hold : P ⟨table.bucketSize, table.depthOf address + 1, (table.buckets address).list.filter
      fun pair => !moves hash (table.depthOf address) pair.1⟩ address)
    (hnew : P ⟨table.bucketSize, table.depthOf address + 1, (table.buckets address).list.filter
      fun pair => moves hash (table.depthOf address) pair.1⟩ table.nextBucket)
    (hother : ∀ other < table.nextBucket, other ≠ address → P (table.buckets other) other)
    (other : ℕ) (hlt : other < table.nextBucket + 1) :
    P ((table.redistributeBucket hash address).buckets other) other := by
  by_cases heqNew : other = table.nextBucket
  · subst heqNew
    rw [redistributeBucket_new h haddress hdepth]
    exact hnew
  · by_cases heqOld : other = address
    · subst heqOld
      rw [redistributeBucket_old h haddress hdepth]
      exact hold
    · rw [redistributeBucket_other h haddress hdepth heqOld heqNew]
      exact hother other (by omega) heqOld

theorem redistributeBucket_bucketOf_eq (other : ℕ) (hlt : other < table.nextBucket + 1) :
    ∀ key ∈ ((table.redistributeBucket hash address).buckets other).keys,
      (table.redistributeBucket hash address).bucketOf hash key = other := by
  refine redistributeBucket_forall h haddress hdepth
    (P := fun bucket other => ∀ key ∈ bucket.keys,
      (table.redistributeBucket hash address).bucketOf hash key = other) ?_ ?_ ?_ other hlt
  · intro key hkey
    obtain ⟨pair, hpair, hkeep, rfl⟩ := keys_filter_subset hkey
    have hin := h.bucketOf_eq address haddress pair.1 (List.mem_map_of_mem hpair)
    rw [redistributeBucket_bucketOf h haddress hdepth, if_neg, hin]
    simpa using fun _ => hkeep
  · intro key hkey
    obtain ⟨pair, hpair, hkeep, rfl⟩ := keys_filter_subset hkey
    have hin := h.bucketOf_eq address haddress pair.1 (List.mem_map_of_mem hpair)
    rw [redistributeBucket_bucketOf h haddress hdepth, if_pos ⟨hin, hkeep⟩]
  · intro other hlt hne key hkey
    have hin := h.bucketOf_eq other hlt key hkey
    rw [redistributeBucket_bucketOf h haddress hdepth, if_neg, hin]
    exact fun hand => hne (hin.symm.trans hand.1)

/-- **`RedistributeBucket` keeps the invariant.** -/
theorem WellFormed.redistributeBucket :
    WellFormed hash (table.redistributeBucket hash address) := by
  have hslot : ∀ i < 2 ^ table.globalDepth,
      (table.redistributeBucket hash address).slot i =
        splitSlot table.slot address table.nextBucket (table.depthOf address) i :=
    fun i hi => (redistributeBucket_slot h haddress hdepth i).trans (slot_splitBucket h hi)
  have hglobal := redistributeBucket_globalDepth h haddress hdepth
  have hbucketSize := redistributeBucket_bucketSize h haddress hdepth
  have hnext := redistributeBucket_nextBucket h haddress hdepth
  have hfresh : ∀ i, table.slot i ≠ table.nextBucket := fun i => (h.slot_lt i).ne
  have hused := h.exists_slot address haddress
  have hfilter : ∀ keep : K × V → Bool,
      ((table.buckets address).list.filter keep).length ≤ table.bucketSize := fun keep =>
    (List.length_filter_le _ _).trans (h.length_le address haddress)
  have hnodup : ∀ keep : K × V → Bool,
      (((table.buckets address).list.filter keep).map Prod.fst).Nodup := fun keep =>
    (List.filter_sublist.map Prod.fst).nodup (h.keys_nodup address haddress)
  constructor
  · rw [hglobal]
    exact h.globalDepth_lt
  · rw [hglobal, ← h.dir_length, redistributeBucket_eq h haddress hdepth]
    simp [splitBucket, redirect]
  · rw [hglobal, redistributeBucket_depthOf h haddress hdepth]
    exact (h.shared.split hfresh hdepth (hused.imp fun i hi => hi.2)).congr hslot
  · rw [hnext, redistributeBucket_eq h haddress hdepth]
    exact congrArg (· + 1) h.numBuckets_eq
  · intro i
    rw [hnext, redistributeBucket_slot h haddress hdepth]
    exact slot_splitBucket_lt h address i
  · rw [hglobal, hnext]
    intro other hlt
    have hin : ∃ i < 2 ^ table.globalDepth,
        splitSlot table.slot address table.nextBucket (table.depthOf address) i = other :=
      h.shared.exists_splitSlot hdepth hused other
        ((Nat.lt_succ_iff_lt_or_eq.mp hlt).symm.imp id (h.exists_slot other))
    obtain ⟨i, hi, heq⟩ := hin
    exact ⟨i, hi, (hslot i hi).trans heq⟩
  · rw [hnext, hbucketSize]
    exact redistributeBucket_forall h haddress hdepth
      (P := fun bucket _ => bucket.size = table.bucketSize) rfl rfl
      fun other hlt _ => h.size_eq other hlt
  · rw [hnext, hbucketSize]
    exact redistributeBucket_forall h haddress hdepth
      (P := fun bucket _ => bucket.list.length ≤ table.bucketSize) (hfilter _) (hfilter _)
      fun other hlt _ => h.length_le other hlt
  · rw [hnext]
    exact redistributeBucket_forall h haddress hdepth
      (P := fun bucket _ => bucket.keys.Nodup) (hnodup _) (hnodup _)
      fun other hlt _ => h.keys_nodup other hlt
  · rw [hnext]
    exact redistributeBucket_bucketOf_eq h haddress hdepth

end Redistribute

end ExtendibleHashTable

end BusTub

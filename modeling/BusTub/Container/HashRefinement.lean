import BusTub.Container.Directory

/-!
# The extendible hash table is a finite map

`Insert` may double the directory and split buckets any number of times before the pair fits.
Each round is a well-formed table with the same contents, and the bucket the key selects is one
level deeper than before, so the loop ends within `depthLimit` rounds: it stores the pair or
reaches the depth where `1 << global_depth_` overflows.

The two results are about whole runs from an empty table: the answers are those of a finite map,
and the directory has its shape after every call.
-/

namespace BusTub

open Machines SuffixDirectory

variable {K V : Type*} [DecidableEq K]

namespace ExtendibleHashTable

variable {hash : K → ℕ} {table : ExtendibleHashTable K V}

/-! ## The empty table -/

omit [DecidableEq K] in
theorem slot_create (bucketSize i : ℕ) :
    (create bucketSize : ExtendibleHashTable K V).slot i = 0 := by
  cases i <;> simp [slot, create]

omit [DecidableEq K] in
theorem wellFormed_create (hash : K → ℕ) (bucketSize : ℕ) :
    WellFormed hash (create bucketSize : ExtendibleHashTable K V) := by
  refine ⟨show 0 < depthLimit by decide, rfl, ⟨?_, ?_⟩, rfl, ?_, ?_, fun _ _ => rfl, ?_, ?_, ?_⟩
  · intro i _
    exact Nat.zero_le _
  · intro i _ j _
    rw [slot_create, slot_create]
    simp [depthOf, create, Nat.mod_one]
  · intro i
    rw [slot_create]
    exact Nat.one_pos
  · intro address haddress
    exact ⟨0, Nat.one_pos, by rw [slot_create]; exact (Nat.lt_one_iff.mp haddress).symm⟩
  all_goals simp [create, Bucket.keys]

theorem find_create (hash : K → ℕ) (bucketSize : ℕ) (key : K) :
    (create bucketSize : ExtendibleHashTable K V).find hash key = none := rfl

/-! ## `Remove` -/

theorem WellFormed.remove (h : WellFormed hash table) (key : K) :
    WellFormed hash (table.remove hash key).2 := by
  have hlt := h.bucketOf_lt key
  have hsub := (table.buckets (table.bucketOf hash key)).remove_list_sublist key
  refine h.setBucket rfl rfl ?_ ?_ ?_
  · exact hsub.length_le.trans (h.length_le _ hlt)
  · exact (hsub.map Prod.fst).nodup (h.keys_nodup _ hlt)
  · intro other hother
    exact h.bucketOf_eq _ hlt other ((hsub.map Prod.fst).subset hother)

theorem find_remove (h : WellFormed hash table) (key query : K) :
    (table.remove hash key).2.find hash query =
      if query = key then none else table.find hash query := by
  have hnodup := h.keys_nodup _ (h.bucketOf_lt key)
  simp only [remove, find, setBucket_bucketOf]
  by_cases hbucket : table.bucketOf hash query = table.bucketOf hash key
  · rw [hbucket, setBucket_buckets_self, Bucket.find_remove hnodup]
  · have hne : query ≠ key := fun heq => hbucket (heq ▸ rfl)
    rw [setBucket_buckets_of_ne _ _ _ hbucket, if_neg hne]

/-! ## `Insert` -/

variable {bucket : Bucket K V}

theorem WellFormed.insertBucket (h : WellFormed hash table) {key : K} {value : V}
    (hinsert : (table.buckets (table.bucketOf hash key)).insert key value = (true, bucket)) :
    WellFormed hash (table.setBucket (table.bucketOf hash key) bucket) ∧
      ∀ query, (table.setBucket (table.bucketOf hash key) bucket).find hash query =
        if query = key then some value else table.find hash query := by
  have hlt := h.bucketOf_lt key
  obtain ⟨hsize, hdepth, hkeys, hfind⟩ := Bucket.insert_eq_true hinsert
  have hlength : bucket.list.length = bucket.keys.length := by simp [Bucket.keys]
  have hlengthOld : (table.buckets (table.bucketOf hash key)).list.length =
      (table.buckets (table.bucketOf hash key)).keys.length := by simp [Bucket.keys]
  have hfit := h.length_le _ hlt
  have hnodup := h.keys_nodup _ hlt
  have hin := h.bucketOf_eq _ hlt
  constructor
  · -- the key was there and its value is replaced, or the pair is appended
    rcases hkeys with hsame | ⟨habsent, hroom, happend⟩
    · refine h.setBucket hsize hdepth ?_ (hsame ▸ hnodup) (hsame ▸ hin)
      rw [hlength, hsame]
      omega
    · rw [h.size_eq _ hlt] at hroom
      refine h.setBucket hsize hdepth ?_ ?_ ?_
      · rw [hlength, happend, List.length_append, List.length_singleton]
        omega
      · rw [happend, List.nodup_append_comm]
        exact List.nodup_cons.mpr ⟨habsent, hnodup⟩
      · intro other hother
        rw [happend, List.mem_append, List.mem_singleton] at hother
        rcases hother with hother | rfl
        · exact hin other hother
        · rfl
  · intro query
    simp only [find, setBucket_bucketOf]
    by_cases hbucket : table.bucketOf hash query = table.bucketOf hash key
    · rw [hbucket, setBucket_buckets_self, hfind]
    · have hne : query ≠ key := fun heq => hbucket (heq ▸ rfl)
      rw [setBucket_buckets_of_ne _ _ _ hbucket, if_neg hne]

theorem find_doubleDir (h : WellFormed hash table) (key : K) :
    table.doubleDir.find hash key = table.find hash key := by
  rw [find, bucketOf_doubleDir h]
  rfl

/-- A bucket's worth of other keys in the table agree with the key on all the bits of
the hash that a directory can use. -/
def Crowded (hash : K → ℕ) (table : ExtendibleHashTable K V) (key : K) : Prop :=
  ∃ others : List K, others.Nodup ∧ key ∉ others ∧ others.length = table.bucketSize ∧
    ∀ other ∈ others, (table.find hash other).isSome ∧
      hash other % 2 ^ (depthLimit - 1) = hash key % 2 ^ (depthLimit - 1)

/-- The directory cannot be doubled any more only if the key's bucket is crowded. -/
theorem WellFormed.crowded (h : WellFormed hash table) {key : K} {value : V}
    (hinsert : (table.buckets (table.bucketOf hash key)).insert key value = (false, bucket))
    (hdepth : (table.buckets (table.bucketOf hash key)).depth = table.globalDepth)
    (hlimit : ¬ table.globalDepth + 1 < depthLimit) : Crowded hash table key := by
  have hlt := h.bucketOf_lt key
  obtain ⟨habsent, hfull⟩ := Bucket.insert_eq_false hinsert
  have hglobal : table.globalDepth = depthLimit - 1 := by
    have := h.globalDepth_lt
    omega
  refine ⟨(table.buckets (table.bucketOf hash key)).keys, h.keys_nodup _ hlt, habsent, ?_, ?_⟩
  · rw [Bucket.keys, List.length_map, hfull, h.size_eq _ hlt]
  · intro other hother
    have hbucket := h.bucketOf_eq _ hlt other hother
    constructor
    · rw [find, hbucket]
      exact (Bucket.find_isSome_iff _ other).mpr hother
    · -- the bucket is as deep as the directory, so its keys have one index
      have hindex := (h.shared.slot_eq_iff _ (indexOf_lt table hash other) _
        (indexOf_lt table hash key)).mp hbucket
      have hdeep : table.depthOf (table.slot (table.indexOf hash other)) = table.globalDepth := by
        change table.depthOf (table.bucketOf hash other) = table.globalDepth
        rw [hbucket]
        exact hdepth
      rw [hdeep, indexOf_eq, indexOf_eq, Nat.mod_mod, Nat.mod_mod, hglobal] at hindex
      exact hindex

/-- What `Insert` achieves from a table: the pair is stored and nothing else
changes, or the directory cannot be doubled any more. -/
def Inserts (hash : K → ℕ) (table : ExtendibleHashTable K V) (key : K) (value : V)
    (outcome : Except HashFault (ExtendibleHashTable K V)) : Prop :=
  match outcome with
  | .ok next => WellFormed hash next ∧ next.bucketSize = table.bucketSize ∧
      ∀ query, next.find hash query = if query = key then some value else table.find hash query
  | .error fault => fault = .directoryOverflow ∧ Crowded hash table key

/-- `Insert` from a table with the same contents achieves the same. -/
theorem Inserts.of_same {first second : ExtendibleHashTable K V} {key : K} {value : V}
    {outcome : Except HashFault (ExtendibleHashTable K V)}
    (hsize : second.bucketSize = first.bucketSize)
    (hfind : ∀ query, second.find hash query = first.find hash query)
    (h : Inserts hash second key value outcome) : Inserts hash first key value outcome := by
  cases outcome with
  | error fault =>
    obtain ⟨hfault, others, hnodup, habsent, hlength, hcrowd⟩ := h
    refine ⟨hfault, others, hnodup, habsent, hlength.trans hsize, fun other hother => ?_⟩
    rw [← hfind]
    exact hcrowd other hother
  | ok next =>
    obtain ⟨hwell, hsizeNext, hfindNext⟩ := h
    refine ⟨hwell, hsizeNext.trans hsize, fun query => ?_⟩
    rw [hfindNext, hfind]

/-- **The insertion loop.**  The induction is on the rounds left: every round
that does not return deepens the bucket the key selects by one, and no bucket is
deeper than the directory. -/
theorem insertLoop_inserts (key : K) (value : V) :
    ∀ (fuel : ℕ) (table : ExtendibleHashTable K V), WellFormed hash table →
      depthLimit ≤ fuel + table.depthOf (table.bucketOf hash key) →
      Inserts hash table key value (insertLoop hash key value fuel table) := by
  intro fuel
  induction fuel with
  | zero =>
    -- out of rounds: the bucket would be deeper than the directory
    intro table h hfuel
    have hle := h.shared.depth_le _ (indexOf_lt table hash key)
    have hlt := h.globalDepth_lt
    simp only [bucketOf] at hfuel
    omega
  | succ fuel ih =>
    intro table h hfuel
    have hle : table.depthOf (table.bucketOf hash key) ≤ table.globalDepth :=
      h.shared.depth_le _ (indexOf_lt table hash key)
    have haddress := h.bucketOf_lt key
    simp only [insertLoop]
    split
    · rename_i bucket hinsert
      obtain ⟨hwell, hfind⟩ := h.insertBucket hinsert
      exact ⟨hwell, rfl, hfind⟩
    · rename_i hinsert
      split
      · rename_i hdepth
        split
        · -- the directory doubles first, which leaves the bucket a bit to split on
          rename_i hroom
          have hdouble := h.doubleDir hroom
          have hbucket := bucketOf_doubleDir h key
          have hsplit : table.doubleDir.depthOf (table.bucketOf hash key) <
              table.doubleDir.globalDepth := Nat.lt_succ_of_le hle
          have hsize := redistributeBucket_bucketSize hdouble haddress hsplit
          refine (ih _ (hdouble.redistributeBucket haddress hsplit) ?_).of_same hsize
            fun query => ?_
          · rw [redistributeBucket_depth_bucketOf hdouble haddress hsplit hbucket]
            have : table.doubleDir.depthOf (table.bucketOf hash key) =
              table.depthOf (table.bucketOf hash key) := rfl
            omega
          · rw [find_redistributeBucket hdouble haddress hsplit, find_doubleDir h]
        · rename_i hlimit
          exact ⟨rfl, h.crowded hinsert hdepth hlimit⟩
      · rename_i hdepth
        have hsplit : table.depthOf (table.bucketOf hash key) < table.globalDepth :=
          lt_of_le_of_ne hle hdepth
        refine (ih _ (h.redistributeBucket haddress hsplit) ?_).of_same
          (redistributeBucket_bucketSize h haddress hsplit) fun query => ?_
        · rw [redistributeBucket_depth_bucketOf h haddress hsplit rfl]
          omega
        · rw [find_redistributeBucket h haddress hsplit]

theorem insert_inserts (h : WellFormed hash table) (key : K) (value : V) :
    Inserts hash table key value (table.insert hash key value) :=
  insertLoop_inserts key value depthLimit table h (Nat.le_add_right _ _)

/-! ## What is stored -/

def storedPairs (table : ExtendibleHashTable K V) : List (K × V) :=
  (List.range table.nextBucket).flatMap fun address => (table.buckets address).list

theorem flatMap_eq_of_unique {α β : Type*} {items : List α} {f : α → List β} {item : α}
    (hnodup : items.Nodup) (hmem : item ∈ items)
    (hnil : ∀ other ∈ items, other ≠ item → f other = []) :
    items.flatMap f = f item := by
  induction items with
  | nil => simp at hmem
  | cons first rest ih =>
    rw [List.nodup_cons] at hnodup
    rw [List.flatMap_cons]
    rcases List.mem_cons.mp hmem with rfl | hmem
    · have hrest : rest.flatMap f = [] := by
        rw [List.flatMap_eq_nil_iff]
        intro other hother
        exact hnil other (List.mem_cons_of_mem _ hother) fun heq => hnodup.1 (heq ▸ hother)
      rw [hrest, List.append_nil]
    · have hne : first ≠ item := fun heq => hnodup.1 (heq ▸ hmem)
      rw [hnil first (List.mem_cons_self ..) hne, List.nil_append]
      exact ih hnodup.2 hmem fun other hother => hnil other (List.mem_cons_of_mem _ hother)

theorem filter_key_eq (hnodup : bucket.keys.Nodup) (key : K) :
    (bucket.list.filter fun pair => pair.1 = key).map Prod.snd = (bucket.find key).toList := by
  obtain ⟨size, depth, list⟩ := bucket
  induction list with
  | nil => rfl
  | cons pair rest ih =>
    simp only [Bucket.keys, List.map_cons, List.nodup_cons] at hnodup ih
    rw [Bucket.find_cons]
    by_cases hpair : pair.1 = key
    · have hrest : rest.filter (fun other => other.1 = key) = [] := by
        rw [List.filter_eq_nil_iff]
        intro other hother
        have hne : other.1 ≠ key := by
          rintro rfl
          exact hnodup.1 (hpair ▸ List.mem_map_of_mem hother)
        simpa using hne
      simp [hpair, hrest]
    · simpa [hpair] using ih hnodup.2

/-- **No entry is stored twice or out of reach.**  The pairs stored under a key,
over all buckets, are what `Find` returns for it. -/
theorem WellFormed.storedPairs_filter (h : WellFormed hash table) (key : K) :
    (table.storedPairs.filter fun pair => pair.1 = key).map Prod.snd =
      (table.find hash key).toList := by
  have hlt := h.bucketOf_lt key
  have hother : ∀ address ∈ List.range table.nextBucket, address ≠ table.bucketOf hash key →
      (table.buckets address).list.filter (fun pair => pair.1 = key) = [] := by
    intro address haddress hne
    rw [List.filter_eq_nil_iff]
    intro pair hpair
    simp only [decide_eq_true_eq]
    rintro rfl
    exact hne (h.bucketOf_eq address (List.mem_range.mp haddress) pair.1
      (List.mem_map_of_mem hpair)).symm
  rw [storedPairs, List.filter_flatMap,
    flatMap_eq_of_unique List.nodup_range (List.mem_range.mpr hlt) hother,
    filter_key_eq (h.keys_nodup _ hlt)]
  rfl

/-! ## Runs -/

/-- The table holds exactly the pairs of `map`, with the bucket size it was made with. -/
def Represents (hash : K → ℕ) (bucketSize : ℕ) (table : ExtendibleHashTable K V)
    (map : K → Option V) : Prop :=
  WellFormed hash table ∧ table.bucketSize = bucketSize ∧ ∀ key, table.find hash key = map key

theorem represents_create (hash : K → ℕ) (bucketSize : ℕ) :
    Represents hash bucketSize (create bucketSize : ExtendibleHashTable K V) fun _ => none :=
  ⟨wellFormed_create hash bucketSize, rfl, find_create hash bucketSize⟩

end ExtendibleHashTable

def hashSpec (map : K → Option V) : HashCall K V → HashAnswer V × (K → Option V)
  | .insert key value => (.inserted, Function.update map key (some value))
  | .find key => (.found (map key), map)
  | .remove key => (.removed (map key).isSome, Function.update map key none)

open ExtendibleHashTable

variable {hash : K → ℕ} {table : ExtendibleHashTable K V}

theorem hashMachine_step {bucketSize : ℕ} {next : ExtendibleHashTable K V}
    {map : K → Option V} {call : HashCall K V} {answer : HashAnswer V}
    (h : ExtendibleHashTable.Represents hash bucketSize table map)
    (hstep : (hashMachine hash).step table call = .ok (answer, next)) :
    answer = (hashSpec map call).1 ∧
      ExtendibleHashTable.Represents hash bucketSize next (hashSpec map call).2 := by
  obtain ⟨hwell, hsize, hfind⟩ := h
  cases call with
  | insert key value =>
    have hinserts := insert_inserts hwell key value
    simp only [hashMachine] at hstep
    cases hinsert : table.insert hash key value with
    | error fault => simp [hinsert] at hstep
    | ok result =>
      simp only [hinsert, Except.ok.injEq, Prod.mk.injEq] at hstep
      obtain ⟨rfl, rfl⟩ := hstep
      rw [hinsert] at hinserts
      obtain ⟨hwellNext, hsizeNext, hfindNext⟩ := hinserts
      refine ⟨rfl, hwellNext, hsizeNext.trans hsize, fun query => ?_⟩
      simp [hfindNext, hashSpec, Function.update_apply, hfind]
  | find key =>
    obtain ⟨rfl, rfl⟩ := hstep
    exact ⟨by rw [hfind]; rfl, hwell, hsize, hfind⟩
  | remove key =>
    simp only [hashMachine, Except.ok.injEq, Prod.mk.injEq] at hstep
    obtain ⟨rfl, rfl⟩ := hstep
    refine ⟨?_, hwell.remove key, hsize, fun query => ?_⟩
    · simp only [ExtendibleHashTable.remove, Bucket.remove_fst, hashSpec, ← hfind key]
      rfl
    · simp [find_remove hwell, hashSpec, Function.update_apply, hfind]

/-- The only call that can fail is an `Insert` that would take the directory to
depth `31`. -/
theorem hashMachine_fault {bucketSize : ℕ}
    {map : K → Option V} {call : HashCall K V} {fault : HashFault}
    (h : ExtendibleHashTable.Represents hash bucketSize table map)
    (hstep : (hashMachine hash).step table call = .error fault) : fault = .directoryOverflow := by
  cases call with
  | insert key value =>
    have hinserts := insert_inserts h.1 key value
    simp only [hashMachine] at hstep
    cases hinsert : table.insert hash key value with
    | ok result => simp [hinsert] at hstep
    | error stop =>
      simp only [hinsert, Except.error.injEq] at hstep
      rw [hinsert] at hinserts
      exact hstep ▸ hinserts.1
  | find key => simp [hashMachine] at hstep
  | remove key => simp [hashMachine] at hstep

theorem hashMachine_run (hash : K → ℕ) (bucketSize : ℕ) (calls : List (HashCall K V)) :
    (∀ answers table, (hashMachine hash).run (create bucketSize) calls = .ok (answers, table) →
      answers = Machine.specAnswers hashSpec (fun _ => none) calls ∧
        ExtendibleHashTable.Represents hash bucketSize table
          (Machine.specState hashSpec (fun _ => none) calls)) ∧
      ∀ fault, (hashMachine hash).run (create bucketSize : ExtendibleHashTable K V) calls =
        .error fault → fault = .directoryOverflow :=
  Machine.run_refines (fun _ _ _ _ _ h hstep => hashMachine_step h hstep)
    (fun _ _ _ _ h hstep => hashMachine_fault h hstep) (represents_create hash bucketSize) calls

/-- The shape of the directory that a table of a given bucket size must have. -/
structure DirectoryShape (hash : K → ℕ) (bucketSize : ℕ) (table : ExtendibleHashTable K V) :
    Prop where
  /-- The directory has one entry for each value of `global_depth_` bits. -/
  dir_length : table.dir.length = 2 ^ table.globalDepth
  localDepth_le : ∀ i < 2 ^ table.globalDepth, table.getLocalDepth i ≤ table.globalDepth
  /-- Two indices share a bucket exactly when they agree on its low bits. -/
  slot_eq_iff : ∀ i < 2 ^ table.globalDepth, ∀ j < 2 ^ table.globalDepth,
    table.slot i = table.slot j ↔
      i % 2 ^ table.getLocalDepth i = j % 2 ^ table.getLocalDepth i
  card_pointers : ∀ i < 2 ^ table.globalDepth,
    ((Finset.range (2 ^ table.globalDepth)).filter fun j => table.slot j = table.slot i).card =
      2 ^ (table.globalDepth - table.getLocalDepth i)
  /-- `num_buckets_` counts the distinct buckets of the directory. -/
  numBuckets_eq : table.numBuckets = table.dir.toFinset.card
  length_le : ∀ i < 2 ^ table.globalDepth, (table.buckets (table.slot i)).list.length ≤ bucketSize
  keys_nodup : ∀ i < 2 ^ table.globalDepth, (table.buckets (table.slot i)).keys.Nodup
  /-- Every stored key lies in the bucket its hash selects. -/
  bucketOf_eq : ∀ i < 2 ^ table.globalDepth, ∀ key ∈ (table.buckets (table.slot i)).keys,
    table.bucketOf hash key = table.slot i

omit [DecidableEq K] in
theorem ExtendibleHashTable.WellFormed.mem_dir_iff
    (h : WellFormed hash table) (address : ℕ) :
    address ∈ table.dir ↔ address < table.nextBucket := by
  have hslot : ∀ (i : ℕ) (hi : i < table.dir.length), table.slot i = table.dir[i] := fun i hi =>
    List.getD_eq_getElem _ _ hi
  constructor
  · intro hmem
    obtain ⟨i, hi, rfl⟩ := List.mem_iff_getElem.mp hmem
    rw [← hslot i hi]
    exact h.slot_lt i
  · intro hlt
    obtain ⟨i, hi, rfl⟩ := h.exists_slot address hlt
    rw [← h.dir_length] at hi
    rw [hslot i hi]
    exact List.getElem_mem hi

omit [DecidableEq K] in
theorem ExtendibleHashTable.WellFormed.directoryShape
    (h : WellFormed hash table) :
    DirectoryShape hash table.bucketSize table where
  dir_length := h.dir_length
  localDepth_le := h.shared.depth_le
  slot_eq_iff := h.shared.slot_eq_iff
  card_pointers := fun i hi => h.shared.card_slot hi
  numBuckets_eq := by
    have hset : table.dir.toFinset = Finset.range table.nextBucket := by
      ext address
      rw [List.mem_toFinset, Finset.mem_range, h.mem_dir_iff]
    rw [hset, Finset.card_range, h.numBuckets_eq]
  length_le := fun i _ => h.length_le _ (h.slot_lt i)
  keys_nodup := fun i _ => h.keys_nodup _ (h.slot_lt i)
  bucketOf_eq := fun i _ => h.bucketOf_eq _ (h.slot_lt i)

/-- **The directory keeps its shape.**  After every sequence of calls, whatever
the hash function and the bucket size, the table has the shape of
`DirectoryShape`, unless the directory reached depth `31` on the way. -/
theorem extendibleHashTable_directory (hash : K → ℕ) (bucketSize : ℕ)
    (calls : List (HashCall K V)) :
    match (hashMachine hash).run (create bucketSize) calls with
    | .ok (_, table) => table.globalDepth < depthLimit ∧ DirectoryShape hash bucketSize table
    | .error fault => fault = .directoryOverflow := by
  obtain ⟨hok, hfault⟩ := hashMachine_run hash bucketSize calls
  cases hrun : (hashMachine hash).run (create bucketSize) calls with
  | error fault => exact hfault fault hrun
  | ok result =>
    obtain ⟨answers, table⟩ := result
    obtain ⟨_, hwell, rfl, _⟩ := hok answers table hrun
    exact ⟨hwell.globalDepth_lt, hwell.directoryShape⟩

end BusTub

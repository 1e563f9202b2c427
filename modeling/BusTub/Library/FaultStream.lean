import Mathlib.Tactic.Common

/-!
# Sequences that may end in a fault

What an iterator yields: items one after the other, and then the end or a fault.  The operations
on such sequences stop at the first fault, of the sequence itself or of the function they apply.

Two operations in a row are one operation, and an operation on the items of a nested loop goes
into the loop.
-/

theorem Except.bind_eq_ok_iff {Fault First Second : Type} {first : Except Fault First}
    {next : First → Except Fault Second} {result : Second} :
    first >>= next = .ok result ↔ ∃ value, first = .ok value ∧ next value = .ok result := by
  cases first with
  | error fault => exact ⟨nofun, nofun⟩
  | ok value => exact ⟨fun h => ⟨value, rfl, h⟩, fun ⟨_, heq, h⟩ => Except.ok.inj heq ▸ h⟩

theorem Except.foldlM_invariant {Fault State Item : Type} {step : State → Item → Except Fault State}
    {Keeps : State → Prop} {list : List Item} {start final : State}
    (hstep : ∀ item ∈ list, ∀ state next, Keeps state → step state item = .ok next → Keeps next)
    (hstart : Keeps start) (h : list.foldlM step start = .ok final) : Keeps final := by
  induction list generalizing start with
  | nil =>
    cases h
    exact hstart
  | cons item rest ih =>
    rw [List.foldlM_cons, Except.bind_eq_ok_iff] at h
    obtain ⟨next, hnext, hrest⟩ := h
    exact ih (fun other hother => hstep other (List.mem_cons_of_mem _ hother))
      (hstep item List.mem_cons_self start next hstart hnext) hrest

theorem Except.length_of_mapM {Fault First Second : Type} {f : First → Except Fault Second}
    {list : List First} {results : List Second} (h : list.mapM f = .ok results) :
    results.length = list.length := by
  induction list generalizing results with
  | nil =>
    cases h
    rfl
  | cons item rest ih =>
    simp only [List.mapM_cons, Except.bind_eq_ok_iff] at h
    obtain ⟨result, -, others, hothers, h⟩ := h
    cases h
    rw [List.length_cons, List.length_cons, ih hothers]

theorem Except.getElem?_of_mapM {Fault First Second : Type} {f : First → Except Fault Second}
    {list : List First} {results : List Second} {index : ℕ} {item : First}
    (h : list.mapM f = .ok results) (hitem : list[index]? = some item) :
    ∃ result, f item = .ok result ∧ results[index]? = some result := by
  induction list generalizing results index with
  | nil => cases hitem
  | cons head rest ih =>
    simp only [List.mapM_cons, Except.bind_eq_ok_iff] at h
    obtain ⟨result, hresult, others, hothers, h⟩ := h
    cases h
    cases index with
    | zero =>
      obtain rfl : head = item := Option.some.inj hitem
      exact ⟨result, hresult, rfl⟩
    | succ index =>
      obtain ⟨other, hother, hget⟩ := ih hothers hitem
      exact ⟨other, hother, hget⟩

theorem Except.mapM_eq_map {Fault First Second : Type} {f : First → Except Fault Second}
    {g : First → Second} {list : List First} (h : ∀ item ∈ list, f item = .ok (g item)) :
    list.mapM f = .ok (list.map g) := by
  induction list with
  | nil => rfl
  | cons item rest ih =>
    rw [List.forall_mem_cons] at h
    rw [List.mapM_cons, h.1, ih h.2]
    rfl

/-- Items, and how they end. -/
inductive FaultStream (Fault Item : Type)
  | done
  | failed (fault : Fault)
  | next (item : Item) (rest : FaultStream Fault Item)
deriving DecidableEq

namespace FaultStream

variable {Fault Item First Second Third : Type}

def items : FaultStream Fault Item → List Item
  | done => []
  | failed _ => []
  | next item rest => item :: items rest

def ofList : List Item → FaultStream Fault Item
  | [] => done
  | item :: rest => next item (ofList rest)

@[simp] theorem items_ofList (list : List Item) :
    (ofList list : FaultStream Fault Item).items = list := by
  induction list with
  | nil => rfl
  | cons item rest ih => rw [ofList, items, ih]

def collect : FaultStream Fault Item → Except Fault (List Item)
  | done => .ok []
  | failed fault => .error fault
  | next item rest => do
      let items ← collect rest
      return item :: items

@[simp] theorem collect_ofList (list : List Item) :
    (ofList list : FaultStream Fault Item).collect = .ok list := by
  induction list with
  | nil => rfl
  | cons item rest ih =>
    rw [ofList, collect, ih]
    rfl

def map (f : First → Second) : FaultStream Fault First → FaultStream Fault Second
  | done => done
  | failed fault => failed fault
  | next item rest => next (f item) (map f rest)

/-- For every item, the function gives an item, none, or a fault that ends the sequence. -/
def filterMap (f : First → Except Fault (Option Second)) :
    FaultStream Fault First → FaultStream Fault Second
  | done => done
  | failed fault => failed fault
  | next item rest =>
    match f item with
    | .error fault => failed fault
    | .ok none => filterMap f rest
    | .ok (some result) => next result (filterMap f rest)

/-- For every item, the function gives an item, or a fault that ends the sequence. -/
def mapM (f : First → Except Fault Second) : FaultStream Fault First → FaultStream Fault Second :=
  filterMap fun item => (f item).map some

def append : FaultStream Fault Item → FaultStream Fault Item → FaultStream Fault Item
  | done, second => second
  | failed fault, _ => failed fault
  | next item rest, second => next item (append rest second)

def flatMap (f : First → FaultStream Fault Second) :
    FaultStream Fault First → FaultStream Fault Second
  | done => done
  | failed fault => failed fault
  | next item rest => append (f item) (flatMap f rest)

def All (p : Item → Prop) (stream : FaultStream Fault Item) : Prop := ∀ item ∈ stream.items, p item

def andThen (f : First → Except Fault (Option Second)) (g : Second → Except Fault (Option Third))
    (item : First) : Except Fault (Option Third) :=
  match f item with
  | .error fault => .error fault
  | .ok none => .ok none
  | .ok (some result) => g result

variable {f : First → Except Fault (Option Second)}

theorem andThen_of_ok
    {g : Second → Except Fault (Option Third)} {item : First} {result : Second}
    (h : f item = .ok (some result)) : andThen f g item = g result := by
  rw [andThen, h]

variable {p : Item → Prop}

theorem all_done : (done : FaultStream Fault Item).All p :=
  fun _ hmem => nomatch hmem

theorem all_failed (fault : Fault) :
    (failed fault : FaultStream Fault Item).All p :=
  fun _ hmem => nomatch hmem

theorem all_next {item : Item} {rest : FaultStream Fault Item} :
    All p (next item rest) ↔ p item ∧ All p rest := List.forall_mem_cons

theorem All.imp {q : Item → Prop} {stream : FaultStream Fault Item} (h : All p stream)
    (himp : ∀ item, p item → q item) : All q stream := fun item hmem => himp item (h item hmem)

/-- **Two operations in a row.** -/
theorem filterMap_filterMap (f : First → Except Fault (Option Second))
    (g : Second → Except Fault (Option Third)) (stream : FaultStream Fault First) :
    filterMap g (filterMap f stream) = filterMap (andThen f g) stream := by
  induction stream with
  | done => rfl
  | failed fault => rfl
  | next item rest ih =>
    simp only [filterMap, andThen]
    rcases f item with fault | _ | result
    · rfl
    · exact ih
    · simp [filterMap, ih]

variable {stream : FaultStream Fault First}

theorem filterMap_congr {g : First → Except Fault (Option Second)}
    (h : All (fun item => f item = g item) stream) :
    filterMap f stream = filterMap g stream := by
  induction stream with
  | done => rfl
  | failed fault => rfl
  | next item rest ih =>
    rw [all_next] at h
    simp [filterMap, h.1, ih h.2]

theorem filterMap_id {f : Item → Except Fault (Option Item)} {stream : FaultStream Fault Item}
    (h : All (fun item => f item = .ok (some item)) stream) : filterMap f stream = stream := by
  induction stream with
  | done => rfl
  | failed fault => rfl
  | next item rest ih =>
    rw [all_next] at h
    simp [filterMap, h.1, ih h.2]

theorem filterMap_ofList {keep : First → Bool}
    {g : First → Second} {list : List First}
    (h : ∀ item ∈ list, f item = .ok (if keep item then some (g item) else none)) :
    filterMap f (ofList list) = ofList ((list.filter keep).map g) := by
  induction list with
  | nil => rfl
  | cons item rest ih =>
    rw [List.forall_mem_cons] at h
    rw [ofList, filterMap, h.1, List.filter_cons]
    split_ifs
    · rw [ih h.2, List.map_cons, ofList]
    · exact ih h.2

theorem mapM_ofList {f : First → Except Fault Second} {g : First → Second} {list : List First}
    (h : ∀ item ∈ list, f item = .ok (g item)) : mapM f (ofList list) = ofList (list.map g) := by
  have hkeep : ∀ item ∈ list,
      (f item).map some = .ok (if (fun _ => true) item then some (g item) else none) := by
    intro item hmem
    rw [h item hmem]
    rfl
  rw [mapM, filterMap_ofList hkeep, List.filter_eq_self.mpr fun _ _ => rfl]

theorem filterMap_append (f : First → Except Fault (Option Second))
    (first second : FaultStream Fault First) :
    filterMap f (append first second) = append (filterMap f first) (filterMap f second) := by
  induction first with
  | done => rfl
  | failed fault => rfl
  | next item rest ih =>
    simp only [append, filterMap]
    rcases f item with fault | _ | result
    · rfl
    · exact ih
    · simp [append, ih]

/-- **An operation goes into a loop.** -/
theorem filterMap_flatMap (f : First → FaultStream Fault Second)
    (g : Second → Except Fault (Option Third)) (stream : FaultStream Fault First) :
    filterMap g (flatMap f stream) = flatMap (fun item => filterMap g (f item)) stream := by
  induction stream with
  | done => rfl
  | failed fault => rfl
  | next item rest ih => rw [flatMap, flatMap, filterMap_append, ih]

theorem flatMap_congr {f g : First → FaultStream Fault Second}
    (h : All (fun item => f item = g item) stream) : flatMap f stream = flatMap g stream := by
  induction stream with
  | done => rfl
  | failed fault => rfl
  | next item rest ih =>
    rw [all_next] at h
    rw [flatMap, flatMap, h.1, ih h.2]

theorem all_map {p : Second → Prop} {f : First → Second}
    (h : All (fun item => p (f item)) stream) : All p (map f stream) := by
  induction stream with
  | done => exact all_done
  | failed fault => exact all_failed fault
  | next item rest ih =>
    rw [all_next] at h
    exact all_next.mpr ⟨h.1, ih h.2⟩

variable {q : Second → Prop}

theorem all_filterMap {p : First → Prop}
    (h : All p stream) (hf : ∀ item result, p item → f item = .ok (some result) → q result) :
    All q (filterMap f stream) := by
  induction stream with
  | done => exact all_done
  | failed fault => exact all_failed fault
  | next item rest ih =>
    rw [all_next] at h
    rw [filterMap]
    cases hitem : f item with
    | error fault => exact all_failed fault
    | ok found =>
      cases found with
      | none => exact ih h.2
      | some result => exact all_next.mpr ⟨hf item result h.1 hitem, ih h.2⟩

theorem all_mapM {p : First → Prop} {f : First → Except Fault Second}
    (h : All p stream)
    (hf : ∀ item result, p item → f item = .ok result → q result) : All q (mapM f stream) := by
  refine all_filterMap h fun item result hitem hresult => hf item result hitem ?_
  cases hvalue : f item with
  | error fault =>
    rw [hvalue] at hresult
    cases hresult
  | ok value =>
    rw [hvalue] at hresult
    cases hresult
    rfl

theorem all_append {first second : FaultStream Fault Item} (hfirst : All p first)
    (hsecond : All p second) : All p (append first second) := by
  induction first with
  | done => exact hsecond
  | failed fault => exact all_failed fault
  | next item rest ih =>
    rw [all_next] at hfirst
    exact all_next.mpr ⟨hfirst.1, ih hfirst.2⟩

theorem all_flatMap {p : First → Prop} {f : First → FaultStream Fault Second}
    (h : All p stream) (hf : ∀ item, p item → All q (f item)) :
    All q (flatMap f stream) := by
  induction stream with
  | done => exact all_done
  | failed fault => exact all_failed fault
  | next item rest ih =>
    rw [all_next] at h
    exact all_append (hf item h.1) (ih h.2)

theorem filterMap_map (decode : First → Second) (f : Second → Except Fault (Option Third))
    (stream : FaultStream Fault First) :
    filterMap f (map decode stream) = filterMap (fun item => f (decode item)) stream := by
  induction stream with
  | done => rfl
  | failed fault => rfl
  | next item rest ih => simp only [map, filterMap, ih]

theorem ofList_map (f : First → Second) (list : List First) :
    (ofList (list.map f) : FaultStream Fault Second) = map f (ofList list) := by
  induction list with
  | nil => rfl
  | cons item rest ih => rw [List.map_cons, ofList, ofList, map, ih]

theorem mapM_map (decode : First → Second) (f : Second → Except Fault Third)
    (stream : FaultStream Fault First) :
    mapM f (map decode stream) = mapM (fun item => f (decode item)) stream :=
  filterMap_map decode _ stream

theorem map_filterMap {decode : Second → Third}
    {g : First → Except Fault (Option Third)}
    (h : All (fun item => g item = (f item).map (Option.map decode)) stream) :
    map decode (filterMap f stream) = filterMap g stream := by
  induction stream with
  | done => rfl
  | failed fault => rfl
  | next item rest ih =>
    rw [all_next] at h
    simp only [filterMap, h.1]
    rcases f item with fault | _ | result
    · rfl
    · exact ih h.2
    · exact congrArg (next (decode result)) (ih h.2)

theorem map_mapM {decode : Second → Third} {f : First → Except Fault Second}
    {g : First → Except Fault Third}
    (h : All (fun item => g item = (f item).map decode) stream) :
    map decode (mapM f stream) = mapM g stream := by
  refine map_filterMap (h.imp fun item hitem => ?_)
  rw [hitem]
  cases f item <;> rfl

end FaultStream

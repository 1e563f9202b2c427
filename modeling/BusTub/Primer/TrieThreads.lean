import BusTub.Primer.TrieSections
import BusTub.Library.Machine

/-!
# Threads on a trie

The calls of `Insert`, `Remove` and `GetValue` by several threads, as any interleaving of their
sections.  `Insert` is one section under the write latch.  `Remove` collects its path under the
read latch, gives this latch back and unlinks the path under the write latch.  `GetValue` finds
its node under the read latch, and reads the value of the node when it has given the latch back.
What other threads do in the gap of such a call may free what its pointers point to.

## Strategy

A call is done as a whole in the section in which it returns.  Beside the trie we keep for each
call in its gap whether the path of its key has been there all the time.  While it has, the
pointers of the call are the current ones, and otherwise the last of them points to a freed
object.  So the calls are atomic exactly if each of them goes on only with a path that was never
cut.
-/

namespace BusTub

open Function Machines ObjectHeap

variable {Ty : Type} [DecidableEq Ty] {Val : Ty → Type}

/-! ## Sections -/

inductive TrieGap (Ty : Type)
  | remove (key : Key) (v : List ℕ)
  | getValue (key : Key) (ty : Ty) (res : ℕ)

def TrieGap.call : TrieGap Ty → TrieCall Ty Val
  | .remove key _ => .remove key
  | .getValue key ty _ => .getValue key ty

namespace TrieHeap

/-- `Remove`, up to the write latch. -/
def startRemove (heap : TrieHeap (Sigma Val)) (key : Key) :
    Except TrieFault (TrieAnswer Ty Val ⊕ TrieGap Ty) :=
  if key.isEmpty then .ok (.inl (.returned false))
  else do
    match ← heap.collect key rootSlot [rootSlot] with
    | none => .ok (.inl (.returned false))
    | some v => .ok (.inr (.remove key v))

/-- `GetValue`, up to the end of the read latch. -/
def startGetValue (heap : TrieHeap (Sigma Val)) (key : Key) (ty : Ty) :
    Except TrieFault (TrieAnswer Ty Val ⊕ TrieGap Ty) := do
  match ← heap.find key rootSlot with
  | none => .ok (.inl (.got ty none))
  | some p =>
    match ← heap.castNode ty p with
    | none => .ok (.inl (.got ty none))
    | some res => .ok (.inr (.getValue key ty res))

/-- The first section of a call: it returns, or it is in its gap. -/
def start (heap : TrieHeap (Sigma Val)) :
    TrieCall Ty Val → Except TrieFault ((TrieAnswer Ty Val ⊕ TrieGap Ty) × TrieHeap (Sigma Val))
  | .insert key value => do
      let (inserted, heap) ← heap.insert key value
      .ok (.inl (.returned inserted), heap)
  | .remove key => do
      let outcome ← heap.startRemove key
      .ok (outcome, heap)
  | .getValue key ty => do
      let outcome ← heap.startGetValue key ty
      .ok (outcome, heap)

def finish (heap : TrieHeap (Sigma Val)) :
    TrieGap Ty → Except TrieFault (TrieAnswer Ty Val × TrieHeap (Sigma Val))
  | .remove key v => do
      let heap ← heap.unlink key.reverse v
      .ok (.returned true, heap)
  | .getValue _ ty res => do
      let value ← heap.getValue ty res
      .ok (.got ty value, heap)

end TrieHeap

/-- The trie and the calls that are in their gap, by their threads. -/
structure TrieThreads (Ty : Type) (Val : Ty → Type) where
  heap : TrieHeap (Sigma Val)
  running : ℕ → Option (TrieGap Ty)

/-- A thread runs the next section. -/
inductive TrieEvent (Ty : Type) (Val : Ty → Type)
  | start (thread : ℕ) (call : TrieCall Ty Val)
  | resume (thread : ℕ)

namespace TrieThreads

/-- A new trie, and no calls. -/
def create : TrieThreads Ty Val := ⟨.create, fun _ => none⟩

/-- The first section of a call.  A thread that is in a call does not start another one. -/
def start (state : TrieThreads Ty Val) (thread : ℕ) (call : TrieCall Ty Val) :
    Except TrieFault (Option (TrieCall Ty Val × TrieAnswer Ty Val) × TrieThreads Ty Val) :=
  match state.running thread with
  | some _ => .ok (none, state)
  | none =>
    match state.heap.start call with
    | .error fault => .error fault
    | .ok (.inl answer, heap) => .ok (some (call, answer), ⟨heap, state.running⟩)
    | .ok (.inr gap, heap) =>
      .ok (none, ⟨heap, Function.update state.running thread (some gap)⟩)

def resume (state : TrieThreads Ty Val) (thread : ℕ) :
    Except TrieFault (Option (TrieCall Ty Val × TrieAnswer Ty Val) × TrieThreads Ty Val) :=
  match state.running thread with
  | none => .ok (none, state)
  | some gap =>
    match state.heap.finish gap with
    | .error fault => .error fault
    | .ok (answer, heap) =>
      .ok (some (gap.call, answer), ⟨heap, Function.update state.running thread none⟩)

end TrieThreads

/-- The threads, one section at a time.  The answer says which call returned in the section. -/
def trieThreads : Machine (TrieThreads Ty Val) (TrieEvent Ty Val)
    (Option (TrieCall Ty Val × TrieAnswer Ty Val)) TrieFault where
  step state
    | .start thread call => state.start thread call
    | .resume thread => state.resume thread

/-! ## Atomic runs -/

/-- If the section is the one of `Remove` under the write latch, then the slots that it has
collected are those of the path. -/
def PathCurrent (state : TrieThreads Ty Val) : TrieEvent Ty Val → Prop
  | .start _ _ => True
  | .resume thread => ∀ key v, state.running thread = some (.remove key v) →
      state.heap.collect key rootSlot [rootSlot] = .ok (some v)

/-- `Remove` always acts on the current trie, and the outcome of the run is the one of the calls
that returned, one at a time in some order. -/
def Atomic (events : List (TrieEvent Ty Val)) : Prop :=
  trieThreads.Along PathCurrent .create events ∧
    ∃ answers final, trieThreads.run .create events = .ok (answers, final) ∧
      ∃ order tree, List.Perm order answers.reduceOption ∧
        trieMachine.run Trie.create (order.map Prod.fst) = .ok (order.map Prod.snd, tree) ∧
        final.heap.Holds tree

/-! ## The calls as a whole -/

def Trie.serve (tree : TrieNode (Sigma Val)) :
    TrieCall Ty Val → TrieAnswer Ty Val × TrieNode (Sigma Val)
  | .insert key value => (.returned (Trie.insert tree key value).1, (Trie.insert tree key value).2)
  | .remove key => (.returned (Trie.remove tree key).1, (Trie.remove tree key).2)
  | .getValue key ty => (.got ty (Trie.getValue tree key ty), tree)

theorem trieMachine_step (tree : TrieNode (Sigma Val)) (call : TrieCall Ty Val) :
    trieMachine.step tree call = .ok (Trie.serve tree call) := by
  cases call with
  | insert key value => rfl
  | remove key => rfl
  | getValue key ty => rfl

def TrieCall.key : TrieCall Ty Val → Key
  | .insert key _ => key
  | .remove key => key
  | .getValue key _ => key

def Trie.waits (tree : TrieNode (Sigma Val)) : TrieCall Ty Val → Bool
  | .insert _ _ => false
  | .remove key => !key.isEmpty && (Trie.walk key tree).isSome
  | .getValue key ty => (Trie.getValue tree key ty).isSome

/-- The trie, and for the calls that are in their gap whether their paths have been there since. -/
structure SerialTrie (Ty : Type) (Val : Ty → Type) where
  tree : TrieNode (Sigma Val)
  waiting : ℕ → Option (TrieCall Ty Val × Bool)

namespace SerialTrie

/-- A new trie, and no calls. -/
def create : SerialTrie Ty Val := ⟨Trie.create, fun _ => none⟩

def cut (tree : TrieNode (Sigma Val)) (waiting : Option (TrieCall Ty Val × Bool)) :
    Option (TrieCall Ty Val × Bool) :=
  waiting.map fun (call, kept) => (call, kept && (Trie.walk call.key tree).isSome)

def serve (waiting : ℕ → Option (TrieCall Ty Val × Bool)) (tree : TrieNode (Sigma Val))
    (call : TrieCall Ty Val) :
    Option (TrieCall Ty Val × TrieAnswer Ty Val) × SerialTrie Ty Val :=
  (some (call, (Trie.serve tree call).1),
    ⟨(Trie.serve tree call).2, fun thread => cut (Trie.serve tree call).2 (waiting thread)⟩)

end SerialTrie

/-- The sections, with each call done as a whole when it returns. -/
def serialStep (state : SerialTrie Ty Val) :
    TrieEvent Ty Val → Option (TrieCall Ty Val × TrieAnswer Ty Val) × SerialTrie Ty Val
  | .start thread call =>
    match state.waiting thread with
    | some _ => (none, state)
    | none =>
      if Trie.waits state.tree call then
        (none, ⟨state.tree, Function.update state.waiting thread (some (call, true))⟩)
      else SerialTrie.serve state.waiting state.tree call
  | .resume thread =>
    match state.waiting thread with
    | none => (none, state)
    | some (call, _) =>
      SerialTrie.serve (Function.update state.waiting thread none) state.tree call

/-- The path of a call that goes on was not cut in its gap. -/
def Undisturbed (state : SerialTrie Ty Val) : TrieEvent Ty Val → Prop
  | .start _ _ => True
  | .resume thread => ∀ call kept, state.waiting thread = some (call, kept) → kept = true

/-! ## Calls in their gap -/

variable {heap heap' : TrieHeap (Sigma Val)} {layout layout' : TrieLayout (Sigma Val)}
  {tree tree' : TrieNode (Sigma Val)} {call : TrieCall Ty Val} {gap : TrieGap Ty}

/-- The pointers of a call in its gap: they are current, or the path was cut and the last of them
points to a freed object. -/
inductive GapHolds (heap : TrieHeap (Sigma Val)) (layout : TrieLayout (Sigma Val)) :
    Option (TrieGap Ty) → Option (TrieCall Ty Val × Bool) → Prop
  | idle : GapHolds heap layout none none
  | removing {key : Key} {v : List ℕ} (hkey : key ≠ [])
      (hpath : layout.pathTo key.reverse = some v) :
      GapHolds heap layout (some (.remove key v)) (some (.remove key, true))
  | removeCut {key : Key} {son father : ℕ} {v : List ℕ} (hkey : key ≠ [])
      (hfreed : heap.slots.Freed son) :
      GapHolds heap layout (some (.remove key (son :: father :: v))) (some (.remove key, false))
  | reading {key : Key} {ty : Ty} {placed : TriePlace (Sigma Val)}
      (hplaced : layout key.reverse = some placed)
      (hcast : (placed.value.bind (castTo ty)).isSome) :
      GapHolds heap layout (some (.getValue key ty placed.node)) (some (.getValue key ty, true))
  | readCut {key : Key} {ty : Ty} {res : ℕ} (hfreed : heap.nodes.Freed res) :
      GapHolds heap layout (some (.getValue key ty res)) (some (.getValue key ty, false))

omit [DecidableEq Ty] in
theorem SerialTrie.cut_of_walk (call : TrieCall Ty Val) {kept : Bool}
    (h : (Trie.walk call.key tree).isSome = kept) :
    SerialTrie.cut tree (some (call, true)) = some (call, kept) := by
  simp [SerialTrie.cut, h]

theorem GapHolds.evolve {gap : Option (TrieGap Ty)} {waiting : Option (TrieCall Ty Val × Bool)}
    (h : GapHolds heap layout gap waiting) (hlaid : LaidOut heap layout)
    (hlaid' : LaidOut heap' layout') (hevolves : Evolves heap layout heap' layout')
    (hshows' : Shows layout' tree') :
    GapHolds heap' layout' gap (SerialTrie.cut tree' waiting) := by
  cases h with
  | idle => exact .idle
  | @removing key v hkey hpath =>
    have hsome : (layout key.reverse).isSome := by rw [← hlaid.pathTo_isSome, hpath]; rfl
    cases hwalk : (Trie.walk key tree').isSome with
    | true =>
      have hsome' : (layout' key.reverse).isSome := by rw [← hshows'.isSome, hwalk]
      rw [SerialTrie.cut_of_walk (.remove key) hwalk]
      refine .removing hkey ?_
      rw [hevolves.pathTo_eq hlaid hlaid' hsome hsome', hpath]
    | false =>
      obtain ⟨keyChar, way, hway⟩ :=
        List.exists_cons_of_ne_nil (List.reverse_ne_nil_iff.mpr hkey)
      have hnone' : layout' (keyChar :: way) = none := by
        rw [← hway, ← Option.not_isSome_iff_eq_none, ← hshows'.isSome, hwalk]
        exact Bool.false_ne_true
      rw [hway] at hpath
      obtain ⟨son, father, rest, hson, -, -, rfl⟩ := TrieLayout.exists_of_pathTo_cons hpath
      rw [SerialTrie.cut_of_walk (.remove key) hwalk]
      -- the last place of the path is gone, so its slot was freed
      rcases hevolves.kept _ son hson with ⟨placed', hplaced', -⟩ | ⟨-, hfreed, -⟩
      · rw [hnone'] at hplaced'
        cases hplaced'
      · exact .removeCut hkey hfreed
  | removeCut hkey hfreed => exact .removeCut hkey (hevolves.freed.slots _ hfreed)
  | @reading key ty placed hplaced hcast =>
    -- a node with a value is not replaced, so the pointer to it stays or is freed
    have hvalue : placed.value.isSome := by
      cases hvalue : placed.value with
      | none => rw [hvalue] at hcast; cases hcast
      | some value => rfl
    cases hwalk : (Trie.walk key tree').isSome with
    | true =>
      rw [SerialTrie.cut_of_walk (.getValue key ty) hwalk]
      rcases hevolves.kept _ placed hplaced with ⟨placed', hplaced', -, hsame⟩ | ⟨hnone, -⟩
      · obtain rfl := hsame hvalue
        exact .reading hplaced' hcast
      · rw [hshows'.isSome, hnone] at hwalk
        cases hwalk
    | false =>
      rw [SerialTrie.cut_of_walk (.getValue key ty) hwalk]
      rcases hevolves.kept _ placed hplaced with ⟨placed', hplaced', -⟩ | ⟨-, -, hfreed⟩
      · rw [hshows'.isSome, hplaced'] at hwalk
        cases hwalk
      · exact .readCut hfreed
  | readCut hfreed => exact .readCut (hevolves.freed.nodes _ hfreed)

theorem GapHolds.update {running : ℕ → Option (TrieGap Ty)}
    {waiting : ℕ → Option (TrieCall Ty Val × Bool)} {thread : ℕ} {gap : Option (TrieGap Ty)}
    {call : Option (TrieCall Ty Val × Bool)}
    (hgaps : ∀ thread, GapHolds heap layout (running thread) (waiting thread))
    (hgap : GapHolds heap layout gap call) (other : ℕ) :
    GapHolds heap layout (update running thread gap other)
      (update waiting thread call other) := by
  by_cases hother : other = thread
  · rw [hother, update_self, update_self]
    exact hgap
  · rw [update_of_ne hother, update_of_ne hother]
    exact hgaps other

/-- A call is done: the heap holds what is left of the trie. -/
structure Served (heap : TrieHeap (Sigma Val)) (layout : TrieLayout (Sigma Val))
    (tree : TrieNode (Sigma Val)) (call : TrieCall Ty Val) (heap' : TrieHeap (Sigma Val))
    (layout' : TrieLayout (Sigma Val)) : Prop where
  laidOut : LaidOut heap' layout'
  shows : Shows layout' (Trie.serve tree call).2
  evolves : Evolves heap layout heap' layout'

theorem served_refl (hlaid : LaidOut heap layout) (hshows : Shows layout tree)
    (hsame : (Trie.serve tree call).2 = tree) : Served heap layout tree call heap layout := by
  refine ⟨hlaid, ?_, .refl heap layout⟩
  rw [hsame]
  exact hshows

/-- What the first section of a call does: the call returns, or it is in its gap and its pointers
are current. -/
inductive Starts (heap : TrieHeap (Sigma Val)) (layout : TrieLayout (Sigma Val))
    (tree : TrieNode (Sigma Val)) (call : TrieCall Ty Val) : Prop
  | returns {heap' : TrieHeap (Sigma Val)} {layout' : TrieLayout (Sigma Val)}
      (hwaits : Trie.waits tree call = false)
      (hstart : heap.start call = .ok (.inl (Trie.serve tree call).1, heap'))
      (hserved : Served heap layout tree call heap' layout')
  | waits {gap : TrieGap Ty} (hwaits : Trie.waits tree call = true)
      (hstart : heap.start call = .ok (.inr gap, heap))
      (hgap : GapHolds heap layout (some gap) (some (call, true)))

theorem starts_insert (hlaid : LaidOut heap layout) (hshows : Shows layout tree)
    (htrimmed : Trie.Trimmed tree) (key : Key) (value : Sigma Val) :
    Starts heap layout tree (.insert key value) := by
  obtain ⟨heap', layout', hinsert, hlaid', hshows', hgrows, hfreed⟩ :=
    hlaid.insert hshows htrimmed key value
  refine .returns rfl ?_ ⟨hlaid', hshows', hgrows.evolves hfreed⟩
  rw [TrieHeap.start, hinsert]
  rfl

theorem starts_remove (hlaid : LaidOut heap layout) (hshows : Shows layout tree) (key : Key) :
    Starts heap layout tree (.remove key) := by
  by_cases hkey : key = []
  · subst hkey
    exact .returns rfl rfl (served_refl hlaid hshows rfl)
  · have hempty : key.isEmpty = false := by simpa using hkey
    have hcollect := hlaid.collect_root key
    have hsome : (Trie.walk key tree).isSome = (layout.pathTo key.reverse).isSome := by
      rw [hlaid.pathTo_isSome, hshows.isSome]
    cases hpath : layout.pathTo key.reverse with
    | none =>
      rw [hpath] at hcollect hsome
      have hremove : Trie.remove tree key = (false, tree) := Trie.remove_of_walk_eq_none
        (Option.isNone_iff_eq_none.mp (Option.isSome_eq_false_iff.mp hsome))
      refine .returns (by simp [Trie.waits, hsome]) ?_
        (served_refl hlaid hshows (congrArg Prod.snd hremove))
      simp only [TrieHeap.start, TrieHeap.startRemove, hempty, hcollect, Trie.serve, hremove]
      rfl
    | some v =>
      rw [hpath] at hcollect hsome
      refine .waits (by simp [Trie.waits, hempty, hsome]) ?_ (.removing hkey hpath)
      simp only [TrieHeap.start, TrieHeap.startRemove, hempty, hcollect]
      rfl

theorem starts_getValue (hlaid : LaidOut heap layout) (hshows : Shows layout tree) (key : Key)
    (ty : Ty) : Starts heap layout tree (.getValue key ty) := by
  have hfind := hlaid.find_root key
  have hget := hshows.getValue key ty
  cases hplaced : layout key.reverse with
  | none =>
    rw [hplaced] at hfind hget
    refine .returns (by rw [Trie.waits, hget]; rfl) ?_ (served_refl hlaid hshows rfl)
    rw [TrieHeap.start, TrieHeap.startGetValue, hfind, Trie.serve, hget]
    rfl
  | some placed =>
    rw [hplaced, Option.bind_some] at hget
    rw [hplaced] at hfind
    have hcastNode := hlaid.castNode hplaced ty
    cases hcast : (placed.value.bind (castTo ty)).isSome with
    | false =>
      -- the node has no value, or one of another type
      rw [hcast, if_neg Bool.false_ne_true] at hcastNode
      have hnone : Trie.getValue tree key ty = none := by
        rw [hget, ← Option.not_isSome_iff_eq_none, hcast]
        exact Bool.false_ne_true
      refine .returns (by rw [Trie.waits, hnone]; rfl) ?_ (served_refl hlaid hshows rfl)
      simp only [TrieHeap.start, TrieHeap.startGetValue, hfind, bind, Except.bind,
        Option.map_some, hcastNode, Trie.serve, hnone]
    | true =>
      rw [hcast, if_pos rfl] at hcastNode
      refine .waits (by rw [Trie.waits, hget, hcast]) ?_ (.reading hplaced hcast)
      simp only [TrieHeap.start, TrieHeap.startGetValue, hfind, bind, Except.bind,
        Option.map_some, hcastNode]

/-- **The first section** of a call. -/
theorem LaidOut.start (hlaid : LaidOut heap layout) (hshows : Shows layout tree)
    (htrimmed : Trie.Trimmed tree) (call : TrieCall Ty Val) : Starts heap layout tree call := by
  cases call with
  | insert key value => exact starts_insert hlaid hshows htrimmed key value
  | remove key => exact starts_remove hlaid hshows key
  | getValue key ty => exact starts_getValue hlaid hshows key ty

/-- **The second section** with current pointers. -/
theorem GapHolds.finish (h : GapHolds heap layout (some gap) (some (call, true)))
    (hlaid : LaidOut heap layout) (hshows : Shows layout tree) :
    gap.call = call ∧ ∃ heap' layout', heap.finish gap = .ok ((Trie.serve tree call).1, heap') ∧
      Served heap layout tree call heap' layout' := by
  cases h with
  | @removing key v hkey hpath =>
    have hwalk : (Trie.walk key tree).isSome := by
      rw [hshows.isSome, ← hlaid.pathTo_isSome, hpath]
      rfl
    obtain ⟨heap', layout', hunlink, hlaid', hshows', hshrinks, hfreed⟩ :=
      hlaid.prune hshows hwalk hpath
    have hserve : Trie.serve tree (.remove key : TrieCall Ty Val) =
        (.returned true, (Trie.prune key tree).1) := by
      rw [Trie.serve, Trie.remove_of_walk hkey hwalk]
    refine ⟨rfl, heap', layout', ?_, hlaid', hserve ▸ hshows', hshrinks.evolves hfreed⟩
    rw [TrieHeap.finish, hunlink, hserve]
    rfl
  | @reading key ty placed hplaced hcast =>
    refine ⟨rfl, heap, layout, ?_, served_refl hlaid hshows rfl⟩
    rw [TrieHeap.finish, hlaid.getValue hplaced ty, Trie.serve, hshows.getValue key ty, hplaced]
    rfl

theorem GapHolds.finish_of_cut (h : GapHolds heap layout (some gap) (some (call, false))) :
    (heap.finish gap : Except TrieFault (TrieAnswer Ty Val × TrieHeap (Sigma Val))) =
      .error .invalidPointer := by
  cases h with
  | @removeCut key son father v hkey hfreed =>
    obtain ⟨keyChar, way, hway⟩ :=
      List.exists_cons_of_ne_nil (List.reverse_ne_nil_iff.mpr hkey)
    rw [TrieHeap.finish, hway, TrieHeap.unlink, TrieHeap.deref, TrieHeap.pointer, hfreed.2]
    rfl
  | @readCut key ty res hfreed =>
    rw [TrieHeap.finish, TrieHeap.getValue, TrieHeap.object, hfreed.2]
    rfl

/-! ## Runs -/

theorem Trie.Trimmed.serve (h : Trie.Trimmed tree) (call : TrieCall Ty Val) :
    Trie.Trimmed (Trie.serve tree call).2 := by
  cases call with
  | insert key value =>
    rw [Trie.serve, Trie.insert]
    split_ifs
    · exact h
    · exact (h.insertBelow value key).1
  | remove key =>
    rw [Trie.serve, Trie.remove]
    split_ifs
    · exact h
    · cases hwalk : Trie.walk key tree with
      | none => exact h
      | some last => exact (h.prune (Option.isSome_of_eq_some hwalk)).1
  | getValue key ty => exact h

/-- The heap holds the trie, with the pointers of the calls in their gap. -/
structure ThreadsInvariant (state : TrieThreads Ty Val) (serial : SerialTrie Ty Val) : Prop where
  trimmed : Trie.Trimmed serial.tree
  laidOut : ∃ layout, LaidOut state.heap layout ∧ Shows layout serial.tree ∧
    ∀ thread, GapHolds state.heap layout (state.running thread) (serial.waiting thread)

namespace ThreadsInvariant

variable {state : TrieThreads Ty Val} {serial : SerialTrie Ty Val}

theorem create : ThreadsInvariant (.create : TrieThreads Ty Val) .create :=
  ⟨Trie.trimmed_new 0, .create, .create, shows_create, fun _ => .idle⟩

theorem serve {running : ℕ → Option (TrieGap Ty)}
    {waiting : ℕ → Option (TrieCall Ty Val × Bool)} (htrimmed : Trie.Trimmed tree)
    (hlaid : LaidOut heap layout)
    (hgaps : ∀ thread, GapHolds heap layout (running thread) (waiting thread))
    (hserved : Served heap layout tree call heap' layout') :
    ThreadsInvariant ⟨heap', running⟩ (SerialTrie.serve waiting tree call).2 :=
  ⟨htrimmed.serve call, layout', hserved.laidOut, hserved.shows,
    fun thread => (hgaps thread).evolve hlaid hserved.laidOut hserved.evolves hserved.shows⟩

theorem start (h : ThreadsInvariant state serial) (thread : ℕ) (call : TrieCall Ty Val) :
    ∃ next, state.start thread call = .ok ((serialStep serial (.start thread call)).1, next) ∧
      ThreadsInvariant next (serialStep serial (.start thread call)).2 := by
  obtain ⟨layout, hlaid, hshows, hgaps⟩ := h.laidOut
  have hgap := hgaps thread
  generalize hrunning : state.running thread = running at hgap
  generalize hwaiting : serial.waiting thread = waiting at hgap
  cases hgap with
  | idle =>
    cases hlaid.start hshows h.trimmed call with
    | @returns heap' layout' hwaits hstart hserved =>
      refine ⟨⟨heap', state.running⟩, ?_, ?_⟩
      · simp [TrieThreads.start, hrunning, hstart, serialStep, hwaiting, hwaits, SerialTrie.serve]
      · simp only [serialStep, hwaiting, hwaits, Bool.false_eq_true, if_false]
        exact serve h.trimmed hlaid hgaps hserved
    | @waits gap hwaits hstart hgap =>
      refine ⟨⟨state.heap, update state.running thread (some gap)⟩, ?_, ?_⟩
      · simp [TrieThreads.start, hrunning, hstart, serialStep, hwaiting, hwaits]
      · simp only [serialStep, hwaiting, hwaits, if_true]
        exact ⟨h.trimmed, layout, hlaid, hshows, GapHolds.update hgaps hgap⟩
  | _ =>
    refine ⟨state, ?_, ?_⟩
    · simp [TrieThreads.start, hrunning, serialStep, hwaiting]
    · simp only [serialStep, hwaiting]
      exact h

theorem resume (h : ThreadsInvariant state serial) {thread : ℕ}
    (hundisturbed : Undisturbed serial (.resume thread)) :
    ∃ next, state.resume thread = .ok ((serialStep serial (.resume thread)).1, next) ∧
      ThreadsInvariant next (serialStep serial (.resume thread)).2 := by
  obtain ⟨layout, hlaid, hshows, hgaps⟩ := h.laidOut
  have hgap := hgaps thread
  cases hwaiting : serial.waiting thread with
  | none =>
    rw [hwaiting] at hgap
    generalize hrunning : state.running thread = running at hgap
    cases hgap
    refine ⟨state, ?_, ?_⟩
    · simp [TrieThreads.resume, hrunning, serialStep, hwaiting]
    · simp only [serialStep, hwaiting]
      exact h
  | some pair =>
    obtain ⟨call, kept⟩ := pair
    obtain rfl := hundisturbed call kept hwaiting
    rw [hwaiting] at hgap
    cases hrunning : state.running thread with
    | none =>
      rw [hrunning] at hgap
      cases hgap
    | some gap =>
      rw [hrunning] at hgap
      obtain ⟨hcall, heap', layout', hfinish, hserved⟩ := hgap.finish hlaid hshows
      refine ⟨⟨heap', update state.running thread none⟩, ?_, ?_⟩
      · simp [TrieThreads.resume, hrunning, hfinish, hcall, serialStep, hwaiting, SerialTrie.serve]
      · simp only [serialStep, hwaiting]
        exact serve h.trimmed hlaid (GapHolds.update hgaps .idle) hserved

variable {event : TrieEvent Ty Val}

/-- **One section.** -/
theorem keeps (h : ThreadsInvariant state serial)
    (hundisturbed : Undisturbed serial event) :
    ∃ next, trieThreads.step state event = .ok ((serialStep serial event).1, next) ∧
      ThreadsInvariant next (serialStep serial event).2 := by
  cases event with
  | start thread call => exact h.start thread call
  | resume thread => exact h.resume hundisturbed

/-- A call that goes on after its path was cut does not return. -/
theorem undisturbed_of_step (h : ThreadsInvariant state serial)
    {answer : Option (TrieCall Ty Val × TrieAnswer Ty Val)} {next : TrieThreads Ty Val}
    (hstep : trieThreads.step state event = .ok (answer, next)) : Undisturbed serial event := by
  cases event with
  | start thread call => trivial
  | resume thread =>
    intro call kept hwaiting
    obtain ⟨layout, hlaid, hshows, hgaps⟩ := h.laidOut
    have hgap := hgaps thread
    rw [hwaiting] at hgap
    cases kept with
    | true => rfl
    | false =>
      cases hrunning : state.running thread with
      | none =>
        rw [hrunning] at hgap
        cases hgap
      | some gap =>
        rw [hrunning] at hgap
        have hresume : state.resume thread = .ok (answer, next) := hstep
        simp only [TrieThreads.resume, hrunning] at hresume
        rw [hgap.finish_of_cut] at hresume
        cases hresume

theorem pathCurrent (h : ThreadsInvariant state serial)
    (hundisturbed : Undisturbed serial event) : PathCurrent state event := by
  cases event with
  | start thread call => trivial
  | resume thread =>
    intro key v hrunning
    obtain ⟨layout, hlaid, hshows, hgaps⟩ := h.laidOut
    have hgap := hgaps thread
    rw [hrunning] at hgap
    generalize hwaiting : serial.waiting thread = waiting at hgap
    cases hgap with
    | removing hkey hpath => rw [hlaid.collect_root, hpath]
    | removeCut hkey hfreed => cases hundisturbed _ _ hwaiting

theorem holds (h : ThreadsInvariant state serial) : state.heap.Holds serial.tree := by
  obtain ⟨layout, hlaid, hshows, -⟩ := h.laidOut
  exact hlaid.holds hshows

end ThreadsInvariant

theorem serialStep_cases (serial : SerialTrie Ty Val) (event : TrieEvent Ty Val) :
    ((serialStep serial event).1 = none ∧ (serialStep serial event).2.tree = serial.tree) ∨
      ∃ waiting call, serialStep serial event = SerialTrie.serve waiting serial.tree call := by
  cases event with
  | start thread call =>
    cases hwaiting : serial.waiting thread with
    | some pair => exact .inl (by simp only [serialStep, hwaiting, and_self])
    | none =>
      by_cases hwaits : Trie.waits serial.tree call = true
      · exact .inl (by simp only [serialStep, hwaiting, hwaits, if_true, and_self])
      · exact .inr ⟨serial.waiting, call, by simp only [serialStep, hwaiting, hwaits]; rfl⟩
  | resume thread =>
    cases hwaiting : serial.waiting thread with
    | none => exact .inl (by simp only [serialStep, hwaiting, and_self])
    | some pair =>
      exact .inr ⟨update serial.waiting thread none, pair.1,
        by simp only [serialStep, hwaiting]⟩

/-- One at a time, in the order in which they return, the calls have the same answers. -/
theorem run_serial (events : List (TrieEvent Ty Val)) :
    trieMachine.run Trie.create
        ((Machine.specAnswers serialStep .create events).reduceOption.map Prod.fst) =
      .ok ((Machine.specAnswers serialStep .create events).reduceOption.map Prod.snd,
        (Machine.specState serialStep .create events).tree) := by
  have hquiet : ∀ (serial : SerialTrie Ty Val) event, (serialStep serial event).1 = none →
      (serialStep serial event).2.tree = serial.tree := by
    intro serial event hnone
    rcases serialStep_cases serial event with ⟨-, htree⟩ | ⟨waiting, call, hserve⟩
    · exact htree
    · rw [hserve] at hnone
      cases hnone
  have hreturn : ∀ (serial : SerialTrie Ty Val) event returned,
      (serialStep serial event).1 = some returned →
      trieMachine.step serial.tree returned.1 =
        .ok (returned.2, (serialStep serial event).2.tree) := by
    intro serial event returned hreturned
    rcases serialStep_cases serial event with ⟨hnone, -⟩ | ⟨waiting, call, hserve⟩
    · rw [hnone] at hreturned
      cases hreturned
    · rw [hserve] at hreturned ⊢
      cases hreturned
      exact trieMachine_step serial.tree call
  exact Machine.run_returned hquiet hreturn .create events

/-- **Calls are atomic** exactly along the runs in which no call goes on after the path of its key
was cut in its gap. -/
theorem atomic_iff_undisturbed (events : List (TrieEvent Ty Val)) :
    Atomic events ↔ Machine.SpecAlong serialStep Undisturbed .create events := by
  have hkeeps : ∀ (state : TrieThreads Ty Val) serial event, ThreadsInvariant state serial →
      Undisturbed serial event →
      ∃ next, trieThreads.step state event = .ok ((serialStep serial event).1, next) ∧
        ThreadsInvariant next (serialStep serial event).2 :=
    fun _ _ _ h hundisturbed => h.keeps hundisturbed
  constructor
  · rintro ⟨-, answers, final, hrun, -⟩
    exact Machine.specAlong_of_run hkeeps (fun _ _ _ _ _ h hstep => h.undisturbed_of_step hstep)
      .create hrun
  · intro halong
    obtain ⟨final, hrun, hfinal⟩ := Machine.run_of_specAlong hkeeps .create halong
    exact ⟨Machine.along_of_specAlong hkeeps (fun _ _ _ h => h.pathCurrent) .create halong,
      _, final, hrun, _, _, .refl _, run_serial events, hfinal.holds⟩

/-! ## Two threads remove a key -/

/-- The key `"a"`. -/
def keyA : Key := [⟨97, by decide⟩]

/-- Two threads find the path of a key, and then each of them removes the key. -/
def twoRemoves : List (TrieEvent Unit fun _ => ℕ) :=
  [.start 0 (.insert keyA ⟨(), 1⟩), .start 0 (.remove keyA), .start 1 (.remove keyA), .resume 1] ++
    [.resume 0]

/-- The call of a thread is a `Remove` that has collected other slots than it would now. -/
def isStale (state : TrieThreads Ty Val) (thread : ℕ) : Bool :=
  match state.running thread with
  | some (.remove key v) =>
    decide ((state.heap.collect key rootSlot [rootSlot]).toOption ≠ some (some v))
  | _ => false

omit [DecidableEq Ty] in
theorem not_pathCurrent_of_isStale {state : TrieThreads Ty Val} {thread : ℕ}
    (h : isStale state thread = true) : ¬ PathCurrent state (.resume thread) := by
  intro hcurrent
  unfold isStale at h
  split at h
  case h_1 key v hrunning =>
    rw [hcurrent key v hrunning] at h
    simp [Except.toOption] at h
  case h_2 => cases h

/-- The second one enters its section with the slot that the first one has freed, and follows the
pointer to it. -/
theorem twoRemoves_stale : ¬ trieThreads.Along PathCurrent .create twoRemoves ∧
    trieThreads.run .create twoRemoves = .error .invalidPointer := by
  constructor
  · intro halong
    obtain ⟨⟨answers, state⟩, hrun, hstale⟩ := Machine.exists_ok_of_check
      (show (trieThreads.run .create (twoRemoves.take 4)).toOption.any
        (fun result => isStale result.2 0) = true by decide +kernel)
    have hlast := Machine.Along.right_of_append halong hrun
    exact not_pathCurrent_of_isStale hstale hlast.1
  · cases hrun : trieThreads.run .create twoRemoves with
    | error fault => cases fault; rfl
    | ok result =>
      have hnone : (trieThreads.run .create twoRemoves).toOption.isNone = true := by
        decide +kernel
      rw [hrun] at hnone
      cases hnone

end BusTub

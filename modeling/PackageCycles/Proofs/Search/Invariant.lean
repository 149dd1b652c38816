import PackageCycles.Proofs.Graph.Walk
import PackageCycles.Search.Basic

/-!
# The invariant of the search

A search keeps its path five times over: as a list, as the frames of its stack, as the places in
`positions`, as the packages marked `onPath`, and in the cursors of the frames. `Search.Coherent`
says that the five agree, that the path is a walk without repetition and that it is not longer than
the bound. A look at a package keeps this (`Coherent.visit`), and so do a step (`Coherent.step`) and
a whole run (`Coherent.run`), after which the path is empty. `finish_induction` is the one induction
over the steps of a run.
-/

namespace PackageCycles

namespace Search

/-! ## Runs -/

/-- The search with the cursor of the frame in hand moved to the next dependency. -/
def advance (s : Search) (frame : Frame) (below : List Frame) : Search :=
  { s with stack := { frame with next := frame.next + 1 } :: below }

section
variable {g : Graph} {maxDepth : Nat} {s t : Search}

/-- What a step can do: look at the next dependency of the package in hand, or leave that package if
there is none. -/
theorem step_cases (h : step g maxDepth s = some t) :
    ∃ frame below, s.stack = frame :: below ∧
      ((∃ hlt : frame.next < (g.dependencies frame.package).length,
          t = visit maxDepth (s.advance frame below) (g.dependencies frame.package)[frame.next]) ∨
        ((g.dependencies frame.package).length ≤ frame.next ∧
          t = s.retreat frame.package below)) := by
  unfold step at h
  split at h
  next => cases h
  next frame below hs =>
    refine ⟨frame, below, hs, ?_⟩
    split at h
    next p hp =>
      cases h
      obtain ⟨hlt, rfl⟩ := List.getElem?_eq_some_iff.1 hp
      exact .inl ⟨hlt, rfl⟩
    next hnone =>
      cases h
      exact .inr ⟨List.getElem?_eq_none_iff.1 hnone, rfl⟩

/-- There is a step unless the stack is empty. -/
theorem step_eq_none_iff : step g maxDepth s = none ↔ s.stack = [] := by
  unfold step
  split
  next h => simp [h]
  next h => split <;> simp [h]

/-- A run goes on from each of its states as from the first. -/
theorem finish_of_step (h : step g maxDepth s = some t) :
    finish g maxDepth s = finish g maxDepth t := by
  rw [finish]
  split
  next h' => rw [h] at h'; cases h'
  next h' => rw [h] at h'; cases h'; rfl

/-- A run from a state without a step stays there. -/
theorem finish_of_stack_eq_nil (h : s.stack = []) : finish g maxDepth s = s := by
  rw [finish]
  split
  next => rfl
  next h' => rw [step_eq_none_iff.2 h] at h'; cases h'

/-- What every step keeps holds at the end of a run, and there the stack is empty. -/
theorem finish_induction {P : Search → Prop}
    (hstep : ∀ s t, P s → step g maxDepth s = some t → P t) (hs : P s) :
    P (finish g maxDepth s) ∧ (finish g maxDepth s).stack = [] := by
  induction s using finish.induct g maxDepth with
  | case1 s h =>
    have hstack := step_eq_none_iff.1 h
    rw [finish_of_stack_eq_nil hstack]
    exact ⟨hs, hstack⟩
  | case2 s t h ih =>
    rw [finish_of_step h]
    exact ih (hstep s t hs h)

end

/-! ## Places on a path -/

/-- The place that a path without repetition gives to one of its packages. -/
theorem lookup_zipIdx_reverse {p : Package} (path : List Package) :
    p ∈ path → path.Nodup → path.zipIdx.reverse.lookup p = some (path.idxOf p) := by
  induction path using List.reverseRecOn with
  | nil => simp
  | append_singleton path q ih =>
    intro hp hnodup
    obtain ⟨hnodup, -, hdisj⟩ := List.nodup_append.1 hnodup
    rw [List.zipIdx_append, List.reverse_append]
    simp only [List.zipIdx_singleton, List.reverse_singleton, List.singleton_append,
      List.lookup_cons, Nat.zero_add]
    by_cases hpq : p = q
    · subst hpq
      have hp' : p ∉ path := fun h => hdisj p h p (by simp) rfl
      simp [List.idxOf_append, hp']
    · have hp' : p ∈ path := by simpa [hpq] using hp
      simp [beq_false_of_ne hpq, List.idxOf_append, hp', ih hp' hnodup]

/-- Taking a package that is not on a path out of the places on it changes nothing. -/
theorem filter_zipIdx_reverse {p : Package} {path : List Package} (h : p ∉ path) :
    path.zipIdx.reverse.filter (·.1 ≠ p) = path.zipIdx.reverse := by
  rw [List.filter_eq_self]
  rintro ⟨q, i⟩ hq
  have hq : q ∈ path := List.fst_mem_of_mem_zipIdx (List.mem_reverse.1 hq)
  simpa using fun heq : q = p => h (heq ▸ hq)

/-! ## Coherent states -/

/-- The path is a walk without repetition within the bound, and the stack, the places, the marks
and the cursors agree with it. -/
structure Coherent (g : Graph) (maxDepth : Nat) (s : Search) : Prop where
  /-- There is one frame for each package of the path, the last one first. -/
  frames : (s.stack.map Frame.package).reverse = s.path
  /-- No package is on the path twice. -/
  nodup : s.path.Nodup
  /-- Neighbours on the path are joined by an edge. -/
  isPath : g.IsPath s.path
  /-- The path is within the bound. -/
  bounded : s.path.length ≤ maxDepth
  /-- The packages marked as on the path are those of the path. -/
  onPath_iff : ∀ p, s.status p = .onPath ↔ p ∈ s.path
  /-- The places are those of the packages of the path. -/
  positions_eq : s.positions = s.path.zipIdx.reverse
  /-- No cursor is beyond the dependencies of its package. -/
  cursor_le : ∀ f ∈ s.stack, f.next ≤ (g.dependencies f.package).length

@[simp] theorem status_push (s : Search) (p q : Package) :
    (s.push p).status q = if q = p then .onPath else s.status q := status_mark s p q .onPath

@[simp] theorem status_retreat (s : Search) (p q : Package) (below : List Frame) :
    (s.retreat p below).status q = if q = p then .finished else s.status q :=
  status_mark s p q .finished

section
variable {g : Graph} {maxDepth : Nat} {s t : Search} {p : Package}

/-- The search has not started. -/
theorem Coherent.start (g : Graph) (maxDepth : Nat) : Coherent g maxDepth .start where
  frames := rfl
  nodup := .nil
  isPath := .nil
  bounded := Nat.zero_le _
  onPath_iff p := by simp [status, Search.start]
  positions_eq := rfl
  cursor_le := by simp [Search.start]

namespace Coherent

/-- An empty stack is the stack of an empty path. -/
theorem path_eq_nil (h : Coherent g maxDepth s) (hs : s.stack = []) : s.path = [] := by
  rw [← h.frames, hs]; rfl

/-- The path ends with the package in hand. -/
theorem getLast?_path (h : Coherent g maxDepth s) {frame : Frame} {below : List Frame}
    (hs : s.stack = frame :: below) : s.path.getLast? = some frame.package := by
  rw [← h.frames, hs, List.map_cons, List.reverse_cons, List.getLast?_concat]

/-- What is kept of the path when the package in hand is left. -/
theorem dropLast_path (h : Coherent g maxDepth s) {frame : Frame} {below : List Frame}
    (hs : s.stack = frame :: below) :
    s.path.dropLast = (below.map Frame.package).reverse := by
  rw [← h.frames, hs, List.map_cons, List.reverse_cons, List.dropLast_concat]

/-- The place kept for a package of the path is its place. -/
theorem position_eq (h : Coherent g maxDepth s) (hp : p ∈ s.path) :
    s.position p = s.path.idxOf p := by
  rw [position, h.positions_eq, lookup_zipIdx_reverse s.path hp h.nodup]; rfl

/-- Recording a cycle changes nothing else. -/
theorem close (h : Coherent g maxDepth s) (p : Package) : Coherent g maxDepth (s.close p) :=
  ⟨h.frames, h.nodup, h.isPath, h.bounded, h.onPath_iff, h.positions_eq, h.cursor_le⟩

/-- The path may be extended along an edge by a package that is not on it. -/
theorem push (h : Coherent g maxDepth s) (hp : p ∉ s.path) (hlen : s.path.length < maxDepth)
    (hedge : ∀ q ∈ s.path.getLast?, g.hasEdge q p) : Coherent g maxDepth (s.push p) where
  frames := by
    show ((⟨p, 0⟩ :: s.stack).map Frame.package).reverse = s.path ++ [p]
    rw [List.map_cons, List.reverse_cons, h.frames]
  nodup := by
    show (s.path ++ [p]).Nodup
    simpa [List.nodup_append] using ⟨h.nodup, fun q hq heq => hp (heq ▸ hq)⟩
  isPath := h.isPath.concat hedge
  bounded := by
    show (s.path ++ [p]).length ≤ maxDepth
    rw [List.length_append, List.length_singleton]; exact hlen
  onPath_iff q := by
    show _ ↔ q ∈ s.path ++ [p]
    rw [status_push, List.mem_append, List.mem_singleton]
    split
    next hq => simp [hq]
    next hq => simp [hq, h.onPath_iff q]
  positions_eq := by
    show (p, s.path.length) :: s.positions = (s.path ++ [p]).zipIdx.reverse
    rw [h.positions_eq, List.zipIdx_append, List.reverse_append]; simp
  cursor_le f hf := by
    rcases List.mem_cons.1 hf with rfl | hf
    · exact Nat.zero_le _
    · exact h.cursor_le f hf

/-- A look at a package that the end of the path depends on keeps the state coherent. -/
theorem visit (h : Coherent g maxDepth s) (hedge : ∀ q ∈ s.path.getLast?, g.hasEdge q p) :
    Coherent g maxDepth (visit maxDepth s p) := by
  unfold Search.visit
  split
  next => exact h.close p
  next => exact h
  next hst =>
    split
    next => exact h
    next hlen =>
      have hp : p ∉ s.path := fun hp => by
        rw [(h.onPath_iff p).2 hp] at hst; cases hst
      exact h.push hp (Nat.lt_of_not_le hlen) hedge

/-- Moving the cursor of the package in hand to its next dependency. -/
theorem advance (h : Coherent g maxDepth s) {frame : Frame} {below : List Frame}
    (hs : s.stack = frame :: below) (hnext : frame.next < (g.dependencies frame.package).length) :
    Coherent g maxDepth (s.advance frame below) where
  frames := by
    have := h.frames
    rw [hs] at this
    exact this
  nodup := h.nodup
  isPath := h.isPath
  bounded := h.bounded
  onPath_iff := h.onPath_iff
  positions_eq := h.positions_eq
  cursor_le f hf := by
    rcases List.mem_cons.1 hf with rfl | hf
    · exact hnext
    · exact h.cursor_le f (hs ▸ List.mem_cons_of_mem _ hf)

/-- Leaving the package in hand. -/
theorem retreat (h : Coherent g maxDepth s) {frame : Frame} {below : List Frame}
    (hs : s.stack = frame :: below) : Coherent g maxDepth (s.retreat frame.package below) := by
  have hpath : s.path = s.path.dropLast ++ [frame.package] :=
    (List.dropLast_append_getLast? _ (h.getLast?_path hs)).symm
  have hnodup := h.nodup
  rw [hpath, List.nodup_append] at hnodup
  have hleft : frame.package ∉ s.path.dropLast := fun hp => hnodup.2.2 _ hp _ (by simp) rfl
  refine ⟨(h.dropLast_path hs).symm, hnodup.1, h.isPath.dropLast, ?_, fun p => ?_, ?_,
    fun f hf => ?_⟩
  · exact Nat.le_trans (List.dropLast_prefix _).length_le h.bounded
  · show _ ↔ p ∈ s.path.dropLast
    rw [status_retreat]
    split
    next hp => simp [hp, hleft]
    next hp =>
      rw [h.onPath_iff p]
      conv_lhs => rw [hpath]
      simp [hp]
  · show s.positions.filter (·.1 ≠ frame.package) = s.path.dropLast.zipIdx.reverse
    rw [h.positions_eq]
    conv_lhs => rw [hpath]
    rw [List.zipIdx_append, List.reverse_append, List.filter_append, filter_zipIdx_reverse hleft]
    simp
  · exact h.cursor_le f (hs ▸ List.mem_cons_of_mem _ hf)

/-- There is an edge from the end of the path to each dependency of the package in hand. -/
theorem hasEdge_of_mem_dependencies (h : Coherent g maxDepth s) {frame : Frame}
    {below : List Frame} (hs : s.stack = frame :: below)
    (hp : p ∈ g.dependencies frame.package) : ∀ q ∈ s.path.getLast?, g.hasEdge q p := by
  intro q hq
  rw [h.getLast?_path hs, Option.mem_some_iff] at hq
  exact hq ▸ Graph.hasEdge_iff_mem_dependencies.2 hp

/-- A step keeps the state coherent. -/
theorem step (h : Coherent g maxDepth s) (ht : step g maxDepth s = some t) :
    Coherent g maxDepth t := by
  obtain ⟨frame, below, hs, ⟨hlt, rfl⟩ | ⟨-, rfl⟩⟩ := step_cases ht
  · exact (h.advance hs hlt).visit (h.hasEdge_of_mem_dependencies hs (List.getElem_mem hlt))
  · exact h.retreat hs

/-- A run from a coherent state with an empty path ends in such a state. -/
theorem run (h : Coherent g maxDepth s) (hs : s.stack = []) (root : Package) :
    Coherent g maxDepth (s.run g maxDepth root) ∧ (s.run g maxDepth root).stack = [] := by
  refine finish_induction (P := Coherent g maxDepth) (fun _ _ h ht => h.step ht) (h.visit ?_)
  rw [h.path_eq_nil hs]
  exact fun q hq => nomatch hq

end Coherent

end

end Search

end PackageCycles

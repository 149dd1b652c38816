import PackageCycles.Proofs.Graph.Edges
import PackageCycles.Proofs.Search.Recursion

/-!
# The search refines the recursive visit

`Findings.Visits` is the visit to a package as it is specified, with the bound held against the
length of the path: what a visit to a package on the path, to a finished one, to one beyond the
bound and to any other makes of the findings. There is one outcome, the one that `Findings.explore`
computes on the room that the bound leaves (`visits_iff_eq_explore`).

A search may start with places left over from earlier: only those of packages on the path are read,
and these are written first. Two searches that differ in such places alone do the same, step by step
(`Agrees.step`) and so to the end (`Agrees.finish`). With that, `run_eq_explore` holds of every
state that is at rest, and `run_refines_visits` puts the pieces together.
-/

namespace PackageCycles

namespace Findings

/-- The findings with the cycle recorded that `p` closes at the end of `path`. -/
def close (f : Findings) (path : List Package) (p : Package) : Findings :=
  { f with cycles := f.cycles ++ [path.drop (path.idxOf p) ++ [p]] }

mutual

/-- A visit to `p` from the end of `path` turns findings into others. -/
inductive Visits (g : Graph) (maxDepth : Nat) :
    (path : List Package) → Findings → (p : Package) → Findings → Prop where
  /-- A package on the path closes a cycle and is not descended into. -/
  | onPath {path f p} (hst : f.status p = .onPath) : Visits g maxDepth path f p (f.close path p)
  /-- A finished package is passed over. -/
  | finished {path f p} (hst : f.status p = .finished) : Visits g maxDepth path f p f
  /-- A package that would make the path too long is passed over. -/
  | tooLong {path f p} (hst : f.status p ≠ .onPath) (hlen : maxDepth ≤ path.length) :
      Visits g maxDepth path f p f
  /-- Any other package is on the path while its dependencies are visited in order. -/
  | enter {path f p dependencies f'} (hst : f.status p = .untouched) (hlen : path.length < maxDepth)
      (hordered : Ordered.IsOrdered dependencies)
      (hmem : ∀ q, q ∈ dependencies ↔ g.hasEdge p q)
      (heach : VisitsEach g maxDepth (path ++ [p]) (f.mark p .onPath) dependencies f') :
      Visits g maxDepth path f p (f'.mark p .finished)

/-- Visits to packages one after the other from the end of `path` turn findings into others. -/
inductive VisitsEach (g : Graph) (maxDepth : Nat) :
    (path : List Package) → Findings → List Package → Findings → Prop where
  /-- There is no package left to visit. -/
  | nil {path f} : VisitsEach g maxDepth path f [] f
  /-- The first package is visited before the others. -/
  | cons {path f p rest f' f''} (hvisit : Visits g maxDepth path f p f')
      (heach : VisitsEach g maxDepth path f' rest f'') :
      VisitsEach g maxDepth path f (p :: rest) f''

end

/-! ## The outcome of a visit -/

section
variable {g : Graph} {maxDepth room : Nat} {path : List Package} {f f' : Findings} {p : Package}

/-- A package that is on the path closes a cycle. -/
theorem visits_of_onPath (hst : f.status p = .onPath) :
    Visits g maxDepth path f p f' ↔ f' = f.close path p := by
  refine ⟨fun h => ?_, by rintro rfl; exact .onPath hst⟩
  cases h with
  | onPath => rfl
  | finished hst' => exact nomatch hst.symm.trans hst'
  | tooLong hst' => exact absurd hst hst'
  | enter hst' => exact nomatch hst.symm.trans hst'

/-- A package that is finished changes nothing. -/
theorem visits_of_finished (hst : f.status p = .finished) :
    Visits g maxDepth path f p f' ↔ f' = f := by
  refine ⟨fun h => ?_, by rintro rfl; exact .finished hst⟩
  cases h with
  | onPath hst' => exact nomatch hst.symm.trans hst'
  | finished => rfl
  | tooLong => rfl
  | enter hst' => exact nomatch hst.symm.trans hst'

/-- A path of full length is not followed further. -/
theorem visits_of_le (hst : f.status p = .untouched) (hlen : maxDepth ≤ path.length) :
    Visits g maxDepth path f p f' ↔ f' = f := by
  refine ⟨fun h => ?_, by rintro rfl; exact .tooLong (by simp [hst]) hlen⟩
  cases h with
  | onPath hst' => exact nomatch hst.symm.trans hst'
  | finished => rfl
  | tooLong => rfl
  | enter _ hlt => exact absurd hlt (Nat.not_lt_of_le hlen)

/-- A package that has not been met is put on the path, its dependencies are visited, and it is
finished. -/
theorem visits_of_lt (hst : f.status p = .untouched) (hlen : path.length < maxDepth) :
    Visits g maxDepth path f p f' ↔ ∃ f₁, VisitsEach g maxDepth (path ++ [p]) (f.mark p .onPath)
      (g.dependencies p) f₁ ∧ f' = f₁.mark p .finished := by
  constructor
  · intro h
    cases h with
    | onPath hst' => exact nomatch hst.symm.trans hst'
    | finished hst' => exact nomatch hst.symm.trans hst'
    | tooLong _ hle => exact absurd hlen (Nat.not_lt_of_le hle)
    | enter _ _ hordered hmem heach =>
      have heq := hordered.ext (g.isOrdered_dependencies p) fun q =>
        (hmem q).trans Graph.hasEdge_iff_mem_dependencies
      exact ⟨_, heq ▸ heach, rfl⟩
  · rintro ⟨f₁, heach, rfl⟩
    exact .enter hst hlen (g.isOrdered_dependencies p)
      (fun q => Graph.hasEdge_iff_mem_dependencies.symm) heach

/-- Where a visit has one outcome, so have visits one after the other. -/
theorem visitsEach_iff {packages : List Package} (hvisit : ∀ f p f',
    Visits g maxDepth path f p f' ↔ f' = explore g room path f p) :
    VisitsEach g maxDepth path f packages f' ↔ f' = packages.foldl (explore g room path) f := by
  induction packages generalizing f with
  | nil => exact ⟨fun h => by cases h; rfl, fun h => h ▸ .nil⟩
  | cons p rest ih =>
    refine ⟨fun h => ?_, fun h => .cons ((hvisit ..).2 rfl) (ih.2 h)⟩
    cases h with
    | cons h heach =>
      obtain rfl := (hvisit ..).1 h
      exact ih.1 heach

/-- A visit has one outcome, that of the exploration with the room that the bound leaves. The
induction is on the room, of which each dependency has one less than the package that it belongs
to. -/
theorem visits_iff_eq_explore : ∀ {room : Nat} {path : List Package} {f : Findings} {p : Package}
    {f' : Findings}, path.length + room = maxDepth →
    (Visits g maxDepth path f p f' ↔ f' = explore g room path f p)
  | room, path, f, p, f', hroom => by
    match hst : f.status p with
    | .onPath => rw [visits_of_onPath hst, explore_of_onPath hst, dropWhile_ne, close]
    | .finished => rw [visits_of_finished hst, explore_of_finished hst]
    | .untouched =>
      cases room with
      | zero => rw [visits_of_le hst (by omega), explore_zero hst]
      | succ room =>
        have hvisit : ∀ f q f', Visits g maxDepth (path ++ [p]) f q f' ↔
            f' = explore g room (path ++ [p]) f q := fun _ _ _ =>
          visits_iff_eq_explore (by rw [List.length_append, List.length_singleton]; omega)
        rw [visits_of_lt hst (by omega), explore_succ hst]
        simp only [visitsEach_iff hvisit, exists_eq_left]

end

end Findings

namespace Search

/-! ## Places left over -/

/-- Two searches are in the same state but for the places of packages that are not on the path. -/
structure Agrees (s t : Search) : Prop where
  /-- They differ in the places alone. -/
  eq : t = { s with positions := t.positions }
  /-- The packages on the path have the same place. -/
  position_eq : ∀ p, s.status p = .onPath → t.position p = s.position p

/-- The place of a package stays when another leaves the path. -/
theorem position_retreat {p q : Package} (h : q ≠ p) (s : Search) (below : List Frame) :
    (s.retreat p below).position q = s.position q := by
  have hlookup : ∀ positions : List (Package × Nat),
      (positions.filter (·.1 ≠ p)).lookup q = positions.lookup q := fun positions => by
    induction positions with
    | nil => rfl
    | cons entry rest ih =>
      by_cases hentry : entry.1 = p
      · rw [List.filter_cons_of_neg (by simp [hentry]), ih, List.lookup_cons,
          beq_false_of_ne (hentry ▸ h)]
      · rw [List.filter_cons_of_pos (by simp [hentry]), List.lookup_cons, List.lookup_cons, ih]
  rw [position, retreat, hlookup, position]

/-- The last package put on the path is at its end, and the places of the others stay. -/
theorem position_push (s : Search) (p q : Package) :
    (s.push p).position q = if q = p then s.path.length else s.position q := by
  by_cases h : q = p
  · simp [position, push, h]
  · simp [position, push, List.lookup_cons, beq_false_of_ne h, h]

namespace Agrees

section
variable {g : Graph} {maxDepth : Nat} {s s' t : Search}

theorem path_eq (h : Agrees s t) : t.path = s.path := by rw [h.eq]

theorem stack_eq (h : Agrees s t) : t.stack = s.stack := by rw [h.eq]

theorem status_eq (h : Agrees s t) (p : Package) : t.status p = s.status p := by
  rw [status, h.eq, status]

/-- What has been found out is the same. -/
theorem findings_eq (h : Agrees s t) : t.findings = s.findings := by rw [h.eq]; rfl

/-- The same cycle is closed. -/
theorem close (h : Agrees s t) {p : Package} (hst : s.status p = .onPath) :
    Agrees (s.close p) (t.close p) where
  eq := by
    rw [Search.close, Search.close, h.position_eq p hst]
    conv_lhs => rw [h.eq]
  position_eq := h.position_eq

/-- The same package is put on the path. -/
theorem push (h : Agrees s t) (p : Package) : Agrees (s.push p) (t.push p) where
  eq := by
    rw [Search.push, h.eq]
    rfl
  position_eq q hst := by
    rw [status_push] at hst
    rw [position_push, position_push, h.path_eq]
    split
    next => rfl
    next hq => exact h.position_eq q (by rwa [if_neg hq] at hst)

/-- A visit keeps the searches in agreement. -/
theorem visit (h : Agrees s t) (maxDepth : Nat) (p : Package) :
    Agrees (visit maxDepth s p) (visit maxDepth t p) := by
  unfold Search.visit
  rw [h.status_eq p, h.path_eq]
  split
  next hst => exact h.close hst
  next => exact h
  next =>
    split
    · exact h
    · exact h.push p

/-- So does going on to the next dependency. -/
theorem advance (h : Agrees s t) (frame : Frame) (below : List Frame) :
    Agrees (s.advance frame below) (t.advance frame below) where
  eq := by
    rw [Search.advance, h.eq]
    rfl
  position_eq := h.position_eq

/-- So does going back from a package. -/
theorem retreat (h : Agrees s t) (p : Package) (below : List Frame) :
    Agrees (s.retreat p below) (t.retreat p below) where
  eq := by
    rw [Search.retreat, h.eq]
    rfl
  position_eq q hst := by
    rw [status_retreat] at hst
    have hq : q ≠ p := fun hq => by rw [if_pos hq] at hst; cases hst
    rw [if_neg hq] at hst
    rw [position_retreat hq, position_retreat hq, h.position_eq q hst]

/-- Searches that agree take the same step, after which they agree. -/
theorem step (h : Agrees s t) (hs : step g maxDepth s = some s') :
    ∃ t', Search.step g maxDepth t = some t' ∧ Agrees s' t' := by
  obtain ⟨frame, below, hstack, ⟨hlt, rfl⟩ | ⟨hle, rfl⟩⟩ := step_cases hs
  · refine ⟨_, ?_, (h.advance frame below).visit maxDepth _⟩
    rw [Search.step, h.stack_eq, hstack]
    simp only [List.getElem?_eq_getElem hlt]
    rfl
  · refine ⟨_, ?_, h.retreat frame.package below⟩
    rw [Search.step, h.stack_eq, hstack]
    simp only [List.getElem?_eq_none hle]

/-- So they end in states that agree. -/
theorem finish (h : Agrees s t) (g : Graph) (maxDepth : Nat) :
    Agrees (finish g maxDepth s) (finish g maxDepth t) := by
  induction s using finish.induct g maxDepth generalizing t with
  | case1 s hs =>
    have hstack := step_eq_none_iff.1 hs
    rwa [finish_of_stack_eq_nil hstack, finish_of_stack_eq_nil (h.stack_eq.trans hstack)]
  | case2 s s' hs ih =>
    obtain ⟨t', ht, h'⟩ := h.step hs
    rw [finish_of_step hs, finish_of_step ht]
    exact ih h'

end

end Agrees

/-! ## Runs from rest -/

/-- The path and the stack are empty and no package is marked as on the path. -/
structure AtRest (s : Search) : Prop where
  /-- The path is empty. -/
  path_eq : s.path = []
  /-- The stack is empty. -/
  stack_eq : s.stack = []
  /-- No package is marked as on the path. -/
  notOnPath : ∀ p, s.status p ≠ .onPath

/-- The state after a number of steps, if there are that many. -/
def steps (g : Graph) (maxDepth : Nat) : Nat → Search → Option Search
  | 0, s => some s
  | n + 1, s => (step g maxDepth s).bind (steps g maxDepth n)

section
variable {g : Graph} {maxDepth : Nat} {s : Search}

/-- No more steps can be taken than there is work, and after the last one the run is finished. -/
theorem exists_steps_eq_finish (g : Graph) (maxDepth : Nat) (s : Search) :
    ∃ n ≤ work g s, steps g maxDepth n s = some (finish g maxDepth s) ∧
      step g maxDepth (finish g maxDepth s) = none := by
  induction s using finish.induct g maxDepth with
  | case1 s hs =>
    rw [finish_of_stack_eq_nil (step_eq_none_iff.1 hs)]
    exact ⟨0, Nat.zero_le _, rfl, hs⟩
  | case2 s t hs ih =>
    obtain ⟨n, hn, hsteps, hend⟩ := ih
    have hwork := work_step_lt hs
    rw [finish_of_step hs]
    exact ⟨n + 1, by omega, by rw [steps, hs, Option.bind_some, hsteps], hend⟩

/-- At rest, the places can be forgotten and the state is coherent. -/
theorem AtRest.coherent (h : s.AtRest) (g : Graph) (maxDepth : Nat) :
    Coherent g maxDepth { s with positions := [] } where
  frames := by simp [h.stack_eq, h.path_eq]
  nodup := by simp [h.path_eq]
  isPath := by
    show g.IsPath s.path
    rw [h.path_eq]
    exact .nil
  bounded := by simp [h.path_eq]
  onPath_iff p := by
    show s.status p = .onPath ↔ p ∈ s.path
    simp [h.notOnPath p, h.path_eq]
  positions_eq := by simp [h.path_eq]
  cursor_le := by simp [h.stack_eq]

/-- But for places left over, a run from rest leaves the state with the findings that the
exploration of its root adds. -/
theorem AtRest.agrees_run (h : s.AtRest) (g : Graph) (maxDepth : Nat) (root : Package) :
    Agrees (s.run g maxDepth root) ({ s with positions := [] }.withFindings
      (Findings.explore g maxDepth [] s.findings root)) := by
  -- No package is on the path, so there is no place to agree on.
  have hagrees : Agrees s { s with positions := [] } :=
    ⟨rfl, fun p hp => absurd hp (h.notOnPath p)⟩
  have hrun := (hagrees.visit maxDepth root).finish g maxDepth
  exact run_eq_explore (h.coherent g maxDepth) h.stack_eq root ▸ hrun

/-- A run from rest ends at rest, so that the next root is searched from such a state too. -/
theorem AtRest.run (h : s.AtRest) (g : Graph) (maxDepth : Nat) (root : Package) :
    (s.run g maxDepth root).AtRest where
  path_eq := (h.agrees_run g maxDepth root).path_eq.symm.trans h.path_eq
  stack_eq := (h.agrees_run g maxDepth root).stack_eq.symm.trans h.stack_eq
  notOnPath p hp := by
    rw [← (h.agrees_run g maxDepth root).status_eq p] at hp
    exact h.notOnPath p (Findings.status_explore_eq_onPath_iff.1 hp)

/-- From every state at rest, a search for a root comes to its end within the work it has, and the
visit to the root has one outcome: the search ends with the same cycles in the same order and the
same status of every package. -/
theorem run_refines_visits (h : s.AtRest) (g : Graph) (maxDepth : Nat) (root : Package) :
    (∃ n ≤ work g (visit maxDepth s root),
        steps g maxDepth n (visit maxDepth s root) = some (s.run g maxDepth root) ∧
          step g maxDepth (s.run g maxDepth root) = none) ∧
      ∃ f, (∀ f', Findings.Visits g maxDepth [] s.findings root f' ↔ f' = f) ∧
        (s.run g maxDepth root).cycles = f.cycles ∧
          ∀ p, (s.run g maxDepth root).status p = f.status p := by
  have hfindings := (h.agrees_run g maxDepth root).findings_eq
  refine ⟨exists_steps_eq_finish g maxDepth _, (s.run g maxDepth root).findings, fun f' => ?_, rfl,
    fun p => rfl⟩
  rw [← hfindings]
  exact Findings.visits_iff_eq_explore (by simp)

/-- Two cycles that share a package, with an edge out of each. -/
def linkedPairs : Graph := .build [⟨"a", ["b"]⟩, ⟨"b", ["a", "c", "d"]⟩, ⟨"d", ["b", "e"]⟩]

/-- A search that has finished one package, with a cycle found and a place left over. -/
def resumed : Search := ⟨[("c", .finished)], [("b", 7)], [], [], [["c", "c"]]⟩

/-- From `a` within three packages, `c` is passed over as finished and `e` as too far, and the place
left over for `b` does not matter. -/
theorem run_refines_visits_resumed :
    resumed.AtRest ∧
      ∃ f, Findings.Visits linkedPairs 3 [] resumed.findings "a" f ∧
        (resumed.run linkedPairs 3 "a").cycles = f.cycles ∧
        f.cycles = [(["c", "c"] : Cycle), ["a", "b", "a"], ["b", "d", "b"]] ∧
        f.status "d" = .finished ∧ f.status "e" = .untouched := by
  have hrest : resumed.AtRest := by
    refine ⟨rfl, rfl, fun p => ?_⟩
    by_cases h : p = "c" <;> simp [resumed, status, List.lookup_cons, h, beq_false_of_ne]
  have hcycles : (resumed.run linkedPairs 3 "a").cycles =
      [(["c", "c"] : Cycle), ["a", "b", "a"], ["b", "d", "b"]] := by decide +kernel
  have hd : (resumed.run linkedPairs 3 "a").status "d" = .finished := by decide +kernel
  have he : (resumed.run linkedPairs 3 "a").status "e" = .untouched := by decide +kernel
  obtain ⟨-, f, hvisits, hsame, hstatus⟩ := run_refines_visits hrest linkedPairs 3 "a"
  exact ⟨hrest, f, (hvisits f).2 rfl, hsame, hsame ▸ hcycles, hstatus _ ▸ hd, hstatus _ ▸ he⟩

end

end Search

end PackageCycles

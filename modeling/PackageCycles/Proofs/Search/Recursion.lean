import PackageCycles.Proofs.Search.Invariant
import PackageCycles.Search.Recursive

/-!
# The search is the recursive one

The steps of a search over an explicit stack do what the recursive search does. Looking at a package
and finishing gives the same as exploring the package and finishing from there (`finish_visit`), by
induction on the room that the path has left; the frames of a package are worked off in the order in
which the recursion goes through its dependencies (`finish_frame`). So a run from an empty path is
an exploration of its root (`run_eq_explore`). What the recursion finds out can then be proved by
induction on the room.
-/

namespace PackageCycles

namespace Findings

section
variable {g : Graph} {room : Nat} {path : List Package} {f : Findings} {p q : Package}

theorem status_mark (f : Findings) (p q : Package) (m : Status) :
    (f.mark p m).status q = if q = p then m else f.status q :=
  Search.status_mark ⟨f.marks, [], [], [], []⟩ p q m

/-- The two ways to cut a cycle out of a path agree. -/
theorem dropWhile_ne (path : List Package) (p : Package) :
    path.dropWhile (· ≠ p) = path.drop (path.idxOf p) := by
  rw [List.dropWhile_eq_drop_findIdx_not, List.idxOf]
  congr 2
  funext q
  simp [beq_eq_decide]

/-- A package of the path closes a cycle. -/
theorem explore_of_onPath (h : f.status p = .onPath) :
    explore g room path f p =
      { f with cycles := f.cycles ++ [path.dropWhile (· ≠ p) ++ [p]] } := by
  rw [explore.eq_def]; simp only [h]

/-- A finished package is passed over. -/
theorem explore_of_finished (h : f.status p = .finished) : explore g room path f p = f := by
  rw [explore.eq_def]; simp only [h]

/-- A path without room is not extended. -/
theorem explore_zero (h : f.status p = .untouched) : explore g 0 path f p = f := by
  rw [explore.eq_def]; simp only [h]

/-- Any other package is on the path while its dependencies are explored. -/
theorem explore_succ (h : f.status p = .untouched) :
    explore g (room + 1) path f p =
      ((g.dependencies p).foldl (explore g room (path ++ [p])) (f.mark p .onPath)).mark p
        .finished := by
  rw [explore.eq_def]; simp only [h]

end

/-- An exploration leaves the packages on the path on it and puts no other there. -/
theorem status_explore_eq_onPath_iff {g : Graph} {q : Package} : ∀ {room : Nat}
    {path : List Package} {f : Findings} {p : Package},
    (explore g room path f p).status q = .onPath ↔ f.status q = .onPath
  | room, path, f, p => by
    match hst : f.status p with
    | .onPath => rw [explore_of_onPath hst]; rfl
    | .finished => rw [explore_of_finished hst]
    | .untouched =>
      cases room with
      | zero => rw [explore_zero hst]
      | succ room =>
        have hfold : ∀ deps f', (List.foldl (explore g room (path ++ [p])) f' deps).status q =
            .onPath ↔ f'.status q = .onPath := fun deps => by
          induction deps with
          | nil => exact fun _ => .rfl
          | cons r deps ih => exact fun f' => (ih _).trans status_explore_eq_onPath_iff
        rw [explore_succ hst, status_mark]
        by_cases hq : q = p
        · simp [hq, hst]
        · rw [if_neg hq, hfold, status_mark, if_neg hq]

/-- The path is a walk without repetition, and its packages are those marked as on it. -/
structure Fits (g : Graph) (path : List Package) (f : Findings) : Prop where
  /-- No package is on the path twice. -/
  nodup : path.Nodup
  /-- Neighbours on the path are joined by an edge. -/
  isPath : g.IsPath path
  /-- The packages marked as on the path are those of the path. -/
  onPath_iff : ∀ p, f.status p = .onPath ↔ p ∈ path

namespace Fits

section
variable {g : Graph} {path : List Package} {f : Findings} {p : Package}

/-- An untouched package is not on the path. -/
theorem notMem (h : Fits g path f) (hst : f.status p = .untouched) : p ∉ path := fun hp => by
  rw [(h.onPath_iff p).2 hp] at hst; cases hst

/-- The path may be extended along an edge by an untouched package. -/
theorem extend (h : Fits g path f) (hst : f.status p = .untouched)
    (hedge : ∀ q ∈ path.getLast?, g.hasEdge q p) :
    Fits g (path ++ [p]) (f.mark p .onPath) where
  nodup := by
    simpa [List.nodup_append] using ⟨h.nodup, fun q hq heq => h.notMem hst (heq ▸ hq)⟩
  isPath := h.isPath.concat hedge
  onPath_iff q := by
    rw [status_mark, List.mem_append, List.mem_singleton]
    split
    next hq => simp [hq]
    next hq => simp [hq, h.onPath_iff q]

/-- An exploration leaves the path as it is. -/
theorem explore (h : Fits g path f) (room : Nat) (p : Package) :
    Fits g path (explore g room path f p) :=
  ⟨h.nodup, h.isPath, fun q => status_explore_eq_onPath_iff.trans (h.onPath_iff q)⟩

/-- So does the exploration of one package after the other. -/
theorem foldl_explore (h : Fits g path f) (room : Nat) (rest : List Package) :
    Fits g path (rest.foldl (Findings.explore g room path) f) := by
  induction rest generalizing f with
  | nil => exact h
  | cons p rest ih => exact ih (h.explore room p)

end

end Fits

end Findings

namespace Search

/-- What a search has found out. -/
def findings (s : Search) : Findings := ⟨s.marks, s.cycles⟩

/-- A search with other findings and the same path. -/
def withFindings (s : Search) (f : Findings) : Search :=
  { s with marks := f.marks, cycles := f.cycles }

section
variable {g : Graph} {maxDepth room : Nat} {s : Search} {p : Package}

/-- What a coherent search has found out fits its path. -/
theorem Coherent.fits (h : Coherent g maxDepth s) : s.findings.Fits g s.path :=
  ⟨h.nodup, h.isPath, h.onPath_iff⟩

/-- What an exploration finds out leaves a state coherent. -/
theorem Coherent.explore (h : Coherent g maxDepth s) (room : Nat) (path : List Package)
    (p : Package) :
    Coherent g maxDepth (s.withFindings (Findings.explore g room path s.findings p)) where
  frames := h.frames
  nodup := h.nodup
  isPath := h.isPath
  bounded := h.bounded
  onPath_iff q := Findings.status_explore_eq_onPath_iff.trans (h.onPath_iff q)
  positions_eq := h.positions_eq
  cursor_le := h.cursor_le

/-- The place kept for a package cuts its cycle out of the path. -/
theorem Coherent.drop_position (h : Coherent g maxDepth s) (hp : p ∈ s.path) :
    s.path.drop (s.position p) = s.path.dropWhile (· ≠ p) := by
  rw [h.position_eq hp, Findings.dropWhile_ne]

/-- Leaving a package takes back what putting it on the path had added. -/
theorem Coherent.retreat_push (h : Coherent g maxDepth s) (hp : p ∉ s.path) (f : Findings) :
    ((s.push p).withFindings f).retreat p s.stack = s.withFindings (f.mark p .finished) := by
  have hpositions : ((p, s.path.length) :: s.positions).filter (·.1 ≠ p) = s.positions := by
    rw [h.positions_eq, List.filter_cons_of_neg (by simp), filter_zipIdx_reverse hp]
  simp only [Search.retreat, Search.push, withFindings, mark, Findings.mark, hpositions,
    List.dropLast_concat]

/-- A look at `p` and all that follows from it, up to where the path is as before, is the
exploration of `p` with the room that the path has left. -/
def VisitsLike (g : Graph) (maxDepth room : Nat) : Prop :=
  ∀ (s : Search) (p : Package), Coherent g maxDepth s → s.path.length + room = maxDepth →
    (∀ q ∈ s.path.getLast?, g.hasEdge q p) →
    finish g maxDepth (visit maxDepth s p) =
      finish g maxDepth (s.withFindings (Findings.explore g room s.path s.findings p))

/-- The dependencies that the package in hand has left are explored one after the other, and then
the package is left. -/
theorem finish_frame (hvisit : VisitsLike g maxDepth room) (below : List Frame) (p : Package) :
    ∀ (rest : List Package) (s : Search) (next : Nat), Coherent g maxDepth s →
      s.path.length + room = maxDepth → s.stack = ⟨p, next⟩ :: below →
      (g.dependencies p).drop next = rest →
      finish g maxDepth s =
        finish g maxDepth ((s.withFindings
          (rest.foldl (Findings.explore g room s.path) s.findings)).retreat p below)
  | [], s, next, _, _, hs, hrest => by
    have hnext : (g.dependencies p)[next]? = none :=
      List.getElem?_eq_none_iff.2 (List.drop_eq_nil_iff.1 hrest)
    refine finish_of_step ?_
    rw [step, hs]
    simp only [hnext]
    rfl
  | q :: rest, s, next, h, hroom, hs, hrest => by
    have hnext : (g.dependencies p)[next]? = some q := by
      rw [← List.head?_drop, hrest]; rfl
    obtain ⟨hlt, hget⟩ := List.getElem?_eq_some_iff.1 hnext
    have hstep : step g maxDepth s = some (visit maxDepth (s.advance ⟨p, next⟩ below) q) := by
      rw [step, hs]
      simp only [hnext]
      rfl
    have hadvance := h.advance hs hlt
    have hedge := h.hasEdge_of_mem_dependencies hs (hget ▸ List.getElem_mem hlt)
    rw [finish_of_step hstep, hvisit _ q hadvance hroom hedge]
    exact finish_frame hvisit below p rest _ (next + 1) (hadvance.explore room _ q) hroom rfl
      (by rw [← List.tail_drop, hrest]; rfl)

/-- Looking at a package and finishing is exploring it and finishing from there. -/
theorem finish_visit (g : Graph) (maxDepth : Nat) : ∀ room, VisitsLike g maxDepth room
  | room, s, p, h, hroom, hedge => by
    match hst : s.status p with
    | .onPath =>
      have hp := (h.onPath_iff p).1 hst
      rw [Findings.explore_of_onPath (f := s.findings) hst, visit, hst, close, h.drop_position hp]
      rfl
    | .finished =>
      rw [Findings.explore_of_finished (f := s.findings) hst, visit, hst]
      rfl
    | .untouched =>
      cases room with
      | zero =>
        rw [Findings.explore_zero (f := s.findings) hst, visit, hst]
        simp only
        rw [if_pos (by omega)]
        rfl
      | succ room =>
        have hp : p ∉ s.path := fun hp => by rw [(h.onPath_iff p).2 hp] at hst; cases hst
        have hlt : s.path.length < maxDepth := by omega
        rw [Findings.explore_succ (f := s.findings) hst, visit, hst]
        simp only
        rw [if_neg (Nat.not_le_of_lt hlt),
          finish_frame (finish_visit g maxDepth room) s.stack p (g.dependencies p) (s.push p) 0
            (h.push hp hlt hedge) (by simp [push]; omega) rfl rfl,
          h.retreat_push hp]
        rfl

/-- A run from an empty path is the exploration of its root. -/
theorem run_eq_explore (h : Coherent g maxDepth s) (hs : s.stack = []) (root : Package) :
    s.run g maxDepth root =
      s.withFindings (Findings.explore g maxDepth [] s.findings root) := by
  have hpath := h.path_eq_nil hs
  have hvisit := finish_visit g maxDepth maxDepth s root h (by simp [hpath])
    (by rw [hpath]; exact fun q hq => nomatch hq)
  rw [run, hvisit, hpath]
  exact finish_of_stack_eq_nil hs

end

end Search

end PackageCycles

import PackageCycles.Proofs.Detection.Soundness
import PackageCycles.Proofs.Search.Refinement

/-!
# A search at all its steps

A search goes from state to state by steps, and where there is none by a look at a next root
(`Search.LeadsTo`). Every state that follows a coherent one is coherent (`LeadsTo.coherent`), and a
finished package stays finished in all of them (`LeadsTo.finished`).

A search cuts lists: a cycle out of the path, and the last package and its frame off the path and
the stack. `Search.stepInRange?` is the step in which each cut is refused unless its ends are places
of the list. In a coherent state none is refused (`Coherent.stepInRange?_eq`).

`run_coherent` says all this of a search for a root after any roots searched before it, as it is in
the search over all roots (`Detector.sharedSearch_eq_searched`).
-/

namespace PackageCycles

namespace Search

/-! ## Later states -/

/-- From a state on, a search comes to others by steps, and by looking at a next root where there is
no step. -/
inductive LeadsTo (g : Graph) (maxDepth : Nat) (s : Search) : Search → Prop where
  /-- It is in the state itself. -/
  | refl : LeadsTo g maxDepth s s
  /-- It takes a step. -/
  | step {t u} (h : LeadsTo g maxDepth s t) (hstep : step g maxDepth t = some u) :
      LeadsTo g maxDepth s u
  /-- It has come to the end of a run and goes on with another root. -/
  | root {t} (h : LeadsTo g maxDepth s t) (hend : Search.step g maxDepth t = none)
      (root : Package) : LeadsTo g maxDepth s (visit maxDepth t root)

section
variable {g : Graph} {maxDepth : Nat} {s t : Search} {p q : Package}

/-- A look at a package that follows the end of a run keeps the state coherent. -/
theorem Coherent.visit_root (h : Coherent g maxDepth s) (hs : s.stack = []) (root : Package) :
    Coherent g maxDepth (Search.visit maxDepth s root) := by
  refine h.visit ?_
  rw [h.path_eq_nil hs]
  exact fun q hq => nomatch hq

/-- A finished package is finished after a look at any package. -/
theorem status_visit_of_finished (h : s.status q = .finished) :
    (visit maxDepth s p).status q = .finished := by
  unfold visit
  split
  next => exact h
  next => exact h
  next hst =>
    split
    next => exact h
    next =>
      have hq : q ≠ p := fun hq => by rw [hq, hst] at h; cases h
      rw [status_push, if_neg hq, h]

/-- A finished package is finished after a step. -/
theorem status_step_of_finished (ht : step g maxDepth s = some t) (h : s.status q = .finished) :
    t.status q = .finished := by
  obtain ⟨frame, below, hs, ⟨hlt, rfl⟩ | ⟨-, rfl⟩⟩ := step_cases ht
  · exact status_visit_of_finished h
  · rw [status_retreat]
    split
    next => rfl
    next => exact h

namespace LeadsTo

/-- What follows a coherent state is coherent. -/
theorem coherent (h : LeadsTo g maxDepth s t) (hs : Coherent g maxDepth s) :
    Coherent g maxDepth t := by
  induction h with
  | refl => exact hs
  | step _ hstep ih => exact ih.step hstep
  | root _ hend root ih => exact ih.visit_root (step_eq_none_iff.1 hend) root

/-- A finished package stays finished. -/
theorem finished (h : LeadsTo g maxDepth s t) (hp : s.status p = .finished) :
    t.status p = .finished := by
  induction h with
  | refl => exact hp
  | step _ hstep ih => exact status_step_of_finished hstep ih
  | root _ _ _ ih => exact status_visit_of_finished ih

/-- A number of steps leads on. -/
theorem steps : ∀ {n : Nat} {t u : Search}, LeadsTo g maxDepth s t →
    Search.steps g maxDepth n t = some u → LeadsTo g maxDepth s u
  | 0, _, _, h, hu => by
    cases hu
    exact h
  | n + 1, t, u, h, hu => by
    obtain ⟨t', ht', hu⟩ := Option.bind_eq_some_iff.1 hu
    exact LeadsTo.steps (h.step ht') hu

end LeadsTo

/-! ## Places on the path -/

/-- The places kept are those of the packages of the path, and no other package has one. -/
theorem Coherent.lookup_positions (h : Coherent g maxDepth s) {i : Nat} :
    s.positions.lookup p = some i ↔ s.path[i]? = some p := by
  rw [h.positions_eq]
  constructor
  · intro hlookup
    by_cases hp : p ∈ s.path
    · rw [lookup_zipIdx_reverse s.path hp h.nodup] at hlookup
      cases hlookup
      rw [List.getElem?_eq_getElem (List.idxOf_lt_length_of_mem hp), List.getElem_idxOf]
    · have hnone : s.path.zipIdx.reverse.lookup p = none := by
        refine List.lookup_eq_none_iff.2 fun entry hentry => ?_
        have hmem := List.fst_mem_of_mem_zipIdx (List.mem_reverse.1 hentry)
        exact bne_iff_ne.2 fun heq => hp (heq ▸ hmem)
      cases hnone.symm.trans hlookup
  · intro hget
    obtain ⟨hlt, rfl⟩ := List.getElem?_eq_some_iff.1 hget
    rw [lookup_zipIdx_reverse s.path (List.getElem_mem hlt) h.nodup, h.nodup.idxOf_getElem]

end

/-! ## Cuts in range -/

/-- The part of a list from one place up to another, refused unless they are places of the list in
this order. -/
def cut? {α : Type} (xs : List α) (start stop : Int) : Option (List α) :=
  if 0 ≤ start ∧ start ≤ stop ∧ stop ≤ xs.length then
    some ((xs.take stop.toNat).drop start.toNat)
  else none

/-- `visit`, refused if the cycle cannot be cut out of the path. -/
def visitInRange? (maxDepth : Nat) (s : Search) (p : Package) : Option Search :=
  match s.status p with
  | .onPath => do
    let part ← cut? s.path (s.position p) s.path.length
    return { s with cycles := s.cycles ++ [part ++ [p]] }
  | .finished => some s
  | .untouched => if maxDepth ≤ s.path.length then some s else some (s.push p)

/-- `retreat`, refused if the last frame cannot be cut off the stack, which is read here from the
root on, or the last package off the path. -/
def retreatInRange? (s : Search) (p : Package) : Option Search := do
  let below ← cut? s.stack.reverse 0 (s.stack.length - 1)
  let path ← cut? s.path 0 (s.path.length - 1)
  return { s.mark p .finished with
    positions := s.positions.filter (·.1 ≠ p)
    path := path
    stack := below.reverse }

/-- `step`, refused if one of its cuts is. -/
def stepInRange? (g : Graph) (maxDepth : Nat) (s : Search) : Option (Option Search) :=
  match s.stack with
  | [] => some none
  | frame :: below =>
    match (g.dependencies frame.package)[frame.next]? with
    | some dependency => (visitInRange? maxDepth (s.advance frame below) dependency).map some
    | none => (s.retreatInRange? frame.package).map some

section
variable {α : Type} {g : Graph} {maxDepth : Nat} {s : Search} {p : Package}

/-- The end of a list from one of its places on. -/
theorem cut?_drop {xs : List α} {start : Nat} (h : start ≤ xs.length) :
    cut? xs start xs.length = some (xs.drop start) := by
  rw [cut?, if_pos (by omega), Int.toNat_natCast, Int.toNat_natCast, List.take_length]

/-- A list that is not empty without its last element. -/
theorem cut?_dropLast {xs : List α} (h : xs ≠ []) :
    cut? xs 0 (xs.length - 1) = some xs.dropLast := by
  have hpos := List.length_pos_of_ne_nil h
  have hstop : ((xs.length : Int) - 1).toNat = xs.length - 1 := by omega
  rw [cut?, if_pos (by omega), hstop, Int.toNat_zero, List.drop_zero, List.dropLast_eq_take]

namespace Coherent

/-- In a coherent state a cycle can be cut out of the path. -/
theorem visitInRange?_eq (h : Coherent g maxDepth s) (p : Package) :
    visitInRange? maxDepth s p = some (Search.visit maxDepth s p) := by
  rw [visitInRange?, Search.visit]
  cases hst : s.status p with
  | onPath =>
    have hp := (h.onPath_iff p).1 hst
    have hplace : s.position p ≤ s.path.length := by
      rw [h.position_eq hp]
      exact List.idxOf_le_length
    simp only [cut?_drop hplace]
    rfl
  | finished => rfl
  | untouched =>
    simp only
    split <;> rfl

/-- In a coherent state the package in hand can be cut off the path, and its frame off the stack. -/
theorem retreatInRange?_eq (h : Coherent g maxDepth s) {frame : Frame} {below : List Frame}
    (hs : s.stack = frame :: below) :
    s.retreatInRange? frame.package = some (s.retreat frame.package below) := by
  have hpath : s.path ≠ [] := fun hnil => by
    have hlast := h.getLast?_path hs
    rw [hnil] at hlast
    cases hlast
  have hstack : cut? s.stack.reverse 0 (s.stack.length - 1) = some below.reverse := by
    have hne : s.stack.reverse ≠ [] := by simp [hs]
    have hcut := cut?_dropLast hne
    rw [List.length_reverse] at hcut
    rw [hcut, hs, List.reverse_cons, List.dropLast_concat]
  rw [retreatInRange?, hstack, cut?_dropLast hpath]
  simp only [Option.bind_eq_bind, Option.bind_some, List.reverse_reverse]
  rfl

/-- In a coherent state no cut of a step is refused. -/
theorem stepInRange?_eq (h : Coherent g maxDepth s) :
    stepInRange? g maxDepth s = some (Search.step g maxDepth s) := by
  rw [stepInRange?, Search.step]
  cases hs : s.stack with
  | nil => rfl
  | cons frame below =>
    cases hnext : (g.dependencies frame.package)[frame.next]? with
    | some dependency =>
      obtain ⟨hlt, -⟩ := List.getElem?_eq_some_iff.1 hnext
      simp only [hnext, (h.advance hs hlt).visitInRange?_eq dependency]
      rfl
    | none =>
      simp only [hnext, h.retreatInRange?_eq hs]
      rfl

/-- A frame whose package is not on the path cannot be left. -/
example : stepInRange? .empty 1 ⟨[], [], [], [⟨"a", 0⟩], []⟩ = none := by decide

end Coherent

end

/-! ## Roots one after the other -/

/-- The state in which a new search is after it has searched roots one after the other. -/
def searched (g : Graph) (maxDepth : Nat) (roots : List Package) : Search :=
  roots.foldl (fun s root => s.run g maxDepth root) .start

section
variable {g : Graph} {maxDepth : Nat}

theorem searched_concat (g : Graph) (maxDepth : Nat) (roots : List Package) (root : Package) :
    searched g maxDepth (roots ++ [root]) = (searched g maxDepth roots).run g maxDepth root :=
  List.foldl_concat ..

/-- After roots have been searched, the state is coherent and the stack is empty. -/
theorem coherent_searched (g : Graph) (maxDepth : Nat) (roots : List Package) :
    Coherent g maxDepth (searched g maxDepth roots) ∧ (searched g maxDepth roots).stack = [] := by
  induction roots using List.reverseRecOn with
  | nil => exact ⟨.start g maxDepth, rfl⟩
  | append_singleton roots root ih =>
    rw [searched_concat]
    exact ih.1.run ih.2 root

/-- After any roots, a search for a root comes to an end by steps. In each state on the way the path
is a walk without repetition within the bound, the stack, the places, the marks and the cursors
agree with it, and a package that is finished then is finished ever after. No cut is refused, and in
the end the path, the stack and the places are empty. -/
theorem run_coherent (g : Graph) (maxDepth : Nat) (earlier : List Package) (root : Package) :
    let s := searched g maxDepth earlier
    visitInRange? maxDepth s root = some (visit maxDepth s root) ∧
    (∀ n t, steps g maxDepth n (visit maxDepth s root) = some t →
      Coherent g maxDepth t ∧
      (∀ p i, t.positions.lookup p = some i ↔ t.path[i]? = some p) ∧
      (∀ u, LeadsTo g maxDepth t u → ∀ p, t.status p = .finished → u.status p = .finished) ∧
      stepInRange? g maxDepth t = some (step g maxDepth t)) ∧
    (∃ n, steps g maxDepth n (visit maxDepth s root) = some (s.run g maxDepth root) ∧
      step g maxDepth (s.run g maxDepth root) = none) ∧
    (s.run g maxDepth root).path = [] ∧ (s.run g maxDepth root).stack = [] ∧
      (s.run g maxDepth root).positions = [] := by
  intro s
  obtain ⟨hcoherent, hstack⟩ : Coherent g maxDepth s ∧ s.stack = [] :=
    coherent_searched g maxDepth earlier
  obtain ⟨hrun, hend⟩ := hcoherent.run hstack root
  have hpath := hrun.path_eq_nil hend
  obtain ⟨n, -, hsteps, hlast⟩ := exists_steps_eq_finish g maxDepth (visit maxDepth s root)
  refine ⟨hcoherent.visitInRange?_eq root, fun n t ht => ?_, ⟨n, hsteps, hlast⟩, hpath, hend, ?_⟩
  · have h := (LeadsTo.refl.steps ht).coherent (hcoherent.visit_root hstack root)
    exact ⟨h, fun p i => h.lookup_positions, fun u hu p => hu.finished, h.stepInRange?_eq⟩
  · rw [hrun.positions_eq, hpath]
    rfl

end

end Search

namespace Detector

open Search (searched searched_concat coherent_searched finish_of_stack_eq_nil run visit)

/-- It makes no difference that the search over all roots passes over those that are finished. -/
theorem sharedSearch_eq_searched (d : Detector) (g : Graph) :
    d.sharedSearch g = searched g d.maxDepth g.packages := by
  refine d.sharedSearch_induction (P := fun roots s => s = searched g d.maxDepth roots) rfl ?_ ?_
  · rintro roots root s rfl hst
    have hstack := (coherent_searched g d.maxDepth roots).2
    rw [searched_concat, run, visit, hst]
    exact (finish_of_stack_eq_nil hstack).symm
  · rintro roots root s rfl -
    rw [searched_concat]

end Detector

end PackageCycles

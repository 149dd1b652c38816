import Mathlib.Data.List.Chain
import PackageCycles.Cycle
import PackageCycles.Graph.Reach
import PackageCycles.Proofs.Graph.Edges

/-!
# Walks

A list of packages is a path if there is an edge from each to the next (`Graph.IsPath`), a loop if
it takes a step and returns to its first package (`Cycle.IsLoop`), and a closed walk if it is both
(`Cycle.IsClosedWalk`).
Each package of a closed walk has a step of the walk to it (`IsClosedWalk.exists_step_to`), and the
packages of a closed walk reach each other (`IsClosedWalk.reaches`), so a closed walk lies in one
strongly connected component.
-/

namespace PackageCycles

namespace Graph

/-- There is an edge from each package of the list to the next. -/
def IsPath (g : Graph) (path : List Package) : Prop := path.IsChain fun p q => g.hasEdge p q

/-- The packages are one, or each depends on the other, directly or through others. -/
def SameComponent (g : Graph) (p q : Package) : Prop := p = q ∨ g.Reaches p q ∧ g.Reaches q p

section
variable {g : Graph} {p q r : Package} {path : List Package}

/-- Walks can be joined. -/
theorem Reaches.trans (hpq : g.Reaches p q) (hqr : g.Reaches q r) : g.Reaches p r := by
  induction hpq with
  | edge h => exact .step h hqr
  | step h _ ih => exact .step h (ih hqr)

/-- The last step of a walk. -/
theorem Reaches.exists_last (h : g.Reaches p q) :
    ∃ u, (u = p ∨ g.Reaches p u) ∧ g.hasEdge u q := by
  induction h with
  | @edge p q hpq => exact ⟨p, .inl rfl, hpq⟩
  | @step p r q hpr _ ih =>
    obtain ⟨u, hu, huq⟩ := ih
    refine ⟨u, .inr ?_, huq⟩
    rcases hu with rfl | hru
    · exact .edge hpr
    · exact .step hpr hru

/-- What holds of a package and of the dependencies of each package of which it holds, holds of all
packages reached. -/
theorem Reaches.closed {P : Package → Prop} (hP : ∀ p q, P p → g.hasEdge p q → P q)
    (hpq : g.Reaches p q) (hp : P p) : P q := by
  induction hpq with
  | edge h => exact hP _ _ hp h
  | step h _ ih => exact ih (hP _ _ hp h)

/-- The packages of one component are in no other. -/
theorem SameComponent.trans (hpq : g.SameComponent p q) (hqr : g.SameComponent q r) :
    g.SameComponent p r := by
  rcases hpq with rfl | ⟨hpq, hqp⟩
  · exact hqr
  · rcases hqr with rfl | ⟨hqr, hrq⟩
    · exact .inr ⟨hpq, hqp⟩
    · exact .inr ⟨hpq.trans hqr, hrq.trans hqp⟩

/-- A path can be extended by a package that its end depends on. -/
theorem IsPath.concat (h : g.IsPath path) (hedge : ∀ q ∈ path.getLast?, g.hasEdge q p) :
    g.IsPath (path ++ [p]) := by
  refine List.IsChain.append h (.singleton p) fun q hq r hr => ?_
  rw [List.head?_singleton, Option.mem_some_iff] at hr
  exact hr ▸ hedge q hq

/-- The start of a path reaches every other package of it. -/
theorem IsPath.reaches_of_mem : ∀ {path : List Package} {p : Package}, g.IsPath (p :: path) →
    q ∈ path → g.Reaches p q
  | [], _, _, hq => nomatch hq
  | r :: path, p, h, hq => by
    obtain ⟨hpr, hrest⟩ := List.isChain_cons_cons.1 h
    rcases List.mem_cons.1 hq with rfl | hq
    · exact .edge hpr
    · exact .step hpr (IsPath.reaches_of_mem hrest hq)

/-- Every package of a path reaches what the path is extended by. -/
theorem IsPath.reaches_concat : ∀ {path : List Package}, g.IsPath (path ++ [q]) → p ∈ path →
    g.Reaches p q
  | [], _, hp => nomatch hp
  | r :: path, h, hp => by
    rcases List.mem_cons.1 hp with rfl | hp
    · exact IsPath.reaches_of_mem h (by simp)
    · exact IsPath.reaches_concat (List.IsChain.tail h) hp

/-- A package that reaches another depends on something. -/
theorem Reaches.mem_packages (h : g.Reaches p q) : p ∈ g.packages := by
  cases h with
  | edge h | step h _ => exact Graph.mem_packages.2 ⟨_, h⟩

end

end Graph

namespace Cycle

/-- At least two packages, of which the last is the first one. -/
structure IsLoop (c : Cycle) : Prop where
  /-- There is at least one step. -/
  two_le : 2 ≤ c.length
  /-- The last package is the first one. -/
  closed : c.IsClosed

/-- A walk of at least one edge that returns to its first package. -/
structure IsClosedWalk (g : Graph) (c : Cycle) : Prop where
  /-- There is at least one edge. -/
  two_le : 2 ≤ c.length
  /-- The steps are edges. -/
  walk : c.IsWalk g
  /-- The last package is the first one. -/
  closed : c.IsClosed

/-- The step that returns to the first package. -/
def closingEdge? (c : Cycle) : Option Edge := c.steps.getLast?

section
variable {g : Graph} {c : Cycle} {p q : Package}

theorem IsSimple.isClosedWalk (h : c.IsSimple g) : c.IsClosedWalk g := ⟨h.two_le, h.walk, h.closed⟩

theorem IsClosedWalk.isLoop (h : c.IsClosedWalk g) : c.IsLoop := ⟨h.two_le, h.closed⟩

/-! ## Steps -/

theorem steps_cons_cons (p q : Package) (rest : List Package) :
    steps (p :: q :: rest) = ⟨p, q⟩ :: steps (q :: rest) := rfl

/-- The last step leads from the end of what was extended. -/
theorem steps_concat : ∀ {path : List Package}, path.getLast? = some p →
    steps (path ++ [q]) = steps path ++ [⟨p, q⟩]
  | [r], h => by cases h; rfl
  | r :: r' :: path, h => by
    rw [List.getLast?_cons_cons] at h
    show steps (r :: r' :: (path ++ [q])) = _
    rw [steps_cons_cons, steps_cons_cons, List.cons_append, ← steps_concat h]
    rfl

/-- The closing step of a path that was extended leads from its end. -/
theorem closingEdge?_concat {path : List Package} (h : path.getLast? = some p) :
    closingEdge? (path ++ [q]) = some ⟨p, q⟩ := by
  rw [closingEdge?, steps_concat h, List.getLast?_concat]

/-- A list of packages is a walk exactly if there is an edge from each to the next. -/
theorem isWalk_iff_isPath : ∀ {c : Cycle}, c.IsWalk g ↔ g.IsPath c
  | [] => by simp [IsWalk, steps, Graph.IsPath]
  | [p] => by simp [IsWalk, steps, Graph.IsPath]
  | p :: q :: rest => by
    have ih := isWalk_iff_isPath (c := q :: rest)
    rw [IsWalk] at ih
    rw [IsWalk, steps_cons_cons, List.forall_mem_cons, ih]
    exact (List.isChain_cons_cons (R := fun p q => g.hasEdge p q = true)).symm

/-- The ends of a step are packages of the walk, not its last and not its first. -/
theorem mem_of_mem_steps : ∀ {c : Cycle} {e : Edge}, e ∈ c.steps →
    e.source ∈ c.dropLast ∧ e.target ∈ c.tail
  | [], _, h | [_], _, h => nomatch h
  | p :: q :: rest, e, h => by
    rw [steps_cons_cons] at h
    rcases List.mem_cons.1 h with rfl | h
    · simp
    · have ih := mem_of_mem_steps h
      rw [List.dropLast_cons_cons]
      exact ⟨List.mem_cons_of_mem _ ih.1, List.mem_cons_of_mem _ ih.2⟩

/-- There is a step to every package but the first. -/
theorem exists_step_of_mem_tail : ∀ {c : Cycle}, q ∈ c.tail → ∃ p, Edge.mk p q ∈ c.steps
  | [], h | [_], h => nomatch h
  | p :: r :: rest, h => by
    rw [steps_cons_cons]
    rcases List.mem_cons.1 h with rfl | h
    · exact ⟨p, List.mem_cons_self⟩
    · obtain ⟨u, hu⟩ := exists_step_of_mem_tail (c := r :: rest) h
      exact ⟨u, List.mem_cons_of_mem _ hu⟩

/-! ## Closed walks -/

/-- A loop from its first package on. -/
theorem IsLoop.exists_eq_cons (h : c.IsLoop) :
    ∃ p rest, c = p :: rest ∧ p ∈ rest ∧ c = c.dropLast ++ [p] := by
  have hlen := h.two_le
  have hclosed := h.closed
  obtain ⟨p, rest, rfl⟩ := List.exists_cons_of_length_pos (Nat.lt_of_lt_of_le Nat.two_pos hlen)
  have hlast : (p :: rest).getLast? = some p := hclosed.symm
  refine ⟨p, rest, rfl, ?_, (List.dropLast_append_getLast? _ hlast).symm⟩
  cases rest with
  | nil => simp at hlen
  | cons q rest =>
    rw [List.getLast?_cons_cons] at hlast
    exact List.mem_of_getLast? hlast

namespace IsClosedWalk

/-- A closed walk from its first package on. -/
theorem exists_eq_cons (h : c.IsClosedWalk g) :
    ∃ p rest, c = p :: rest ∧ p ∈ rest ∧ c = c.dropLast ++ [p] :=
  h.isLoop.exists_eq_cons

/-- There is a step to every package of a closed walk. -/
theorem exists_step_to (h : c.IsClosedWalk g) (hq : q ∈ c) : ∃ p, Edge.mk p q ∈ c.steps := by
  obtain ⟨p, rest, rfl, hp, -⟩ := h.exists_eq_cons
  refine exists_step_of_mem_tail ?_
  rcases List.mem_cons.1 hq with rfl | hq
  · exact hp
  · exact hq

/-- The packages of a closed walk reach each other. -/
theorem reaches (h : c.IsClosedWalk g) (hp : p ∈ c) (hq : q ∈ c) : g.Reaches p q := by
  obtain ⟨r, rest, hc, hr, hc'⟩ := h.exists_eq_cons
  have hpath := isWalk_iff_isPath.1 h.walk
  have hto : ∀ q ∈ c, g.Reaches r q := fun q hq => by
    rw [hc] at hq hpath
    rcases List.mem_cons.1 hq with rfl | hq
    · exact hpath.reaches_of_mem hr
    · exact hpath.reaches_of_mem hq
  have hfrom : g.Reaches p r := by
    rw [hc'] at hp hpath
    rcases List.mem_append.1 hp with hp | hp
    · exact hpath.reaches_concat hp
    · rw [List.mem_singleton.1 hp]
      exact hto r (hc ▸ List.mem_cons_self)
  exact hfrom.trans (hto q hq)

/-- Every package of a closed walk depends on something. -/
theorem mem_packages (h : c.IsClosedWalk g) (hp : p ∈ c) : p ∈ g.packages :=
  (h.reaches hp hp).mem_packages

end IsClosedWalk

end

end Cycle

/-- No closed walk leads along the edges. -/
def Graph.IsAcyclic (g : Graph) : Prop := ∀ c : Cycle, ¬ c.IsClosedWalk g

end PackageCycles

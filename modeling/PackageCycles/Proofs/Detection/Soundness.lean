import PackageCycles.Detector
import PackageCycles.Proofs.Search.Invariant

/-!
# Every reported cycle is a cycle

A look at a package of the path cuts the cycle out of the path at the place kept for that package.
In a coherent state this place is right, so what is cut out and closed is a walk along edges that
returns to its first package, repeats no other and is no longer than the bound
(`Coherent.isReport_close`). Every step keeps this for all cycles recorded so far, hence so does a
search from any number of roots, and the detector reports nothing but recorded cycles
(`isSimple_of_mem_detect`).
-/

namespace PackageCycles

/-- A simple cycle of the graph within the bound. -/
structure Cycle.IsReport (g : Graph) (maxDepth : Nat) (c : Cycle) : Prop where
  /-- The cycle is simple. -/
  simple : c.IsSimple g
  /-- It visits no more packages than the bound allows. -/
  size_le : c.size ≤ maxDepth

namespace Search

section
variable {g : Graph} {maxDepth : Nat} {s t : Search} {p : Package}

/-- The cycle that a package of the path closes is simple and within the bound. -/
theorem Coherent.isReport_close (h : Coherent g maxDepth s) (hp : p ∈ s.path)
    (hedge : ∀ q ∈ s.path.getLast?, g.hasEdge q p) :
    Cycle.IsReport g maxDepth (s.path.drop (s.position p) ++ [p]) := by
  rw [h.position_eq hp]
  have hlt : s.path.idxOf p < s.path.length := List.idxOf_lt_length_of_mem hp
  have hhead : (s.path.drop (s.path.idxOf p)).head? = some p := by
    rw [List.head?_drop, List.getElem?_eq_getElem hlt, List.getElem_idxOf]
  have hlast : (s.path.drop (s.path.idxOf p)).getLast? = s.path.getLast? := by
    rw [List.getLast?_drop, if_neg (Nat.not_le_of_lt hlt)]
  have hlen : (s.path.drop (s.path.idxOf p) ++ [p]).length =
      s.path.length - s.path.idxOf p + 1 := by simp
  refine ⟨⟨?_, Cycle.isWalk_iff_isPath.2 ?_, ?_, ?_⟩, ?_⟩
  · omega
  · exact Graph.IsPath.concat (h.isPath.drop _) (hlast ▸ hedge)
  · show _ = _
    rw [List.getLast?_concat, List.head?_append, hhead]; rfl
  · rw [List.dropLast_concat]
    exact h.nodup.sublist (List.drop_sublist _ _)
  · have := h.bounded
    rw [Cycle.size, hlen]
    split <;> omega

/-- A coherent state in which every recorded cycle is simple and within the bound. -/
structure Sound (g : Graph) (maxDepth : Nat) (s : Search) : Prop where
  /-- The state is coherent. -/
  coherent : Coherent g maxDepth s
  /-- Every recorded cycle is simple and within the bound. -/
  isReport : ∀ c ∈ s.cycles, Cycle.IsReport g maxDepth c

/-- A search that has not started has recorded nothing. -/
theorem Sound.start (g : Graph) (maxDepth : Nat) : Sound g maxDepth .start :=
  ⟨.start g maxDepth, by simp [Search.start]⟩

namespace Sound

/-- A look at a package that the end of the path depends on records no other cycles. -/
theorem visit (h : Sound g maxDepth s) (hedge : ∀ q ∈ s.path.getLast?, g.hasEdge q p) :
    Sound g maxDepth (visit maxDepth s p) := by
  refine ⟨h.coherent.visit hedge, ?_⟩
  unfold Search.visit
  split
  next hst =>
    intro c hc
    rcases List.mem_append.1 hc with hc | hc
    · exact h.isReport c hc
    · rw [List.mem_singleton.1 hc]
      exact h.coherent.isReport_close ((h.coherent.onPath_iff p).1 hst) hedge
  next => exact h.isReport
  next =>
    split
    · exact h.isReport
    · exact h.isReport

/-- A step records no other cycles. -/
theorem step (h : Sound g maxDepth s) (ht : step g maxDepth s = some t) : Sound g maxDepth t := by
  obtain ⟨frame, below, hs, ⟨hlt, rfl⟩ | ⟨-, rfl⟩⟩ := step_cases ht
  · have hadvance : Sound g maxDepth (s.advance frame below) :=
      ⟨h.coherent.advance hs hlt, h.isReport⟩
    exact hadvance.visit (h.coherent.hasEdge_of_mem_dependencies hs (List.getElem_mem hlt))
  · exact ⟨h.coherent.retreat hs, h.isReport⟩

/-- A run from an empty path records no other cycles. -/
theorem run (h : Sound g maxDepth s) (hs : s.stack = []) (root : Package) :
    Sound g maxDepth (s.run g maxDepth root) ∧ (s.run g maxDepth root).stack = [] := by
  refine finish_induction (P := Sound g maxDepth) (fun _ _ h ht => h.step ht) (h.visit ?_)
  rw [h.coherent.path_eq_nil hs]
  exact fun q hq => nomatch hq

end Sound

end

end Search

namespace Detector

section
variable {d : Detector} {g : Graph} {c : Cycle}

/-- What holds before the first root and is kept by each run holds after the search over all
roots. -/
theorem sharedSearch_induction {P : List Package → Search → Prop} (hstart : P [] .start)
    (hfinished : ∀ roots root s, P roots s → s.status root = .finished → P (roots ++ [root]) s)
    (hrun : ∀ roots root s, P roots s → s.status root ≠ .finished →
      P (roots ++ [root]) (s.run g d.maxDepth root)) : P g.packages (d.sharedSearch g) := by
  unfold sharedSearch
  induction g.packages using List.reverseRecOn with
  | nil => exact hstart
  | append_singleton roots root ih =>
    rw [List.foldl_concat]
    split
    next h => exact hfinished roots root _ ih h
    next h => exact hrun roots root _ ih h

/-- The search over all roots records only simple cycles within the bound. -/
theorem sound_sharedSearch (d : Detector) (g : Graph) :
    (d.sharedSearch g).Sound g d.maxDepth := by
  refine And.left (sharedSearch_induction (P := fun _ s => s.Sound g d.maxDepth ∧ s.stack = [])
    ⟨.start g d.maxDepth, rfl⟩ (fun _ _ _ h _ => h) (fun _ root s h _ => ?_))
  exact h.1.run h.2 root

/-- The search from one root records only simple cycles within the bound. -/
theorem isReport_of_mem_rootCycles {root : Package} (h : c ∈ d.rootCycles g root) :
    c.IsReport g d.maxDepth :=
  ((Search.Sound.start g d.maxDepth).run rfl root).1.isReport c h

/-- Leaving out repeated cycles brings in no other. -/
theorem mem_of_mem_distinct : ∀ {cycles : List Cycle} {seen : List Text},
    c ∈ distinct seen cycles → c ∈ cycles
  | [], _, h => nomatch h
  | first :: rest, seen, h => by
    unfold distinct at h
    split at h
    · exact List.mem_cons_of_mem _ (mem_of_mem_distinct h)
    · rcases List.mem_cons.1 h with rfl | h
      · exact List.mem_cons_self
      · exact List.mem_cons_of_mem _ (mem_of_mem_distinct h)

/-- Whatever the bound and the traversal, every reported cycle is a closed walk along edges that
repeats no package before it returns, and it visits at most as many packages as the bound, taken as
1 if it is lower. -/
theorem isSimple_of_mem_detect (g : Graph) (maxDepth : Int) (traversal : Traversal) (c : Cycle)
    (hc : c ∈ (Detector.new maxDepth traversal).detect g) :
    c.IsSimple g ∧ (c.size : Int) ≤ max 1 maxDepth := by
  have hreport : c.IsReport g (max 1 maxDepth.toNat) := by
    unfold detect at hc
    split at hc
    · obtain ⟨root, -, hc⟩ := List.mem_flatMap.1 (mem_of_mem_distinct hc)
      exact isReport_of_mem_rootCycles hc
    · exact (sound_sharedSearch _ g).isReport c hc
  have := hreport.size_le
  exact ⟨hreport.simple, by omega⟩

/-- A ring of three packages with a chord has a cycle of two packages. -/
theorem isSimple_of_mem_detect_ring :
    (["b", "c", "b"] : Cycle) ∈
        (new 3 .perRoot).detect (.build [⟨"a", ["b"]⟩, ⟨"b", ["c"]⟩, ⟨"c", ["a", "b"]⟩]) ∧
      Cycle.IsSimple (.build [⟨"a", ["b"]⟩, ⟨"b", ["c"]⟩, ⟨"c", ["a", "b"]⟩]) ["b", "c", "b"] ∧
      (Cycle.size ["b", "c", "b"] : Int) ≤ max 1 3 :=
  have hmem : (["b", "c", "b"] : Cycle) ∈
      (new 3 .perRoot).detect (.build [⟨"a", ["b"]⟩, ⟨"b", ["c"]⟩, ⟨"c", ["a", "b"]⟩]) := by
    decide +kernel
  ⟨hmem, isSimple_of_mem_detect _ 3 .perRoot _ hmem⟩

end

end Detector

end PackageCycles

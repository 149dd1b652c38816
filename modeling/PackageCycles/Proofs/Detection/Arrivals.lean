import PackageCycles.Proofs.Cycle.Rotation
import PackageCycles.Proofs.Detection.FirstArrival

/-!
# The walks of a search form a tree

The walks by which a search first arrives at packages are the paths of a tree: with a walk all its
prefixes are among them (`Arrived.mem_of_prefix`), and no two of them end in the same package
(`Arrived.eq_of_getLast?_eq`), so none comes to a package twice (`Arrived.nodup`). A cycle that is
closed leads along the tree to the end of a walk and returns from there to a package of that walk.
The step by which it returns tells the cycle (`Arrived.nodup_closingEdge?`), and it is no step of the
tree, whereas all other steps of the cycle are. Hence no cycle is closed that is a rotation of
another (`Arrived.eq_of_isRotation`).
-/

namespace PackageCycles

namespace Graph

/-- The walks are the paths of a tree. -/
structure Arrived (g : Graph) (kept : List (List Package)) : Prop where
  /-- Each walk arrives somewhere, along edges. -/
  isPath : ∀ w ∈ kept, w ≠ [] ∧ g.IsPath w
  /-- What a walk goes on from is one of them. -/
  parent : ∀ w ∈ kept, w.dropLast = [] ∨ w.dropLast ∈ kept
  /-- No two of them end in the same package. -/
  ends : (kept.map List.getLast?).Nodup

section
variable {g : Graph} {n : Nat} {kept : List (List Package)} {path v w : List Package}
  {p q : Package} {c d : Cycle}

theorem isPath_of_mem_walks : ∀ {n : Nat} {path : List Package} {p : Package}, g.IsPath path →
    (∀ q ∈ path.getLast?, g.hasEdge q p) → w ∈ g.walks n path p → w ≠ [] ∧ g.IsPath w
  | 0, _, _, _, _, hw => nomatch hw
  | n + 1, path, p, hpath, hedge, hw => by
    have hextend := hpath.concat hedge
    rcases List.mem_cons.1 hw with rfl | hw
    · exact ⟨by simp, hextend⟩
    · obtain ⟨q, hq, hw⟩ := List.mem_flatMap.1 hw
      refine isPath_of_mem_walks hextend (fun u hu => ?_) hw
      rw [List.getLast?_concat, Option.mem_some_iff] at hu
      exact hu ▸ hasEdge_iff_mem_dependencies.2 hq

/-- Keeping the walks that arrive first keeps the walks a tree. -/
theorem Arrived.firstArrivals {list : List (List Package)} (h : Arrived g kept)
    (hlist : ∀ w ∈ list, w ≠ [] ∧ g.IsPath w) : Arrived g (firstArrivals kept list) := by
  induction list generalizing kept with
  | nil => exact h
  | cons walk rest ih =>
    obtain ⟨hwalk, hrest⟩ := List.forall_mem_cons.1 hlist
    rw [Graph.firstArrivals]
    refine ih ?_ hrest
    split
    next hfirst =>
      refine ⟨List.forall_mem_cons.2 ⟨hwalk, h.isPath⟩, List.forall_mem_cons.2 ⟨?_, ?_⟩, ?_⟩
      · exact hfirst.1.imp_right (List.mem_cons_of_mem _)
      · intro w hw
        exact (h.parent w hw).imp_right (List.mem_cons_of_mem _)
      · rw [List.map_cons, List.nodup_cons, List.mem_map]
        refine ⟨?_, h.ends⟩
        rintro ⟨w, hw, heq⟩
        exact hfirst.2 w hw heq
    next => exact h

/-- The walks from some roots that arrive first form a tree. -/
theorem arrived_arrivals (g : Graph) (n : Nat) (roots : List Package) :
    Arrived g (g.arrivals n roots) := by
  have hnil : Arrived g [] := ⟨nofun, nofun, .nil⟩
  refine hnil.firstArrivals fun w hw => ?_
  obtain ⟨root, -, hw⟩ := List.mem_flatMap.1 hw
  exact isPath_of_mem_walks .nil (fun q hq => nomatch hq) hw

theorem arrivals_singleton (g : Graph) (n : Nat) (root : Package) :
    g.arrivals n [root] = Graph.firstArrivals [] (g.walks n [] root) := by
  rw [arrivals, List.flatMap_singleton]

namespace Arrived

theorem eq_of_getLast?_eq (h : Arrived g kept) (hv : v ∈ kept) (hw : w ∈ kept)
    (heq : v.getLast? = w.getLast?) : v = w :=
  List.inj_on_of_nodup_map h.ends hv hw heq

theorem eq_nil_or_mem (h : Arrived g kept) (hw : path ++ [p] ∈ kept) : path = [] ∨ path ∈ kept := by
  have hparent := h.parent _ hw
  rwa [List.dropLast_concat] at hparent

theorem mem_of_prefix (h : Arrived g kept) (hw : w ∈ kept) (hv : v ≠ []) (hvw : v <+: w) :
    v ∈ kept := by
  induction w using List.reverseRecOn with
  | nil => exact absurd (List.prefix_nil.1 hvw) hv
  | append_singleton path p ih =>
    rcases List.prefix_concat_iff.1 hvw with rfl | hvw
    · exact hw
    · rcases h.eq_nil_or_mem hw with rfl | hpath
      · exact absurd (List.prefix_nil.1 hvw) hv
      · exact ih hpath hvw

theorem nodup (h : Arrived g kept) (hw : w ∈ kept) : w.Nodup := by
  induction w using List.reverseRecOn with
  | nil => exact .nil
  | append_singleton path p ih =>
    have hpath : path.Nodup := by
      rcases h.eq_nil_or_mem hw with rfl | hpath
      · exact .nil
      · exact ih hpath
    -- A package of the path was arrived at by the walk up to there, and not by the whole walk.
    have hp : p ∉ path := fun hp => by
      obtain ⟨front, back, rfl⟩ := List.append_of_mem hp
      have hprefix : front ++ [p] <+: front ++ p :: back ++ [p] := ⟨back ++ [p], by simp⟩
      have hfront := h.mem_of_prefix hw (by simp) hprefix
      have heq := h.eq_of_getLast?_eq hfront hw (by rw [List.getLast?_concat, List.getLast?_concat])
      have hlen := congrArg List.length heq
      simp only [List.length_append, List.length_cons, List.length_nil] at hlen
      omega
    rw [← List.concat_eq_append]
    exact (List.nodup_concat path p).2 ⟨hp, hpath⟩

end Arrived

/-! ## The cycles that are closed -/

/-- A cycle that a walk closes goes along the walk from one of its packages to the end and returns
from there. -/
theorem mem_closings_iff_append : c ∈ g.closings w ↔ ∃ front q back,
    w = front ++ q :: back ∧ q ∉ front ∧ c = q :: back ++ [q] ∧ ∃ p ∈ w.getLast?, g.hasEdge p q := by
  have hdrop : ∀ {front back : List Package} {q : Package}, q ∉ front →
      (front ++ q :: back).dropWhile (· ≠ q) = q :: back := by
    intro front back q hq
    have hne : ∀ r ∈ front, decide (r ≠ q) := fun r hr => by
      simpa using fun heq : r = q => hq (heq ▸ hr)
    rw [List.dropWhile_append_of_pos hne, List.dropWhile_cons_of_neg (by simp)]
  rw [mem_closings]
  constructor
  · rintro ⟨p, hp, q, hq, hedge, rfl⟩
    obtain ⟨front, back, rfl, hfront⟩ := List.eq_append_cons_of_mem hq
    exact ⟨front, q, back, rfl, hfront, by rw [hdrop hfront], p, hp, hedge⟩
  · rintro ⟨front, q, back, rfl, hfront, rfl, p, hp, hedge⟩
    exact ⟨p, hp, q, by simp, hedge, by rw [hdrop hfront]⟩

theorem map_closingEdge?_closings (hw : w.getLast? = some p) :
    (g.closings w).map Cycle.closingEdge? =
      ((g.dependencies p).filter (· ∈ w)).map fun q => some ⟨p, q⟩ := by
  rw [closings, hw, Option.toList_some, List.flatMap_singleton, cuts, List.map_map]
  refine List.map_congr_left fun q hq => ?_
  have hq : q ∈ w := by simpa using (List.mem_filter.1 hq).2
  obtain ⟨u, hu, hclosing⟩ := Findings.exists_closingEdge? hq
  rw [hw, Option.mem_some_iff] at hu
  exact hu ▸ hclosing

namespace Arrived

/-- No two cycles that the walks of a tree close return by the same step. -/
theorem nodup_closingEdge? (h : Arrived g kept) :
    ((kept.flatMap g.closings).map Cycle.closingEdge?).Nodup := by
  have hlast : ∀ w ∈ kept, ∃ p, w.getLast? = some p := fun w hw =>
    Option.isSome_iff_exists.1 (List.getLast?_isSome.2 (h.isPath w hw).1)
  rw [List.map_flatMap, List.nodup_flatMap]
  refine ⟨fun w hw => ?_, (List.pairwise_map.1 h.ends).imp_of_mem fun {v w} hv hw hvw => ?_⟩
  · obtain ⟨p, hp⟩ := hlast w hw
    rw [map_closingEdge?_closings hp]
    refine ((g.isOrdered_dependencies p).nodup.filter _).map fun q r hqr => ?_
    cases hqr
    rfl
  · obtain ⟨p, hp⟩ := hlast v hv
    obtain ⟨q, hq⟩ := hlast w hw
    show List.Disjoint ((g.closings v).map _) ((g.closings w).map _)
    rw [map_closingEdge?_closings hp, map_closingEdge?_closings hq]
    intro e he he'
    obtain ⟨r, -, rfl⟩ := List.mem_map.1 he
    obtain ⟨r', -, heq⟩ := List.mem_map.1 he'
    cases heq
    exact hvw (hp.trans hq.symm)

/-- No two cycles that the walks of a tree close are rotations of each other: the step by which the
one returns would be a step of the tree in the other, and come to a package that is on the walk
already. -/
theorem eq_of_isRotation (h : Arrived g kept) (hc : c ∈ kept.flatMap g.closings)
    (hd : d ∈ kept.flatMap g.closings) (hrotation : c.IsRotation d) : c = d := by
  obtain ⟨v, hv, hc⟩ := List.mem_flatMap.1 hc
  obtain ⟨w, hw, hd⟩ := List.mem_flatMap.1 hd
  obtain ⟨before, q, after, rfl, -, rfl, -⟩ := mem_closings_iff_append.1 hc
  obtain ⟨before', q', after', rfl, -, rfl, -⟩ := mem_closings_iff_append.1 hd
  obtain ⟨front, r, back, hfront, hback⟩ := hrotation.exists_append
  rw [List.dropLast_concat] at hfront
  obtain ⟨hback, hr⟩ := List.append_inj' hback rfl
  obtain rfl : q' = r := (List.singleton_inj.1 hr)
  rcases List.eq_nil_or_concat front with rfl | ⟨front, u, rfl⟩
  · obtain ⟨rfl, rfl⟩ := List.cons.inj hfront
    rw [hback, List.append_nil]
  · rw [List.concat_eq_append] at hfront hback
    exfalso
    -- The walk up to `u` is the one whose end returns to `q'`, and `q'` is the next package.
    have hsplit : before ++ q :: after = before ++ front ++ [u] ++ q' :: back := by
      rw [hfront]
      simp
    have hu : before ++ front ++ [u] ∈ kept := h.mem_of_prefix hv (by simp) ⟨q' :: back, hsplit.symm⟩
    have hlast : (before' ++ q' :: after').getLast? = some u := by
      rw [hback, ← List.append_assoc, ← List.append_assoc, List.getLast?_concat]
    have heq := h.eq_of_getLast?_eq hu hw (by rw [hlast, List.getLast?_concat])
    have hnodup := h.nodup hv
    rw [hsplit, heq, List.nodup_append] at hnodup
    exact hnodup.2.2 q' (by simp) q' (by simp) rfl

end Arrived

end

end Graph

end PackageCycles

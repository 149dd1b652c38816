import PackageCycles.Proofs.Graph.Walk
import PackageCycles.Proofs.Text.Separator

/-!
# What the key of a cycle tells

A loop has the same packages however it is rotated, so its normal form has them too
(`IsLoop.mem_normalize`). The key separates the packages of the normal form by NUL bytes; if no name
holds one, the key can be taken apart again (`normalize_eq_of_key_eq`). Two closed walks with the
same key then visit the same packages (`mem_iff_of_key_eq`).
-/

namespace PackageCycles

namespace Cycle

section
variable {g : Graph} {c d : Cycle} {p : Package}

/-- Every package of a loop is visited before the last step. -/
theorem IsLoop.mem_dropLast (h : c.IsLoop) : p ∈ c.dropLast ↔ p ∈ c := by
  refine ⟨fun hp => List.dropLast_subset c hp, fun hp => ?_⟩
  obtain ⟨u, rest, rfl, hu, hc⟩ := h.exists_eq_cons
  have hne : rest ≠ [] := List.ne_nil_of_mem hu
  rw [hc] at hp
  rcases List.mem_append.1 hp with hp | hp
  · exact hp
  · rw [List.mem_singleton.1 hp, List.dropLast_cons_of_ne_nil hne]
    exact List.mem_cons_self

/-- A rotation has the packages before the last. -/
theorem mem_rotate (c : Cycle) (start : Nat) : p ∈ c.rotate start ↔ p ∈ c.dropLast := by
  have hsplit : p ∈ c.dropLast ↔ p ∈ c.dropLast.take start ∨ p ∈ c.dropLast.drop start := by
    rw [← List.mem_append, List.take_append_drop]
  simp only [rotate, List.mem_append]
  constructor
  · rintro ((hp | hp) | hp)
    · exact hsplit.2 (.inr hp)
    · exact hsplit.2 (.inl hp)
    · exact hsplit.2 (.inr (List.mem_of_mem_take hp))
  · exact fun hp => .inl (hsplit.1 hp).symm

/-- The normal form brings in no package. -/
theorem mem_of_mem_normalize (hp : p ∈ c.normalize) : p ∈ c := by
  unfold normalize at hp
  split at hp
  next => exact hp
  next => exact List.dropLast_subset c ((mem_rotate c _).1 hp)

/-- The normal form of a loop has its packages. -/
theorem IsLoop.mem_normalize (h : c.IsLoop) : p ∈ c.normalize ↔ p ∈ c := by
  unfold normalize
  split
  next => rfl
  next => rw [mem_rotate, h.mem_dropLast]

/-- The normal form of packages is not empty. -/
theorem normalize_ne_nil (h : c ≠ []) : c.normalize ≠ [] := by
  unfold normalize
  split
  next => exact h
  next p rest hc => exact List.ne_nil_of_mem ((mem_rotate c _).2 (hc ▸ List.mem_cons_self))

/-- The key tells the normal form, if no name holds a NUL byte. -/
theorem normalize_eq_of_key_eq (hc : c ≠ []) (hd : d ≠ []) (hcnul : ∀ p ∈ c, (0 : UInt8) ∉ p)
    (hdnul : ∀ p ∈ d, (0 : UInt8) ∉ p) (h : c.key = d.key) : c.normalize = d.normalize :=
  Text.join_inj (normalize_ne_nil hc) (normalize_ne_nil hd)
    (fun p hp => Text.free_byte_iff.2 (hcnul p (mem_of_mem_normalize hp)))
    (fun p hp => Text.free_byte_iff.2 (hdnul p (mem_of_mem_normalize hp))) h

namespace IsClosedWalk

theorem ne_nil (h : c.IsClosedWalk g) : c ≠ [] := by
  obtain ⟨u, rest, rfl, -⟩ := h.exists_eq_cons
  exact List.cons_ne_nil u rest

/-- What no node of the graph holds, no package of a closed walk holds. -/
theorem byte_notMem (h : c.IsClosedWalk g) {b : UInt8} (hb : ∀ p ∈ g.nodes, b ∉ p) :
    ∀ p ∈ c, b ∉ p := by
  intro p hp
  obtain ⟨q, hpq⟩ := Graph.mem_packages.1 (h.mem_packages hp)
  exact hb p (Graph.mem_nodes.2 ⟨q, .inl hpq⟩)

end IsClosedWalk

/-- Closed walks with the same key have the same packages, if no name holds a NUL byte. -/
theorem mem_iff_of_key_eq (hc : c.IsClosedWalk g) (hd : d.IsClosedWalk g)
    (hnul : ∀ p ∈ g.nodes, (0 : UInt8) ∉ p) (h : c.key = d.key) : p ∈ c ↔ p ∈ d := by
  rw [← hc.isLoop.mem_normalize, ← hd.isLoop.mem_normalize,
    normalize_eq_of_key_eq hc.ne_nil hd.ne_nil (hc.byte_notMem hnul) (hd.byte_notMem hnul) h]

end

end Cycle

end PackageCycles

import PackageCycles.Proofs.Cycle.Rotation

/-!
# The normal form of a ring

A ring comes back to its first package and repeats none before (`Cycle.IsRing`). Two rings are the
same if they are equal or the one is a rotation of the other (`Cycle.IsSameRing`); only for a ring of
one package, which has no step to start at, does this differ from being a rotation
(`IsLoop.isSameRing_iff`). The normal form is the same ring, written from its least package on, and
two rings are the same exactly if they have one normal form (`IsRing.normalize_eq_iff`).
`normalize_canonical` puts this together, with the same condition for keys.
-/

namespace PackageCycles

namespace Cycle

/-- The walk comes back to its first package, wherever its edges may be, and repeats none before. It
may consist of one package that it does not leave. -/
structure IsRing (c : Cycle) : Prop where
  /-- There is a first package. -/
  ne_nil : c ≠ []
  /-- It is the last one too. -/
  closed : c.IsClosed
  /-- Before the last no package comes twice. -/
  nodup : c.dropLast.Nodup

/-- The two are one ring, written from the same package or from different ones. -/
def IsSameRing (c d : Cycle) : Prop := c = d ∨ c.IsRotation d

section
variable {c d : Cycle} {p : Package}

/-! ## Rings -/

/-- A ring has one package alone or takes a step. -/
theorem IsRing.eq_singleton_or_isLoop (h : c.IsRing) : (∃ p, c = [p]) ∨ c.IsLoop := by
  rcases Nat.lt_or_ge c.length 2 with hlt | hge
  · have hpos := List.length_pos_of_ne_nil h.ne_nil
    exact .inl (List.length_eq_one_iff.1 (by omega))
  · exact .inr ⟨hge, h.closed⟩

theorem IsLoop.isSameRing_iff (hc : c.IsLoop) : c.IsSameRing d ↔ c.IsRotation d := by
  refine ⟨?_, .inr⟩
  rintro (rfl | h)
  · exact (hc.isRotation_iff hc).2 (.refl _)
  · exact h

theorem IsSameRing.isRing (h : c.IsSameRing d) (hc : c.IsRing) : d.IsRing := by
  rcases h with rfl | h
  · exact hc
  · exact ⟨List.ne_nil_of_length_pos (Nat.lt_of_lt_of_le Nat.two_pos h.isLoop.two_le),
      h.isLoop.closed, h.isRotated.nodup_iff.1 hc.nodup⟩

/-! ## Normal forms -/

theorem IsRing.isSameRing_normalize (h : c.IsRing) : c.IsSameRing c.normalize := by
  rcases h.eq_singleton_or_isLoop with ⟨p, rfl⟩ | hloop
  · exact .inl rfl
  · exact .inr hloop.isRotation_normalize

/-- The normal form of a ring goes from a least package to the same package. -/
theorem IsRing.exists_ends_normalize (h : c.IsRing) :
    ∃ p ∈ c, c.normalize.head? = some p ∧ c.normalize.getLast? = some p ∧ ∀ q ∈ c, ¬ q < p := by
  rcases h.eq_singleton_or_isLoop with ⟨p, rfl⟩ | hloop
  · refine ⟨p, List.mem_singleton_self p, rfl, rfl, fun q hq => ?_⟩
    rw [List.mem_singleton.1 hq]
    exact List.lt_irrefl p
  · obtain ⟨p, hp, hhead, hleast⟩ := hloop.exists_head?_normalize
    obtain ⟨q, hq, hclosed⟩ := hloop.isRotation_normalize.isLoop.exists_eq_concat
    obtain rfl : p = q := Option.some.inj (hhead.symm.trans hq)
    refine ⟨p, hloop.mem_dropLast.1 hp, ?_, ?_, fun q hq => hleast q (hloop.mem_dropLast.2 hq)⟩
    · rw [hclosed, List.head?_append, hhead]
      rfl
    · rw [hclosed, List.getLast?_concat]

/-- Rings have one normal form exactly if they are the same ring. -/
theorem IsRing.normalize_eq_iff (hc : c.IsRing) (hd : d.IsRing) :
    c.normalize = d.normalize ↔ c.IsSameRing d := by
  -- A loop is not normalised to a single package.
  have hne : ∀ {p : Package} {c : Cycle}, c.IsLoop → [p] ≠ c.normalize := fun hloop h => by
    have hlen := hloop.isRotation_normalize.isLoop.two_le
    rw [← h] at hlen
    exact absurd hlen (by simp)
  constructor
  · intro h
    rcases hc.eq_singleton_or_isLoop with ⟨p, rfl⟩ | hcloop
    · rcases hd.eq_singleton_or_isLoop with ⟨q, rfl⟩ | hdloop
      · exact .inl h
      · exact absurd h (hne hdloop)
    · rcases hd.eq_singleton_or_isLoop with ⟨q, rfl⟩ | hdloop
      · exact absurd h.symm (hne hcloop)
      · exact .inr (isRotation_of_normalize_eq hcloop hdloop h)
  · rintro (rfl | h)
    · rfl
    · have hloop : c.IsLoop := by
        rcases hc.eq_singleton_or_isLoop with ⟨p, rfl⟩ | hloop
        · obtain ⟨start, hstart, -⟩ := h
          exact absurd hstart (Nat.not_lt_zero start)
        · exact hloop
      exact normalize_eq_of_isRotation h hloop hc.nodup

/-- If no name holds a NUL byte, the keys of rings tell as much as their normal forms. -/
theorem IsRing.key_eq_iff (hc : c.IsRing) (hd : d.IsRing) (hcnul : ∀ p ∈ c, (0 : UInt8) ∉ p)
    (hdnul : ∀ p ∈ d, (0 : UInt8) ∉ p) : c.key = d.key ↔ c.normalize = d.normalize :=
  ⟨normalize_eq_of_key_eq hc.ne_nil hd.ne_nil hcnul hdnul, congrArg (Text.join [0])⟩

/-- The normal form of a ring is the same ring, from its least package to its least package.
Normalising it again changes nothing. Two rings have one normal form exactly if they are the same,
and if no name holds a NUL byte, they have one key under exactly the same condition. -/
theorem normalize_canonical (c : Cycle) (hc : c.IsRing) :
    c.IsSameRing c.normalize ∧
    (∃ p ∈ c, c.normalize.head? = some p ∧ c.normalize.getLast? = some p ∧ ∀ q ∈ c, ¬ q < p) ∧
    c.normalize.normalize = c.normalize ∧
    ∀ d : Cycle, d.IsRing →
      (c.normalize = d.normalize ↔ c.IsSameRing d) ∧
      ((∀ p ∈ c ++ d, (0 : UInt8) ∉ p) → (c.key = d.key ↔ c.IsSameRing d)) := by
  have hsame := hc.isSameRing_normalize
  refine ⟨hsame, hc.exists_ends_normalize, ?_, fun d hd => ?_⟩
  · exact ((hc.normalize_eq_iff (hsame.isRing hc)).2 hsame).symm
  · refine ⟨hc.normalize_eq_iff hd, fun hnul => ?_⟩
    obtain ⟨hcnul, hdnul⟩ := List.forall_mem_append.1 hnul
    rw [hc.key_eq_iff hd hcnul hdnul, hc.normalize_eq_iff hd]

/-- A ring of three packages, written from its greatest package on and from the one in between, has
one key, and another one backwards. -/
theorem normalize_canonical_threePackages :
    IsRing ["c", "a", "b", "c"] ∧ IsRing ["b", "c", "a", "b"] ∧ IsRing ["c", "b", "a", "c"] ∧
      (key ["c", "a", "b", "c"] = key ["b", "c", "a", "b"] ∧
        IsSameRing ["c", "a", "b", "c"] ["b", "c", "a", "b"]) ∧
      normalize ["c", "a", "b", "c"] ≠ normalize ["c", "b", "a", "c"] ∧
        ¬ IsSameRing ["c", "a", "b", "c"] ["c", "b", "a", "c"] := by
  have hc : IsRing ["c", "a", "b", "c"] := ⟨by decide, rfl, by decide⟩
  have hd : IsRing ["b", "c", "a", "b"] := ⟨by decide, rfl, by decide⟩
  have he : IsRing ["c", "b", "a", "c"] := ⟨by decide, rfl, by decide⟩
  have hkey : key ["c", "a", "b", "c"] = key ["b", "c", "a", "b"] := by decide
  have hne : normalize ["c", "a", "b", "c"] ≠ normalize ["c", "b", "a", "c"] := by decide
  obtain ⟨-, -, -, hiff⟩ := normalize_canonical ["c", "a", "b", "c"] hc
  exact ⟨hc, hd, he, ⟨hkey, ((hiff _ hd).2 (by decide)).1 hkey⟩, hne,
    fun h => hne ((hiff _ he).1.2 h)⟩

end

end Cycle

end PackageCycles

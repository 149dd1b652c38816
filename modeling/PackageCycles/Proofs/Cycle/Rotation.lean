import Mathlib.Data.List.Rotate
import PackageCycles.Proofs.Cycle.Key

/-!
# Rotations of a cycle

A loop is determined by its packages before the last, so two loops are rotations of each other
exactly if these lists are (`IsLoop.isRotation_iff`). A rotation takes the same steps in another
order (`IsRotation.steps_perm`), so that of a closed walk is a closed walk again. The normal form is
a rotation that starts at a least package (`IsLoop.isRotation_normalize`,
`IsLoop.exists_head?_normalize`). A loop that repeats no package visits that one once, so all its
rotations have one normal form (`normalize_eq_of_isRotation`); and loops with one normal form are
rotations of each other (`isRotation_of_normalize_eq`). If no name holds a NUL byte, the same is true
of keys (`IsSimple.key_eq_of_isRotation`, `isRotation_of_key_eq`).
-/

namespace PackageCycles

namespace Cycle

section
variable {g : Graph} {c d e : Cycle} {p : Package} {start : Nat}

/-! ## Rotations of loops -/

/-- A rotation comes to a package of the walk, goes on from there and returns by the packages in
front of it. -/
theorem IsRotation.exists_append (h : c.IsRotation d) : ∃ front p back,
    c.dropLast = front ++ p :: back ∧ d = p :: back ++ front ++ [p] := by
  obtain ⟨start, hstart, rfl⟩ := h
  have hdrop := List.drop_eq_getElem_cons hstart
  refine ⟨c.dropLast.take start, c.dropLast[start], c.dropLast.drop (start + 1), ?_, ?_⟩
  · rw [← hdrop, List.take_append_drop]
  · rw [rotate, hdrop]
    rfl

/-- A rotation comes back to the package from which it starts. -/
theorem IsRotation.isLoop (h : c.IsRotation d) : d.IsLoop := by
  obtain ⟨front, p, back, -, rfl⟩ := h.exists_append
  refine ⟨?_, ?_⟩
  · simp only [List.length_append, List.length_cons, List.length_nil]
    omega
  · show _ = _
    rw [List.getLast?_concat]
    rfl

/-- A rotation of a cycle is one of its packages in turn. -/
theorem IsRotation.isRotated (h : c.IsRotation d) : c.dropLast.IsRotated d.dropLast := by
  obtain ⟨front, p, back, hc, rfl⟩ := h.exists_append
  rw [hc, List.dropLast_concat]
  exact List.isRotated_append

/-- A loop comes back to the first of the packages before the last. -/
theorem IsLoop.exists_eq_concat (h : c.IsLoop) :
    ∃ p, c.dropLast.head? = some p ∧ c = c.dropLast ++ [p] := by
  obtain ⟨p, rest, rfl, hp, hc⟩ := h.exists_eq_cons
  refine ⟨p, ?_, hc⟩
  rw [List.dropLast_cons_of_ne_nil (List.ne_nil_of_mem hp), List.head?_cons]

/-- Loops with the same packages before the last are the same. -/
theorem IsLoop.ext (hc : c.IsLoop) (hd : d.IsLoop) (h : c.dropLast = d.dropLast) : c = d := by
  obtain ⟨p, hp, hc⟩ := hc.exists_eq_concat
  obtain ⟨q, hq, hd⟩ := hd.exists_eq_concat
  have hpq : p = q := by
    rw [h, hq] at hp
    exact (Option.some.inj hp).symm
  rw [hc, hd, h, hpq]

/-- Loops are rotations of each other exactly if their packages before the last are. -/
theorem IsLoop.isRotation_iff (hc : c.IsLoop) (hd : d.IsLoop) :
    c.IsRotation d ↔ c.dropLast.IsRotated d.dropLast := by
  refine ⟨IsRotation.isRotated, fun ⟨n, hn⟩ => ?_⟩
  obtain ⟨p, hp, -⟩ := hc.exists_eq_concat
  obtain ⟨q, hq, hd⟩ := hd.exists_eq_concat
  have hlt : n % c.dropLast.length < c.dropLast.length :=
    Nat.mod_lt n (List.length_pos_of_mem (List.mem_of_head? hp))
  have hdrop := List.drop_eq_getElem_cons hlt
  rw [← List.rotate_mod] at hn
  refine ⟨n % c.dropLast.length, hlt, ?_⟩
  rw [hd, ← hn]
  rw [← hn, List.head?_rotate hlt, List.getElem?_eq_getElem hlt, Option.some_inj] at hq
  rw [rotate, List.rotate_eq_drop_append_take (Nat.le_of_lt hlt), hdrop, ← hq]
  rfl

theorem IsRotation.symm (h : c.IsRotation d) (hc : c.IsLoop) : d.IsRotation c :=
  (h.isLoop.isRotation_iff hc).2 h.isRotated.symm

theorem IsRotation.trans (h : c.IsRotation d) (h' : d.IsRotation e) (hc : c.IsLoop) :
    c.IsRotation e :=
  (hc.isRotation_iff h'.isLoop).2 (h.isRotated.trans h'.isRotated)

/-! ## Steps of a rotation -/

/-- The steps of a walk are those up to one of its packages and those from there on. -/
theorem steps_append_cons : ∀ (front : List Package) (p : Package) (rest : List Package),
    steps (front ++ p :: rest) = steps (front ++ [p]) ++ steps (p :: rest)
  | [], _, _ => rfl
  | [_], _, _ => rfl
  | q :: r :: front, p, rest => by
    have ih := steps_append_cons (r :: front) p rest
    rw [List.cons_append, List.cons_append] at ih
    simp only [List.cons_append, steps_cons_cons, ih]

/-- A rotation of a loop takes the same steps. -/
theorem IsRotation.steps_perm (h : c.IsRotation d) (hc : c.IsLoop) :
    c.steps.Perm d.steps := by
  obtain ⟨front, p, back, hsplit, rfl⟩ := h.exists_append
  obtain ⟨q, hq, hclosed⟩ := hc.exists_eq_concat
  rw [hsplit] at hq
  rw [hclosed, hsplit]
  cases front with
  | nil =>
    obtain rfl : p = q := Option.some.inj hq
    rw [List.nil_append, List.append_nil]
  | cons r front =>
    obtain rfl : r = q := Option.some.inj hq
    -- The steps to `p` and those from `p` back to the start, in the two orders.
    have hto : steps (r :: front ++ p :: back ++ [r]) =
        steps (r :: front ++ [p]) ++ steps (p :: back ++ [r]) := by
      rw [List.append_assoc]
      exact steps_append_cons (r :: front) p (back ++ [r])
    have hfrom : steps (p :: back ++ r :: front ++ [p]) =
        steps (p :: back ++ [r]) ++ steps (r :: front ++ [p]) := by
      rw [List.append_assoc]
      exact steps_append_cons (p :: back) r (front ++ [p])
    rw [hto, hfrom]
    exact List.perm_append_comm

/-- A rotation of a closed walk is one. -/
theorem IsClosedWalk.of_isRotation (hc : c.IsClosedWalk g) (h : c.IsRotation d) :
    d.IsClosedWalk g :=
  ⟨h.isLoop.two_le, fun e he => hc.walk e ((h.steps_perm hc.isLoop).mem_iff.2 he), h.isLoop.closed⟩

/-- A rotation of a simple cycle is one. -/
theorem IsSimple.of_isRotation (hc : c.IsSimple g) (h : c.IsRotation d) : d.IsSimple g := by
  have hd := hc.isClosedWalk.of_isRotation h
  exact ⟨hd.two_le, hd.walk, hd.closed, h.isRotated.nodup_iff.1 hc.nodup⟩

/-! ## The normal form -/

/-- The least package is found at its position. -/
theorem getElem?_least : ∀ (p : Package) (rest : List Package),
    (p :: rest)[(least p rest).1]? = some (least p rest).2
  | _, [] => rfl
  | p, q :: rest => by
    have ih := getElem?_least q rest
    simp only [least]
    split
    · rw [List.getElem?_cons_succ, ih]
    · rfl

theorem not_lt_least : ∀ (p : Package) (rest : List Package), ∀ q ∈ p :: rest,
    ¬ q < (least p rest).2
  | p, [], q, hq => by
    rw [List.mem_singleton.1 hq]
    exact List.lt_irrefl p
  | p, r :: rest, q, hq => by
    have ih := not_lt_least r rest
    simp only [least]
    split
    next hlt =>
      rcases List.mem_cons.1 hq with rfl | hq
      · exact fun hqm => List.lt_irrefl q (List.lt_trans hqm hlt)
      · exact ih q hq
    next hge =>
      rcases List.mem_cons.1 hq with rfl | hq
      · exact List.lt_irrefl q
      · intro hqp
        have hpm : p = (least r rest).2 := Std.Trichotomous.trichotomous
          (r := (· < · : Text → Text → Prop)) _ _ (fun hpm => ih q hq (List.lt_trans hqp hpm)) hge
        exact ih q hq (hpm ▸ hqp)

/-- The normal form of a loop is a rotation of it. -/
theorem IsLoop.isRotation_normalize (h : c.IsLoop) : c.IsRotation c.normalize := by
  unfold normalize
  split
  next hnil =>
    obtain ⟨p, hp, -⟩ := h.exists_eq_concat
    rw [hnil] at hp
    cases hp
  next p rest hc =>
    obtain ⟨hlt, -⟩ := List.getElem?_eq_some_iff.1 (getElem?_least p rest)
    exact ⟨_, hc ▸ hlt, rfl⟩

/-- The normal form of a loop starts at a least package. -/
theorem IsLoop.exists_head?_normalize (h : c.IsLoop) :
    ∃ p ∈ c.dropLast, c.normalize.dropLast.head? = some p ∧ ∀ q ∈ c.dropLast, ¬ q < p := by
  unfold normalize
  split
  next hnil =>
    obtain ⟨p, hp, -⟩ := h.exists_eq_concat
    rw [hnil] at hp
    cases hp
  next p rest hc =>
    have hleast := getElem?_least p rest
    rw [← hc] at hleast
    obtain ⟨hlt, hget⟩ := List.getElem?_eq_some_iff.1 hleast
    refine ⟨(least p rest).2, List.mem_of_getElem? hleast, ?_, hc ▸ not_lt_least p rest⟩
    rw [rotate, List.drop_eq_getElem_cons hlt, hget]
    show (_ ++ [_]).dropLast.head? = _
    rw [List.dropLast_concat]
    rfl

/-- A list without repetition is determined by its first element among its rotations. -/
theorem eq_of_isRotated_of_head?_eq {xs ys : List Package} (h : xs.IsRotated ys)
    (hnodup : xs.Nodup) (hhead : xs.head? = ys.head?) : xs = ys := by
  obtain ⟨n, rfl⟩ := h
  rcases Nat.eq_zero_or_pos xs.length with hnil | hpos
  · rw [List.length_eq_zero_iff.1 hnil, List.rotate_nil]
  · have hlt : n % xs.length < xs.length := Nat.mod_lt n hpos
    rw [← List.rotate_mod, List.head?_rotate hlt, List.head?_eq_getElem?] at hhead
    have hzero : 0 = n % xs.length := (List.getElem?_inj hpos hnodup).1 hhead
    rw [← List.rotate_mod, ← hzero, List.rotate_zero]

/-- A loop that repeats no package has one normal form however it is rotated. -/
theorem normalize_eq_of_isRotation (h : c.IsRotation d) (hc : c.IsLoop)
    (hnodup : c.dropLast.Nodup) : c.normalize = d.normalize := by
  have hnormal := hc.isRotation_normalize
  have hnormal' := h.isLoop.isRotation_normalize
  refine hnormal.isLoop.ext hnormal'.isLoop ?_
  refine eq_of_isRotated_of_head?_eq ?_ (hnormal.isRotated.nodup_iff.1 hnodup) ?_
  · exact (hnormal.isRotated.symm.trans h.isRotated).trans hnormal'.isRotated
  · obtain ⟨p, hp, hphead, hpleast⟩ := hc.exists_head?_normalize
    obtain ⟨q, hq, hqhead, hqleast⟩ := h.isLoop.exists_head?_normalize
    have hpq : p = q := Std.Trichotomous.trichotomous (r := (· < · : Text → Text → Prop)) p q
      (hqleast p (h.isRotated.mem_iff.1 hp)) (hpleast q (h.isRotated.mem_iff.2 hq))
    rw [hphead, hqhead, hpq]

/-- Loops with one normal form are rotations of each other. -/
theorem isRotation_of_normalize_eq (hc : c.IsLoop) (hd : d.IsLoop)
    (h : c.normalize = d.normalize) : c.IsRotation d := by
  have hnormal := hc.isRotation_normalize
  rw [h] at hnormal
  exact hnormal.trans (hd.isRotation_normalize.symm hd) hc

/-- Rotations of a simple cycle have the same key. -/
theorem IsSimple.key_eq_of_isRotation (hc : c.IsSimple g) (h : c.IsRotation d) :
    c.key = d.key := by
  rw [key, key, normalize_eq_of_isRotation h hc.isClosedWalk.isLoop hc.nodup]

/-- Closed walks with the same key are rotations of each other, if no name holds a NUL byte. -/
theorem isRotation_of_key_eq (hc : c.IsClosedWalk g) (hd : d.IsClosedWalk g)
    (hnul : ∀ p ∈ g.nodes, (0 : UInt8) ∉ p) (h : c.key = d.key) : c.IsRotation d :=
  isRotation_of_normalize_eq hc.isLoop hd.isLoop (normalize_eq_of_key_eq hc.ne_nil hd.ne_nil
    (hc.byte_notMem hnul) (hd.byte_notMem hnul) h)

end

end Cycle

end PackageCycles

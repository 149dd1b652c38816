import Mathlib.Data.List.Basic
import PackageCycles.Ordered

/-!
# Increasing lists as sets and maps

An increasing list is determined by its elements (`IsOrdered.ext`), and inserting adds one element
to them (`mem_insert`). Pairs in the increasing order of their keys are a map: assigning a value to a
key keeps the order of the keys and replaces what the key stood for (`mem_assign`).
-/

namespace PackageCycles.Ordered

/-! ## Sets -/

section
variable {α : Type} [LT α] [DecidableLT α] [Std.Trichotomous (· < · : α → α → Prop)] {x y : α}
  {xs : List α}

/-- The elements after an insertion are the one inserted and those from before. -/
theorem mem_insert : y ∈ insert x xs ↔ y = x ∨ y ∈ xs := by
  refine ⟨mem_of_mem_insert, fun h => ?_⟩
  induction xs with
  | nil => simpa [insert] using h
  | cons z rest ih =>
    unfold insert
    split
    next => simpa using h
    next hxz =>
      split
      next =>
        rcases h with rfl | h
        · exact List.mem_cons_of_mem _ (ih (.inl rfl))
        · rcases List.mem_cons.1 h with rfl | h
          · exact List.mem_cons_self
          · exact List.mem_cons_of_mem _ (ih (.inr h))
      next hzx =>
        have hxz : x = z := Std.Trichotomous.trichotomous x z hxz hzx
        rcases h with rfl | h
        · exact hxz ▸ List.mem_cons_self
        · exact h

/-- The elements of the increasing list are those of the list it was made from. -/
theorem mem_ofList : x ∈ ofList xs ↔ x ∈ xs := by
  unfold ofList
  suffices ∀ set : List α, x ∈ xs.foldl (fun set y => insert y set) set ↔ x ∈ xs ∨ x ∈ set by
    simpa using this []
  induction xs with
  | nil => simp
  | cons y rest ih =>
    intro set
    rw [List.foldl_cons, ih, mem_insert, List.mem_cons]
    exact ⟨fun h => by rcases h with h | h | h <;> simp [h],
      fun h => by rcases h with (h | h) | h <;> simp [h]⟩

end

section
variable {α : Type} [LT α] {xs ys : List α}

/-- An increasing list has no element twice. -/
theorem IsOrdered.nodup [Std.Irrefl (· < · : α → α → Prop)] (h : IsOrdered xs) : xs.Nodup := by
  refine List.Pairwise.imp ?_ h
  rintro a b hab rfl
  exact Std.Irrefl.irrefl a hab

/-- Increasing lists with the same elements are equal. -/
theorem IsOrdered.ext [Std.Asymm (· < · : α → α → Prop)] (hx : IsOrdered xs) (hy : IsOrdered ys)
    (h : ∀ a, a ∈ xs ↔ a ∈ ys) : xs = ys :=
  List.Perm.eq_of_pairwise (fun a b _ _ hab hba => absurd hba (Std.Asymm.asymm a b hab)) hx hy
    ((List.perm_ext_iff_of_nodup hx.nodup hy.nodup).2 h)

end

/-! ## Maps -/

section
variable {α β : Type} [LT α] [DecidableLT α] {key k : α} {value v : β} {xs : List (α × β)}

/-- Assigning brings in no key but the one assigned to. -/
theorem fst_of_mem_assign (h : (k, v) ∈ assign key value xs) : k = key ∨ (k, v) ∈ xs := by
  induction xs with
  | nil =>
    rw [assign, List.mem_singleton, Prod.mk.injEq] at h
    exact .inl h.1
  | cons x rest ih =>
    unfold assign at h
    split at h
    next =>
      rcases List.mem_cons.1 h with h | h
      · exact .inl (congrArg Prod.fst h)
      · exact .inr h
    next =>
      split at h
      next =>
        rcases List.mem_cons.1 h with h | h
        · exact .inr (h ▸ List.mem_cons_self)
        · exact (ih h).imp_right (List.mem_cons_of_mem _)
      next =>
        rcases List.mem_cons.1 h with h | h
        · exact .inl (congrArg Prod.fst h)
        · exact .inr (List.mem_cons_of_mem _ h)

variable [Trans (· < · : α → α → Prop) (· < ·) (· < ·)]
  [Std.Trichotomous (· < · : α → α → Prop)]

/-- Assigning keeps the keys in order. -/
theorem isOrdered_keys_assign (h : IsOrdered (xs.map Prod.fst)) (key : α) (value : β) :
    IsOrdered ((assign key value xs).map Prod.fst) := by
  induction xs with
  | nil => exact List.pairwise_singleton _ _
  | cons x rest ih =>
    obtain ⟨other, old⟩ := x
    obtain ⟨hother, hrest⟩ := List.pairwise_cons.1 h
    unfold assign
    split
    next hlt =>
      refine .cons (fun k hk => ?_) h
      rcases List.mem_cons.1 hk with rfl | hk
      · exact hlt
      · exact Trans.trans hlt (hother k hk)
    next hnlt =>
      split
      next hlt =>
        refine .cons (fun k hk => ?_) (ih hrest)
        obtain ⟨⟨k, v⟩, hkv, rfl⟩ := List.mem_map.1 hk
        rcases fst_of_mem_assign hkv with rfl | hkv
        · exact hlt
        · exact hother k (List.mem_map_of_mem hkv)
      next hngt =>
        have hkey : key = other := Std.Trichotomous.trichotomous key other hnlt hngt
        exact hkey ▸ h

/-- Assigning replaces what the key stood for and nothing else. -/
theorem mem_assign [Std.Irrefl (· < · : α → α → Prop)] (h : IsOrdered (xs.map Prod.fst)) :
    (k, v) ∈ assign key value xs ↔ k = key ∧ v = value ∨ k ≠ key ∧ (k, v) ∈ xs := by
  induction xs with
  | nil => simp [assign]
  | cons x rest ih =>
    obtain ⟨other, old⟩ := x
    obtain ⟨hother, hrest⟩ := List.pairwise_cons.1 h
    -- A key below the first one, or the first one itself, does not occur further on.
    have habsent : ∀ {k v}, ¬ other < k → (k, v) ∉ rest :=
      fun hk hmem => hk (hother _ (List.mem_map_of_mem hmem))
    unfold assign
    split
    next hlt =>
      have hne : key ≠ other := fun heq => Std.Irrefl.irrefl other (heq ▸ hlt)
      have hnlt : ¬ other < key := fun hgt => Std.Irrefl.irrefl other (Trans.trans hgt hlt)
      have hnot : ∀ {v}, (key, v) ∉ (other, old) :: rest := fun hmem =>
        (List.mem_cons.1 hmem).elim (fun heq => hne (Prod.mk.inj heq).1) (habsent hnlt)
      rw [List.mem_cons, Prod.mk.injEq]
      constructor
      · rintro (hassigned | hmem)
        · exact .inl hassigned
        · exact .inr ⟨fun heq => hnot (heq ▸ hmem), hmem⟩
      · rintro (hassigned | ⟨-, hmem⟩)
        · exact .inl hassigned
        · exact .inr hmem
    next hnlt =>
      split
      next hlt =>
        have hne : other ≠ key := fun heq => Std.Irrefl.irrefl key (heq ▸ hlt)
        rw [List.mem_cons, List.mem_cons, ih hrest, Prod.mk.injEq]
        constructor
        · rintro (⟨rfl, rfl⟩ | hassigned | ⟨hk, hmem⟩)
          · exact .inr ⟨hne, .inl ⟨rfl, rfl⟩⟩
          · exact .inl hassigned
          · exact .inr ⟨hk, .inr hmem⟩
        · rintro (hassigned | ⟨hk, hfirst | hmem⟩)
          · exact .inr (.inl hassigned)
          · exact .inl hfirst
          · exact .inr (.inr ⟨hk, hmem⟩)
      next hngt =>
        have hkey : key = other := Std.Trichotomous.trichotomous key other hnlt hngt
        subst hkey
        have hnot : ∀ {v}, (key, v) ∉ rest := habsent (Std.Irrefl.irrefl key)
        rw [List.mem_cons, List.mem_cons, Prod.mk.injEq, Prod.mk.injEq]
        constructor
        · rintro (hassigned | hmem)
          · exact .inl hassigned
          · exact .inr ⟨fun heq => hnot (heq ▸ hmem), .inr hmem⟩
        · rintro (hassigned | ⟨hk, ⟨heq, -⟩ | hmem⟩)
          · exact .inl hassigned
          · exact absurd heq hk
          · exact .inr hmem

end

/-- Looking up a key gives the value that is paired with it. -/
theorem lookup_eq_some_iff {α β : Type} [LT α] [Std.Irrefl (· < · : α → α → Prop)] [BEq α]
    [LawfulBEq α] {k : α} {v : β} {xs : List (α × β)} (h : IsOrdered (xs.map Prod.fst)) :
    xs.lookup k = some v ↔ (k, v) ∈ xs := by
  induction xs with
  | nil => simp
  | cons x rest ih =>
    obtain ⟨other, old⟩ := x
    obtain ⟨hother, hrest⟩ := List.pairwise_cons.1 h
    rw [List.lookup_cons, List.mem_cons, Prod.mk.injEq]
    split
    next heq =>
      obtain rfl := LawfulBEq.eq_of_beq heq
      have hnot : (k, v) ∉ rest := fun hmem =>
        Std.Irrefl.irrefl k (hother _ (List.mem_map_of_mem hmem))
      rw [Option.some.injEq, or_iff_left hnot, and_iff_right rfl, eq_comm]
    next hne =>
      have hne : ¬ (k = other ∧ v = old) := fun hk => by simp [hk.1] at hne
      rw [or_iff_right hne, ih hrest]

end PackageCycles.Ordered

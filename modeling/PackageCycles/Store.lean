import PackageCycles.Text.Basic

/-!
# Stores with limited room

A store keeps values by path and may forget any of them (`Store`). What is relied on is that it
makes nothing up: what it has for a path was put in for that path last and has not been taken out
since (`LawfulStore`). Everything that is proved of a cache is proved of all such stores. The store that
runs is `Recent`, in which the value that was used longest ago makes room for a new one.
-/

namespace PackageCycles

/-- What can be done with a store of values by path. -/
class Store (σ : Type) (α : outParam Type) where
  /-- The store without values, with room for the given number of them. -/
  new : Nat → σ
  /-- The number of values. -/
  size : σ → Nat
  /-- The value that is kept for a path. -/
  get? : σ → Text → Option α
  /-- The store after the value for a path has been asked for. -/
  touch : σ → Text → σ
  /-- The store with a value for a path. -/
  insert : σ → Text → α → σ
  /-- The store without the value for a path. -/
  erase : σ → Text → σ
  /-- The store without values. -/
  clear : σ → σ

open Store in
/-- The store has for a path at most what was put in for it last and has not been taken out since.
-/
class LawfulStore (σ : Type) {α : outParam Type} [Store σ α] : Prop where
  /-- A new store has nothing. -/
  get?_new (room : Nat) (path : Text) : get? (new room : σ) path = none
  /-- A value takes the place of the one that was there for its path. -/
  eq_of_get?_insert {s : σ} {path : Text} {a b : α} (h : get? (insert s path a) path = some b) :
    b = a
  /-- It brings nothing for other paths. -/
  get?_of_get?_insert {s : σ} {path other : Text} {a b : α} (hne : other ≠ path)
    (h : get? (insert s path a) other = some b) : get? s other = some b
  /-- Nothing is left of a value that is taken out. -/
  get?_erase_self (s : σ) (path : Text) : get? (erase s path) path = none
  /-- Taking a value out brings nothing. -/
  get?_of_get?_erase {s : σ} {path other : Text} {b : α}
    (h : get? (erase s path) other = some b) : get? s other = some b
  /-- Nothing is left if all values are taken out. -/
  get?_clear (s : σ) (path : Text) : get? (clear s) path = none
  /-- Asking for a value brings nothing. -/
  get?_of_get?_touch {s : σ} {path other : Text} {b : α}
    (h : get? (touch s path) other = some b) : get? s other = some b

/-- A bounded number of values by path, the one used last first. -/
structure Recent (α : Type) where
  /-- How many values are kept. -/
  room : Nat
  /-- The values with their paths, each path at most once. -/
  values : List (Text × α)
  deriving DecidableEq

namespace Recent

section
variable {α : Type} {r : Recent α} {path other : Text} {a b : α} {values : List (Text × α)}

/-- The store without the value for a path. -/
def erase (r : Recent α) (path : Text) : Recent α :=
  { r with values := r.values.filter fun value => value.1 ≠ path }

/-- The store with a value for a path; the value used longest ago is dropped if there is one too
many. -/
def insert (r : Recent α) (path : Text) (a : α) : Recent α :=
  { r with values := ((path, a) :: (r.erase path).values).take r.room }

instance : Store (Recent α) α where
  new room := ⟨room, []⟩
  size r := r.values.length
  get? r path := r.values.lookup path
  touch r path :=
    match r.values.lookup path with
    | some a => r.insert path a
    | none => r
  insert := insert
  erase := erase
  clear r := { r with values := [] }

/-! ## The laws -/

/-- What is found among the first values is found among all of them. -/
theorem lookup_of_lookup_take {n : Nat} (h : (values.take n).lookup path = some b) :
    values.lookup path = some b := by
  obtain ⟨front, back, hvalues, hfront⟩ := List.lookup_eq_some_iff.1 h
  refine List.lookup_eq_some_iff.2 ⟨front, back ++ values.drop n, ?_, hfront⟩
  rw [← List.cons_append, ← List.append_assoc, ← hvalues, List.take_append_drop]

theorem lookup_filter_self : (values.filter fun value => value.1 ≠ path).lookup path = none :=
  List.lookup_eq_none_iff.2 fun value hvalue => by
    have hne : value.1 ≠ path := by simpa using (List.mem_filter.1 hvalue).2
    exact bne_iff_ne.2 hne.symm

theorem lookup_filter_of_ne (h : other ≠ path) :
    (values.filter fun value => value.1 ≠ path).lookup other = values.lookup other := by
  induction values with
  | nil => rfl
  | cons value rest ih =>
    by_cases hvalue : value.1 = path
    · rw [List.filter_cons_of_neg (by simpa using hvalue), ih, List.lookup_cons,
        beq_false_of_ne (hvalue ▸ h)]
    · rw [List.filter_cons_of_pos (by simpa using hvalue), List.lookup_cons, List.lookup_cons, ih]

theorem eq_of_lookup_insert (h : (r.insert path a).values.lookup path = some b) : b = a := by
  have hall := lookup_of_lookup_take h
  rw [List.lookup_cons_self] at hall
  exact (Option.some.inj hall).symm

theorem lookup_of_lookup_insert (hne : other ≠ path)
    (h : (r.insert path a).values.lookup other = some b) : r.values.lookup other = some b := by
  have hall := lookup_of_lookup_take h
  rw [List.lookup_cons, beq_false_of_ne hne] at hall
  exact (lookup_filter_of_ne hne).symm.trans hall

theorem lookup_of_lookup_erase (h : (r.erase path).values.lookup other = some b) :
    r.values.lookup other = some b := by
  by_cases hother : other = path
  · subst hother
    rw [erase, lookup_filter_self] at h
    cases h
  · exact (lookup_filter_of_ne hother).symm.trans h

instance : LawfulStore (Recent α) where
  get?_new _ _ := rfl
  eq_of_get?_insert := eq_of_lookup_insert
  get?_of_get?_insert := lookup_of_lookup_insert
  get?_erase_self _ _ := lookup_filter_self
  get?_of_get?_erase := lookup_of_lookup_erase
  get?_clear _ _ := rfl
  get?_of_get?_touch {r path other b} h := by
    simp only [Store.get?, Store.touch] at h ⊢
    split at h
    next a hlookup =>
      by_cases hother : other = path
      · subst hother
        rw [hlookup, eq_of_lookup_insert h]
      · exact lookup_of_lookup_insert hother h
    next => exact h

end

end Recent

end PackageCycles

/-!
# Strictly increasing lists

Sets of names and of edges are kept as strictly increasing lists, so that a set has one
representation and comes out in order. `Ordered.insert` puts an element in its place and
`Ordered.ofList` collects the distinct elements of a list; both give increasing lists
(`IsOrdered.insert`, `isOrdered_ofList`).
-/

namespace PackageCycles.Ordered

variable {α : Type} [LT α]

/-- The list increases strictly from each element to the next. -/
def IsOrdered (xs : List α) : Prop := xs.Pairwise (· < ·)

variable [DecidableLT α]

/-- `x` put in its place in an increasing list; an element already there is not repeated. -/
def insert (x : α) : List α → List α
  | [] => [x]
  | y :: rest =>
    if x < y then x :: y :: rest
    else if y < x then y :: insert x rest
    else y :: rest

/-- The distinct elements of a list in increasing order. -/
def ofList (xs : List α) : List α := xs.foldl (fun set x => insert x set) []

/-- Pairs in the order of their keys with the value of a key set. -/
def assign {β : Type} (key : α) (value : β) : List (α × β) → List (α × β)
  | [] => [(key, value)]
  | (other, old) :: rest =>
    if key < other then (key, value) :: (other, old) :: rest
    else if other < key then (other, old) :: assign key value rest
    else (key, value) :: rest

/-- Inserting brings in no element but the one inserted. -/
theorem mem_of_mem_insert {x y : α} {xs : List α} (h : y ∈ insert x xs) : y = x ∨ y ∈ xs := by
  induction xs with
  | nil => simpa [insert] using h
  | cons z rest ih =>
    unfold insert at h
    split at h
    · simpa using h
    · split at h
      · rcases List.mem_cons.1 h with rfl | h
        · simp
        · rcases ih h with rfl | h <;> simp [*]
      · exact .inr h

variable [Trans (· < · : α → α → Prop) (· < ·) (· < ·)]

/-- Inserting keeps a list increasing. -/
theorem IsOrdered.insert {xs : List α} (h : IsOrdered xs) (x : α) :
    IsOrdered (Ordered.insert x xs) := by
  induction xs with
  | nil => exact .cons (by simp) .nil
  | cons y rest ih =>
    obtain ⟨hy, hrest⟩ := List.pairwise_cons.1 h
    unfold Ordered.insert
    split
    next hxy =>
      exact .cons
        (fun z hz => (List.mem_cons.1 hz).elim (· ▸ hxy) fun hz => Trans.trans hxy (hy z hz)) h
    next =>
      split
      next hyx =>
        exact .cons (fun z hz => (mem_of_mem_insert hz).elim (· ▸ hyx) (hy z)) (ih hrest)
      next => exact h

/-- The distinct elements of a list come in increasing order. -/
theorem isOrdered_ofList (xs : List α) : IsOrdered (ofList xs) := by
  unfold ofList
  suffices ∀ set : List α, IsOrdered set → IsOrdered (xs.foldl (fun set x => insert x set) set) from
    this [] .nil
  induction xs with
  | nil => exact fun _ h => h
  | cons x rest ih => exact fun set h => ih _ (h.insert x)

end PackageCycles.Ordered

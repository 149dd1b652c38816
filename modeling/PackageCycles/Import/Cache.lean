import PackageCycles.Graph.Basic
import PackageCycles.Store

/-!
# Cached imports

A cache remembers the imports of a bounded number of files together with the size and the time of
last modification that they had when they were read. It answers only for a file whose size and time
are still the same, and drops an entry that is found to be out of date. Where the entries are kept
is left to a store; the cache that runs keeps those that were used last.
-/

namespace PackageCycles.Import

/-- What tells versions of a file apart. -/
structure Stamp where
  /-- The number of bytes. -/
  size : Int
  /-- The time of last modification in nanoseconds. -/
  modified : Int
  deriving DecidableEq

/-- The imports of a file as they were at a stamp. -/
structure CacheEntry where
  /-- The stamp at which the file was read. -/
  stamp : Stamp
  /-- The packages it imports. -/
  imports : List Package
  deriving DecidableEq

/-- A cache that keeps its entries in a store. -/
structure CacheOver (σ : Type) where
  /-- The entries by path. -/
  entries : σ
  deriving DecidableEq

/-- A cache in which the entry that was used longest ago makes room. -/
abbrev Cache := CacheOver (Recent CacheEntry)

namespace CacheOver

/-- How many entries are kept unless another number is asked for. -/
def defaultCapacity : Nat := 4096

variable {σ : Type} [Store σ CacheEntry]

/-- The empty cache of the given size; sizes that are not positive ask for the default. -/
def new (size : Int) : CacheOver σ :=
  ⟨Store.new (if size ≤ 0 then defaultCapacity else size.toNat)⟩

/-- The number of entries. -/
def size (c : CacheOver σ) : Nat := Store.size c.entries

/-- The entry that is kept for a path, whether it is out of date or not. -/
def get? (c : CacheOver σ) (path : Text) : Option CacheEntry := Store.get? c.entries path

/-- The cache after the entry of a path has been asked for. -/
def touch (c : CacheOver σ) (path : Text) : CacheOver σ := ⟨Store.touch c.entries path⟩

/-- The cache without the entry of a path. -/
def erase (c : CacheOver σ) (path : Text) : CacheOver σ := ⟨Store.erase c.entries path⟩

/-- The cache without entries. -/
def clear (c : CacheOver σ) : CacheOver σ := ⟨Store.clear c.entries⟩

/-- The cache with an entry for a path. -/
def insert (c : CacheOver σ) (path : Text) (entry : CacheEntry) : CacheOver σ :=
  ⟨Store.insert c.entries path entry⟩

/-- The imports of a file that still has the given stamp, and the cache after the look-up. -/
def lookup (c : CacheOver σ) (path : Text) (stamp : Stamp) :
    Option (List Package) × CacheOver σ :=
  match c.get? path with
  | none => (none, c.touch path)
  | some entry =>
    if entry.stamp = stamp then (some entry.imports, c.touch path)
    else (none, (c.touch path).erase path)

end CacheOver

end PackageCycles.Import

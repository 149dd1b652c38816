import Mathlib.Data.List.Forall2
import PackageCycles.Proofs.Analysis.LoadedGraph

/-!
# What becomes of the files found

Each compilation unit that a scan finds has one fate: it is skipped, it cannot be read, or its
dependencies go into the graph. The three conditions are about different things, the package of the
unit, the outcome of reading it and what is passed on, and just one of them holds however the cache
answers (`Extractor.befalls_iff`).

The numbers of files are those of a tally that takes the fates one at a time. Adding a fate raises
the number of units by one and one of the three others with it, so the tally stays balanced
(`Tally.IsBalanced.add`); at the end it holds the numbers and the dependencies that `load` gives
(`tally_fates`). The number of failures starts at the entries that the scan has reported, which is
why these are taken off again to find the number of units that contribute.
-/

namespace PackageCycles

namespace Import

/-! ## One file -/

/-- What becomes of a compilation unit. -/
inductive Fate where
  /-- It is left out. -/
  | skipped
  /-- It cannot be read. -/
  | failed (cause : FileError)
  /-- Its dependencies go into the graph. -/
  | contributing (dependencies : FileDependencies)

namespace Fate

/-- When a fate befalls the unit at `path`, off which `file` was read: it has no package or an
excluded one, there is an error, or there are dependencies to pass on. -/
def Befalls (x : Extractor) (path : Text) (file : FileImports) : Fate → Prop
  | .skipped => ∀ package, owner? x.root path = some package → x.excluded package
  | .failed cause => file.error = some cause
  | .contributing dependencies => file.dependencies? = some dependencies

/-- The unit is skipped. -/
def isSkipped : Fate → Bool
  | .skipped => true
  | _ => false

/-- The unit cannot be read. -/
def isFailed : Fate → Bool
  | .failed _ => true
  | _ => false

/-- The dependencies that go into the graph. -/
def dependencies? : Fate → Option FileDependencies
  | .contributing dependencies => some dependencies
  | _ => none

end Fate

/-- The fate that a file is given: an error comes before anything else. -/
def FileImports.fate (f : FileImports) : Fate :=
  match f.error, f.skipped with
  | some cause, _ => .failed cause
  | none, true => .skipped
  | none, false => .contributing ⟨f.package, f.imports⟩

namespace FileImports

section
variable (f : FileImports)

theorem isSkipped_fate : f.fate.isSkipped = (!f.failed && f.skipped) := by
  unfold fate failed
  cases f.error <;> cases f.skipped <;> rfl

theorem isFailed_fate : f.fate.isFailed = f.failed := by
  unfold fate failed
  cases f.error <;> cases f.skipped <;> rfl

theorem dependencies?_fate : f.fate.dependencies? = f.dependencies? := by
  unfold fate dependencies? failed
  cases f.error <;> cases f.skipped <;> rfl

end

end FileImports

section
variable {t : FileTree} {cache : Option Cache} {path : Text}

/-- A unit is marked as skipped if it has no package or an excluded one. -/
theorem Extractor.skipped_extract (x : Extractor) (t : FileTree) (cache : Option Cache)
    (path : Text) : (x.extract t cache path).1.skipped ↔
      ∀ package, owner? x.root path = some package → x.excluded package := by
  unfold Extractor.extract
  cases owner? x.root path with
  | none => simp
  | some package =>
    dsimp only
    split
    next hexcluded => simp [hexcluded]
    next hexcluded => split <;> simp [hexcluded]

/-- A unit marked as skipped is not read, so there is no error. -/
theorem Extractor.error_extract (x : Extractor) (h : (x.extract t cache path).1.skipped) :
    (x.extract t cache path).1.error = none := by
  unfold Extractor.extract at h ⊢
  cases howner : owner? x.root path with
  | none => rfl
  | some package =>
    rw [howner] at h
    dsimp only at h ⊢
    split at h
    next hexcluded => rw [if_pos hexcluded]
    next => split at h <;> cases h

/-- One fate befalls each unit, the one that its file is given. -/
theorem Extractor.befalls_iff (x : Extractor) (fate : Fate) :
    fate.Befalls x path (x.extract t cache path).1 ↔ fate = (x.extract t cache path).1.fate := by
  have hskipped := x.skipped_extract t cache path
  have herror : (x.extract t cache path).1.skipped → (x.extract t cache path).1.error = none :=
    x.error_extract
  generalize (x.extract t cache path).1 = file at hskipped herror
  have hdependencies := file.dependencies?_fate
  unfold FileImports.fate at hdependencies ⊢
  cases fate with
  | skipped =>
    rw [Fate.Befalls, ← hskipped]
    cases hmark : file.skipped with
    | true => simp [herror hmark]
    | false => cases file.error <;> simp
  | failed cause =>
    rw [Fate.Befalls]
    cases hcause : file.error with
    | some other => simp [eq_comm]
    | none => cases file.skipped <;> simp
  | contributing dependencies =>
    rw [Fate.Befalls, ← hdependencies]
    cases file.error <;> cases file.skipped <;> simp [Fate.dependencies?, eq_comm]

/-- What holds of each extraction, whatever the cache, holds of the units one after the other. -/
theorem Extractor.forall₂_extractAll {x : Extractor} {R : Text → FileImports → Prop}
    (h : ∀ (cache : Option Cache) path, R path (x.extract t cache path).1)
    (paths : List Text) :
    List.Forall₂ R paths ((x.extractAll t cache paths).1.map (·.1)) := by
  induction paths generalizing cache with
  | nil => exact .nil
  | cons path rest ih => exact .cons (h cache path) ih

end

end Import

namespace Source
open Import

/-! ## One file after the other -/

/-- The numbers of units so far and what the graph is to be built from. -/
structure Tally where
  /-- The numbers. -/
  counts : FileCounts
  /-- The dependencies of the units that contribute. -/
  contributions : List FileDependencies

namespace Tally

/-- Before the first unit, with the number of entries that the scan has reported. -/
def start (reported : Nat) : Tally := ⟨⟨0, 0, reported⟩, []⟩

/-- One more unit is found, and counted under its fate. -/
def add (tally : Tally) (fate : Fate) : Tally :=
  let counts := { tally.counts with scanned := tally.counts.scanned + 1 }
  match fate with
  | .skipped => ⟨{ counts with skipped := counts.skipped + 1 }, tally.contributions⟩
  | .failed _ => ⟨{ counts with failures := counts.failures + 1 }, tally.contributions⟩
  | .contributing dependencies => ⟨counts, tally.contributions ++ [dependencies]⟩

/-- The units found and the entries reported are the units skipped, the failures and the units that
contribute. -/
def IsBalanced (reported : Nat) (tally : Tally) : Prop :=
  tally.counts.scanned + reported =
    tally.counts.skipped + tally.counts.failures + tally.contributions.length

section
variable {reported : Nat} {tally : Tally}

theorem IsBalanced.start (reported : Nat) : (start reported).IsBalanced reported := by
  simp [IsBalanced, Tally.start]

/-- One more unit keeps the balance: it raises just one number besides that of the units. -/
theorem IsBalanced.add (h : tally.IsBalanced reported) (fate : Fate) :
    (tally.add fate).IsBalanced reported := by
  unfold IsBalanced at h ⊢
  cases fate <;> simp only [Tally.add, List.length_append, List.length_singleton] <;> omega

/-- So do any number of units. -/
theorem IsBalanced.foldl_add (h : tally.IsBalanced reported) (fates : List Fate) :
    (fates.foldl Tally.add tally).IsBalanced reported := by
  induction fates generalizing tally with
  | nil => exact h
  | cons fate rest ih => exact ih (h.add fate)

end

/-- What a number of units adds. -/
theorem foldl_add (fates : List Fate) (tally : Tally) :
    fates.foldl add tally =
      ⟨⟨tally.counts.scanned + fates.length, tally.counts.skipped + fates.countP (·.isSkipped),
        tally.counts.failures + fates.countP (·.isFailed)⟩,
        tally.contributions ++ fates.filterMap (·.dependencies?)⟩ := by
  induction fates generalizing tally with
  | nil => simp
  | cons fate rest ih =>
    rw [List.foldl_cons, ih]
    cases fate <;>
      simp [add, Fate.isSkipped, Fate.isFailed, Fate.dependencies?, Nat.add_assoc, Nat.add_comm 1]

end Tally

/-- The tally of the files read after a scan holds their numbers and their dependencies. -/
theorem tally_fates (found : Scan) (files : List FileImports) :
    (files.map (·.fate)).foldl Tally.add (.start found.skipped.length) =
      ⟨countFiles found files, files.filterMap (·.dependencies?)⟩ := by
  simp [Tally.foldl_add, Tally.start, countFiles, List.countP_map, List.filterMap_map,
    Function.comp_def, FileImports.isSkipped_fate, FileImports.isFailed_fate,
    FileImports.dependencies?_fate]

/-! ## Loading -/

/-- The numbers of files and the graph of a load agree with the fates of the units found. -/
structure Accounts (x : Extractor) (found : Scan) (files : List FileImports)
    (loaded : LoadedGraph) : Prop where
  /-- Just one fate befalls each unit. -/
  oneFate : List.Forall₂ (fun path file => ∀ fate : Fate,
    fate.Befalls x path file ↔ fate = file.fate) found.files files
  /-- The units found are counted. -/
  scanned : loaded.counts.scanned = found.files.length
  /-- So are those skipped. -/
  skipped : loaded.counts.skipped = (files.map (·.fate)).countP (·.isSkipped)
  /-- The failures are the entries that the scan reports and the units that cannot be read. -/
  failures : loaded.counts.failures =
    found.skipped.length + (files.map (·.fate)).countP (·.isFailed)
  /-- The graph is built from the dependencies of the units that contribute. -/
  graph : loaded.graph = .build ((files.map (·.fate)).filterMap (·.dependencies?))
  /-- These are the units that are neither skipped nor failed. -/
  contributing : (((files.map (·.fate)).filterMap (·.dependencies?)).length : Int) =
    loaded.counts.scanned - loaded.counts.skipped -
      (loaded.counts.failures - found.skipped.length)

section
variable {t : FileTree} {suffix root : Text} {excluded : Package → Bool} {cache : Option Cache}
  {timing : Timing} {loaded : LoadedGraph}

/-- What `load` makes of the files read agrees with their fates. -/
theorem Accounts.of_oneFate {x : Extractor} {found : Scan} {files : List FileImports}
    (h : List.Forall₂ (fun path file => ∀ fate : Fate,
      fate.Befalls x path file ↔ fate = file.fate) found.files files) :
    Accounts x found files
      ⟨.build (files.filterMap (·.dependencies?)), countFiles found files⟩ := by
  have hbalanced := (Tally.IsBalanced.start found.skipped.length).foldl_add (files.map (·.fate))
  have htally := tally_fates found files
  rw [htally, Tally.IsBalanced] at hbalanced
  rw [Tally.foldl_add, Tally.mk.injEq, FileCounts.mk.injEq] at htally
  obtain ⟨⟨hscanned, hskipped, hfailures⟩, hcontributions⟩ := htally
  have hcontributions : (files.map (·.fate)).filterMap (·.dependencies?) =
      files.filterMap (·.dependencies?) := hcontributions
  exact {
    oneFate := h
    scanned := h.length_eq.symm
    skipped := by rw [← hskipped, Tally.start, Nat.zero_add]
    failures := hfailures.symm
    graph := by rw [hcontributions]
    contributing := by
      rw [hcontributions]
      dsimp only at hbalanced ⊢
      omega }

/-- Whatever the cache holds, the numbers of a load that succeeds account for each unit that the
scan finds exactly once. -/
theorem load_accounts
    (h : ((ofFiles suffix excluded).load t cache timing root).result = .ok loaded) :
    ∃ found, scan t suffix root = .ok found ∧
      Accounts ⟨root, excluded⟩ found
        (((⟨root, excluded⟩ : Extractor).extractAll t cache found.files).1.map (·.1))
        loaded := by
  simp only [ofFiles] at h
  cases hscan : scan t suffix root with
  | error cause =>
    rw [hscan] at h
    cases h
  | ok found =>
    rw [hscan] at h
    cases h
    exact ⟨found, rfl, .of_oneFate (Extractor.forall₂_extractAll
      (fun _ _ => Extractor.befalls_iff _) found.files)⟩

/-- A source directory with a unit of no package, one that can be read, one that cannot, one in an
excluded package and a link that leads nowhere. -/
def mixedTree : FileTree where
  root := .directory [("src", .directory
    [("Main.java", .file "import a.A;\n" 0 true),
      ("a", .directory [("A.java", .file "import b.B;\n" 0 true),
        ("Gone.java", .link "Missing.java")] .full),
      ("b", .directory [("B.java", .file "import a.A;\n" 0 false)] .full),
      ("c", .directory [("C.java", .file "import a.A;\n" 0 true)] .full)] .full)] .full
  workingDirectory := []

/-- Two of the four units are skipped, and one of the two failures is the link, so one unit
contributes. -/
theorem load_accounts_mixedTree :
    ∃ loaded found,
      ((ofFiles ".java" withoutC.excludes).load mixedTree (some (.new 4)) .none "src").result =
        .ok loaded ∧ loaded.counts = ⟨4, 2, 2⟩ ∧ scan mixedTree ".java" "src" = .ok found ∧
      found.skipped.length = 1 ∧
      Accounts ⟨"src", withoutC.excludes⟩ found
        (((⟨"src", withoutC.excludes⟩ : Extractor).extractAll mixedTree
          (some (.new 4 : Cache)) found.files).1.map (·.1)) loaded := by
  have hcounts : ((ofFiles ".java" withoutC.excludes).load mixedTree (some (.new 4)) .none
      "src").result.toOption.map (·.counts) = some ⟨4, 2, 2⟩ := by decide +kernel
  have hreported : (scan mixedTree ".java" "src").toOption.map (·.skipped.length) = some 1 := by
    decide +kernel
  cases hload : ((ofFiles ".java" withoutC.excludes).load mixedTree (some (.new 4)) .none
      "src").result with
  | error cause =>
    rw [hload] at hcounts
    cases hcounts
  | ok loaded =>
    obtain ⟨found, hscan, haccounts⟩ := load_accounts hload
    rw [hload] at hcounts
    rw [hscan] at hreported
    exact ⟨loaded, found, rfl, Option.some.inj hcounts, hscan, Option.some.inj hreported, haccounts⟩

end

end Source

end PackageCycles

import Mathlib.Data.List.Forall2
import PackageCycles.Proofs.Import.Extraction

/-!
# A cache does not show

Extractors with different roots and exclusions may share a cache while files change, and entries may
be dropped at any time. What an entry holds was parsed from the file at an earlier visit at which
the file had the stamp of the entry (`CacheOver.Justified`), and every action keeps this
(`Simulates.next`). So if the stamp of a file tells its content, an entry that answers a look-up
holds what reading the file now would give, and the results are those of extractors without a cache
(`results_agree`). Of the store in which the entries are kept, only the laws of stores are used.
-/

namespace PackageCycles

/-- Only a path that leads to a regular file can be read. -/
theorem FileTree.exists_stat_of_readContent {t : FileTree} {path content : Text}
    (h : t.readContent path = .ok content) :
    ∃ modified, t.stat path = .ok (.file content modified true) := by
  unfold FileTree.readContent at h
  split at h
  next => cases h
  next hresolve =>
    split at h
    next modified hnode =>
      cases h
      refine ⟨modified, ?_⟩
      rw [FileTree.stat, hresolve]
      exact congrArg Except.ok hnode
    next => cases h
    next => cases h
    next => cases h

namespace Import

/-! ## Visits -/

/-- An extraction reads one file of the tree as it is at that moment. -/
structure Visit where
  /-- The tree. -/
  tree : FileTree
  /-- The path of the file. -/
  path : Text

/-- The stamp of the file, if the path leads to one. -/
def Visit.stamp? (v : Visit) : Option Stamp := (v.tree.stat v.path).toOption.map stampOf

/-- The content of the file, if it can be read. -/
def Visit.content? (v : Visit) : Option Text := (v.tree.readContent v.path).toOption

/-- Whenever a path leads to nodes with the same stamp at two visits, reading it gives the same
content or fails both times. -/
def StampsTell (visits : List Visit) : Prop :=
  ∀ v ∈ visits, ∀ w ∈ visits, v.path = w.path → v.stamp?.isSome → v.stamp? = w.stamp? →
    v.content? = w.content?

instance (visits : List Visit) : Decidable (StampsTell visits) :=
  inferInstanceAs (Decidable (∀ v ∈ visits, ∀ w ∈ visits, _ → _ → _ → _))

/-- What has content is a regular file. -/
theorem Visit.exists_file {v : Visit} {content : Text} (h : v.content? = some content) :
    ∃ modified, v.tree.stat v.path = .ok (.file content modified true) := by
  unfold Visit.content? at h
  cases hread : v.tree.readContent v.path with
  | error e =>
    rw [hread] at h
    cases h
  | ok content' =>
    rw [hread] at h
    cases h
    exact FileTree.exists_stat_of_readContent hread

/-- So is what has the stamp of one, and its size and time are the same. -/
theorem Visit.exists_file_of_stamp? {v : Visit} {content : Text} {modified : Int} {readable : Bool}
    (h : v.stamp? = some (stampOf (.file content modified readable))) :
    ∃ content' readable', v.tree.stat v.path = .ok (.file content' modified readable') ∧
      content'.length = content.length := by
  unfold Visit.stamp? at h
  cases hstat : v.tree.stat v.path with
  | error e =>
    rw [hstat] at h
    cases h
  | ok node =>
    rw [hstat] at h
    have hstamp : stampOf node = stampOf (.file content modified readable) := Option.some.inj h
    have hfile := isFile_of_stampOf_eq hstamp
    cases node with
    | file content' modified' readable' =>
      obtain ⟨hlength, rfl⟩ : (content'.length : Int) = content.length ∧ modified' = modified := by
        simpa [stampOf] using hstamp
      exact ⟨content', readable', rfl, by exact_mod_cast hlength⟩
    | link => cases hfile
    | special => cases hfile
    | directory => cases hfile

/-- Stamps have to tell the content of regular files only. Whatever else a path leads to in between,
a file is not taken for it. -/
theorem stampsTell_iff {visits : List Visit} : StampsTell visits ↔
    ∀ v ∈ visits, ∀ w ∈ visits, v.path = w.path →
      ∀ content content' modified readable readable',
        v.tree.stat v.path = .ok (.file content modified readable) →
        w.tree.stat w.path = .ok (.file content' modified readable') →
        content.length = content'.length → v.content? = w.content? := by
  constructor
  · intro h v hv w hw hpath content content' modified readable readable' hfile hfile' hlength
    have hstamp : v.stamp? = some ⟨content.length, modified⟩ := by rw [Visit.stamp?, hfile]; rfl
    have hstamp' : w.stamp? = some ⟨content'.length, modified⟩ := by rw [Visit.stamp?, hfile']; rfl
    exact h v hv w hw hpath (by rw [hstamp]; rfl) (by rw [hstamp, hstamp', hlength])
  · intro h
    -- What can be read at one of two visits with the same stamp can be read at the other.
    have hsome : ∀ v ∈ visits, ∀ w ∈ visits, v.path = w.path → v.stamp? = w.stamp? →
        ∀ content, v.content? = some content → w.content? = some content := by
      intro v hv w hw hpath hstamp content hcontent
      obtain ⟨modified, hfile⟩ := v.exists_file hcontent
      have hstamp' : w.stamp? = some (stampOf (.file content modified true)) := by
        rw [← hstamp, Visit.stamp?, hfile]
        rfl
      obtain ⟨content', readable', hfile', hlength⟩ := w.exists_file_of_stamp? hstamp'
      exact (h v hv w hw hpath _ _ _ _ _ hfile hfile' hlength.symm).symm.trans hcontent
    intro v hv w hw hpath _ hstamp
    exact Option.ext fun content => ⟨hsome v hv w hw hpath hstamp content,
      hsome w hw v hv hpath.symm hstamp.symm content⟩

/-- What is parsed depends on the content only. -/
theorem toOption_parseFile (v : Visit) :
    (parseFile v.tree v.path).toOption = v.content?.map parse := by
  rw [parseFile, Visit.content?]
  cases v.tree.readContent v.path <;> rfl

/-! ## Entries -/

/-- What each entry holds was parsed at one of the visits, from a file with the stamp of the
entry. -/
def CacheOver.Justified {σ : Type} [Store σ CacheEntry] (visits : List Visit) (c : CacheOver σ) :
    Prop :=
  ∀ path entry, c.get? path = some entry → ∃ v ∈ visits, v.path = path ∧
    v.stamp? = some entry.stamp ∧ v.content?.map parse = some entry.imports

namespace CacheOver.Justified

section
variable {σ : Type} [Store σ CacheEntry] {visits : List Visit} {c : CacheOver σ} {path : Text}
  {entry : CacheEntry} {stamp : Stamp}

/-- What is justified by some visits is so by more. -/
theorem mono {visits' : List Visit} (h : c.Justified visits) (hsub : visits ⊆ visits') :
    c.Justified visits' := by
  intro path entry hentry
  obtain ⟨v, hv, hvisit⟩ := h path entry hentry
  exact ⟨v, hsub hv, hvisit⟩

/-- A look-up is answered with what was parsed at a visit with the same path and stamp. -/
theorem exists_visit (h : c.Justified visits) {imports : List Package}
    (hlookup : (c.lookup path stamp).1 = some imports) : ∃ v ∈ visits, v.path = path ∧
      v.stamp? = some stamp ∧ v.content?.map parse = some imports := by
  unfold CacheOver.lookup at hlookup
  split at hlookup
  next => cases hlookup
  next entry hentry =>
    split at hlookup
    next hstamp =>
      cases hlookup
      exact hstamp ▸ h path entry hentry
    next => cases hlookup

variable [LawfulStore σ]

/-- Nothing is to be said of a new cache. -/
theorem new (visits : List Visit) (size : Int) :
    (CacheOver.new size : CacheOver σ).Justified visits := by
  intro path _ hentry
  rw [CacheOver.get?, CacheOver.new, LawfulStore.get?_new] at hentry
  cases hentry

/-- Dropping all entries leaves none. -/
theorem clear (c : CacheOver σ) : c.clear.Justified visits := by
  intro path _ hentry
  rw [CacheOver.get?, CacheOver.clear, LawfulStore.get?_clear] at hentry
  cases hentry

/-- Asking for an entry brings none. -/
theorem touch (h : c.Justified visits) (path : Text) : (c.touch path).Justified visits :=
  fun other entry hentry => h other entry (LawfulStore.get?_of_get?_touch hentry)

/-- Dropping an entry brings none. -/
theorem erase (h : c.Justified visits) (path : Text) : (c.erase path).Justified visits :=
  fun other entry hentry => h other entry (LawfulStore.get?_of_get?_erase hentry)

/-- Once an entry is dropped, the visits to its path justify nothing. -/
theorem erase_filter (h : c.Justified visits) (path : Text) :
    (c.erase path).Justified (visits.filter (·.path ≠ path)) := by
  intro other entry hentry
  have hne : other ≠ path := by
    rintro rfl
    rw [CacheOver.get?, CacheOver.erase, LawfulStore.get?_erase_self] at hentry
    cases hentry
  obtain ⟨v, hv, rfl, hvisit⟩ := h.erase path other entry hentry
  exact ⟨v, List.mem_filter.2 ⟨hv, by simpa using hne⟩, rfl, hvisit⟩

/-- An entry that was parsed at one of the visits may be put in, whatever makes room for it. -/
theorem insert (h : c.Justified visits) {v : Visit} (hv : v ∈ visits)
    (hstamp : v.stamp? = some entry.stamp) (hparse : v.content?.map parse = some entry.imports) :
    (c.insert v.path entry).Justified visits := by
  intro other entry' hentry
  by_cases hother : other = v.path
  · subst hother
    cases LawfulStore.eq_of_get?_insert hentry
    exact ⟨v, hv, rfl, hstamp, hparse⟩
  · exact h other entry' (LawfulStore.get?_of_get?_insert hother hentry)

/-- A look-up may drop an entry, and puts in nothing. -/
theorem lookup (h : c.Justified visits) (path : Text) (stamp : Stamp) :
    (c.lookup path stamp).2.Justified visits := by
  unfold CacheOver.lookup
  split
  next => exact h.touch path
  next =>
    split
    next => exact h.touch path
    next => exact (h.touch path).erase path

end

end CacheOver.Justified

/-! ## Extractions -/

/-- Two results agree in all but the cause of a failure. -/
structure FileImports.Agrees (r r' : FileImports) : Prop where
  /-- The paths agree. -/
  path : r.path = r'.path
  /-- The packages agree. -/
  package : r.package = r'.package
  /-- Both are skipped, or neither is. -/
  skipped : r.skipped = r'.skipped
  /-- The imports agree. -/
  imports : r.imports = r'.imports
  /-- Both are failures, or neither is. -/
  error : r.error.isSome = r'.error.isSome

theorem FileImports.Agrees.refl (r : FileImports) : r.Agrees r := ⟨rfl, rfl, rfl, rfl, rfl⟩

section
variable {σ : Type} [Store σ CacheEntry] {visits : List Visit} {c : CacheOver σ} {v : Visit}

/-- Reading a file by way of a cache keeps the entries justified, by this visit too. -/
theorem CacheOver.Justified.read [LawfulStore σ] (h : c.Justified visits) (hv : v ∈ visits) :
    ∀ c' ∈ (read v.tree (some c) v.path).cache, c'.Justified visits := by
  unfold Import.read
  dsimp only
  split
  next => exact fun c' hc' => Option.mem_some_iff.1 hc' ▸ h
  next node hstat =>
    have hstamp : v.stamp? = some (stampOf node) := by rw [Visit.stamp?, hstat]; rfl
    have hlookup := h.lookup v.path (stampOf node)
    split
    next imports c' heq =>
      rw [heq] at hlookup
      exact fun c' hc' => Option.mem_some_iff.1 hc' ▸ hlookup
    next c' heq =>
      rw [heq] at hlookup
      have hparse := toOption_parseFile v
      split
      next => exact fun c' hc' => Option.mem_some_iff.1 hc' ▸ hlookup
      next imports hok =>
        rw [hok] at hparse
        exact fun c' hc' =>
          Option.mem_some_iff.1 hc' ▸ hlookup.insert hv hstamp hparse.symm

/-- The file is as it was at every one of the visits to it at which it had the stamp that it has
now. -/
def Visit.IsTold (visits : List Visit) (v : Visit) : Prop :=
  ∀ w ∈ visits, v.path = w.path → v.stamp?.isSome → v.stamp? = w.stamp? → v.content? = w.content?

/-- Reading a file by way of a cache gives what reading it gives, if its stamp tells whether it is
as it was at the visits that justify the entries. -/
theorem read_imports_cached (htold : v.IsTold visits) (h : c.Justified visits) :
    (read v.tree (some c) v.path).imports.toOption = v.content?.map parse := by
  unfold read
  dsimp only
  split
  next e hstat =>
    cases hcontent : v.content? with
    | none => rfl
    | some content =>
      obtain ⟨modified, hfile⟩ := v.exists_file hcontent
      cases hstat.symm.trans hfile
  next node hstat =>
    have hstamp : v.stamp? = some (stampOf node) := by rw [Visit.stamp?, hstat]; rfl
    split
    next imports c' heq =>
      -- The entry was made at a visit at which the file had the stamp that it has now.
      obtain ⟨w, hw, hpath, hstamp', hparse⟩ := h.exists_visit (congrArg Prod.fst heq)
      have hcontent : v.content? = w.content? :=
        htold w hw hpath.symm (by rw [hstamp]; rfl) (hstamp.trans hstamp'.symm)
      rw [hcontent, hparse]
      rfl
    next c' heq =>
      have hparse := toOption_parseFile v
      split
      next e herror => rwa [herror] at hparse
      next imports hok => rwa [hok] at hparse

/-- Results agree if what was read does. -/
theorem Extractor.extract_agrees (x : Extractor) {t t' : FileTree} {path : Text}
    {cache cache' : Option (CacheOver σ)}
    (h : (read t cache path).imports.toOption = (read t' cache' path).imports.toOption) :
    (x.extract t cache path).1.Agrees (x.extract t' cache' path).1 := by
  unfold Extractor.extract
  split
  next => exact .refl _
  next package _ =>
    split
    next => exact .refl _
    next =>
      dsimp only
      match hr : (read t cache path).imports, hr' : (read t' cache' path).imports with
      | .error _, .error _ => exact ⟨rfl, rfl, rfl, rfl, rfl⟩
      | .ok imports, .ok imports' =>
        rw [hr, hr'] at h
        cases h
        exact .refl _
      | .error _, .ok _ => rw [hr, hr'] at h; cases h
      | .ok _, .error _ => rw [hr, hr'] at h; cases h

end

/-! ## Sequences of actions -/

/-- What happens to a tree and to the cache that extractors share. -/
inductive Action where
  /-- An extractor reads the file at a path. -/
  | extract (extractor : Extractor) (path : Text)
  /-- The tree becomes another one. -/
  | change (tree : FileTree)
  /-- The entry of a path is dropped. -/
  | erase (path : Text)
  /-- All entries are dropped. -/
  | clear

/-- The tree and the cache, if there is one. -/
structure Moment (σ : Type) where
  /-- The tree. -/
  tree : FileTree
  /-- The cache. -/
  cache : Option (CacheOver σ)

section
variable {σ : Type} [Store σ CacheEntry]

/-- The moment after an action. -/
def Moment.next (m : Moment σ) : Action → Moment σ
  | .extract x path => { m with cache := (x.extract m.tree m.cache path).2.1 }
  | .change tree => { m with tree }
  | .erase path => { m with cache := m.cache.map (·.erase path) }
  | .clear => { m with cache := m.cache.map CacheOver.clear }

/-- What the extractions among the actions return, in their order. -/
def results : Moment σ → List Action → List FileImports
  | _, [] => []
  | m, action :: rest =>
    match action with
    | .extract x path => (x.extract m.tree m.cache path).1 :: results (m.next action) rest
    | _ => results (m.next action) rest

/-- Whether the cache answers, for each look-up that the extractions among the actions make. -/
def lookups : Moment σ → List Action → List Bool
  | _, [] => []
  | m, action :: rest =>
    match action with
    | .extract x path => (x.extract m.tree m.cache path).2.2 ++ lookups (m.next action) rest
    | _ => lookups (m.next action) rest

/-- The visits that the extractions among the actions make. -/
def visits : FileTree → List Action → List Visit
  | _, [] => []
  | t, .extract _ path :: rest => ⟨t, path⟩ :: visits t rest
  | _, .change t :: rest => visits t rest
  | t, .erase _ :: rest => visits t rest
  | t, .clear :: rest => visits t rest

/-- Two moments have the same tree, the first a cache whose entries are justified and the second
none. -/
structure Simulates (made : List Visit) (m m' : Moment σ) : Prop where
  /-- The trees agree. -/
  tree : m.tree = m'.tree
  /-- The first has a cache with justified entries, if any. -/
  justified : ∀ c ∈ m.cache, c.Justified made
  /-- The second has no cache. -/
  uncached : m'.cache = none

namespace Simulates

variable [LawfulStore σ] {made : List Visit} {m m' : Moment σ}

/-- Reading a file at both moments gives the same. -/
theorem read (h : Simulates made m m') (htell : StampsTell made) {path : Text}
    (hv : ⟨m.tree, path⟩ ∈ made) :
    (Import.read m.tree m.cache path).imports.toOption =
      (Import.read m'.tree m'.cache path).imports.toOption ∧
    ∀ c ∈ (Import.read m.tree m.cache path).cache, c.Justified made := by
  have hparse := toOption_parseFile ⟨m.tree, path⟩
  rw [h.uncached, ← h.tree]
  match hcache : m.cache with
  | none => exact ⟨rfl, fun c hc => nomatch hc⟩
  | some c =>
    have hjust := h.justified c hcache
    exact ⟨(read_imports_cached (htell _ hv) hjust).trans hparse.symm, hjust.read hv⟩

/-- Extracting a file at both moments gives the same. -/
theorem extract_agrees (h : Simulates made m m') (htell : StampsTell made) (x : Extractor)
    {path : Text} (hv : ⟨m.tree, path⟩ ∈ made) :
    (x.extract m.tree m.cache path).1.Agrees (x.extract m'.tree m'.cache path).1 := by
  have hread := (h.read htell hv).1
  rw [← h.tree] at hread ⊢
  exact x.extract_agrees hread

/-- Every action leaves the entries justified, if the visit it makes is one of those that may
justify them. -/
theorem next (h : Simulates made m m') (htell : StampsTell made) (action : Action)
    (hv : ∀ x path, action = .extract x path → ⟨m.tree, path⟩ ∈ made) :
    Simulates made (m.next action) (m'.next action) := by
  cases action with
  | extract x path =>
    refine ⟨h.tree, fun c hc => ?_, ?_⟩
    · rcases x.extract_cache_eq_or m.tree m.cache path with heq | heq
      · exact h.justified c (heq ▸ hc)
      · exact (h.read htell (hv x path rfl)).2 c (heq ▸ hc)
    · rcases x.extract_cache_eq_or m'.tree m'.cache path with heq | heq
      · exact heq.trans h.uncached
      · refine heq.trans ?_
        rw [h.uncached]
        rfl
  | change tree => exact ⟨rfl, h.justified, h.uncached⟩
  | erase path =>
    refine ⟨h.tree, fun c hc => ?_, by rw [Moment.next, h.uncached]; rfl⟩
    obtain ⟨old, hold, rfl⟩ := Option.map_eq_some_iff.1 hc
    exact (h.justified old hold).erase path
  | clear =>
    refine ⟨h.tree, fun c hc => ?_, by rw [Moment.next, h.uncached]; rfl⟩
    obtain ⟨old, -, rfl⟩ := Option.map_eq_some_iff.1 hc
    exact .clear old

/-- The results of a sequence of actions agree. -/
theorem results (htell : StampsTell made) : ∀ {actions : List Action} {m m' : Moment σ},
    Simulates made m m' → visits m.tree actions ⊆ made →
    List.Forall₂ FileImports.Agrees (Import.results m actions) (Import.results m' actions)
  | [], _, _, _, _ => .nil
  | action :: rest, m, m', h, hmade => by
    cases action with
    | extract x path =>
      obtain ⟨hv, hmade⟩ := List.cons_subset.1 hmade
      have hnext := h.next htell (.extract x path) fun _ _ heq => by cases heq; exact hv
      exact .cons (h.extract_agrees htell x hv) (hnext.results htell hmade)
    | change tree =>
      exact (h.next htell (.change tree) fun _ _ heq => nomatch heq).results htell hmade
    | erase path =>
      exact (h.next htell (.erase path) fun _ _ heq => nomatch heq).results htell hmade
    | clear => exact (h.next htell .clear fun _ _ heq => nomatch heq).results htell hmade

end Simulates

/-- Whatever extractors share a cache of whatever size over whatever store, and however files change
and entries are dropped in between: if the stamps of the files visited tell their content, every
extraction returns what an extractor without a cache returns on the tree at that moment, but for the
cause of a failure. -/
theorem results_agree [LawfulStore σ] (t : FileTree) (size : Int) (actions : List Action)
    (htell : StampsTell (visits t actions)) :
    List.Forall₂ FileImports.Agrees
      (results ⟨t, some (.new size : CacheOver σ)⟩ actions)
      (results (⟨t, none⟩ : Moment σ) actions) := by
  have hstart : Simulates (visits t actions) ⟨t, some (.new size : CacheOver σ)⟩ ⟨t, none⟩ :=
    ⟨rfl, fun c hc => Option.mem_some_iff.1 hc ▸ .new _ size, rfl⟩
  exact hstart.results htell (List.Subset.refl _)

end

/-- A tree with one compilation unit. -/
def unitTree (content : Text) (modified : Int) : FileTree where
  root := .directory [("src", .directory [("a", .directory
    [("A.java", .file content modified true)] .full)] .full)] .full
  workingDirectory := []

/-- Two extractors with different exclusions read a unit one after the other, before and after it is
rewritten, after its entry is dropped and after it is gone. -/
def rewrites : List Action :=
  let all : Extractor := ⟨"src", fun _ => false⟩
  let withoutB : Extractor := ⟨"src", fun p => p = "b"⟩
  [.extract all "src/a/A.java", .extract withoutB "src/a/A.java",
    .change (unitTree "import b.B;\nimport c.C;" 2), .extract withoutB "src/a/A.java",
    .extract all "src/a/A.java", .erase "src/a/A.java", .extract all "src/a/A.java",
    .change .empty, .extract all "src/a/A.java"]

/-- The stamps of the unit tell its versions apart, so the cache does not show, although it answers
each second look-up. -/
theorem results_agree_rewrites :
    StampsTell (visits (unitTree "import b.B;" 1) rewrites) ∧
      List.Forall₂ FileImports.Agrees
        (results ⟨unitTree "import b.B;" 1, some (.new 1 : Cache)⟩ rewrites)
        (results (⟨unitTree "import b.B;" 1, none⟩ : Moment (Recent CacheEntry)) rewrites) ∧
      lookups ⟨unitTree "import b.B;" 1, some (.new 1 : Cache)⟩ rewrites =
        [false, true, false, true, false] ∧
      (results ⟨unitTree "import b.B;" 1, some (.new 1 : Cache)⟩ rewrites).map (·.imports) =
        ([["b"], [], ["c"], ["b", "c"], ["b", "c"], []] : List (List Text)) := by
  have htell : StampsTell (visits (unitTree "import b.B;" 1) rewrites) := by decide +kernel
  exact ⟨htell, results_agree (unitTree "import b.B;" 1) 1 rewrites htell, by decide +kernel,
    by decide +kernel⟩

end Import

end PackageCycles

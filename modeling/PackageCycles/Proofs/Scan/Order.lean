import Mathlib.Data.List.Lex
import Mathlib.Data.List.Nodup
import PackageCycles.Proofs.FileTree.Spelling
import PackageCycles.Proofs.Scan.Trails

/-!
# What a scan reports, and in which order

A scan visits the entries below the source directory in increasing order of the names that lead to
them, compared name by name (`Scan.pairwise_visits`), since each directory is gone through in the
order of its names and everything below an entry comes before the next entry. So what is found and
what is skipped come in that order, nothing comes twice, and nothing is left out that directories of
the tree lead to (`Scan.scan_eq_reached`). The walk lists a directory by its path, which is spelled
in normal form. If no link is met before a `..` of the source directory's path, that is the directory
of the tree (`Scan.scan_eq_ofEntries`).
-/

namespace PackageCycles

namespace Scan

/-- Why the entry at a path is skipped. -/
inductive IsSkipped (t : FileTree) (suffix path name : Text) : Node → FileError → Prop
  /-- A directory cannot be listed. -/
  | directory {entries : List (Text × Node)} {access : Access} {cause : FileError}
    (h : t.readDirectory path = .error cause) :
    IsSkipped t suffix path name (.directory entries access) cause
  /-- What a link with the suffix leads to cannot be found out. -/
  | link {target : Text} {cause : FileError} (hsuffix : suffix <:+ name)
    (h : t.stat path = .error cause) : IsSkipped t suffix path name (.link target) cause

/-- Why an operation failed. -/
def error? {α : Type} : Except FileError α → Option FileError
  | .ok _ => none
  | .error cause => some cause

/-- Why the entry at a path is skipped, if it is. -/
def cause? (t : FileTree) (suffix path name : Text) : Node → Option FileError
  | .file .. => none
  | .link _ => if suffix.isSuffixOf name then error? (t.stat path) else none
  | .special => none
  | .directory .. => error? (t.readDirectory path)

/-- The names that lead to compilation units, in the order of the walk. -/
def unitTrails (t : FileTree) (suffix base : Text) (entries : List (Text × Node)) :
    List (List Text) :=
  ((visits t base entries).filter fun v =>
    IsUnit t suffix (v.path base) v.name v.node).map Visit.names

/-- The names that lead to entries that are skipped, and why, in the order of the walk. -/
def skipTrails (t : FileTree) (suffix base : Text) (entries : List (Text × Node)) :
    List (List Text × FileError) :=
  (visits t base entries).filterMap fun v =>
    (cause? t suffix (v.path base) v.name v.node).map fun cause => (v.names, cause)

/-- Directories of the tree that can be listed lead from the source directory to an entry. -/
def Reaches (t : FileTree) (root : Text) (directories : List Text) (name : Text) (node : Node) :
    Prop :=
  ∃ entries, t.readDirectory root = .ok entries ∧ Leads t root entries directories name node

section
variable {t : FileTree} {suffix root base path name : Text} {node : Node} {cause : FileError}
  {entries : List (Text × Node)} {names names' directories : List Text} {v w : Visit}

/-! ## What a visit skips -/

theorem error?_eq_some_iff {α : Type} {result : Except FileError α} :
    error? result = some cause ↔ result = .error cause := by
  cases result with
  | ok => exact ⟨nofun, nofun⟩
  | error cause =>
    exact ⟨fun h => congrArg _ (Option.some.inj h), fun h => congrArg _ (Except.error.inj h)⟩

theorem cause?_eq_some_iff :
    cause? t suffix path name node = some cause ↔ IsSkipped t suffix path name node cause := by
  cases node with
  | file => refine ⟨fun h => ?_, fun h => ?_⟩ <;> cases h
  | link target =>
    rw [cause?, Option.ite_none_right_eq_some, List.isSuffixOf_iff_suffix, error?_eq_some_iff]
    constructor
    · rintro ⟨hsuffix, h⟩
      exact .link hsuffix h
    · rintro ⟨⟩
      exact ⟨‹_›, ‹_›⟩
  | special => refine ⟨fun h => ?_, fun h => ?_⟩ <;> cases h
  | directory inner access =>
    rw [cause?, error?_eq_some_iff]
    constructor
    · exact .directory
    · rintro ⟨⟩
      assumption

/-- Of the entry itself its path is skipped, if there is a reason. -/
theorem skipped_ofEntry : (ofEntry t suffix path name node).skipped =
    (cause? t suffix path name node).toList.map fun cause => (path, cause) := by
  cases node with
  | file =>
    rw [ofEntry]
    split <;> rfl
  | link =>
    rw [ofEntry, cause?]
    split
    · rw [ofLink]
      cases t.stat path with
      | ok reached => cases reached <;> rfl
      | error => rfl
    · rfl
  | special => rfl
  | directory =>
    rw [ofEntry, cause?]
    cases t.readDirectory path <;> rfl

/-! ## Findings as trails -/

/-- The files are those at the ends of the trails to units, in the order of the trails. -/
theorem files_ofEntries : (ofEntries t suffix base entries).files =
    (unitTrails t suffix base entries).map (pathBelow base) := by
  rw [ofEntries_eq, files_concat, List.flatMap_map, unitTrails, List.map_map]
  induction visits t base entries with
  | nil => rfl
  | cons v rest ih =>
    rw [List.flatMap_cons, ih, Visit.report, files_ofEntry]
    by_cases hunit : IsUnit t suffix (v.path base) v.name v.node
    · rw [if_pos hunit, List.filter_cons_of_pos (by simpa using hunit)]
      rfl
    · rw [if_neg hunit, List.filter_cons_of_neg (by simpa using hunit), List.nil_append]

/-- So is what was skipped. -/
theorem skipped_ofEntries : (ofEntries t suffix base entries).skipped =
    (skipTrails t suffix base entries).map fun skip => (pathBelow base skip.1, skip.2) := by
  rw [ofEntries_eq, skipped_concat, List.flatMap_map, skipTrails, List.map_filterMap,
    List.filterMap_eq_flatMap_toList]
  refine List.flatMap_congr fun v _ => ?_
  rw [Visit.report, skipped_ofEntry]
  cases cause? t suffix (v.path base) v.name v.node <;> rfl

/-- The trails to units are the trails that end in one. -/
theorem mem_unitTrails : names ∈ unitTrails t suffix base entries ↔
    ∃ directories name node, names = directories ++ [name] ∧
      Leads t base entries directories name node ∧
      IsUnit t suffix (pathBelow base names) name node := by
  simp only [unitTrails, List.mem_map, List.mem_filter, mem_visits, decide_eq_true_eq]
  constructor
  · rintro ⟨⟨directories, name, node⟩, ⟨hleads, hunit⟩, rfl⟩
    exact ⟨directories, name, node, rfl, hleads, hunit⟩
  · rintro ⟨directories, name, node, rfl, hleads, hunit⟩
    exact ⟨⟨directories, name, node⟩, ⟨hleads, hunit⟩, rfl⟩

/-- The trails to what is skipped are those that end in it, with the cause. -/
theorem mem_skipTrails : (names, cause) ∈ skipTrails t suffix base entries ↔
    ∃ directories name node, names = directories ++ [name] ∧
      Leads t base entries directories name node ∧
      IsSkipped t suffix (pathBelow base names) name node cause := by
  simp only [skipTrails, List.mem_filterMap, mem_visits, Option.map_eq_some_iff, Prod.mk.injEq,
    cause?_eq_some_iff]
  constructor
  · rintro ⟨⟨directories, name, node⟩, hleads, cause, hskipped, rfl, rfl⟩
    exact ⟨directories, name, node, rfl, hleads, hskipped⟩
  · rintro ⟨directories, name, node, rfl, hleads, hskipped⟩
    exact ⟨⟨directories, name, node⟩, hleads, cause, hskipped, rfl, rfl⟩

/-! ## The order of the walk -/

theorem names_under (n : Text) (v : Visit) : (v.under n).names = n :: v.names := rfl

/-- The names that lead to a visit begin with the name of an entry. -/
theorem exists_names_eq_cons (hv : v ∈ visits t base entries) :
    ∃ entry ∈ entries, ∃ rest, v.names = entry.1 :: rest := by
  obtain ⟨directories, name, node⟩ := v
  rcases mem_visits.1 hv with hmem | ⟨hmem, -⟩
  · exact ⟨_, hmem, [], rfl⟩
  · exact ⟨_, hmem, _, rfl⟩

mutual

/-- What is below a node is visited in strictly increasing order of the names. -/
theorem pairwise_visitsIn : ∀ {path : Text} {node : Node}, node.isWellFormed →
    (visitsIn t path node).Pairwise fun v w => v.names < w.names
  | _, .file .., _ => .nil
  | _, .link _, _ => .nil
  | _, .special, _ => .nil
  | path, .directory entries _, h => by
    rw [visitsIn]
    split
    · exact pairwise_visits h
    · exact .nil

/-- The walk goes through the entries in increasing order of the names that lead to them. -/
theorem pairwise_visits : ∀ {base : Text} {entries : List (Text × Node)},
    Node.areWellFormed entries →
    (visits t base entries).Pairwise fun v w => v.names < w.names
  | _, [], _ => .nil
  | base, (name, node) :: rest, h => by
    obtain ⟨-, hless, hnode, hrest⟩ := Node.areWellFormed_cons.1 h
    have hinside : (visitsIn t (Path.join base name) node).Pairwise fun v w => v.names < w.names :=
      pairwise_visitsIn hnode
    rw [visits, List.pairwise_append]
    refine ⟨List.pairwise_cons.2 ⟨?_, ?_⟩, pairwise_visits hrest, ?_⟩
    · -- The entry itself comes before what is below it.
      intro w hw
      obtain ⟨v, -, rfl⟩ := List.mem_map.1 hw
      have hne : v.names ≠ [] := by simp [Visit.names]
      obtain ⟨first, rest, hnames⟩ := List.exists_cons_of_ne_nil hne
      rw [names_under, hnames]
      exact List.cons_lt_cons_self.2 (List.nil_lt_cons first rest)
    · exact List.pairwise_map.2 (hinside.imp fun hlt => List.cons_lt_cons_self.2 hlt)
    · -- Everything at and below the entry comes before the next entry.
      intro v hv w hw
      have hfirst : ∃ below, v.names = name :: below := by
        rcases List.mem_cons.1 hv with rfl | hv
        · exact ⟨[], rfl⟩
        · obtain ⟨v, -, rfl⟩ := List.mem_map.1 hv
          exact ⟨v.names, rfl⟩
      obtain ⟨below, hv⟩ := hfirst
      obtain ⟨entry, hentry, below', hw⟩ := exists_names_eq_cons hw
      rw [hv, hw]
      exact List.cons_lt_cons_iff.2 (.inl (hless entry hentry))

end

/-- So are the units among it. -/
theorem pairwise_unitTrails (h : Node.areWellFormed entries) :
    (unitTrails t suffix base entries).Pairwise (· < ·) :=
  List.pairwise_map.2 ((pairwise_visits h).filter _)

/-- So is what is skipped. -/
theorem pairwise_skipTrails (h : Node.areWellFormed entries) :
    (skipTrails t suffix base entries).Pairwise fun skip skip' => skip.1 < skip'.1 := by
  refine List.pairwise_filterMap.2 ((pairwise_visits h).imp ?_)
  intro v w hlt skip hskip skip' hskip'
  obtain ⟨cause, -, rfl⟩ := Option.map_eq_some_iff.1 hskip
  obtain ⟨cause', -, rfl⟩ := Option.map_eq_some_iff.1 hskip'
  exact hlt

/-! ## Different trails, different paths -/

/-- Different trails from a root lead to different paths. -/
theorem pathBelow_inj (hroot : root ≠ []) (hnames : ∀ n ∈ names, Path.IsName n)
    (hnames' : ∀ n ∈ names', Path.IsName n) (h : pathBelow root names = pathBelow root names') :
    names = names' := by
  have hbelow := Path.below?_foldl_join hroot hnames
  have hbelow' := Path.below?_foldl_join hroot hnames'
  rw [pathBelow, pathBelow] at h
  rw [h, hbelow'] at hbelow
  exact (Option.some.inj hbelow).symm

/-- Trails in increasing order have different paths. -/
theorem nodup_map_pathBelow {trails : List (List Text)} (hroot : root ≠ [])
    (hpairwise : trails.Pairwise (· < ·)) (hnames : ∀ names ∈ trails, ∀ n ∈ names, Path.IsName n) :
    (trails.map (pathBelow root)).Nodup := by
  have hnodup : trails.Nodup := by
    refine List.Pairwise.imp (fun {names names'} hlt heq => ?_) hpairwise
    subst heq
    exact List.lt_irrefl names hlt
  refine hnodup.map_on fun names hmem names' hmem' heq => ?_
  exact pathBelow_inj hroot (hnames names hmem) (hnames names' hmem') heq

/-! ## The source directory -/

/-- If directories below the source directory are listed as what they are in the tree, the walk is
the one from the entries on. -/
theorem ofTopEntries_eq (h : ∀ {name inner access listed},
      (name, .directory inner access) ∈ entries →
      t.readDirectory (Path.join root name) = .ok listed → listed = inner) :
    ofTopEntries t suffix root entries = ofEntries t suffix root entries := by
  induction entries with
  | nil => rfl
  | cons entry rest ih =>
    obtain ⟨name, node⟩ := entry
    rw [ofTopEntries, ofEntries, ih fun hmem => h (List.mem_cons_of_mem _ hmem)]
    congr 1
    cases node with
    | file => rfl
    | link => rfl
    | special => rfl
    | directory inner access =>
      have hdirectory : (Node.directory inner access).isDirectory := rfl
      rw [ofTopNode, if_pos hdirectory, ofSubdirectory, ofNode]
      cases hlisted : t.readDirectory (Path.join root name) with
      | error => rfl
      | ok listed => rw [h List.mem_cons_self hlisted]

/-- Trails from well-formed entries lead down the tree. -/
theorem Leads.at? (h : Leads t base entries directories name node)
    (hentries : Node.areWellFormed entries) (access : Access) :
    Node.at? (directories ++ [name]) (.directory entries access) = some node := by
  induction h generalizing access with
  | here hmem =>
    rw [List.nil_append, Node.at?, Node.lookup_of_mem hentries hmem]
    rfl
  | into hmem _ _ ih =>
    have hinner := ((Node.areWellFormed_iff.1 hentries).1 _ hmem).2
    rw [List.cons_append, Node.at?, Node.lookup_of_mem hentries hmem]
    exact ih hinner _

/-- A directory that is reached is listed, by its path, as what it is in the tree. -/
theorem Reaches.eq_of_readDirectory {inner listed : List (Text × Node)} {access : Access}
    (h : Reaches t root directories name (.directory inner access)) (ht : t.root.isWellFormed)
    (hdots : t.HasNoLinkBeforeDots root)
    (hlisted : t.readDirectory (pathBelow root (directories ++ [name])) = .ok listed) :
    listed = inner := by
  obtain ⟨entries, hentries, hleads⟩ := h
  have hwell := FileTree.areWellFormed_of_readDirectory ht hentries
  exact FileTree.eq_of_readDirectory_join hentries hdots (by simp) (hleads.forall_isName hwell)
    (hleads.at? hwell .full) hlisted

/-- A scan of a directory that can be listed and is reached without a link at the end, nor one before
a `..`, walks through the entries of the tree. -/
theorem scan_eq_ofEntries (ht : t.root.isWellFormed) (hentries : t.readDirectory root = .ok entries)
    (hlink : ∃ inner access, t.statLink root = .ok (.directory inner access))
    (hdots : t.HasNoLinkBeforeDots root) :
    scan t suffix root = .ok (ofEntries t (suffixInEffect suffix) root entries) := by
  obtain ⟨place, searchable, hplace, hnode⟩ := FileTree.resolve_of_readDirectory hentries
  obtain ⟨inner, access, hlink⟩ := hlink
  have hstat : t.stat root = .ok (.directory entries ⟨true, searchable⟩) := by
    rw [FileTree.stat, hplace]
    exact congrArg _ hnode
  have hlisted : ∀ {name inner access listed}, (name, .directory inner access) ∈ entries →
      t.readDirectory (Path.join root name) = .ok listed → listed = inner := by
    intro name inner access listed hmem hlisted
    have hreaches : Reaches t root [] name (.directory inner access) :=
      ⟨entries, hentries, .here hmem⟩
    exact hreaches.eq_of_readDirectory ht hdots hlisted
  rw [scan, hstat]
  simp only [Node.isDirectory, hlink, hentries, ofTopEntries_eq hlisted]
  rfl

end

/-- The findings are, in increasing order of the names that lead to them, all units and all entries
skipped among what directories of the tree lead to. -/
structure Reports (t : FileTree) (suffix root : Text) (found : Scan) : Prop where
  /-- The units, by the names that lead to them. -/
  units : ∃ trails : List (List Text), found.files = trails.map (pathBelow root) ∧
    trails.Pairwise (· < ·) ∧
    ∀ names, names ∈ trails ↔ ∃ directories name node, names = directories ++ [name] ∧
      Reaches t root directories name node ∧ IsUnit t suffix (pathBelow root names) name node
  /-- No unit is found twice. -/
  files_nodup : found.files.Nodup
  /-- The entries skipped, by the names that lead to them. -/
  skips : ∃ trails : List (List Text × FileError),
    found.skipped = trails.map (fun skip => (pathBelow root skip.1, skip.2)) ∧
    (trails.map (·.1)).Pairwise (· < ·) ∧
    ∀ names cause, (names, cause) ∈ trails ↔
      ∃ directories name node, names = directories ++ [name] ∧
        Reaches t root directories name node ∧
        IsSkipped t suffix (pathBelow root names) name node cause
  /-- No entry is skipped twice. -/
  skipped_nodup : (found.skipped.map (·.1)).Nodup

/-- A scan of a directory that can be listed succeeds, if the path of the directory is not that of a
link and meets no link before a `..`. It finds and skips exactly the entries that it should among
those to which directories of the tree lead, each once and in increasing order of the names that lead
to them. -/
theorem scan_eq_reached {t : FileTree} {suffix root : Text} (ht : t.root.isWellFormed)
    (hlisted : ∃ entries, t.readDirectory root = .ok entries)
    (hlink : ∃ inner access, t.statLink root = .ok (.directory inner access))
    (hdots : t.HasNoLinkBeforeDots root) :
    ∃ found, scan t suffix root = .ok found ∧ Reports t (suffixInEffect suffix) root found := by
  obtain ⟨entries, hentries⟩ := hlisted
  have hwell := FileTree.areWellFormed_of_readDirectory ht hentries
  have hroot : root ≠ [] := by
    rintro rfl
    cases hentries
  have hreaches : ∀ {directories name node}, Reaches t root directories name node ↔
      Leads t root entries directories name node := by
    intro directories name node
    refine ⟨fun ⟨entries', hentries', hleads⟩ => ?_, fun hleads => ⟨entries, hentries, hleads⟩⟩
    rw [hentries] at hentries'
    cases hentries'
    exact hleads
  refine ⟨_, scan_eq_ofEntries ht hentries hlink hdots, ⟨_, files_ofEntries,
    pairwise_unitTrails hwell, fun names => ?_⟩, ?_, ⟨_, skipped_ofEntries,
    List.pairwise_map.2 (pairwise_skipTrails hwell), fun names cause => ?_⟩, ?_⟩
  · simp only [mem_unitTrails, hreaches]
  · rw [files_ofEntries]
    refine nodup_map_pathBelow hroot (pairwise_unitTrails hwell) fun names hmem => ?_
    obtain ⟨directories, name, node, rfl, hleads, -⟩ := mem_unitTrails.1 hmem
    exact hleads.forall_isName hwell
  · simp only [mem_skipTrails, hreaches]
  · have hpaths : (ofEntries t (suffixInEffect suffix) root entries).skipped.map (·.1) =
        ((skipTrails t (suffixInEffect suffix) root entries).map (·.1)).map (pathBelow root) := by
      rw [skipped_ofEntries, List.map_map, List.map_map]
      rfl
    rw [hpaths]
    refine nodup_map_pathBelow hroot (List.pairwise_map.2 (pairwise_skipTrails hwell))
      fun names hmem => ?_
    obtain ⟨⟨names, cause⟩, hskip, rfl⟩ := List.mem_map.1 hmem
    obtain ⟨directories, name, node, rfl, hleads, -⟩ := mem_skipTrails.1 hskip
    exact hleads.forall_isName hwell

/-- A source directory with a unit, a link that leads nowhere, a pipe, a directory with links to a
unit and to the pipe, one that cannot be listed, one that can be listed but not gone through, and a
link to a directory. -/
def linkedTree : FileTree where
  root := .directory
    [("lib", .directory [("L.java", .file [] 0 true)] .full),
      ("src", .directory
        [("A.java", .file [] 0 true),
          ("Gone.java", .link "nowhere"),
          ("Pipe.java", .special),
          ("a", .directory
            [("B.java", .link "../../lib/L.java"), ("P.java", .link "../Pipe.java")] .full),
          ("closed", .directory [("C.java", .file [] 0 true)] .none),
          ("dark", .directory
            [("D.java", .file [] 0 true), ("E.java", .link "../A.java")] ⟨true, false⟩),
          ("linked", .link "a")] .full)] .full
  workingDirectory := []

/-- What a scan of it finds and skips. -/
def linkedFindings : Scan :=
  ⟨["src/A.java", "src/a/B.java", "src/dark/D.java"],
    [("src/Gone.java", ⟨"stat", "src/Gone.java", .notFound⟩),
      ("src/closed", ⟨"open", "src/closed", .denied⟩),
      ("src/dark/E.java", ⟨"stat", "src/dark/E.java", .denied⟩)]⟩

/-- The source directory is spelled by a step into another one and back. The units and the link to
one are found, but neither the pipe nor the link to it. The link that leads nowhere, the directory
that cannot be listed and the link in the one that cannot be gone through are skipped, and the linked
directory is not entered. -/
theorem scan_eq_reached_linkedTree :
    linkedTree.root.isWellFormed ∧
      (∃ entries, linkedTree.readDirectory "lib/../src" = .ok entries) ∧
      (∃ inner access, linkedTree.statLink "lib/../src" = .ok (.directory inner access)) ∧
      linkedTree.HasNoLinkBeforeDots "lib/../src" ∧
      ∃ found, scan linkedTree ".java" "lib/../src" = .ok found ∧ found = linkedFindings ∧
        Reports linkedTree ".java" "lib/../src" found := by
  have hwell : linkedTree.root.isWellFormed := by decide +kernel
  have hlisted : ∃ entries, linkedTree.readDirectory "lib/../src" = .ok entries := ⟨_, rfl⟩
  have hlink : ∃ inner access,
      linkedTree.statLink "lib/../src" = .ok (.directory inner access) := ⟨_, _, rfl⟩
  have hdots : linkedTree.HasNoLinkBeforeDots "lib/../src" := by
    intro before after hsplit
    have helements : Path.split "lib/../src" = [Text.ofString "lib", "..", "src"] := by decide
    rw [helements] at hsplit
    match before with
    | [] => exact absurd (List.cons.inj hsplit).1 (by decide)
    | [name] =>
      obtain ⟨rfl, -⟩ := List.cons.inj hsplit
      exact ⟨_, .cons (.down (by decide) rfl nofun) .nil⟩
    | _ :: _ :: before =>
      have htail := (List.cons.inj (List.cons.inj hsplit).2).2
      have hmem : Text.ofString ".." ∈ [Text.ofString "src"] := by
        rw [htail]
        simp
      exact absurd hmem (by decide)
  obtain ⟨found, hscan, hreports⟩ := scan_eq_reached hwell hlisted hlink hdots
  refine ⟨hwell, hlisted, hlink, hdots, found, hscan, ?_, hreports⟩
  have hrun : scan linkedTree ".java" "lib/../src" = .ok linkedFindings := by decide +kernel
  exact Except.ok.inj (hscan.symm.trans hrun)

end Scan

end PackageCycles

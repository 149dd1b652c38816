import Mathlib.Logic.Basic
import PackageCycles.Proofs.FileTree.WellFormed
import PackageCycles.Scan

/-!
# The trails of a scan

A scan finds a compilation unit by entering directories one after the other. The trail is said here
without the walk: which directories are entered from the entries on (`Scan.Leads`) and, since a
directory just below the source directory is looked up by its path, from the source directory on
(`Scan.Finds`). The walk visits exactly the entries at the end of a trail (`Scan.mem_visits`), and
what it finds is what each visit reports, visit by visit (`Scan.ofEntries_eq`). So a scan that
succeeds finds exactly the compilation units at the end of a trail (`Scan.mem_files_iff`).
-/

namespace PackageCycles

namespace Scan

/-- Entries of the directory at a path lead, by way of directories that can be listed, to an entry
with a name. -/
inductive Leads (t : FileTree) : Text → List (Text × Node) → List Text → Text → Node → Prop
  | here {base name : Text} {entries : List (Text × Node)} {node : Node}
    (h : (name, node) ∈ entries) : Leads t base entries [] name node
  | into {base directory name : Text} {entries inner listed : List (Text × Node)} {access : Access}
      {directories : List Text} {node : Node} (h : (directory, .directory inner access) ∈ entries)
      (hlisted : t.readDirectory (Path.join base directory) = .ok listed)
      (hinner : Leads t (Path.join base directory) inner directories name node) :
    Leads t base entries (directory :: directories) name node

/-- The entry at a path is a compilation unit. -/
structure IsUnit (t : FileTree) (suffix path name : Text) (node : Node) : Prop where
  /-- It has the suffix. -/
  suffix : suffix <:+ name
  /-- It is a regular file or a link that leads to one. -/
  file : node.isFile ∨
    (∃ target, node = .link target) ∧ ∃ reached, t.stat path = .ok reached ∧ reached.isFile

/-- The path of what names lead to from a directory. -/
def pathBelow (directory : Text) (names : List Text) : Text := names.foldl Path.join directory

/-- What is reported of an entry itself. -/
def ofEntry (t : FileTree) (suffix path name : Text) : Node → Scan
  | .file .. => if suffix.isSuffixOf name then found path else nothing
  | .link _ => if suffix.isSuffixOf name then ofLink t path else nothing
  | .special => nothing
  | .directory .. =>
    match t.readDirectory path with
    | .ok _ => nothing
    | .error cause => skip path cause

/-- An entry that the walk comes to, with the directories entered on the way. -/
structure Visit where
  /-- The directories entered, from the top on. -/
  directories : List Text
  /-- The name of the entry. -/
  name : Text
  /-- What the name stands for. -/
  node : Node

namespace Visit

/-- The names that lead to the entry. -/
def names (v : Visit) : List Text := v.directories ++ [v.name]

/-- The visit seen from the directory above. -/
def under (directory : Text) (v : Visit) : Visit :=
  { v with directories := directory :: v.directories }

/-- The path of the entry. -/
def path (base : Text) (v : Visit) : Text := pathBelow base v.names

/-- What is reported of the entry itself. -/
def report (t : FileTree) (suffix base : Text) (v : Visit) : Scan :=
  ofEntry t suffix (v.path base) v.name v.node

end Visit

mutual

/-- The visits below a node with the given path. -/
def visitsIn (t : FileTree) (path : Text) : Node → List Visit
  | .directory entries _ => if (t.readDirectory path).isOk then visits t path entries else []
  | _ => []

/-- The visits at and below the entries of the directory at `base`, in the order of the walk. -/
def visits (t : FileTree) (base : Text) : List (Text × Node) → List Visit
  | [] => []
  | (name, node) :: rest =>
    ⟨[], name, node⟩ :: (visitsIn t (Path.join base name) node).map (Visit.under name) ++
      visits t base rest

end

/-- All reports one after the other. -/
def concat (reports : List Scan) : Scan := reports.foldr (· ++ ·) nothing

section
variable {t : FileTree} {suffix root base path name n : Text} {node reached : Node}
  {entries rest : List (Text × Node)} {directories : List Text} {v : Visit}

/-! ## Reports one after the other -/

theorem mem_files_append {a b : Scan} : path ∈ (a ++ b).files ↔ path ∈ a.files ∨ path ∈ b.files :=
  List.mem_append

theorem nothing_append (a : Scan) : nothing ++ a = a := rfl

theorem append_assoc (a b c : Scan) : a ++ b ++ c = a ++ (b ++ c) :=
  congrArg₂ Scan.mk (List.append_assoc ..) (List.append_assoc ..)

theorem append_nothing (a : Scan) : a ++ nothing = a :=
  congrArg₂ Scan.mk (List.append_nil _) (List.append_nil _)

theorem concat_cons (a : Scan) (reports : List Scan) :
    concat (a :: reports) = a ++ concat reports :=
  rfl

theorem concat_append (first second : List Scan) :
    concat (first ++ second) = concat first ++ concat second := by
  induction first with
  | nil => exact (nothing_append _).symm
  | cons a first ih => rw [List.cons_append, concat_cons, ih, concat_cons, append_assoc]

/-- The files are those of each report, in their order. -/
theorem files_concat (reports : List Scan) : (concat reports).files = reports.flatMap files := by
  induction reports with
  | nil => rfl
  | cons a reports ih =>
    rw [List.flatMap_cons, ← ih]
    rfl

/-- So is what was skipped. -/
theorem skipped_concat (reports : List Scan) :
    (concat reports).skipped = reports.flatMap skipped := by
  induction reports with
  | nil => rfl
  | cons a reports ih =>
    rw [List.flatMap_cons, ← ih]
    rfl

/-! ## Below entries -/

mutual

/-- A node is reported before what is below it. -/
theorem ofNode_eq : ∀ {base name : Text} {node : Node},
    ofNode t suffix (Path.join base name) name node =
      Visit.report t suffix base ⟨[], name, node⟩ ++
        concat ((visitsIn t (Path.join base name) node).map
          (Visit.report t suffix (Path.join base name)))
  | _, _, .file .. => (append_nothing _).symm
  | _, _, .link _ => (append_nothing _).symm
  | _, _, .special => (append_nothing _).symm
  | base, name, .directory entries _ => by
    have hreport : ∀ {node : Node}, Visit.report t suffix base ⟨[], name, node⟩ =
        ofEntry t suffix (Path.join base name) name node := rfl
    rw [ofNode, hreport, ofEntry, visitsIn]
    cases t.readDirectory (Path.join base name) with
    | error cause => exact (append_nothing _).symm
    | ok listed => exact ofEntries_eq

/-- What is found below entries is what each visit reports, visit by visit. -/
theorem ofEntries_eq : ∀ {base : Text} {entries : List (Text × Node)},
    ofEntries t suffix base entries =
      concat ((visits t base entries).map (Visit.report t suffix base))
  | _, [] => rfl
  | base, (name, node) :: rest => by
    rw [ofEntries, visits, ofNode_eq, ofEntries_eq, List.cons_append, List.map_cons,
      List.map_append, List.map_map, concat_cons, concat_append, append_assoc]
    rfl

end

/-- A trail starts at the first entry or at a later one, and ends there or goes on below it. -/
theorem leads_cons : Leads t base ((n, reached) :: rest) directories name node ↔
    (directories = [] ∧ name = n ∧ node = reached ∨
      ∃ inner access listed directories', reached = .directory inner access ∧
        t.readDirectory (Path.join base n) = .ok listed ∧ directories = n :: directories' ∧
        Leads t (Path.join base n) inner directories' name node) ∨
      Leads t base rest directories name node := by
  constructor
  · rintro (h | ⟨h, hlisted, hinner⟩)
    · rcases List.mem_cons.1 h with heq | h
      · cases heq
        exact .inl (.inl ⟨rfl, rfl, rfl⟩)
      · exact .inr (.here h)
    · rcases List.mem_cons.1 h with heq | h
      · cases heq
        exact .inl (.inr ⟨_, _, _, _, rfl, hlisted, rfl, hinner⟩)
      · exact .inr (.into h hlisted hinner)
  · rintro ((⟨rfl, rfl, rfl⟩ | ⟨inner, access, listed, directories', rfl, hlisted, rfl, hinner⟩) |
      (h | ⟨h, hlisted, hinner⟩))
    · exact .here List.mem_cons_self
    · exact .into List.mem_cons_self hlisted hinner
    · exact .here (List.mem_cons_of_mem _ h)
    · exact .into (List.mem_cons_of_mem _ h) hlisted hinner

theorem not_leads_nil : ¬ Leads t base [] directories name node := by
  rintro (h | ⟨h, -⟩) <;> cases h

/-- The names on a trail from well-formed entries are names of entries. -/
theorem Leads.forall_isName (h : Leads t base entries directories name node)
    (hentries : Node.areWellFormed entries) : ∀ n ∈ directories ++ [name], Path.IsName n := by
  induction h with
  | here hmem =>
    simpa using ((Node.areWellFormed_iff.1 hentries).1 _ hmem).1
  | into hmem _ _ ih =>
    obtain ⟨hname, hinner⟩ := (Node.areWellFormed_iff.1 hentries).1 _ hmem
    exact List.forall_mem_cons.2 ⟨hname, ih hinner⟩

mutual

/-- What is visited below a directory is what trails lead to from its entries. -/
theorem mem_visitsIn : ∀ {path : Text} {node : Node} {v : Visit}, v ∈ visitsIn t path node ↔
    ∃ inner access listed, node = .directory inner access ∧ t.readDirectory path = .ok listed ∧
      Leads t path inner v.directories v.name v.node
  | _, .file .., _ => by simp [visitsIn]
  | _, .link _, _ => by simp [visitsIn]
  | _, .special, _ => by simp [visitsIn]
  | path, .directory entries access, v => by
    have hinner : v ∈ visits t path entries ↔ Leads t path entries v.directories v.name v.node :=
      mem_visits
    rw [visitsIn]
    cases t.readDirectory path with
    | error cause => simp [Except.isOk, Except.toBool]
    | ok listed => simp [Except.isOk, Except.toBool, hinner]

/-- The walk visits the entries at the end of a trail. -/
theorem mem_visits : ∀ {base : Text} {entries : List (Text × Node)} {v : Visit},
    v ∈ visits t base entries ↔ Leads t base entries v.directories v.name v.node
  | _, [], _ => by simp [visits, not_leads_nil]
  | base, (n, reached) :: rest, ⟨directories, name, node⟩ => by
    have hrest : ⟨directories, name, node⟩ ∈ visits t base rest ↔
        Leads t base rest directories name node := mem_visits
    have hinside : ∀ {v : Visit}, v ∈ visitsIn t (Path.join base n) reached ↔ _ := mem_visitsIn
    rw [visits, List.cons_append, List.mem_cons, List.mem_append, List.mem_map, leads_cons, hrest,
      ← or_assoc]
    refine or_congr (or_congr ?_ ?_) Iff.rfl
    · rw [Visit.mk.injEq]
    · constructor
      · rintro ⟨⟨directories', name', node'⟩, hmem, heq⟩
        cases heq
        obtain ⟨inner, access, listed, rfl, hlisted, hleads⟩ := hinside.1 hmem
        exact ⟨inner, access, listed, directories', rfl, hlisted, rfl, hleads⟩
      · rintro ⟨inner, access, listed, directories', rfl, hlisted, rfl, hleads⟩
        exact ⟨⟨directories', name, node⟩, hinside.2 ⟨inner, access, listed, rfl, hlisted,
          hleads⟩, rfl⟩

end

/-! ## Units -/

/-- A regular file is a unit if it is named with the suffix. -/
theorem isUnit_file {content : Text} {modified : Int} {readable : Bool} :
    IsUnit t suffix path name (.file content modified readable) ↔ suffix <:+ name :=
  ⟨IsUnit.suffix, fun h => ⟨h, .inl rfl⟩⟩

/-- A link is a unit if it is named with the suffix and leads to a regular file. -/
theorem isUnit_link {target : Text} : IsUnit t suffix path name (.link target) ↔
    suffix <:+ name ∧ ∃ reached, t.stat path = .ok reached ∧ reached.isFile := by
  constructor
  · rintro ⟨hsuffix, hfile | ⟨-, hreached⟩⟩
    · cases hfile
    · exact ⟨hsuffix, hreached⟩
  · rintro ⟨hsuffix, hreached⟩
    exact ⟨hsuffix, .inr ⟨⟨target, rfl⟩, hreached⟩⟩

/-- A special file is no unit. -/
theorem not_isUnit_special : ¬ IsUnit t suffix path name .special := by
  rintro ⟨-, h | ⟨⟨target, h⟩, -⟩⟩ <;> cases h

/-- A directory is no unit. -/
theorem not_isUnit_directory {access : Access} :
    ¬ IsUnit t suffix path name (.directory entries access) := by
  rintro ⟨-, h | ⟨⟨target, h⟩, -⟩⟩ <;> cases h

instance (t : FileTree) (suffix path name : Text) : (node : Node) →
    Decidable (IsUnit t suffix path name node)
  | .file .. => decidable_of_iff _ isUnit_file.symm
  | .link _ => decidable_of_iff (suffix <:+ name ∧ (t.stat path).toOption.any Node.isFile) (by
      rw [isUnit_link]
      cases t.stat path <;> simp [Except.toOption])
  | .special => .isFalse not_isUnit_special
  | .directory .. => .isFalse not_isUnit_directory

/-- Of the entry itself its path is found, if it is a compilation unit. -/
theorem files_ofEntry : (ofEntry t suffix path name node).files =
    if IsUnit t suffix path name node then [path] else [] := by
  cases node with
  | file =>
    simp only [ofEntry, isUnit_file, List.isSuffixOf_iff_suffix]
    split <;> rfl
  | link =>
    rw [ofEntry]
    by_cases hunit : IsUnit t suffix path name (.link ‹_›)
    · obtain ⟨hsuffix, reached, hstat, hfile⟩ := isUnit_link.1 hunit
      rw [if_pos hunit, if_pos (List.isSuffixOf_iff_suffix.2 hsuffix), ofLink, hstat]
      simp only [hfile, if_true]
      rfl
    · rw [if_neg hunit]
      split
      next hsuffix =>
        rw [ofLink]
        cases hstat : t.stat path with
        | error => rfl
        | ok reached =>
          have hfile : ¬ reached.isFile := fun hfile =>
            hunit (isUnit_link.2 ⟨List.isSuffixOf_iff_suffix.1 hsuffix, reached, hstat, hfile⟩)
          simp only [hfile]
          rfl
      next => rfl
  | special => rw [if_neg not_isUnit_special, ofEntry, nothing]
  | directory =>
    rw [if_neg not_isUnit_directory, ofEntry]
    cases t.readDirectory path <;> rfl

/-- Below entries, the compilation units at the end of a trail are found. -/
theorem mem_files_ofEntries : path ∈ (ofEntries t suffix base entries).files ↔
    ∃ directories name node, Leads t base entries directories name node ∧
      path = pathBelow base (directories ++ [name]) ∧ IsUnit t suffix path name node := by
  rw [ofEntries_eq, files_concat, List.flatMap_map, List.mem_flatMap]
  constructor
  · rintro ⟨v, hv, hpath⟩
    rw [Visit.report, files_ofEntry, List.mem_ite_nil_right, List.mem_singleton] at hpath
    obtain ⟨hunit, rfl⟩ := hpath
    exact ⟨_, _, _, mem_visits.1 hv, rfl, hunit⟩
  · rintro ⟨directories, name, node, hleads, rfl, hunit⟩
    refine ⟨⟨directories, name, node⟩, mem_visits.2 hleads, ?_⟩
    rw [Visit.report, files_ofEntry]
    simpa using ⟨hunit, rfl⟩

/-! ## From the source directory on -/

/-- The entries of the source directory lead, by way of directories, to an entry with a name. -/
inductive LeadsFrom (t : FileTree) (root : Text) (entries : List (Text × Node)) :
    List Text → Text → Node → Prop
  | here {name : Text} {node : Node} (h : (name, node) ∈ entries) :
    LeadsFrom t root entries [] name node
  | into {directory name : Text} {top : Node} {inner : List (Text × Node)}
      {directories : List Text} {node : Node} (h : (directory, top) ∈ entries)
      (htop : top.isDirectory) (hinner : t.readDirectory (Path.join root directory) = .ok inner)
      (hleads : Leads t (Path.join root directory) inner directories name node) :
    LeadsFrom t root entries (directory :: directories) name node

/-- A scan of `root` enters the directories one below the other and finds a compilation unit in the
last one, or in `root` itself. -/
structure Finds (t : FileTree) (suffix root : Text) (directories : List Text) (name : Text) :
    Prop where
  /-- The root is not a link. -/
  root_isDirectory : ∃ entries access, t.statLink root = .ok (.directory entries access)
  /-- The entries of the root lead to the unit. -/
  trail : ∃ entries node, t.readDirectory root = .ok entries ∧
    LeadsFrom t root entries directories name node ∧
    IsUnit t suffix (pathBelow root (directories ++ [name])) name node

/-- The files found in a directory below the root are the units to which trails lead from it. -/
theorem mem_files_ofSubdirectory : path ∈ (ofSubdirectory t suffix base).files ↔
    ∃ inner directories name node, t.readDirectory base = .ok inner ∧
      Leads t base inner directories name node ∧ path = pathBelow base (directories ++ [name]) ∧
      IsUnit t suffix path name node := by
  rw [ofSubdirectory]
  cases t.readDirectory base with
  | error e => simp [skip]
  | ok entries => simp [mem_files_ofEntries]

/-- A trail from the root may start with a link to a directory, too. -/
theorem leadsFrom_cons : LeadsFrom t root ((n, reached) :: rest) directories name node ↔
    (directories = [] ∧ name = n ∧ node = reached ∨
      ∃ inner directories', reached.isDirectory ∧ t.readDirectory (Path.join root n) = .ok inner ∧
        directories = n :: directories' ∧
        Leads t (Path.join root n) inner directories' name node) ∨
      LeadsFrom t root rest directories name node := by
  constructor
  · rintro (h | ⟨h, hreached, hinner, hleads⟩)
    · rcases List.mem_cons.1 h with heq | h
      · cases heq
        exact .inl (.inl ⟨rfl, rfl, rfl⟩)
      · exact .inr (.here h)
    · rcases List.mem_cons.1 h with heq | h
      · cases heq
        exact .inl (.inr ⟨_, _, hreached, hinner, rfl, hleads⟩)
      · exact .inr (.into h hreached hinner hleads)
  · rintro ((⟨rfl, rfl, rfl⟩ | ⟨inner, directories', hreached, hinner, rfl, hleads⟩) |
      (h | ⟨h, hreached, hinner, hleads⟩))
    · exact .here List.mem_cons_self
    · exact .into List.mem_cons_self hreached hinner hleads
    · exact .here (List.mem_cons_of_mem _ h)
    · exact .into (List.mem_cons_of_mem _ h) hreached hinner hleads

/-- An entry of the root is a unit itself, or the units below it are found. -/
theorem mem_files_ofTopNode : path ∈ (ofTopNode t suffix (Path.join root n) n reached).files ↔
    path = Path.join root n ∧ IsUnit t suffix (Path.join root n) n reached ∨
      ∃ inner directories name node, reached.isDirectory ∧
        t.readDirectory (Path.join root n) = .ok inner ∧
        Leads t (Path.join root n) inner directories name node ∧
        path = pathBelow (Path.join root n) (directories ++ [name]) ∧
        IsUnit t suffix path name node := by
  rw [ofTopNode]
  split
  next hdirectory =>
    have hunit : ¬ IsUnit t suffix (Path.join root n) n reached := by
      match reached, hdirectory with
      | .directory _ _, _ => exact not_isUnit_directory
    simp [mem_files_ofSubdirectory, hdirectory, hunit]
  next hdirectory =>
    have hinside : visitsIn t (Path.join root n) reached = [] := by
      match reached, hdirectory with
      | .file .., _ => rfl
      | .link _, _ => rfl
      | .special, _ => rfl
    have hentry : ofNode t suffix (Path.join root n) n reached =
        ofEntry t suffix (Path.join root n) n reached := by
      rw [ofNode_eq, hinside]
      exact append_nothing _
    rw [hentry, files_ofEntry, List.mem_ite_nil_right, List.mem_singleton]
    simp [hdirectory, and_comm]

/-- Below the entries of the source directory, the compilation units at the end of a trail are
found. -/
theorem mem_files_ofTopEntries : path ∈ (ofTopEntries t suffix root entries).files ↔
    ∃ directories name node, LeadsFrom t root entries directories name node ∧
      path = pathBelow root (directories ++ [name]) ∧ IsUnit t suffix path name node := by
  induction entries with
  | nil =>
    simp only [ofTopEntries, nothing, List.not_mem_nil, false_iff]
    rintro ⟨directories, name, node, h | ⟨h, -⟩, -⟩ <;> cases h
  | cons entry rest ih =>
    obtain ⟨n, top⟩ := entry
    rw [ofTopEntries, mem_files_append, mem_files_ofTopNode, ih]
    simp only [leadsFrom_cons]
    constructor
    · rintro ((⟨rfl, hunit⟩ | ⟨inner, directories, name, node, htop, hinner, hleads, rfl, hunit⟩) |
        ⟨directories, name, node, hleads, rfl, hunit⟩)
      · exact ⟨[], n, top, .inl (.inl ⟨rfl, rfl, rfl⟩), rfl, hunit⟩
      · exact ⟨n :: directories, name, node,
          .inl (.inr ⟨inner, directories, htop, hinner, rfl, hleads⟩), rfl, hunit⟩
      · exact ⟨directories, name, node, .inr hleads, rfl, hunit⟩
    · rintro ⟨directories, name, node, (⟨rfl, rfl, rfl⟩ |
        ⟨inner, directories', htop, hinner, rfl, hleads⟩) | hleads, rfl, hunit⟩
      · exact .inl (.inl ⟨rfl, hunit⟩)
      · exact .inl (.inr ⟨inner, directories', name, node, htop, hinner, hleads, rfl, hunit⟩)
      · exact .inr ⟨directories, name, node, hleads, rfl, hunit⟩

/-- A scan that succeeds finds exactly the compilation units at the end of a trail. -/
theorem mem_files_iff {found : Scan} (h : scan t suffix root = .ok found) : path ∈ found.files ↔
    ∃ directories name, Finds t (suffixInEffect suffix) root directories name ∧
      path = pathBelow root (directories ++ [name]) := by
  unfold scan at h
  split at h
  next =>
    split at h <;> cases h
  next =>
    split at h
    next => cases h
    next =>
      split at h
      next hlink =>
        split at h
        next entries hentries =>
          cases h
          rw [mem_files_ofTopEntries]
          constructor
          · rintro ⟨directories, name, node, hleads, rfl, hunit⟩
            exact ⟨directories, name, ⟨⟨_, _, hlink⟩, entries, node, hentries, hleads, hunit⟩, rfl⟩
          · rintro ⟨directories, name, ⟨-, entries', node, hentries', hleads, hunit⟩, rfl⟩
            rw [hentries] at hentries'
            cases hentries'
            exact ⟨directories, name, node, hleads, rfl, hunit⟩
        next => cases h
      next other hnot hlink =>
        cases h
        refine ⟨nofun, ?_⟩
        rintro ⟨directories, name, ⟨⟨entries, access, hlink'⟩, -⟩, -⟩
        rw [hlink] at hlink'
        cases hlink'
        exact absurd rfl (hnot entries access)
      next => cases h

end

end Scan

end PackageCycles

import PackageCycles.FileTree.Change
import PackageCycles.Proofs.Path.NormalForm

/-!
# Well-formed file trees

The entries of a directory have names and stand in increasing order of them (`Node.isWellFormed`),
also after an entry is set or erased (`Node.isWellFormed_put`, `Node.isWellFormed_erase`). With
each element, following a path goes up or down between directories and their entries or comes to a
link (`FileTree.turns_or_meetsLink`). So what passes up and down holds of every place that a path
leads to (`FileTree.IsKept.resolve`): the place is one of the tree (`FileTree.at?_names_of_resolve`),
and the entries read from a directory of a well-formed tree are well-formed again
(`FileTree.areWellFormed_of_readDirectory`).
-/

namespace PackageCycles

/-! ## Well-formed nodes -/

namespace Node

mutual

/-- In all directories at and below the node, the entries have names, which increase. -/
def isWellFormed : Node → Bool
  | .directory entries _ => areWellFormed entries
  | _ => true

/-- The entries have names, which increase, and so have those of the directories below. -/
def areWellFormed : List (Text × Node) → Bool
  | [] => true
  | (name, node) :: rest =>
    decide (Path.IsName name) && (rest.all fun entry => name < entry.1) && node.isWellFormed &&
      areWellFormed rest

end

/-- The node that names lead to from a node. -/
def at? : List Text → Node → Option Node
  | [], node => some node
  | name :: rest, .directory entries _ => (entries.lookup name).bind (at? rest)
  | _ :: _, _ => none

section
variable {name : Text} {names : List Text} {node new root : Node} {entries : List (Text × Node)}
  {access : Access}

/-- Well-formed entries come in the increasing order of their names. -/
theorem areWellFormed_cons :
    areWellFormed ((name, node) :: entries) ↔ Path.IsName name ∧
      (∀ entry ∈ entries, name < entry.1) ∧ node.isWellFormed ∧ areWellFormed entries := by
  simp only [areWellFormed, Bool.and_eq_true, decide_eq_true_iff, List.all_eq_true, and_assoc]

/-- The entries of a directory are well-formed one by one, and their names increase. -/
theorem areWellFormed_iff : areWellFormed entries ↔
    (∀ entry ∈ entries, Path.IsName entry.1 ∧ entry.2.isWellFormed) ∧
      (entries.map (·.1)).Pairwise (· < ·) := by
  induction entries with
  | nil => simp [areWellFormed]
  | cons entry entries ih =>
    rw [areWellFormed_cons, ih, List.forall_mem_cons, List.map_cons, List.pairwise_cons,
      List.forall_mem_map]
    constructor
    · rintro ⟨hname, hless, hnode, hentries, hnames⟩
      exact ⟨⟨⟨hname, hnode⟩, hentries⟩, hless, hnames⟩
    · rintro ⟨⟨⟨hname, hnode⟩, hentries⟩, hless, hnames⟩
      exact ⟨hname, hless, hnode, hentries, hnames⟩

/-- A name below all others is not found among them. -/
theorem lookup_eq_none_of_forall_lt (h : ∀ entry ∈ entries, name < entry.1) :
    entries.lookup name = none :=
  List.lookup_eq_none_iff.2 fun entry hentry => bne_iff_ne.2 fun heq =>
    List.lt_irrefl entry.1 (heq ▸ h entry hentry)

/-- Looking a name up finds what stands there under it. -/
theorem lookup_of_mem (h : areWellFormed entries) (hmem : (name, node) ∈ entries) :
    entries.lookup name = some node := by
  induction entries with
  | nil => exact nomatch hmem
  | cons entry rest ih =>
    obtain ⟨-, hless, -, hrest⟩ := areWellFormed_cons.1 h
    rcases List.mem_cons.1 hmem with rfl | hmem
    · exact List.lookup_cons_self
    · have hlt : entry.1 < name := hless _ hmem
      have hne : name ≠ entry.1 := fun heq => List.lt_irrefl name (heq ▸ hlt)
      rw [List.lookup_cons, beq_false_of_ne hne]
      exact ih hrest hmem

/-! ## Below a node -/

/-- What is found among well-formed entries is well-formed. -/
theorem isWellFormed_of_lookup (h : areWellFormed entries)
    (hname : entries.lookup name = some node) : Path.IsName name ∧ node.isWellFormed := by
  obtain ⟨front, back, rfl, -⟩ := List.lookup_eq_some_iff.1 hname
  exact (areWellFormed_iff.1 h).1 (name, node) (by simp)

/-- The names on the way down a well-formed node are names of entries. -/
theorem isName_of_at? (hroot : root.isWellFormed) (h : root.at? names = some node) :
    ∀ name ∈ names, Path.IsName name := by
  induction names generalizing root with
  | nil => exact fun _ hname => nomatch hname
  | cons name rest ih =>
    match root with
    | .file .. => cases h
    | .link _ => cases h
    | .special => cases h
    | .directory entries access =>
      obtain ⟨next, hnext, h⟩ := Option.bind_eq_some_iff.1 h
      obtain ⟨hname, hnextWell⟩ := isWellFormed_of_lookup hroot hnext
      exact List.forall_mem_cons.2 ⟨hname, ih hnextWell h⟩

/-- A node further down is found step by step. -/
theorem at?_append {below : List Text} :
    root.at? (names ++ below) = (root.at? names).bind (at? below) := by
  induction names generalizing root with
  | nil => rfl
  | cons name rest ih =>
    match root with
    | .file .. => rfl
    | .link _ => rfl
    | .special => rfl
    | .directory entries access =>
      cases hname : entries.lookup name with
      | none => simp [at?, hname]
      | some node => simpa [at?, hname] using ih

/-- Nothing is below a regular file. -/
theorem not_isFile_of_at? (h : root.at? names = some (.directory entries access)) :
    ¬ root.isFile := by
  cases root with
  | file => cases names <;> cases h
  | link => nofun
  | special => nofun
  | directory => nofun

/-! ## Entries that are set -/

theorem mem_setEntry {entry : Text × Node} (h : entry ∈ setEntry name node entries) :
    entry = (name, node) ∨ entry ∈ entries := by
  induction entries with
  | nil => exact .inl (List.mem_singleton.1 h)
  | cons other rest ih =>
    simp only [setEntry] at h
    split at h
    next =>
      rcases List.mem_cons.1 h with h | h
      · exact .inl h
      · exact .inr (List.mem_cons_of_mem _ h)
    next =>
      split at h
      next =>
        rcases List.mem_cons.1 h with h | h
        · exact .inl h
        · exact .inr h
      next =>
        rcases List.mem_cons.1 h with h | h
        · exact .inr (h ▸ List.mem_cons_self)
        · exact (ih h).imp id (List.mem_cons_of_mem _)

/-- Entries stay well-formed when one of them is set. -/
theorem areWellFormed_setEntry (hname : Path.IsName name) (hnode : node.isWellFormed)
    (h : areWellFormed entries) : areWellFormed (setEntry name node entries) := by
  induction entries with
  | nil => exact areWellFormed_cons.2 ⟨hname, (fun _ hentry => nomatch hentry), hnode, rfl⟩
  | cons entry rest ih =>
    obtain ⟨other, old⟩ := entry
    obtain ⟨hother, hless, hold, hrest⟩ := areWellFormed_cons.1 h
    simp only [setEntry]
    split
    next heq => exact areWellFormed_cons.2 ⟨hname, heq ▸ hless, hnode, hrest⟩
    next hne =>
      split
      next hlt =>
        refine areWellFormed_cons.2 ⟨hname, ?_, hnode, h⟩
        exact List.forall_mem_cons.2
          ⟨hlt, fun entry hentry => List.lt_trans hlt (hless entry hentry)⟩
      next hnlt =>
        refine areWellFormed_cons.2 ⟨hother, fun entry hentry => ?_, hold, ih hrest⟩
        rcases mem_setEntry hentry with rfl | hentry
        · exact Std.lt_of_le_of_ne (List.not_lt.1 hnlt) (Ne.symm hne)
        · exact hless entry hentry

theorem areWellFormed_filter (h : areWellFormed entries) (keep : Text × Node → Bool) :
    areWellFormed (entries.filter keep) := by
  obtain ⟨hall, hnames⟩ := areWellFormed_iff.1 h
  exact areWellFormed_iff.2 ⟨fun entry hentry => hall entry (List.mem_filter.1 hentry).1,
    hnames.sublist (List.filter_sublist.map _)⟩

/-- A node stays well-formed when a well-formed one is put somewhere below it. -/
theorem isWellFormed_put (hnew : new.isWellFormed) (hnames : ∀ name ∈ names, Path.IsName name)
    (h : node.isWellFormed) : (put new names node).isWellFormed := by
  induction names generalizing node with
  | nil => exact hnew
  | cons name rest ih =>
    obtain ⟨hname, hrest⟩ := List.forall_mem_cons.1 hnames
    have hempty : areWellFormed [] := rfl
    have hfresh : (directory [(name, put new rest emptyDirectory)] .full).isWellFormed :=
      areWellFormed_setEntry hname (ih hrest rfl) hempty
    match node with
    | .file .. => exact hfresh
    | .link _ => exact hfresh
    | .special => exact hfresh
    | .directory entries access =>
      refine areWellFormed_setEntry hname (ih hrest ?_) h
      cases hold : entries.lookup name with
      | none => rfl
      | some old => exact (isWellFormed_of_lookup h hold).2

/-- What is further down in a directory is taken away from the entry that it is below. -/
theorem erase_cons_directory (hnames : names ≠ []) :
    erase (name :: names) (.directory entries access) = match entries.lookup name with
    | some old => .directory (setEntry name (erase names old) entries) access
    | none => .directory entries access := by
  cases names with
  | nil => exact absurd rfl hnames
  | cons next rest => rfl

/-- A node stays well-formed when something below it is taken away. -/
theorem isWellFormed_erase (h : node.isWellFormed) : (erase names node).isWellFormed := by
  induction names generalizing node with
  | nil => exact h
  | cons name rest ih =>
    match node with
    | .file .. => cases rest <;> rfl
    | .link _ => cases rest <;> rfl
    | .special => cases rest <;> rfl
    | .directory entries access =>
      by_cases hrest : rest = []
      · subst hrest
        exact areWellFormed_filter h _
      · rw [erase_cons_directory hrest]
        split
        next old hold =>
          obtain ⟨hname, hwell⟩ := isWellFormed_of_lookup h hold
          exact areWellFormed_setEntry hname (ih hwell) h
        next => exact h

end

/-! ## What entries inherit -/

/-- What holds of a directory holds of its entries. -/
def Hereditary (P : Node → Prop) : Prop :=
  ∀ entries access, P (.directory entries access) → ∀ entry ∈ entries, P entry.2

theorem hereditary_isWellFormed : Hereditary fun node => node.isWellFormed :=
  fun _ _ h entry hentry => ((areWellFormed_iff.1 h).1 entry hentry).2

end Node

/-! ## Where paths lead -/

namespace FileTree

/-- The entries of directories have names, which increase, and the working directory is there. -/
structure IsWellFormed (t : FileTree) : Prop where
  /-- The root is well-formed. -/
  root : t.root.isWellFormed
  /-- The names of the working directory lead to a directory. -/
  working : ∃ entries access, t.root.at? t.workingDirectory = some (.directory entries access)

/-! ## Walks -/

/-- An element that is no link leads from a directory to a place. -/
inductive Turns : Place → Text → Place → Prop
  | stay {at' : Text} {entries : List (Text × Node)} {listable : Bool} {above : Place} :
    Turns ((at', .directory entries ⟨listable, true⟩) :: above) "."
      ((at', .directory entries ⟨listable, true⟩) :: above)
  /-- The directory above the root is the root. -/
  | up {at' : Text} {entries : List (Text × Node)} {listable : Bool} {above : Place} :
    Turns ((at', .directory entries ⟨listable, true⟩) :: above) ".."
      (if above.isEmpty then (at', .directory entries ⟨listable, true⟩) :: above else above)
  | down {at' name : Text} {entries : List (Text × Node)} {listable : Bool} {above : Place}
    {node : Node}
    (hname : name ≠ "." ∧ name ≠ ".." ∧ ¬ maxNameLength < name.length)
    (hnode : entries.lookup name = some node) (hlink : ∀ target, node ≠ .link target) :
    Turns ((at', .directory entries ⟨listable, true⟩) :: above) name
      ((name, node) :: (at', .directory entries ⟨listable, true⟩) :: above)

/-- An element is a link in a directory. -/
inductive MeetsLink : Place → Text → Text → Prop
  | intro {at' name target : Text} {entries : List (Text × Node)} {listable : Bool} {above : Place}
    (hname : name ≠ "." ∧ name ≠ ".." ∧ ¬ maxNameLength < name.length)
    (hnode : entries.lookup name = some (.link target)) :
    MeetsLink ((at', .directory entries ⟨listable, true⟩) :: above) name target

section
variable {t : FileTree} {here next place : Place} {last : Bool} {name target path : Text}
  {follow : Place → Text → List Text → Except Fault Place} {rest : List Text}

/-- A name that meets no link leads to the next place. -/
theorem walk_of_turns (h : Turns here name next) :
    walk last follow here (name :: rest) = walk last follow next rest := by
  cases h with
  | stay => rfl
  | up => rfl
  | @down _ _ _ _ _ node hname hnode hlink =>
    obtain ⟨hdot, hdots, hlength⟩ := hname
    simp only [walk, hdot, hdots, hlength, hnode]
    cases node with
    | file => rfl
    | link target => cases hlink target rfl
    | special => rfl
    | directory => rfl

/-- A link at the end of a path is followed only if it should be, and any other link always. -/
theorem walk_of_meetsLink (h : MeetsLink here name target) :
    walk last follow here (name :: rest) =
      if rest.isEmpty && !last then .ok ((name, .link target) :: here)
      else follow here target rest := by
  obtain ⟨⟨hdot, hdots, hlength⟩, hnode⟩ := h
  simp only [walk, hdot, hdots, hlength, hnode]
  rfl

/-- A walk that comes through takes a step with each element or is at a link. -/
theorem turns_or_meetsLink (h : walk last follow here (name :: rest) = .ok place) :
    (∃ next, Turns here name next) ∨ ∃ target, MeetsLink here name target := by
  match here with
  | [] => cases h
  | (_, .file ..) :: _ => cases h
  | (_, .link _) :: _ => cases h
  | (_, .special) :: _ => cases h
  | (at', .directory entries ⟨_, false⟩) :: above => cases h
  | (at', .directory entries ⟨listable, true⟩) :: above =>
    by_cases hdot : name = "."
    · subst hdot
      exact .inl ⟨_, .stay⟩
    by_cases hdots : name = ".."
    · subst hdots
      exact .inl ⟨_, .up⟩
    by_cases hlength : maxNameLength < name.length
    · simp [walk, hdot, hdots, hlength] at h
    cases hnode : entries.lookup name with
    | none => simp [walk, hdot, hdots, hlength, hnode] at h
    | some node =>
      cases node with
      | file => exact .inl ⟨_, .down ⟨hdot, hdots, hlength⟩ hnode nofun⟩
      | link target => exact .inr ⟨target, ⟨hdot, hdots, hlength⟩, hnode⟩
      | special => exact .inl ⟨_, .down ⟨hdot, hdots, hlength⟩ hnode nofun⟩
      | directory => exact .inl ⟨_, .down ⟨hdot, hdots, hlength⟩ hnode nofun⟩

/-- A path that is neither empty nor too long and holds no NUL byte leads from its start along its
elements. -/
theorem resolve_eq_ok_iff : t.resolve last path = .ok place ↔
    (¬ path.contains 0 ∧ ¬ path.isEmpty ∧ ¬ maxPathLength < path.length) ∧
      walkLinks t.rootPlace last maxLinks (startOf t.rootPlace t.workingPlace path)
        (elements path) = .ok place := by
  unfold FileTree.resolve
  split
  next hzero => exact ⟨nofun, fun h => absurd hzero h.1.1⟩
  next hzero =>
    split
    next hempty => exact ⟨nofun, fun h => absurd hempty h.1.2.1⟩
    next hempty =>
      split
      next hlength => exact ⟨nofun, fun h => absurd hlength h.1.2.2⟩
      next hlength => exact ⟨fun h => ⟨⟨hzero, hempty, hlength⟩, h⟩, And.right⟩

end

/-! ## What resolving a path keeps -/

/-- The property of places passes to a place above and to a place just below. -/
structure IsKept (Q : Place → Prop) : Prop where
  /-- It passes to the directory that the place is in. -/
  up : ∀ {entry directory above}, Q (entry :: directory :: above) → Q (directory :: above)
  /-- It passes to an entry of the directory at the place. -/
  down : ∀ {at' entries access above name node}, Q ((at', .directory entries access) :: above) →
    entries.lookup name = some node →
    Q ((name, node) :: (at', .directory entries access) :: above)

section
variable {P : Node → Prop} {Q : Place → Prop} {t : FileTree} {root here place : Place} {last : Bool}
  {follow : Place → Text → List Text → Except Fault Place} {names : List Text} {links : Nat}
  {path : Text}

/-- A step from one place to the next keeps the property. -/
theorem IsKept.turns (hQ : IsKept Q) {name : Text} (hhere : Q here) (h : Turns here name place) :
    Q place := by
  cases h with
  | stay => exact hhere
  | @up _ _ _ above =>
    match above with
    | [] => exact hhere
    | _ :: _ => exact hQ.up hhere
  | down _ hnode _ => exact hQ.down hhere hnode

/-- So does a path, if following a link does. -/
theorem IsKept.walk (hQ : IsKept Q)
    (hfollow : ∀ {here target rest place}, Q here → follow here target rest = .ok place → Q place)
    (hhere : Q here) (h : walk last follow here names = .ok place) : Q place := by
  induction names generalizing here with
  | nil =>
    cases h
    exact hhere
  | cons name rest ih =>
    rcases turns_or_meetsLink h with ⟨next, hturns⟩ | ⟨target, hlink⟩
    · rw [walk_of_turns hturns] at h
      exact ih (hQ.turns hhere hturns) h
    · rw [walk_of_meetsLink hlink] at h
      split at h
      next =>
        cases h
        obtain ⟨-, hnode⟩ := hlink
        exact hQ.down hhere hnode
      next => exact hfollow hhere h

/-- Following links keeps the property if the root has it. -/
theorem IsKept.walkLinks (hQ : IsKept Q) (hroot : Q root) (hhere : Q here)
    (h : walkLinks root last links here names = .ok place) : Q place := by
  induction links generalizing here names place with
  | zero => exact hQ.walk (fun _ h => by cases h) hhere h
  | succ links ih =>
    refine hQ.walk (fun hhere hfollow => ih ?_ hfollow) hhere h
    unfold startOf
    split
    · exact hroot
    · exact hhere

/-- Going down to the working directory keeps the property. -/
theorem IsKept.descend (hQ : IsKept Q) (hhere : Q here) : Q (descend here names) := by
  induction names generalizing here with
  | nil => exact hhere
  | cons name rest ih =>
    match here with
    | [] => exact hhere
    | (_, .file ..) :: _ => exact hhere
    | (_, .link _) :: _ => exact hhere
    | (_, .special) :: _ => exact hhere
    | (at', .directory entries access) :: above =>
      simp only [FileTree.descend]
      split
      next node hlookup => exact ih (hQ.down hhere hlookup)
      next => exact hhere

/-- What holds of the root's place, and passes up and down, holds of what any path stands for. -/
theorem IsKept.resolve (hQ : IsKept Q) (hroot : Q t.rootPlace)
    (h : t.resolve last path = .ok place) : Q place := by
  refine hQ.walkLinks hroot ?_ (resolve_eq_ok_iff.1 h).2
  unfold startOf
  split
  · exact hroot
  · exact hQ.descend hroot

/-- Elements that lead to something else than a link lead there also if a link at the end would be
followed. -/
theorem walk_true_of_walk_false {follow' : Place → Text → List Text → Except Fault Place}
    (hplace : ∀ name target above, place ≠ (name, .link target) :: above)
    (hfollow : ∀ {here target rest}, follow here target rest = .ok place →
      follow' here target rest = .ok place)
    (h : walk false follow here names = .ok place) : walk true follow' here names = .ok place := by
  induction names generalizing here with
  | nil => exact h
  | cons name rest ih =>
    rcases turns_or_meetsLink h with ⟨next, hturns⟩ | ⟨target, hlink⟩
    · rw [walk_of_turns hturns] at h ⊢
      exact ih h
    · rw [walk_of_meetsLink hlink] at h ⊢
      split at h
      next =>
        cases h
        exact absurd rfl (hplace _ _ _)
      next => simpa using hfollow h

/-- A path that does not end at a link leads to the same place when a link at the end is followed.
-/
theorem walkLinks_true_of_walkLinks_false
    (hplace : ∀ name target above, place ≠ (name, .link target) :: above)
    (h : walkLinks root false links here names = .ok place) :
    walkLinks root true links here names = .ok place := by
  induction links generalizing here names with
  | zero => exact walk_true_of_walk_false hplace (fun h => h) h
  | succ links ih => exact walk_true_of_walk_false hplace (fun h => ih h) h

/-- What a path leads to, if it is no link, is what it leads to when a link at the end is followed. -/
theorem resolve_true_of_resolve_false
    (hplace : ∀ name target above, place ≠ (name, .link target) :: above)
    (h : t.resolve false path = .ok place) : t.resolve true path = .ok place :=
  resolve_eq_ok_iff.2 ((resolve_eq_ok_iff.1 h).imp_right (walkLinks_true_of_walkLinks_false hplace))

/-- What passes from directories to their entries passes down a place. -/
theorem isKept_forall (hP : Node.Hereditary P) : IsKept fun place => ∀ entry ∈ place, P entry.2 where
  up h := (List.forall_mem_cons.1 h).2
  down {_ entries _ _ name node} h hlookup := by
    obtain ⟨front, back, rfl, -⟩ := List.lookup_eq_some_iff.1 hlookup
    have hnode : P node := hP _ _ (List.forall_mem_cons.1 h).1 (name, node) (by simp)
    exact List.forall_mem_cons.2 ⟨hnode, h⟩

/-- What passes from directories to their entries holds of all nodes on the way to what a path
stands for if it holds of the root. -/
theorem forall_resolve (hP : Node.Hereditary P) (hroot : P t.root)
    (h : t.resolve last path = .ok place) : ∀ entry ∈ place, P entry.2 :=
  (isKept_forall hP).resolve (by simpa [rootPlace] using hroot) h

/-- The place is one of the tree: the first node is the root, and each further one is what its name
stands for in the directory before it. -/
def IsPlace (t : FileTree) : Place → Prop
  | [] => False
  | [(_, node)] => node = t.root
  | (name, node) :: directory :: above =>
    directory.2.at? [name] = some node ∧ t.IsPlace (directory :: above)

/-- Paths lead to places of the tree. -/
theorem isKept_isPlace : IsKept t.IsPlace where
  up h := h.2
  down h hlookup := ⟨by simp [Node.at?, hlookup], h⟩

/-- The names of a place lead to its node. -/
theorem IsPlace.at?_names : ∀ {place : Place}, t.IsPlace place →
    t.root.at? (FileTree.names place) = some (t.nodeAt place)
  | [_], h => congrArg some h.symm
  | (name, node) :: directory :: above, ⟨hnode, h⟩ => by
    have hnames : FileTree.names ((name, node) :: directory :: above) =
        FileTree.names (directory :: above) ++ [name] := by simp [FileTree.names]
    rw [hnames, Node.at?_append, h.at?_names]
    exact hnode

/-- The names of what a path stands for lead to its node. -/
theorem at?_names_of_resolve (h : t.resolve last path = .ok place) :
    t.root.at? (FileTree.names place) = some (t.nodeAt place) :=
  IsPlace.at?_names (isKept_isPlace.resolve rfl h)

/-- What is true of all nodes on the way to a place is true of the node there. -/
theorem nodeAt_of_forall (hroot : P t.root) (h : ∀ entry ∈ place, P entry.2) :
    P (t.nodeAt place) := by
  match place with
  | [] => exact hroot
  | entry :: _ => exact (List.forall_mem_cons.1 h).1

/-- What is listed are the entries of the directory that the path leads to. -/
theorem resolve_of_readDirectory {entries : List (Text × Node)}
    (h : t.readDirectory path = .ok entries) :
    ∃ place searchable, t.resolve true path = .ok place ∧
      t.nodeAt place = .directory entries ⟨true, searchable⟩ := by
  unfold readDirectory at h
  split at h
  next => cases h
  next place hplace =>
    split at h
    next searchable hnode =>
      cases h
      exact ⟨place, searchable, hplace, hnode⟩
    next => cases h
    next => cases h

/-- What is true of all nodes of a tree is true of a directory that is listed. -/
theorem of_readDirectory (hP : Node.Hereditary P) (hroot : P t.root)
    {entries : List (Text × Node)} (h : t.readDirectory path = .ok entries) :
    ∃ searchable, P (.directory entries ⟨true, searchable⟩) := by
  obtain ⟨place, searchable, hplace, hnode⟩ := resolve_of_readDirectory h
  exact ⟨searchable, hnode ▸ nodeAt_of_forall hroot (forall_resolve hP hroot hplace)⟩

/-- The entries of a directory of a well-formed tree are well-formed. -/
theorem areWellFormed_of_readDirectory (ht : t.root.isWellFormed)
    {entries : List (Text × Node)} (h : t.readDirectory path = .ok entries) :
    Node.areWellFormed entries := by
  obtain ⟨_, hentries⟩ := of_readDirectory Node.hereditary_isWellFormed ht h
  exact hentries

end

end FileTree

end PackageCycles

import PackageCycles.FileTree.Change
import PackageCycles.Proofs.FileTree.WellFormed

/-!
# Strays

A stray is a regular file that is not named with the suffix of compilation units. `Node.prune` takes
all strays out of a tree. A path leads to the same place after that, unless it led to a stray, and
then it leads nowhere (`FileTree.toOption_resolve_prune`). Putting a stray in, or taking one away,
is not seen in the tree without strays (`Node.prune_put`, `Node.prune_erase`).
-/

namespace PackageCycles

namespace Node

/-! ## Nodes without strays -/

/-- A regular file that is not named with the suffix. -/
def isStray (suffix name : Text) (node : Node) : Bool := node.isFile && !suffix.isSuffixOf name

mutual

/-- The node without the strays below it. -/
def prune (suffix : Text) : Node → Node
  | .directory entries access => .directory (pruneEntries suffix entries) access
  | node => node

/-- The entries without the strays among and below them. -/
def pruneEntries (suffix : Text) : List (Text × Node) → List (Text × Node)
  | [] => []
  | (name, node) :: rest =>
    if node.isStray suffix name then pruneEntries suffix rest
    else (name, prune suffix node) :: pruneEntries suffix rest

end

section
variable {suffix name : Text} {names : List Text} {node new root : Node}
  {entries inner : List (Text × Node)} {access : Access}

theorem pruneEntries_cons_of_isStray (h : node.isStray suffix name) :
    pruneEntries suffix ((name, node) :: entries) = pruneEntries suffix entries := by
  rw [pruneEntries, if_pos h]

theorem pruneEntries_cons_of_not_isStray (h : ¬ node.isStray suffix name) :
    pruneEntries suffix ((name, node) :: entries) =
      (name, node.prune suffix) :: pruneEntries suffix entries := by
  rw [pruneEntries, if_neg h]

/-- Directories and links are no strays. -/
theorem not_isStray_of_not_isFile (h : ¬ node.isFile) : ¬ node.isStray suffix name := by
  simp [isStray, h]

/-- Among entries without strays the other ones are found as before. -/
theorem lookup_pruneEntries (h : areWellFormed entries) :
    (pruneEntries suffix entries).lookup name =
      ((entries.lookup name).filter fun node => !node.isStray suffix name).map (prune suffix) := by
  induction entries with
  | nil => rfl
  | cons entry rest ih =>
    obtain ⟨other, old⟩ := entry
    obtain ⟨-, hless, -, hrest⟩ := areWellFormed_cons.1 h
    by_cases hname : name = other
    · subst hname
      by_cases hstray : old.isStray suffix name
      · rw [pruneEntries_cons_of_isStray hstray, ih hrest, lookup_eq_none_of_forall_lt hless,
          List.lookup_cons_self]
        simp [Option.filter, hstray]
      · rw [pruneEntries_cons_of_not_isStray hstray, List.lookup_cons_self, List.lookup_cons_self]
        simp [Option.filter, hstray]
    · have hcons : ∀ {node : Node} {l : List (Text × Node)},
          ((other, node) :: l).lookup name = l.lookup name := by
        intro node l
        rw [List.lookup_cons, beq_false_of_ne hname]
      rw [hcons, ← ih hrest]
      by_cases hstray : old.isStray suffix other
      · rw [pruneEntries_cons_of_isStray hstray]
      · rw [pruneEntries_cons_of_not_isStray hstray, hcons]

theorem lookup_pruneEntries_eq_some (h : areWellFormed entries) :
    (pruneEntries suffix entries).lookup name = some new ↔
      ∃ node, entries.lookup name = some node ∧ ¬ node.isStray suffix name ∧
        node.prune suffix = new := by
  rw [lookup_pruneEntries h]
  simp [Option.map_eq_some_iff, Option.filter_eq_some_iff, and_assoc]

/-- A stray is not found among entries without strays. -/
theorem lookup_pruneEntries_of_isStray (h : areWellFormed entries)
    (hnode : ∀ node ∈ entries.lookup name, node.isStray suffix name) :
    (pruneEntries suffix entries).lookup name = none := by
  rw [lookup_pruneEntries h, Option.filter_eq_none_iff.2 (by simpa using hnode)]
  rfl

/-- What is no stray is found without the strays below it. -/
theorem lookup_pruneEntries_of_not_isStray (h : areWellFormed entries)
    (hnode : entries.lookup name = some node) (hstray : ¬ node.isStray suffix name) :
    (pruneEntries suffix entries).lookup name = some (node.prune suffix) :=
  (lookup_pruneEntries_eq_some h).2 ⟨node, hnode, hstray, rfl⟩

/-- What is a directory without strays is one with them. -/
theorem prune_eq_directory : node.prune suffix = .directory inner access ↔
    ∃ entries, node = .directory entries access ∧ pruneEntries suffix entries = inner := by
  cases node with
  | file => simp [prune]
  | link => simp [prune]
  | special => simp [prune]
  | directory entries access' =>
    rw [prune]
    constructor
    · rintro ⟨⟩
      exact ⟨entries, rfl, rfl⟩
    · rintro ⟨_, ⟨⟩, rfl⟩
      rfl

/-! ## Below a node -/

/-- What is below an entry without strays is below an entry that is no stray. -/
theorem at?_prune_cons {found : Node} (hroot : root.isWellFormed) :
    (root.prune suffix).at? (name :: names) = some found ↔
      ∃ entries access node, root = .directory entries access ∧
        entries.lookup name = some node ∧ ¬ node.isStray suffix name ∧
        (node.prune suffix).at? names = some found := by
  cases root with
  | file => simp [at?, prune]
  | link => simp [at?, prune]
  | special => simp [at?, prune]
  | directory entries access =>
    simp only [at?, prune, Option.bind_eq_some_iff, lookup_pruneEntries_eq_some hroot]
    constructor
    · rintro ⟨_, ⟨node, hnode, hstray, rfl⟩, h⟩
      exact ⟨entries, access, node, rfl, hnode, hstray, h⟩
    · rintro ⟨_, _, node, ⟨⟩, hnode, hstray, h⟩
      exact ⟨_, ⟨node, hnode, hstray, rfl⟩, h⟩

/-- The directories below a node are below it without strays, and there are no others. -/
theorem at?_prune_eq_directory (hroot : root.isWellFormed) :
    (root.prune suffix).at? names = some (.directory inner access) ↔
      ∃ entries, root.at? names = some (.directory entries access) ∧
        pruneEntries suffix entries = inner := by
  induction names generalizing root with
  | nil => simpa [at?] using prune_eq_directory
  | cons name rest ih =>
    rw [at?_prune_cons hroot]
    constructor
    · rintro ⟨entries, _, node, rfl, hnode, -, h⟩
      obtain ⟨es, hes, hinner⟩ := (ih (isWellFormed_of_lookup hroot hnode).2).1 h
      exact ⟨es, by rw [at?, hnode]; exact hes, hinner⟩
    · rintro ⟨es, hat, hinner⟩
      cases root with
      | file => cases hat
      | link => cases hat
      | special => cases hat
      | directory entries _ =>
        obtain ⟨node, hnode, hes⟩ := Option.bind_eq_some_iff.1 hat
        exact ⟨entries, _, node, rfl, hnode, not_isStray_of_not_isFile (not_isFile_of_at? hes),
          (ih (isWellFormed_of_lookup hroot hnode).2).2 ⟨es, hes, hinner⟩⟩

/-! ## Strays put in and taken away -/

/-- A stray under a name that is free but for strays is not seen without them. -/
theorem pruneEntries_setEntry_of_isStray (hnew : new.isStray suffix name)
    (h : (pruneEntries suffix entries).lookup name = none) :
    pruneEntries suffix (setEntry name new entries) = pruneEntries suffix entries := by
  induction entries with
  | nil => exact pruneEntries_cons_of_isStray hnew
  | cons entry rest ih =>
    obtain ⟨other, old⟩ := entry
    simp only [setEntry]
    by_cases hstray : old.isStray suffix other
    · rw [pruneEntries_cons_of_isStray hstray] at h ⊢
      split
      next => exact pruneEntries_cons_of_isStray hnew
      next =>
        split
        next => rw [pruneEntries_cons_of_isStray hnew, pruneEntries_cons_of_isStray hstray]
        next => rw [pruneEntries_cons_of_isStray hstray, ih h]
    · rw [pruneEntries_cons_of_not_isStray hstray] at h ⊢
      split
      next heq =>
        subst heq
        rw [List.lookup_cons_self] at h
        cases h
      next hne =>
        rw [List.lookup_cons, beq_false_of_ne hne] at h
        split
        next => rw [pruneEntries_cons_of_isStray hnew, pruneEntries_cons_of_not_isStray hstray]
        next => rw [pruneEntries_cons_of_not_isStray hstray, ih h]

/-- An entry that is no stray is replaced by one that looks the same without strays. -/
theorem pruneEntries_setEntry_of_prune_eq (hentries : areWellFormed entries)
    (hnode : entries.lookup name = some node) (hstray : ¬ node.isStray suffix name)
    (hnew : ¬ new.isStray suffix name) (heq : new.prune suffix = node.prune suffix) :
    pruneEntries suffix (setEntry name new entries) = pruneEntries suffix entries := by
  induction entries with
  | nil => cases hnode
  | cons entry rest ih =>
    obtain ⟨other, old⟩ := entry
    obtain ⟨-, hless, -, hrest⟩ := areWellFormed_cons.1 hentries
    by_cases hname : name = other
    · subst hname
      rw [List.lookup_cons_self] at hnode
      cases hnode
      simp only [setEntry, if_true]
      rw [pruneEntries_cons_of_not_isStray hnew, pruneEntries_cons_of_not_isStray hstray, heq]
    · rw [List.lookup_cons, beq_false_of_ne hname] at hnode
      have hlt : other < name := by
        obtain ⟨front, back, rfl, -⟩ := List.lookup_eq_some_iff.1 hnode
        exact hless (name, node) (by simp)
      simp only [setEntry, if_neg hname, if_neg (List.lt_asymm hlt)]
      simp only [pruneEntries, ih hrest hnode]

/-- What something is put into is no regular file any more. -/
theorem isFile_put_concat : (put new (names ++ [name]) node).isFile = false := by
  cases names <;> cases node <;> rfl

/-- Taking an entry away does not make a regular file of a directory, nor the other way round. -/
theorem isFile_erase : (erase names node).isFile = node.isFile := by
  match names, node with
  | [], node => simp [erase]
  | [_], .directory .. => rfl
  | [_], .file .. => rfl
  | [_], .link _ => rfl
  | [_], .special => rfl
  | _ :: _ :: _, .file .. => rfl
  | _ :: _ :: _, .link _ => rfl
  | _ :: _ :: _, .special => rfl
  | name :: next :: rest, .directory entries access =>
    rw [erase_cons_directory (List.cons_ne_nil _ _)]
    split <;> rfl

/-- A stray in a place where there is none but strays is not seen in the tree without strays. -/
theorem prune_put (hroot : root.isWellFormed) (hnew : new.isStray suffix name)
    (hparent : (root.prune suffix).at? names = some (.directory inner access))
    (hfree : inner.lookup name = none) :
    (put new (names ++ [name]) root).prune suffix = root.prune suffix := by
  induction names generalizing root with
  | nil =>
    obtain ⟨entries, rfl, rfl⟩ := prune_eq_directory.1 (Option.some.inj hparent)
    simp only [List.nil_append, put, prune, pruneEntries_setEntry_of_isStray hnew hfree]
  | cons next rest ih =>
    obtain ⟨entries, _, node, rfl, hnode, hstray, hparent⟩ := (at?_prune_cons hroot).1 hparent
    simp only [List.cons_append, put, prune, hnode, Option.getD_some]
    rw [pruneEntries_setEntry_of_prune_eq hroot hnode hstray
      (not_isStray_of_not_isFile (by simp [isFile_put_concat]))
      (ih (isWellFormed_of_lookup hroot hnode).2 hparent)]

/-- An entry that is no more than a stray can be taken away. -/
theorem pruneEntries_filter_ne (hfree : (pruneEntries suffix entries).lookup name = none) :
    pruneEntries suffix (entries.filter fun entry => entry.1 ≠ name) =
      pruneEntries suffix entries := by
  induction entries with
  | nil => rfl
  | cons entry rest ih =>
    obtain ⟨other, old⟩ := entry
    by_cases hstray : old.isStray suffix other
    · rw [pruneEntries_cons_of_isStray hstray] at hfree ⊢
      rw [← ih hfree, List.filter_cons]
      split
      · exact pruneEntries_cons_of_isStray hstray
      · rfl
    · rw [pruneEntries_cons_of_not_isStray hstray] at hfree ⊢
      have hne : other ≠ name := by
        rintro rfl
        rw [List.lookup_cons_self] at hfree
        cases hfree
      rw [List.lookup_cons, beq_false_of_ne (Ne.symm hne)] at hfree
      rw [List.filter_cons_of_pos (by simpa using hne), pruneEntries_cons_of_not_isStray hstray,
        ih hfree]

/-- What is no more than a stray can be taken away, and the tree without strays is the same. -/
theorem prune_erase (hroot : root.isWellFormed)
    (hparent : (root.prune suffix).at? names = some (.directory inner access))
    (hfree : inner.lookup name = none) :
    (erase (names ++ [name]) root).prune suffix = root.prune suffix := by
  induction names generalizing root with
  | nil =>
    obtain ⟨entries, rfl, rfl⟩ := prune_eq_directory.1 (Option.some.inj hparent)
    simp only [List.nil_append, erase, prune, pruneEntries_filter_ne hfree]
  | cons next rest ih =>
    obtain ⟨entries, _, node, rfl, hnode, hstray, hparent⟩ := (at?_prune_cons hroot).1 hparent
    have hfile : ¬ (erase (rest ++ [name]) node).isStray suffix next := by
      simpa [isStray, isFile_erase] using hstray
    rw [List.cons_append, erase_cons_directory (by simp)]
    simp only [hnode, prune]
    rw [pruneEntries_setEntry_of_prune_eq hroot hnode hstray hfile
      (ih (isWellFormed_of_lookup hroot hnode).2 hparent)]

end

end Node

namespace FileTree

/-! ## Places without strays -/

/-- The place in the tree without strays. -/
def prunePlace (suffix : Text) (place : Place) : Place :=
  place.map fun entry => (entry.1, entry.2.prune suffix)

/-- The place is that of a stray. -/
def isStrayAt (suffix : Text) : Place → Bool
  | [] => false
  | (name, node) :: _ => node.isStray suffix name

/-- The nodes on the way to the place are well-formed, and none of them is a stray. -/
def IsSound (suffix : Text) (place : Place) : Prop :=
  ∀ entry ∈ place, entry.2.isWellFormed ∧ ¬ entry.2.isStray suffix entry.1

/-- What following a path gives in the tree without strays: the same place, unless it is that of a
stray. -/
def pruneResult (suffix : Text) (result : Except Fault Place) : Option Place :=
  (result.toOption.filter fun place => !isStrayAt suffix place).map (prunePlace suffix)

section
variable {suffix name : Text} {names : List Text} {node : Node} {t : FileTree}
  {root here above place : Place} {last : Bool}
  {follow follow' : Place → Text → List Text → Except Fault Place} {links : Nat} {path : Text}
  {entries : List (Text × Node)} {access : Access}

/-- Nothing is found in the place of a stray. -/
theorem pruneResult_ok_of_isStrayAt (h : isStrayAt suffix place) :
    pruneResult suffix (.ok place) = none := by
  simp [pruneResult, Except.toOption, Option.filter, h]

theorem pruneResult_ok (h : ¬ isStrayAt suffix place) :
    pruneResult suffix (.ok place) = some (prunePlace suffix place) := by
  simp [pruneResult, Except.toOption, Option.filter, h]

/-- A sound place is not that of a stray. -/
theorem IsSound.not_isStrayAt (h : IsSound suffix place) : ¬ isStrayAt suffix place := by
  match place with
  | [] => nofun
  | entry :: _ => exact (List.forall_mem_cons.1 h).1.2

theorem IsSound.cons (h : IsSound suffix place) (hnode : node.isWellFormed)
    (hstray : ¬ node.isStray suffix name) : IsSound suffix ((name, node) :: place) :=
  List.forall_mem_cons.2 ⟨⟨hnode, hstray⟩, h⟩

theorem IsSound.startOf (hroot : IsSound suffix root) (hhere : IsSound suffix here) (path : Text) :
    IsSound suffix (startOf root here path) := by
  unfold FileTree.startOf
  split
  · exact hroot
  · exact hhere

/-- A path starts at the same place without strays. -/
theorem startOf_prunePlace :
    startOf (prunePlace suffix root) (prunePlace suffix here) path =
      prunePlace suffix (startOf root here path) := by
  simp only [startOf]
  split <;> rfl

/-- A stray leads to nothing but itself. -/
theorem pruneResult_walk_of_isStray (h : node.isStray suffix name) :
    pruneResult suffix (walk last follow ((name, node) :: here) names) = none := by
  cases node with
  | link => cases h
  | special => cases h
  | directory => cases h
  | file =>
    cases names with
    | nil => exact pruneResult_ok_of_isStrayAt h
    | cons => rfl

/-- Elements are followed without strays as with them, if links are. -/
theorem toOption_walk_prunePlace
    (hfollow : ∀ {here target rest}, IsSound suffix here →
      (follow' (prunePlace suffix here) target rest).toOption =
        pruneResult suffix (follow here target rest))
    (hhere : IsSound suffix here) :
    (walk last follow' (prunePlace suffix here) names).toOption =
      pruneResult suffix (walk last follow here names) := by
  induction names generalizing here with
  | nil => exact (pruneResult_ok hhere.not_isStrayAt).symm
  | cons name rest ih =>
    match here with
    | [] => rfl
    | (_, .file ..) :: _ => rfl
    | (_, .link _) :: _ => rfl
    | (_, .special) :: _ => rfl
    | (at', .directory entries access) :: above =>
      obtain ⟨⟨hentries, -⟩, habove⟩ := List.forall_mem_cons.1 hhere
      have hplace : prunePlace suffix ((at', .directory entries access) :: above) =
          (at', .directory (Node.pruneEntries suffix entries) access) ::
            prunePlace suffix above := rfl
      rw [hplace]
      simp only [walk]
      split
      next => rfl
      next =>
        split
        next => exact ih hhere
        next =>
          split
          next =>
            cases above with
            | nil => exact ih hhere
            | cons directory above => exact ih habove
          next =>
            split
            next => rfl
            next =>
              cases hname : entries.lookup name with
              | none =>
                rw [Node.lookup_pruneEntries_of_isStray hentries (by simp [hname])]
                rfl
              | some node =>
                by_cases hstray : node.isStray suffix name
                · rw [Node.lookup_pruneEntries_of_isStray hentries (by simpa [hname] using hstray)]
                  cases node with
                  | link => cases hstray
                  | special => cases hstray
                  | directory => cases hstray
                  | file => exact (pruneResult_walk_of_isStray hstray).symm
                · rw [Node.lookup_pruneEntries_of_not_isStray hentries hname hstray]
                  have hsound := hhere.cons (Node.isWellFormed_of_lookup hentries hname).2 hstray
                  cases node with
                  | file => exact ih hsound
                  | special => exact ih hsound
                  | directory => exact ih hsound
                  | link target =>
                    simp only [Node.prune]
                    split
                    next => exact (pruneResult_ok hsound.not_isStrayAt).symm
                    next => exact hfollow hhere

/-- Without strays a path leads to the same place, links and all, or nowhere if it led to a stray.
-/
theorem toOption_walkLinks_prunePlace (hroot : IsSound suffix root) (hhere : IsSound suffix here) :
    (walkLinks (prunePlace suffix root) last links (prunePlace suffix here) names).toOption =
      pruneResult suffix (walkLinks root last links here names) := by
  induction links generalizing here names with
  | zero => exact toOption_walk_prunePlace (fun _ => rfl) hhere
  | succ links ih =>
    refine toOption_walk_prunePlace (fun hhere => ?_) hhere
    rw [startOf_prunePlace]
    exact ih (hroot.startOf hhere _)

/-- Names that lead down to a directory are followed without strays as with them. -/
theorem descend_prunePlace (hhere : IsSound suffix ((name, node) :: above))
    (h : node.at? names = some (.directory entries access)) :
    descend (prunePlace suffix ((name, node) :: above)) names =
        prunePlace suffix (descend ((name, node) :: above) names) ∧
      IsSound suffix (descend ((name, node) :: above) names) := by
  induction names generalizing name node above with
  | nil => exact ⟨rfl, hhere⟩
  | cons next rest ih =>
    match node with
    | .file .. => cases h
    | .link _ => cases h
    | .special => cases h
    | .directory inner innerAccess =>
      obtain ⟨below, hbelow, h⟩ := Option.bind_eq_some_iff.1 h
      have hinner : Node.areWellFormed inner := (List.forall_mem_cons.1 hhere).1.1
      have hstray : ¬ below.isStray suffix next :=
        Node.not_isStray_of_not_isFile (Node.not_isFile_of_at? h)
      have hpruned := Node.lookup_pruneEntries_of_not_isStray hinner hbelow hstray
      have hplace : prunePlace suffix ((name, .directory inner innerAccess) :: above) =
          (name, .directory (Node.pruneEntries suffix inner) innerAccess) ::
            prunePlace suffix above := rfl
      have hsound := hhere.cons (Node.isWellFormed_of_lookup hinner hbelow).2 hstray
      rw [hplace]
      simp only [descend, hbelow, hpruned]
      exact ih hsound h

/-! ## Trees without strays -/

/-- The tree without its strays. -/
def prune (suffix : Text) (t : FileTree) : FileTree := { t with root := t.root.prune suffix }

/-- The root of a well-formed tree is a sound place. -/
theorem IsWellFormed.isSound_rootPlace (ht : t.IsWellFormed) : IsSound suffix t.rootPlace := by
  obtain ⟨entries, access, hworking⟩ := ht.working
  exact List.forall_mem_singleton.2
    ⟨ht.root, Node.not_isStray_of_not_isFile (Node.not_isFile_of_at? hworking)⟩

/-- A well-formed tree that differs only in strays is well-formed if its root is. -/
theorem IsWellFormed.of_prune_eq (ht : t.IsWellFormed) {t' : FileTree} (hroot : t'.root.isWellFormed)
    (h : t'.prune suffix = t.prune suffix) : t'.IsWellFormed where
  root := hroot
  working := by
    obtain ⟨entries, access, hworking⟩ := ht.working
    simp only [prune, FileTree.mk.injEq] at h
    obtain ⟨hpruned, hdirectory⟩ := h
    have hworking' : (t.root.prune suffix).at? t.workingDirectory =
        some (.directory (Node.pruneEntries suffix entries) access) :=
      (Node.at?_prune_eq_directory ht.root).2 ⟨entries, hworking, rfl⟩
    rw [← hpruned, ← hdirectory] at hworking'
    obtain ⟨entries', hworking', -⟩ := (Node.at?_prune_eq_directory hroot).1 hworking'
    exact ⟨entries', access, hworking'⟩

/-- A path leads to the same place without strays, unless it leads to one of them. -/
theorem toOption_resolve_prune (ht : t.IsWellFormed) :
    ((t.prune suffix).resolve last path).toOption = pruneResult suffix (t.resolve last path) := by
  obtain ⟨entries, access, hworking⟩ := ht.working
  have hroot : IsSound suffix t.rootPlace := ht.isSound_rootPlace
  obtain ⟨hdescend, hcurrent⟩ := descend_prunePlace hroot hworking
  have hrootPlace : (t.prune suffix).rootPlace = prunePlace suffix t.rootPlace := rfl
  have hworkingPlace : (t.prune suffix).workingPlace = prunePlace suffix t.workingPlace := hdescend
  unfold resolve
  rw [hrootPlace, hworkingPlace, startOf_prunePlace]
  split
  next => rfl
  next =>
    split
    next => rfl
    next =>
      split
      next => rfl
      next => exact toOption_walkLinks_prunePlace hroot (hroot.startOf hcurrent _)

/-! ## Reading without strays -/

/-- At the place without strays is the node without strays. -/
theorem nodeAt_prunePlace :
    (t.prune suffix).nodeAt (prunePlace suffix place) = (t.nodeAt place).prune suffix := by
  cases place <;> rfl

/-- The path leads to a stray. -/
def LeadsToStray (t : FileTree) (suffix path : Text) : Prop :=
  ∃ place, t.resolve true path = .ok place ∧ isStrayAt suffix place

instance (t : FileTree) (suffix path : Text) : Decidable (t.LeadsToStray suffix path) :=
  match h : t.resolve true path with
  | .ok place =>
    decidable_of_iff (isStrayAt suffix place)
      ⟨fun hstray => ⟨place, h, hstray⟩, fun ⟨_, h', hstray⟩ => by
        rw [h] at h'
        cases h'
        exact hstray⟩
  | .error _ => .isFalse fun ⟨_, h', _⟩ => by
    rw [h] at h'
    cases h'

/-- What is found at a path is the node at the place to which it leads. -/
theorem toOption_stat : (t.stat path).toOption = (t.resolve true path).toOption.map t.nodeAt := by
  unfold stat
  cases t.resolve true path <;> rfl

theorem toOption_statLink :
    (t.statLink path).toOption = (t.resolve false path).toOption.map t.nodeAt := by
  unfold statLink
  cases t.resolve false path <;> rfl

/-- A stray is a regular file. -/
theorem LeadsToStray.exists_file (h : t.LeadsToStray suffix path) :
    ∃ content modified readable, t.stat path = .ok (.file content modified readable) := by
  obtain ⟨place, hplace, hstray⟩ := h
  rw [stat, hplace]
  match place with
  | [] => cases hstray
  | (_, .file ..) :: _ => exact ⟨_, _, _, rfl⟩
  | (_, .link _) :: _ => cases hstray
  | (_, .special) :: _ => cases hstray
  | (_, .directory ..) :: _ => cases hstray

/-- A path that does not lead to a stray leads to the same place without strays. -/
theorem toOption_resolve_prune_of_not_leadsToStray (ht : t.IsWellFormed)
    (h : ¬ t.LeadsToStray suffix path) :
    ((t.prune suffix).resolve true path).toOption =
      (t.resolve true path).toOption.map (prunePlace suffix) := by
  rw [toOption_resolve_prune ht]
  cases hplace : t.resolve true path with
  | error => rfl
  | ok place => exact pruneResult_ok fun hstray => h ⟨place, hplace, hstray⟩

/-- What is found there is the node without strays. -/
theorem toOption_stat_prune_of_not_leadsToStray (ht : t.IsWellFormed)
    (h : ¬ t.LeadsToStray suffix path) :
    ((t.prune suffix).stat path).toOption = (t.stat path).toOption.map (Node.prune suffix) := by
  rw [toOption_stat, toOption_stat, toOption_resolve_prune_of_not_leadsToStray ht h, Option.map_map,
    Option.map_map]
  exact congrArg (Option.map · _) (funext fun _ => nodeAt_prunePlace)

/-- A stray is not found in the tree without strays. -/
theorem toOption_stat_prune_of_leadsToStray (ht : t.IsWellFormed)
    (h : t.LeadsToStray suffix path) :
    ((t.prune suffix).stat path).toOption = none := by
  obtain ⟨place, hplace, hstray⟩ := h
  rw [toOption_stat, toOption_resolve_prune ht, hplace, pruneResult_ok_of_isStrayAt hstray]
  rfl

/-- The content that can be read is that of a readable file to which the path leads. -/
theorem toOption_readContent : (t.readContent path).toOption =
    (t.stat path).toOption.bind fun node =>
      match node with
      | .file content _ true => some content
      | _ => none := by
  rw [toOption_stat]
  unfold readContent
  cases t.resolve true path with
  | error => rfl
  | ok place =>
    simp only [Except.toOption, Option.map_some, Option.bind_some]
    cases t.nodeAt place with
    | file _ _ readable => cases readable <;> rfl
    | link => rfl
    | special => rfl
    | directory _ access => rcases access with ⟨_ | _, _⟩ <;> rfl

/-- The entries that can be listed are those of a listable directory to which the path leads. -/
theorem toOption_readDirectory : (t.readDirectory path).toOption =
    (t.stat path).toOption.bind fun node =>
      match node with
      | .directory entries ⟨true, _⟩ => some entries
      | _ => none := by
  rw [toOption_stat]
  unfold readDirectory
  cases t.resolve true path with
  | error => rfl
  | ok place =>
    simp only [Except.toOption, Option.map_some, Option.bind_some]
    cases t.nodeAt place with
    | file _ _ readable => cases readable <;> rfl
    | link => rfl
    | special => rfl
    | directory _ access => rcases access with ⟨_ | _, _⟩ <;> rfl

/-- A file that is no stray has the same content without strays. -/
theorem toOption_readContent_prune (ht : t.IsWellFormed)
    (h : ¬ t.LeadsToStray suffix path) :
    ((t.prune suffix).readContent path).toOption = (t.readContent path).toOption := by
  rw [toOption_readContent, toOption_readContent, toOption_stat_prune_of_not_leadsToStray ht h]
  cases (t.stat path).toOption with
  | none => rfl
  | some node => cases node <;> rfl

/-- A directory has the same entries without strays, but for the strays. -/
theorem toOption_readDirectory_prune (ht : t.IsWellFormed) :
    ((t.prune suffix).readDirectory path).toOption =
      (t.readDirectory path).toOption.map (Node.pruneEntries suffix) := by
  rw [toOption_readDirectory, toOption_readDirectory]
  by_cases h : t.LeadsToStray suffix path
  · obtain ⟨content, modified, readable, hstat⟩ := h.exists_file
    rw [toOption_stat_prune_of_leadsToStray ht h, hstat]
    rfl
  · rw [toOption_stat_prune_of_not_leadsToStray ht h]
    cases (t.stat path).toOption with
    | none => rfl
    | some node =>
      match node with
      | .file .. => rfl
      | .link _ => rfl
      | .special => rfl
      | .directory _ ⟨true, _⟩ => rfl
      | .directory _ ⟨false, _⟩ => rfl

end

end FileTree

end PackageCycles

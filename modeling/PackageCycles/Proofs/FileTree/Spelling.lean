import PackageCycles.Proofs.FileTree.WellFormed
import PackageCycles.Proofs.Text.Separator

/-!
# Where names joined to a path lead

Joining a name to a path brings the path to normal form, which is a matter of spelling: an element
followed by `..` is taken out whatever it stands for. If the element is no link, `..` leads back to
where it was met (`FileTree.Goes.addElement`). So if no link is met before a `..` of a path
(`FileTree.HasNoLinkBeforeDots`), its normal form leads to the same place, and names that are joined
to the path are followed from there (`FileTree.exists_walkLinks_join`). The directory that real
directories lead down to is then listed by the path with their names
(`FileTree.eq_of_readDirectory_join`).
-/

namespace PackageCycles

namespace Path

section
variable {absolute : Bool} {reversed names : List Text} {root name path : Text} {p : Path}

/-! ## Spelling -/

/-- No element of a normal form stands for the directory itself. -/
theorem Settled.ne_dot {e : Text} (h : Settled absolute (e :: reversed)) : e ≠ "." := by
  rintro rfl
  have hlen := congrArg List.length h.1
  rw [addElement_dot, List.length_cons] at hlen
  omega

/-- Without `..` all elements but those for the directory itself are added. -/
theorem foldl_addElement (hdots : Text.ofString ".." ∉ names) :
    names.foldl (addElement absolute) reversed =
      (names.filter (· ≠ Text.ofString ".")).reverse ++ reversed := by
  induction names generalizing reversed with
  | nil => rfl
  | cons e names ih =>
    obtain ⟨hne, hdots⟩ := not_or.1 (mt List.mem_cons.2 hdots)
    rw [List.foldl_cons, ih hdots]
    by_cases hdot : e = "."
    · rw [hdot, addElement_dot, List.filter_cons_of_neg (by simp)]
    · rw [addElement_of_ne hdot (Ne.symm hne), List.filter_cons_of_pos (by simpa using hdot)]
      simp

theorem exists_join_concat (separator : Text) (names : List Text) (name : Text) :
    ∃ front, Text.join separator (names ++ [name]) = front ++ name := by
  cases names with
  | nil => exact ⟨[], by simp [Text.join, List.intercalate]⟩
  | cons first names => exact ⟨_, Text.join_concat name (List.cons_ne_nil first names)⟩

/-- The elements of a normal form are read back from its text. -/
theorem IsNormal.split_toText (h : p.IsNormal) (hne : p.elements ≠ []) :
    split p.toText = p.elements := by
  have hjoin := split_join h.ne_nil h.separator_notMem
  rw [toText]
  split
  · exact (split_separator_cons _).trans hjoin
  · rw [if_neg (by simpa using hne)]
    exact hjoin

/-- A path in normal form ends with its last element, not with a separator. -/
theorem IsNormal.getLast?_toText (h : p.IsNormal) (hne : p.elements ≠ []) :
    p.toText.getLast? ≠ some separator := by
  obtain ⟨names, name, helements⟩ : ∃ names name, p.elements = names ++ [name] :=
    ⟨_, _, (List.dropLast_concat_getLast hne).symm⟩
  have hmem : name ∈ p.elements := by simp [helements]
  have hend : ∃ front, p.toText = front ++ name := by
    obtain ⟨front, hfront⟩ := exists_join_concat [separator] names name
    rw [toText, helements, hfront]
    split
    · exact ⟨separator :: front, rfl⟩
    · exact ⟨front, if_neg (by simp)⟩
  obtain ⟨front, hfront⟩ := hend
  obtain ⟨before, b, rfl⟩ := (List.eq_nil_or_concat name).resolve_left (h.ne_nil _ hmem)
  rw [hfront, List.concat_eq_append, ← List.append_assoc, List.getLast?_concat]
  rintro ⟨⟩
  exact h.separator_notMem _ hmem (by simp)

/-- The elements that are followed for a path in normal form are its own. -/
theorem IsNormal.elements_toText (h : p.IsNormal) (hne : p.elements ≠ []) :
    FileTree.elements p.toText = p.elements := by
  rw [FileTree.elements, if_neg (h.getLast?_toText hne), h.split_toText hne]

/-- So is whether it is absolute. -/
theorem IsNormal.isAbsolute_toText (h : p.IsNormal) : isAbsolute p.toText = p.absolute :=
  congrArg Path.absolute (ofText_toText h)

/-- Joined names are spelled in normal form. -/
theorem toText_foldl_join (hroot : root ≠ []) (hne : names ≠ [])
    (hnames : ∀ name ∈ names, IsName name) :
    (ofText (names.foldl join root)).toText = names.foldl join root := by
  induction names generalizing root with
  | nil => exact absurd rfl hne
  | cons name names ih =>
    obtain ⟨hname, hnames⟩ := List.forall_mem_cons.1 hnames
    rw [List.foldl_cons]
    by_cases hrest : names = []
    · rw [hrest, List.foldl_nil, join, if_neg hroot, ofText_clean]
      rfl
    · exact ih (join_ne_nil hroot hname) hrest hnames

end

end Path

namespace FileTree

/-- Elements lead from a place to another one, and no link is met on the way. -/
inductive Goes : Place → List Text → Place → Prop
  | nil {here : Place} : Goes here [] here
  | cons {here next place : Place} {name : Text} {rest : List Text} (h : Turns here name next)
    (hrest : Goes next rest place) : Goes here (name :: rest) place

/-- Where the path is followed from. -/
def start (t : FileTree) (path : Text) : Place := startOf t.rootPlace t.workingPlace path

/-- No link is met before a `..` of the path: what stands before it leads somewhere without one. -/
def HasNoLinkBeforeDots (t : FileTree) (path : Text) : Prop :=
  ∀ before after, Path.split path = before ++ Text.ofString ".." :: after →
    ∃ here, Goes (t.start path) before here

/-- Some elements that stand for the directory itself are left out. -/
inductive Undotted : List Text → List Text → Prop
  | nil : Undotted [] []
  | keep {name : Text} {names names' : List Text} (h : Undotted names names') :
    Undotted (name :: names) (name :: names')
  | drop {name : Text} {names names' : List Text} (hname : name = ".") (h : Undotted names names') :
    Undotted (name :: names) names'

section
variable {t : FileTree} {root here mid next place : Place} {last : Bool} {name target path : Text}
  {follow follow' : Place → Text → List Text → Except Fault Place}
  {names names' more reversed : List Text} {links : Nat} {absolute : Bool}

/-! ## One element -/

/-- A dot leads to the same place. -/
theorem Turns.eq_self (h : Turns here name next) (hname : name = ".") : next = here := by
  cases h with
  | stay => rfl
  | up => exact absurd hname (by decide)
  | down hne => exact absurd hname hne.1

/-- Two dots lead to the directory above, and from the root to the root. -/
theorem Turns.eq_above (h : Turns here name next) (hname : name = "..") :
    ∃ entry above, here = entry :: above ∧ next = if above.isEmpty then here else above := by
  cases h with
  | stay => exact absurd hname (by decide)
  | up => exact ⟨_, _, rfl, rfl⟩
  | down hne => exact absurd hname hne.2.1

/-- A name leads to the entry of that name. -/
theorem Turns.exists_cons (h : Turns here name next) (hdot : name ≠ ".") (hdots : name ≠ "..") :
    ∃ at' entries listable above node, here = (at', .directory entries ⟨listable, true⟩) :: above ∧
      entries.lookup name = some node ∧ next = (name, node) :: here := by
  cases h with
  | stay => exact absurd rfl hdot
  | up => exact absurd rfl hdots
  | down _ hnode => exact ⟨_, _, _, _, _, rfl, hnode, rfl⟩

theorem MeetsLink.ne_dot (h : MeetsLink here name target) : name ≠ "." := by
  obtain ⟨hname, -⟩ := h
  exact hname.1

theorem MeetsLink.ne_dots (h : MeetsLink here name target) : name ≠ ".." := by
  obtain ⟨hname, -⟩ := h
  exact hname.2.1

/-! ## Elements without a link -/

/-- Elements lead to a place step by step. -/
theorem goes_append_iff : Goes here (names ++ more) place ↔
    ∃ mid, Goes here names mid ∧ Goes mid more place := by
  induction names generalizing here with
  | nil =>
    constructor
    · intro h
      exact ⟨here, .nil, h⟩
    · rintro ⟨mid, ⟨⟩, h⟩
      exact h
  | cons name names ih =>
    constructor
    · rintro (_ | ⟨hname, hrest⟩)
      obtain ⟨mid, hnames, hmore⟩ := ih.1 hrest
      exact ⟨mid, .cons hname hnames, hmore⟩
    · rintro ⟨mid, _ | ⟨hname, hnames⟩, hmore⟩
      exact .cons hname (ih.2 ⟨mid, hnames, hmore⟩)

theorem Goes.concat (h : Goes here names mid) (hname : Turns mid name place) :
    Goes here (names ++ [name]) place :=
  goes_append_iff.2 ⟨mid, h, .cons hname .nil⟩

/-- Elements that meet no link are passed over. -/
theorem Goes.walk (h : Goes here names mid) :
    walk last follow here (names ++ more) = walk last follow mid more := by
  induction h with
  | nil => rfl
  | cons hname _ ih => rw [List.cons_append, walk_of_turns hname, ih]

/-- With any number of links left, elements are walked along. -/
theorem exists_follow (root : Place) (last : Bool) (links : Nat) :
    ∃ follow, walkLinks root last links = FileTree.walk last follow := by
  cases links with
  | zero => exact ⟨_, rfl⟩
  | succ links => exact ⟨_, rfl⟩

/-- So they are where links are followed. -/
theorem Goes.walkLinks (h : Goes here names mid) :
    walkLinks root last links here (names ++ more) = walkLinks root last links mid more := by
  obtain ⟨follow, hfollow⟩ := exists_follow root last links
  rw [hfollow, h.walk]

/-! ## Taking back an element -/

/-- A name is met in the directory above what it stands for, and what comes before it leads there. -/
theorem Goes.exists_above (h : Goes here (names ++ [name]) place) (hdot : name ≠ ".")
    (hdots : name ≠ "..") :
    ∃ entry above, place = entry :: above ∧ above ≠ [] ∧ Goes here names above := by
  obtain ⟨above, habove, _ | ⟨hname, ⟨⟩⟩⟩ := goes_append_iff.1 h
  obtain ⟨at', entries, _, up, node, rfl, -, rfl⟩ := hname.exists_cons hdot hdots
  exact ⟨(name, node), _, rfl, List.cons_ne_nil _ up, habove⟩

/-- An element added to a normal form leads on from where that leads: `..` takes back the element
that was met last. -/
theorem Goes.addElement (hroot : absolute → ∃ entry, here = [entry])
    (hsettled : Path.Settled absolute reversed) (h : Goes here reversed.reverse mid)
    (hname : Turns mid name place) :
    Goes here (Path.addElement absolute reversed name).reverse place := by
  by_cases hdot : name = "."
  · rw [hname.eq_self hdot, hdot, Path.addElement_dot]
    exact h
  by_cases hdots : name = ".."
  · obtain ⟨entry, above, rfl, hplace⟩ := hname.eq_above hdots
    match reversed with
    | [] =>
      cases h
      cases absolute with
      | true =>
        -- Above the root there is nothing.
        obtain ⟨entry', heq⟩ := hroot rfl
        cases heq
        rw [hdots, hplace]
        exact .nil
      | false =>
        rw [hdots] at hname ⊢
        exact .cons hname .nil
    | element :: before =>
      by_cases helement : element = ".."
      · have hadd :
            Path.addElement absolute (element :: before) name = name :: element :: before := by
          rw [hdots]
          exact if_pos helement
        rw [hadd, List.reverse_cons]
        exact h.concat hname
      · have hadd : Path.addElement absolute (element :: before) name = before := by
          rw [hdots]
          exact if_neg helement
        rw [List.reverse_cons] at h
        obtain ⟨entry', above', heq, hne, habove⟩ := h.exists_above hsettled.ne_dot helement
        cases heq
        rw [hadd, hplace, if_neg (by simpa using hne)]
        exact habove
  · rw [Path.addElement_of_ne hdot hdots, List.reverse_cons]
    exact h.concat hname

/-- Elements that meet no link lead to the same place in normal form. -/
theorem Goes.foldl_addElement (hroot : absolute → ∃ entry, here = [entry])
    (hsettled : Path.Settled absolute reversed) (h : Goes here reversed.reverse mid)
    (hnames : Goes mid names place) :
    Goes here (names.foldl (Path.addElement absolute) reversed).reverse place := by
  induction hnames generalizing reversed with
  | nil => exact h
  | cons hname _ ih => exact ih (hsettled.addElement _) (h.addElement hroot hsettled hname)

/-! ## Leaving out dots -/

theorem undotted_append (names : List Text) (h : Undotted more names') :
    Undotted (names ++ more) (names ++ names') := by
  induction names with
  | nil => exact h
  | cons name names ih => exact .keep ih

/-- All dots may be left out. -/
theorem undotted_filter : ∀ names : List Text, Undotted names (names.filter (· ≠ Text.ofString "."))
  | [] => .nil
  | name :: names => by
    by_cases hdot : name = "."
    · rw [List.filter_cons_of_neg (by simpa using hdot)]
      exact .drop hdot (undotted_filter names)
    · rw [List.filter_cons_of_pos (by simpa using hdot)]
      exact .keep (undotted_filter names)

/-- Leaving out dots leads to the same place, if that is so behind each link. -/
theorem Undotted.walk (h : Undotted names names')
    (hfollow : ∀ {here target rest rest'}, Undotted rest rest' →
      follow here target rest = .ok place → follow' here target rest' = .ok place)
    (hplace : walk true follow here names = .ok place) :
    walk true follow' here names' = .ok place := by
  induction h generalizing here with
  | nil => exact hplace
  | keep hrest ih =>
    rcases turns_or_meetsLink hplace with ⟨next, hturns⟩ | ⟨target, hlink⟩
    · rw [walk_of_turns hturns] at hplace ⊢
      exact ih hplace
    · rw [walk_of_meetsLink hlink, if_neg (by simp)] at hplace ⊢
      exact hfollow hrest hplace
  | drop hname _ ih =>
    rcases turns_or_meetsLink hplace with ⟨next, hturns⟩ | ⟨target, hlink⟩
    · rw [walk_of_turns hturns, hturns.eq_self hname] at hplace
      exact ih hplace
    · exact absurd hname hlink.ne_dot

/-- What elements lead to, they lead to without those for the directory itself. -/
theorem Undotted.walkLinks (h : Undotted names names')
    (hplace : walkLinks root true links here names = .ok place) :
    walkLinks root true links here names' = .ok place := by
  induction links generalizing here names names' with
  | zero => exact h.walk (fun _ h => h) hplace
  | succ links ih =>
    exact h.walk (fun hrest hfollow => ih (undotted_append _ hrest) hfollow) hplace

/-! ## Following more elements -/

/-- What is appended to a path goes on from where the path leads, with what is left of the links
that may be followed. -/
theorem walk_append (hself : ∃ links', ∀ here more,
      walk true follow here more = walkLinks root true links' here more)
    (hfollow : ∀ {here target rest}, follow here target rest = .ok place → ∃ links', ∀ more,
      follow here target (rest ++ more) = walkLinks root true links' place more)
    (h : walk true follow here names = .ok place) :
    ∃ links', ∀ more,
      walk true follow here (names ++ more) = walkLinks root true links' place more := by
  induction names generalizing here with
  | nil =>
    cases h
    obtain ⟨links', hlinks⟩ := hself
    exact ⟨links', hlinks _⟩
  | cons name names ih =>
    rcases turns_or_meetsLink h with ⟨next, hturns⟩ | ⟨target, hlink⟩
    · rw [walk_of_turns hturns] at h
      obtain ⟨links', hlinks⟩ := ih h
      refine ⟨links', fun more => ?_⟩
      rw [List.cons_append, walk_of_turns hturns, hlinks]
    · rw [walk_of_meetsLink hlink, if_neg (by simp)] at h
      obtain ⟨links', hlinks⟩ := hfollow h
      refine ⟨links', fun more => ?_⟩
      rw [List.cons_append, walk_of_meetsLink hlink, if_neg (by simp), hlinks]

/-- More elements are followed from where the first ones lead, with the links that are left. -/
theorem walkLinks_append (h : walkLinks root true links here names = .ok place) :
    ∃ links', ∀ more,
      walkLinks root true links here (names ++ more) = walkLinks root true links' place more := by
  induction links generalizing here names with
  | zero => exact walk_append ⟨0, fun _ _ => rfl⟩ nofun h
  | succ links ih =>
    refine walk_append ⟨links + 1, fun _ _ => rfl⟩ (fun hfollow => ?_) h
    obtain ⟨links', hlinks⟩ := ih hfollow
    refine ⟨links', fun more => ?_⟩
    rw [← List.append_assoc]
    exact hlinks more

/-! ## Names joined to a path -/

/-- The elements of a path split behind the last `..`. -/
theorem exists_last_dots (names : List Text) : Text.ofString ".." ∉ names ∨
    ∃ before after, names = before ++ Text.ofString ".." :: after ∧ Text.ofString ".." ∉ after := by
  by_cases hmem : Text.ofString ".." ∈ names
  · obtain ⟨after, before, hreverse, hafter⟩ :=
      List.eq_append_cons_of_mem (List.mem_reverse.2 hmem)
    refine .inr ⟨before.reverse, after.reverse, ?_, by simpa using hafter⟩
    simpa using congrArg List.reverse hreverse
  · exact .inl hmem

/-- The first elements of the path, as long as there is a `..` behind them, meet no link. -/
theorem HasNoLinkBeforeDots.exists_goes (hdots : t.HasNoLinkBeforeDots path)
    (h : walkLinks t.rootPlace true links (t.start path) (elements path) = .ok place) :
    ∃ front back mid, Path.split path = front ++ back ∧ Text.ofString ".." ∉ back ∧
      Goes (t.start path) front mid := by
  rcases exists_last_dots (Path.split path) with hnone | ⟨before, after, hsplit, hafter⟩
  · exact ⟨[], _, _, rfl, hnone, .nil⟩
  · obtain ⟨here, hbefore⟩ := hdots before after hsplit
    refine ⟨before ++ [Text.ofString ".."], after, ?_⟩
    have helements : ∃ tail, elements path = before ++ Text.ofString ".." :: tail := by
      unfold elements
      split
      · exact ⟨after ++ [Text.ofString "."], by rw [hsplit]; simp⟩
      · exact ⟨after, hsplit⟩
    obtain ⟨tail, helements⟩ := helements
    rw [helements, hbefore.walkLinks] at h
    obtain ⟨follow, hfollow⟩ := exists_follow t.rootPlace true links
    rw [hfollow] at h
    obtain ⟨next, hturns⟩ :=
      (turns_or_meetsLink h).resolve_right fun ⟨_, hlink⟩ => hlink.ne_dots rfl
    exact ⟨next, by rw [hsplit]; simp, hafter, hbefore.concat hturns⟩

/-- If no link is met before a `..`, the normal form leads to the same place. -/
theorem HasNoLinkBeforeDots.walkLinks_ofText (hdots : t.HasNoLinkBeforeDots path)
    (h : walkLinks t.rootPlace true links (t.start path) (elements path) = .ok place) :
    walkLinks t.rootPlace true links (t.start path) (Path.ofText path).elements = .ok place := by
  obtain ⟨front, back, mid, hsplit, hback, hfront⟩ := hdots.exists_goes h
  have hroot : Path.isAbsolute path → ∃ entry, t.start path = [entry] := fun habsolute =>
    ⟨_, if_pos habsolute⟩
  have hsettled : Path.Settled (Path.isAbsolute path) [] := trivial
  have hclean := Goes.foldl_addElement hroot hsettled .nil hfront
  have hundotted : Undotted (elements path) (front ++ back.filter (· ≠ Text.ofString ".")) := by
    unfold elements
    rw [hsplit]
    split
    · rw [List.append_assoc]
      refine undotted_append _ ?_
      have hfilter := undotted_filter (back ++ [Text.ofString "."])
      rwa [List.filter_append, List.filter_cons_of_neg (by simp), List.filter_nil,
        List.append_nil] at hfilter
    · exact undotted_append _ (undotted_filter back)
  have hwalk := hundotted.walkLinks h
  rw [hfront.walkLinks] at hwalk
  rw [Path.ofText, hsplit, List.foldl_append, Path.foldl_addElement hback, List.reverse_append,
    List.reverse_reverse, hclean.walkLinks]
  exact hwalk

/-- Names that are joined to a path are followed from where the path leads, if it meets no link
before a `..`. -/
theorem exists_walkLinks_join (h : t.resolve true path = .ok place)
    (hdots : t.HasNoLinkBeforeDots path) : ∃ links, ∀ {names place'}, names ≠ [] →
      (∀ name ∈ names, Path.IsName name) → t.resolve true (names.foldl Path.join path) = .ok place' →
      walkLinks t.rootPlace true links place names = .ok place' := by
  obtain ⟨⟨-, hpath, -⟩, h⟩ := resolve_eq_ok_iff.1 h
  have hpath : path ≠ [] := by simpa using hpath
  obtain ⟨links, hlinks⟩ := walkLinks_append (hdots.walkLinks_ofText h)
  refine ⟨links, fun {names place'} hne hnames hplace => ?_⟩
  obtain ⟨-, hplace⟩ := resolve_eq_ok_iff.1 hplace
  -- The path with the names is spelled in normal form, so its elements are those of both.
  have hspelling := Path.toText_foldl_join hpath hne hnames
  have hnormal := Path.ofText_foldl_join hpath hnames
  have hwell := Path.isNormal_ofText (names.foldl Path.join path)
  have helements := hwell.elements_toText (by simp [hnormal, Path.below, hne])
  have habsolute := hwell.isAbsolute_toText
  rw [hspelling, hnormal] at helements habsolute
  have hstart : startOf t.rootPlace t.workingPlace (names.foldl Path.join path) = t.start path := by
    rw [start, startOf, startOf, habsolute]
    rfl
  rw [helements, hstart] at hplace
  exact (hlinks names).symm.trans hplace

/-- Names that lead down real directories are followed there. -/
theorem nodeAt_of_walkLinks {node : Node} (hnode : (t.nodeAt here).at? names = some node)
    (hlink : ∀ target, node ≠ .link target) (hnames : ∀ name ∈ names, Path.IsName name)
    (h : walkLinks root true links here names = .ok place) : t.nodeAt place = node := by
  obtain ⟨follow, hfollow⟩ := exists_follow root true links
  rw [hfollow] at h
  induction names generalizing here with
  | nil =>
    cases h
    exact Option.some.inj hnode
  | cons name rest ih =>
    obtain ⟨hname, hrest⟩ := List.forall_mem_cons.1 hnames
    rcases turns_or_meetsLink h with ⟨next, hturns⟩ | ⟨target, hmeets⟩
    · rw [walk_of_turns hturns] at h
      obtain ⟨at', entries, _, above, child, rfl, hlookup, rfl⟩ :=
        hturns.exists_cons hname.ne_dot hname.ne_dots
      refine ih ?_ hrest h
      simpa [nodeAt, Node.at?, hlookup] using hnode
    · obtain ⟨-, hlookup⟩ := hmeets
      rw [nodeAt, Node.at?, hlookup, Option.bind_some] at hnode
      cases rest with
      | nil => exact absurd (Option.some.inj hnode).symm (hlink target)
      | cons => cases hnode

/-- A real directory below a directory is what is listed by the path with the names joined. -/
theorem eq_of_readDirectory_join {entries inner listed : List (Text × Node)}
    {access innerAccess : Access}
    (hentries : t.readDirectory path = .ok entries) (hdots : t.HasNoLinkBeforeDots path)
    (hne : names ≠ []) (hnames : ∀ name ∈ names, Path.IsName name)
    (hnode : Node.at? names (.directory entries access) = some (.directory inner innerAccess))
    (hlisted : t.readDirectory (names.foldl Path.join path) = .ok listed) : listed = inner := by
  obtain ⟨place, _, hplace, hdirectory⟩ := resolve_of_readDirectory hentries
  obtain ⟨place', _, hplace', hdirectory'⟩ := resolve_of_readDirectory hlisted
  obtain ⟨links, hlinks⟩ := exists_walkLinks_join hplace hdots
  have hbelow : Node.at? names (t.nodeAt place) = some (.directory inner innerAccess) := by
    obtain ⟨name, rest, rfl⟩ := List.exists_cons_of_ne_nil hne
    rw [hdirectory]
    exact hnode
  have hreached := nodeAt_of_walkLinks hbelow nofun hnames (hlinks hne hnames hplace')
  rw [hdirectory'] at hreached
  cases hreached
  rfl

end

end FileTree

end PackageCycles

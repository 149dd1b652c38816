import PackageCycles.Path
import PackageCycles.Proofs.Text.Separator

/-!
# The normal form of a path

A path in normal form has elements none of which would be taken back by the next (`Path.IsNormal`).
Normalising keeps this (`Path.isNormal_ofText`), and a path in normal form is read back from its
spelling (`Path.ofText_toText`). So a name can be joined to any spelling of a directory: the normal
form gets the name as its last element (`Path.ofText_join`), and the names joined are the way from
the directory down to the path (`Path.below?_foldl_join`).
-/

namespace PackageCycles

namespace Path

/-! ## Names -/

/-- The name of an entry of a directory. -/
structure IsName (name : Text) : Prop where
  /-- It is not empty. -/
  ne_nil : name ≠ []
  /-- It holds no separator. -/
  separator_notMem : separator ∉ name
  /-- It does not stand for the directory itself. -/
  ne_dot : name ≠ "."
  /-- It does not stand for the directory above. -/
  ne_dots : name ≠ ".."

instance (name : Text) : Decidable (IsName name) :=
  decidable_of_iff (name ≠ [] ∧ separator ∉ name ∧ name ≠ "." ∧ name ≠ "..")
    ⟨fun ⟨h, h', h'', h'''⟩ => ⟨h, h', h'', h'''⟩, fun ⟨h, h', h'', h'''⟩ => ⟨h, h', h'', h'''⟩⟩

section
variable {absolute : Bool} {reversed names : List Text} {root path name e : Text} {p : Path}

theorem addElement_dot : addElement absolute reversed "." = reversed := if_pos rfl

theorem addElement_of_ne (hdot : e ≠ ".") (hdots : e ≠ "..") :
    addElement absolute reversed e = e :: reversed := by
  unfold addElement
  rw [if_neg hdot, if_neg hdots]

/-- A name is added as it is. -/
theorem addElement_of_isName (hname : IsName name) :
    addElement absolute reversed name = name :: reversed :=
  addElement_of_ne hname.ne_dot hname.ne_dots

/-! ## Normal forms -/

/-- Every element, added to those before it, stays. The elements come in reverse order. -/
def Settled (absolute : Bool) : List Text → Prop
  | [] => True
  | e :: reversed => addElement absolute reversed e = e :: reversed ∧ Settled absolute reversed

/-- Elements stay settled when another one is added. -/
theorem Settled.addElement (h : Settled absolute reversed) (e : Text) :
    Settled absolute (addElement absolute reversed e) := by
  by_cases hdot : e = "."
  · rw [hdot, addElement_dot]
    exact h
  by_cases hdots : e = ".."
  · subst hdots
    match absolute, reversed with
    | true, [] => trivial
    | false, [] => exact ⟨rfl, trivial⟩
    | _, last :: before =>
      by_cases hlast : last = ".."
      · have hadd : ∀ {absolute}, Path.addElement absolute (last :: before) ".." =
            Text.ofString ".." :: last :: before := if_pos hlast
        rw [hadd]
        exact ⟨hadd, h⟩
      · have hadd : ∀ {absolute}, Path.addElement absolute (last :: before) ".." = before :=
          if_neg hlast
        rw [hadd]
        exact h.2
  · rw [addElement_of_ne hdot hdots]
    exact ⟨addElement_of_ne hdot hdots, h⟩

/-- Elements that stay are the outcome of adding them one by one. -/
theorem Settled.foldl_reverse : ∀ {reversed : List Text}, Settled absolute reversed →
    reversed.reverse.foldl (Path.addElement absolute) [] = reversed
  | [], _ => rfl
  | e :: reversed, ⟨he, h⟩ => by
    rw [List.reverse_cons, List.foldl_append, h.foldl_reverse]
    exact he

/-- What a path in normal form fulfils. -/
structure IsNormal (p : Path) : Prop where
  /-- No element is empty. -/
  ne_nil : ∀ e ∈ p.elements, e ≠ []
  /-- No element holds a separator. -/
  separator_notMem : ∀ e ∈ p.elements, separator ∉ e
  /-- No element is taken back by the next one. -/
  settled : Settled p.absolute p.elements.reverse

/-- Adding an element brings no other one in. -/
theorem mem_addElement (h : name ∈ addElement absolute reversed e) :
    name ∈ reversed ∨ name = e := by
  unfold addElement at h
  split at h
  next => exact .inl h
  next =>
    split at h
    next hdots =>
      split at h
      next =>
        split at h
        next => cases h
        next => exact .inr (hdots ▸ List.mem_singleton.1 h)
      next last before =>
        split at h
        next =>
          rcases List.mem_cons.1 h with h | h
          · exact .inr (hdots ▸ h)
          · exact .inl h
        next => exact .inl (List.mem_cons_of_mem _ h)
    next =>
      rcases List.mem_cons.1 h with h | h
      · exact .inr h
      · exact .inl h

theorem mem_foldl_addElement (h : name ∈ names.foldl (addElement absolute) reversed) :
    name ∈ reversed ∨ name ∈ names := by
  induction names generalizing reversed with
  | nil => exact .inl h
  | cons e names ih =>
    rcases ih h with h | h
    · rcases mem_addElement h with h | rfl
      · exact .inl h
      · exact .inr List.mem_cons_self
    · exact .inr (List.mem_cons_of_mem _ h)

/-- The elements of a normal form are written in the path. -/
theorem mem_split_of_mem_elements (h : e ∈ (ofText path).elements) : e ∈ split path :=
  (mem_foldl_addElement (List.mem_reverse.1 h)).resolve_left List.not_mem_nil

/-- The elements of a path are the pieces between separators that are not empty. -/
theorem mem_split : e ∈ split path ↔ e ≠ [] ∧ e ∈ List.splitOn separator path := by
  rw [split, Text.splitOn_eq, List.mem_filter, decide_eq_true_iff, and_comm]

theorem separator_notMem_of_mem_splitOn (h : e ∈ List.splitOn separator path) :
    separator ∉ e := by
  induction path generalizing e with
  | nil =>
    rw [List.splitOn_nil, List.mem_singleton] at h
    exact h ▸ List.not_mem_nil
  | cons b path ih =>
    rw [List.splitOn_cons_eq_if_modifyHead] at h
    split at h
    next =>
      rcases List.mem_cons.1 h with rfl | h
      · exact List.not_mem_nil
      · exact ih h
    next hb =>
      obtain ⟨part, rest, hparts⟩ :=
        List.exists_cons_of_ne_nil (List.splitOn_ne_nil separator path)
      rw [hparts, List.modifyHead_cons] at h
      rcases List.mem_cons.1 h with rfl | h
      · have hpart : separator ∉ part := ih (hparts ▸ List.mem_cons_self)
        exact List.not_mem_cons_of_ne_of_not_mem (fun heq => hb (by simp [heq])) hpart
      · exact ih (hparts ▸ List.mem_cons_of_mem _ h)

/-- Elements stay settled when others are added. -/
theorem settled_foldl (h : Settled absolute reversed) :
    Settled absolute (names.foldl (addElement absolute) reversed) := by
  induction names generalizing reversed with
  | nil => exact h
  | cons e names ih => exact ih (h.addElement e)

/-- Reading a path gives a normal form. -/
theorem isNormal_ofText (path : Text) : (ofText path).IsNormal where
  ne_nil e he := (mem_split.1 (mem_split_of_mem_elements he)).1
  separator_notMem e he :=
    separator_notMem_of_mem_splitOn (mem_split.1 (mem_split_of_mem_elements he)).2
  settled := by
    rw [ofText, List.reverse_reverse]
    exact settled_foldl trivial

/-! ## Spelling -/

/-- Elements joined by separators are what the text is split into. -/
theorem split_join (hne : ∀ e ∈ names, e ≠ []) (hfree : ∀ e ∈ names, separator ∉ e) :
    split (Text.join [separator] names) = names := by
  cases names with
  | nil => rfl
  | cons e rest =>
    rw [split, Text.splitOn_join (List.cons_ne_nil e rest) hfree, List.filter_eq_self]
    exact fun e he => decide_eq_true (hne e he)

/-- A separator at the start makes no difference to the elements. -/
theorem split_separator_cons (path : Text) : split (separator :: path) = split path := by
  rw [split, Text.splitOn_eq, List.splitOn_cons_eq_if_modifyHead, split, Text.splitOn_eq]
  simp

/-- A path that is joined from names is relative. -/
theorem isAbsolute_join (hne : ∀ e ∈ names, e ≠ []) (hfree : ∀ e ∈ names, separator ∉ e) :
    isAbsolute (Text.join [separator] names) = false := by
  match names with
  | [] => rfl
  | [] :: rest => exact absurd rfl (hne [] List.mem_cons_self)
  | (b :: e) :: rest =>
    have hb : b ≠ separator := fun h => hfree _ List.mem_cons_self (h ▸ List.mem_cons_self)
    cases rest <;> simpa [isAbsolute, Text.join, List.intercalate] using hb

/-- A path in normal form is read back from its spelling. -/
theorem ofText_toText (h : p.IsNormal) : ofText p.toText = p := by
  obtain ⟨absolute, elements⟩ := p
  have hfold := h.settled.foldl_reverse
  rw [List.reverse_reverse] at hfold
  have hsplit := split_join h.ne_nil h.separator_notMem
  cases absolute with
  | true =>
    have habsolute : isAbsolute (separator :: Text.join [separator] elements) = true := by
      simp [isAbsolute]
    simp only [toText, if_true, ofText, habsolute, split_separator_cons, hsplit]
    rw [hfold, List.reverse_reverse]
  | false =>
    cases elements with
    | nil => rfl
    | cons e rest =>
      have habsolute := isAbsolute_join h.ne_nil h.separator_notMem
      simp only [toText, List.isEmpty_cons, Bool.false_eq_true, if_false, ofText, habsolute, hsplit]
      rw [hfold, List.reverse_reverse]

/-- Cleaning a path does not change what it is read as. -/
theorem ofText_clean (path : Text) : ofText (clean path) = ofText path :=
  ofText_toText (isNormal_ofText path)

/-! ## Joining -/

/-- The normal form of a path with a name behind it. -/
def below (p : Path) (names : List Text) : Path := ⟨p.absolute, p.elements ++ names⟩

/-- The elements of a path come before those of what is appended to it. -/
theorem split_append_separator (path name : Text) :
    split (path ++ separator :: name) = split path ++ split name := by
  rw [split, Text.splitOn_eq, List.splitOn_append_cons_self, List.filter_append, split,
    Text.splitOn_eq, split, Text.splitOn_eq]

theorem split_of_isName (h : IsName name) : split name = [name] := by
  have hjoin : split (Text.join [separator] [name]) = [name] :=
    split_join (by simpa using h.ne_nil) (by simpa using h.separator_notMem)
  simpa [Text.join, List.intercalate] using hjoin

/-- A name that is joined to a directory becomes the last element. -/
theorem ofText_join (hroot : root ≠ []) (hname : IsName name) :
    ofText (join root name) = (ofText root).below [name] := by
  obtain ⟨b, rest, rfl⟩ := List.exists_cons_of_ne_nil hroot
  have habsolute : isAbsolute (b :: rest ++ separator :: name) = isAbsolute (b :: rest) := rfl
  rw [join, if_neg hroot, ofText_clean, ofText, habsolute, split_append_separator,
    split_of_isName hname, List.foldl_append, List.foldl_cons, List.foldl_nil,
    addElement_of_isName hname, List.reverse_cons]
  rfl

theorem ne_nil_of_elements_ne_nil (h : (ofText path).elements ≠ []) : path ≠ [] := by
  rintro rfl
  exact h rfl

/-- A path to a name is not empty. -/
theorem join_ne_nil (hroot : root ≠ []) (hname : IsName name) : join root name ≠ [] := by
  refine ne_nil_of_elements_ne_nil ?_
  rw [ofText_join hroot hname]
  exact List.append_ne_nil_of_right_ne_nil _ (List.cons_ne_nil _ _)

/-- Names that are joined to a directory one after the other become the last elements. -/
theorem ofText_foldl_join (hroot : root ≠ []) (hnames : ∀ name ∈ names, IsName name) :
    ofText (names.foldl join root) = (ofText root).below names := by
  induction names generalizing root with
  | nil =>
    rw [List.foldl_nil, below, List.append_nil]
  | cons name names ih =>
    obtain ⟨hname, hnames⟩ := List.forall_mem_cons.1 hnames
    rw [List.foldl_cons, ih (join_ne_nil hroot hname) hnames, ofText_join hroot hname, below, below,
      below, List.append_assoc, List.singleton_append]

/-- The names that were joined to a directory lead from it down to the path. -/
theorem below?_foldl_join (hroot : root ≠ []) (hnames : ∀ name ∈ names, IsName name) :
    below? root (names.foldl join root) = some names := by
  have hhead : names.head? ≠ some ".." := by
    intro h
    exact (hnames _ (List.mem_of_mem_head? h)).ne_dots rfl
  simp only [below?, ofText_foldl_join hroot hnames, below, List.isPrefixOf_iff_prefix,
    List.prefix_append, and_self, if_true, List.drop_left, if_neg hhead]

end

end Path

end PackageCycles

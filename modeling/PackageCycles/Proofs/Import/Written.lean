import PackageCycles.Proofs.Import.Extraction
import PackageCycles.Proofs.Text.Separator
import PackageCycles.Proofs.Text.Trim

/-!
# Import statements as they are written

An import statement is written with blanks where they are allowed, a dotted name, a semicolon and
whatever comes behind it (`Import.Written`). What such a line names is read off it again
(`Import.parseLine?_of_written`): trimming stops at the first letter of the keyword and at the
semicolon, so neither the blanks nor the rest of the line get into the name. The packages of a file
are those that its lines name, in increasing order, however often and in whichever order they are
named (`Import.parse_eq_written`).
-/

namespace PackageCycles

open Text (byte IsBlank IsSolid HasNoBlank trim trimLeft trimRight join)

/-! ## Between solid bytes -/

namespace Text

/-- What stands between two solid bytes is kept when the line is trimmed. -/
theorem trim_between {before : Text} {c d : UInt8} (hbefore : IsBlank before) (hc : IsSolid c)
    (middle : Text) (hd : IsSolid d) (tail : Text) :
    trim (before ++ c :: (middle ++ d :: tail)) = c :: (middle ++ d :: trimRight tail) := by
  have hright : trimRight ((c :: middle) ++ d :: tail) = (c :: middle) ++ d :: trimRight tail :=
    trimRight_append_cons hd _ _
  rw [trim, trimLeft_append_cons hc, trimLeft_eq_nil hbefore, List.nil_append]
  exact hright

end Text

namespace Import

/-! ## Lines -/

/-- A part of the name of an imported type. -/
structure IsIdentifier (id : Text) : Prop where
  /-- It is not empty. -/
  ne_nil : id ≠ []
  /-- It holds no dot. -/
  dot_notMem : byte '.' ∉ id
  /-- It holds no semicolon. -/
  semicolon_notMem : byte ';' ∉ id
  /-- It holds no blank. -/
  hasNoBlank : id.HasNoBlank

/-- The byte ends a keyword: it is a space or a tab. -/
def EndsKeyword (b : UInt8) : Prop := b = byte ' ' ∨ b = byte '\t'

/-- A line that imports what a dotted name stands for: the keyword between blanks, the name, blanks
again, a semicolon and any text. -/
structure IsImport (line : Text) (qualifier : List Text) (name : Text) : Prop where
  /-- The name has a qualifier. -/
  qualifier_ne_nil : qualifier ≠ []
  /-- The parts of the name are identifiers. -/
  isIdentifier : ∀ id ∈ qualifier ++ [name], IsIdentifier id
  /-- The parts of the line come one after the other. -/
  exists_eq : ∃ before b gap after tail, IsBlank before ∧ EndsKeyword b ∧ IsBlank gap ∧
    IsBlank after ∧ line = before ++ Text.ofString "import" ++ b :: gap ++
      join [byte '.'] (qualifier ++ [name]) ++ after ++ byte ';' :: tail

/-- The line is written in one of four ways, and names a package or nothing. -/
inductive Written : Text → Option Package → Prop where
  /-- A type is imported; the qualifier of its name is the package. -/
  | type {line : Text} {qualifier : List Text} {name : Text} (h : IsImport line qualifier name)
    (hname : name ≠ "*") : Written line (some (join [byte '.'] qualifier))
  /-- All of a package is imported. -/
  | package {line : Text} {qualifier : List Text} (h : IsImport line qualifier "*") :
    Written line none
  /-- Members of a type are imported. -/
  | static {before gap tail : Text} {b b' : UInt8} (hbefore : IsBlank before) (hb : EndsKeyword b)
    (hgap : IsBlank gap) (hb' : EndsKeyword b') :
    Written (before ++ Text.ofString "import" ++ b :: gap ++ Text.ofString "static" ++ b' :: tail)
      none
  /-- The line is no import statement. -/
  | other {line : Text} (h : ∀ b, EndsKeyword b → ¬ Text.ofString "import" ++ [b] <+: line.trim) :
    Written line none

section
variable {line statement s u v keyword name tail : Text} {b : UInt8} {qualifier : List Text}
  {p : Option Package}

/-! ## Keywords and semicolons -/

theorem EndsKeyword.isBlankByte (hb : EndsKeyword b) : Text.isBlankByte b := by
  rcases hb with rfl | rfl <;> rfl

theorem EndsKeyword.isBlank (hb : EndsKeyword b) : IsBlank [b] :=
  Text.isBlank_of_isBlankSequence hb.isBlankByte

theorem EndsKeyword.eq_true (hb : EndsKeyword b) :
    (decide (b = byte ' ') || decide (b = byte '\t')) = true := by
  rcases hb with rfl | rfl <;> rfl

/-- Behind a keyword and its end comes the rest, trimmed. -/
theorem afterKeyword?_append (hb : EndsKeyword b) :
    afterKeyword? keyword (keyword ++ b :: s) = some (trim (b :: s)) := by
  have hprefix : keyword.isPrefixOf (keyword ++ b :: s) :=
    List.isPrefixOf_iff_prefix.2 (List.prefix_append keyword (b :: s))
  rw [afterKeyword?, if_pos hprefix, List.drop_left]
  dsimp only
  rw [if_pos hb.eq_true]

/-- There is something behind a keyword only if its end is. -/
theorem afterKeyword?_eq_none (h : ∀ b, EndsKeyword b → ¬ keyword ++ [b] <+: s) :
    afterKeyword? keyword s = none := by
  unfold afterKeyword?
  split
  next hprefix =>
    obtain ⟨rest, rfl⟩ := List.isPrefixOf_iff_prefix.1 hprefix
    rw [List.drop_left]
    cases rest with
    | nil => rfl
    | cons b rest =>
      dsimp only
      split
      next hb =>
        refine absurd ⟨rest, ?_⟩ (h b (by simpa [EndsKeyword] using hb))
        simp
      next => rfl
  next => rfl

/-- Up to the first semicolon. -/
theorem beforeSemicolon_append (hu : byte ';' ∉ u) :
    beforeSemicolon (u ++ byte ';' :: v) = trim u := by
  have hmem : (u ++ byte ';' :: v).contains (byte ';') := by simp
  have htake : (u ++ byte ';' :: v).takeWhile (· ≠ byte ';') = u := by
    rw [List.takeWhile_append_of_pos, List.takeWhile_cons_of_neg (by simp), List.append_nil]
    intro a ha
    exact decide_eq_true fun heq => hu (heq ▸ ha)
  rw [beforeSemicolon, if_pos hmem, htake]

/-! ## Dotted names -/

/-- The qualifier is what stands before the last dot. -/
theorem beforeLast?_append {mark : UInt8} (hv : mark ∉ v) :
    Text.beforeLast? mark (u ++ mark :: v) = some u := by
  have hdrop : (u ++ mark :: v).reverse.dropWhile (· ≠ mark) = mark :: u.reverse := by
    have hreverse : (u ++ mark :: v).reverse = v.reverse ++ mark :: u.reverse := by simp
    rw [hreverse, List.dropWhile_append_of_pos, List.dropWhile_cons_of_neg (by simp)]
    intro a ha
    exact decide_eq_true fun heq => hv (heq ▸ List.mem_reverse.1 ha)
  rw [Text.beforeLast?, hdrop]
  dsimp only
  rw [List.reverse_reverse]

theorem isSolid_dot : IsSolid (byte '.') := by decide

theorem isSolid_semicolon : IsSolid (byte ';') := by decide

namespace IsImport

/-- The name is the qualifier, a dot and the last part. -/
theorem join_eq (h : IsImport line qualifier name) :
    join [byte '.'] (qualifier ++ [name]) = join [byte '.'] qualifier ++ byte '.' :: name := by
  rw [Text.join_concat name h.qualifier_ne_nil, List.append_assoc, List.singleton_append]

/-- Nothing is taken off the left of a text that starts with the name. -/
theorem trimLeft_join_append (h : IsImport line qualifier name) (s : Text) :
    trimLeft (join [byte '.'] (qualifier ++ [name]) ++ s) =
      join [byte '.'] (qualifier ++ [name]) ++ s := by
  obtain ⟨id, ids, hqualifier⟩ := List.exists_cons_of_ne_nil h.qualifier_ne_nil
  have hid : IsIdentifier id := h.isIdentifier id (by simp [hqualifier])
  obtain ⟨rest, hrest⟩ :
      ∃ rest, join [byte '.'] (qualifier ++ [name]) = id ++ byte '.' :: rest := by
    cases ids with
    | nil => exact ⟨name, by simp [hqualifier, join, List.intercalate_cons_cons]⟩
    | cons next ids =>
      refine ⟨join [byte '.'] (next :: (ids ++ [name])), ?_⟩
      simp [hqualifier, join, List.intercalate_cons_cons]
  rw [hrest, List.append_assoc, List.cons_append, Text.trimLeft_append_cons isSolid_dot,
    Text.trimLeft_eq_self hid.hasNoBlank]

/-- Blanks behind the name are taken off, and the name stays. -/
theorem trim_join_append_blank (h : IsImport line qualifier name) (hs : IsBlank s) :
    trim (join [byte '.'] (qualifier ++ [name]) ++ s) = join [byte '.'] (qualifier ++ [name]) := by
  have hname : IsIdentifier name := h.isIdentifier name (by simp)
  rw [trim, h.trimLeft_join_append, Text.trimRight_append_blank hs, h.join_eq,
    Text.trimRight_append_cons isSolid_dot, Text.trimRight_eq_self hname.hasNoBlank]

/-- The name holds neither a semicolon nor the end of a keyword. -/
theorem notMem_join (h : IsImport line qualifier name) (hb : b = byte ';' ∨ EndsKeyword b) :
    b ∉ join [byte '.'] (qualifier ++ [name]) := by
  intro hmem
  rcases Text.mem_join hmem with rfl | ⟨id, hid, hmem⟩
  · revert hb
    unfold EndsKeyword
    decide
  · have hid := h.isIdentifier id hid
    rcases hb with rfl | hb
    · exact hid.semicolon_notMem hmem
    · obtain ⟨front, back, rfl⟩ := List.append_of_mem hmem
      exact hid.hasNoBlank.not_isBlankSequence (w := [b]) ⟨front, back, by simp⟩ hb.isBlankByte

/-- What the statement imports is the name. -/
theorem exists_imported (h : IsImport line qualifier name) :
    ∃ statement, afterKeyword? "import" line.trim = some statement ∧
      beforeSemicolon statement = join [byte '.'] (qualifier ++ [name]) := by
  obtain ⟨before, b, gap, after, tail, hbefore, hb, hgap, hafter, hline⟩ := h.exists_eq
  -- The keyword starts and the semicolon ends what is left when the line is trimmed.
  have htrim : line.trim = Text.ofString "import" ++ b :: (gap ++
      join [byte '.'] (qualifier ++ [name]) ++ after ++ byte ';' :: trimRight tail) := by
    have hi : IsSolid (byte 'i') := by decide
    have hbetween := Text.trim_between hbefore hi (Text.ofString "mport" ++ b :: gap ++
      join [byte '.'] (qualifier ++ [name]) ++ after) isSolid_semicolon tail
    have hkeyword : Text.ofString "import" = byte 'i' :: Text.ofString "mport" := rfl
    rw [hline]
    simpa [hkeyword] using hbetween
  refine ⟨_, (congrArg _ htrim).trans (afterKeyword?_append hb), ?_⟩
  have hstatement : trim (b :: (gap ++ join [byte '.'] (qualifier ++ [name]) ++ after ++
      byte ';' :: trimRight tail)) = join [byte '.'] (qualifier ++ [name]) ++ after ++
        byte ';' :: trimRight (trimRight tail) := by
    have hleft := Text.trimLeft_blank_append (hb.isBlank.append hgap)
      (join [byte '.'] (qualifier ++ [name]) ++ (after ++ byte ';' :: trimRight tail))
    have hright := Text.trimRight_append_cons isSolid_semicolon
      (join [byte '.'] (qualifier ++ [name]) ++ after) (trimRight tail)
    rw [h.trimLeft_join_append] at hleft
    simp only [List.append_assoc, List.cons_append, List.nil_append] at hleft hright ⊢
    rw [trim, hleft, hright]
  have hfree : byte ';' ∉ join [byte '.'] (qualifier ++ [name]) ++ after := by
    rw [List.mem_append, not_or]
    exact ⟨h.notMem_join (.inl rfl), hafter.notMem isSolid_semicolon⟩
  rw [hstatement, beforeSemicolon_append hfree, h.trim_join_append_blank hafter]

end IsImport

/-! ## What lines name -/

/-- A statement is judged by what is imported. -/
theorem parseLine?_eq {imported : Text} (hstatement : afterKeyword? "import" line = some statement)
    (himported : beforeSemicolon statement = imported) :
    parseLine? line =
      if (afterKeyword? "static" imported).isSome || (Text.ofString ".*").isSuffixOf imported then
        none
      else (imported.beforeLast? (byte '.')).bind fun package =>
        if package.isEmpty then none else some package := by
  subst himported
  simp only [parseLine?, hstatement, Option.bind_eq_bind, Option.bind_some]

namespace IsImport

/-- The name in an import statement does not start with the keyword for static imports. -/
theorem afterKeyword?_static (h : IsImport line qualifier name) :
    afterKeyword? "static" (join [byte '.'] (qualifier ++ [name])) = none := by
  refine afterKeyword?_eq_none fun b hb hstart => h.notMem_join (.inr hb) (hstart.subset ?_)
  simp

/-- All of a package is imported exactly if the last part is a star. -/
theorem isSuffixOf_iff (h : IsImport line qualifier name) :
    (Text.ofString ".*").isSuffixOf (join [byte '.'] (qualifier ++ [name])) ↔ name = "*" := by
  have hname : IsIdentifier name := h.isIdentifier name (by simp)
  have hstar : byte '.' ∉ Text.ofString "*" := by decide
  rw [List.isSuffixOf_iff_suffix, h.join_eq]
  constructor
  · rintro ⟨front, heq⟩
    have hdot : Text.ofString ".*" = byte '.' :: Text.ofString "*" := rfl
    have hcut : front ++ [byte '.'] ++ Text.ofString "*" =
        join [byte '.'] qualifier ++ [byte '.'] ++ name := by
      simpa [hdot] using heq
    exact (Text.cut_last hstar hname.dot_notMem hcut).2.symm
  · rintro rfl
    exact ⟨join [byte '.'] qualifier, rfl⟩

theorem join_qualifier_ne_nil (h : IsImport line qualifier name) :
    join [byte '.'] qualifier ≠ [] := by
  obtain ⟨id, ids, rfl⟩ := List.exists_cons_of_ne_nil h.qualifier_ne_nil
  exact Text.join_ne_nil (h.isIdentifier id (by simp)).ne_nil

/-- The line names the qualifier, unless it imports all of the package. -/
theorem parseLine?_trim (h : IsImport line qualifier name) :
    parseLine? line.trim = if name = "*" then none else some (join [byte '.'] qualifier) := by
  obtain ⟨statement, hstatement, himported⟩ := h.exists_imported
  have hname : IsIdentifier name := h.isIdentifier name (by simp)
  rw [parseLine?_eq hstatement himported, h.afterKeyword?_static, Option.isSome_none, Bool.false_or]
  by_cases hstar : name = "*"
  · rw [if_pos (h.isSuffixOf_iff.2 hstar), if_pos hstar]
  · rw [if_neg (mt h.isSuffixOf_iff.1 hstar), if_neg hstar, h.join_eq,
      beforeLast?_append hname.dot_notMem, Option.bind_some, if_neg]
    simpa using h.join_qualifier_ne_nil

end IsImport

/-- Blanks in front of the second keyword are taken off, and those at the end. -/
theorem trim_static (hs : IsBlank s) (u : Text) :
    trim (s ++ Text.ofString "static" ++ u) = Text.ofString "static" ++ trimRight u := by
  have hkeyword : Text.ofString "static" = byte 's' :: (Text.ofString "tati" ++ [byte 'c']) := rfl
  have hfirst : IsSolid (byte 's') := by decide
  have hlast : IsSolid (byte 'c') := by decide
  have hbetween := Text.trim_between hs hfirst (Text.ofString "tati") hlast u
  simpa [hkeyword] using hbetween

/-- What starts with the second keyword is no dependency. -/
theorem parseLine?_static (hb : EndsKeyword b)
    (hstatement : afterKeyword? "import" line = some (Text.ofString "static" ++ s))
    (hs : s <+: b :: v) : parseLine? line = none := by
  -- Behind the keyword comes its end or nothing, also when the statement is cut at a semicolon.
  obtain ⟨u, himported, hu⟩ : ∃ u, beforeSemicolon (Text.ofString "static" ++ s) =
      Text.ofString "static" ++ u ∧ u <+: b :: v := by
    unfold beforeSemicolon
    split
    next =>
      have htake : (Text.ofString "static" ++ s).takeWhile (· ≠ byte ';') =
          Text.ofString "static" ++ s.takeWhile (· ≠ byte ';') :=
        List.takeWhile_append_of_pos (List.all_eq_true.1 (by decide))
      have htrim := trim_static Text.isBlank_nil (s.takeWhile (· ≠ byte ';'))
      rw [htake]
      exact ⟨_, htrim, (Text.trimRight_prefix _).trans ((List.takeWhile_prefix _).trans hs)⟩
    next => exact ⟨s, rfl, hs⟩
  rw [parseLine?_eq hstatement himported]
  cases u with
  | nil => decide
  | cons a u =>
    obtain ⟨rfl, -⟩ := List.cons_prefix_cons.1 hu
    rw [afterKeyword?_append hb]
    rfl

/-- Every line names what it is written to name. -/
theorem parseLine?_of_written (h : Written line p) : parseLine? line.trim = p := by
  cases h with
  | type h hname => rw [h.parseLine?_trim, if_neg hname]
  | package h => rw [h.parseLine?_trim, if_pos rfl]
  | @static before gap tail b b' hbefore hb hgap hb' =>
    have htrim : trim (before ++ Text.ofString "import" ++ b :: gap ++ Text.ofString "static" ++
        b' :: tail) = Text.ofString "import" ++ b :: (gap ++ Text.ofString "static" ++
          trimRight (b' :: tail)) := by
      have himport : Text.ofString "import" = byte 'i' :: Text.ofString "mport" := rfl
      have hstatic : Text.ofString "static" = Text.ofString "stati" ++ [byte 'c'] := rfl
      have hi : IsSolid (byte 'i') := by decide
      have hc : IsSolid (byte 'c') := by decide
      have hbetween := Text.trim_between hbefore hi (Text.ofString "mport" ++ b :: gap ++
        Text.ofString "stati") hc (b' :: tail)
      simpa [himport, hstatic] using hbetween
    have hstatement := trim_static (hb.isBlank.append hgap) (trimRight (b' :: tail))
    refine parseLine?_static (s := trimRight (trimRight (b' :: tail))) (v := tail) hb' ?_ ?_
    · rw [htrim, afterKeyword?_append hb]
      simpa using hstatement
    · exact (Text.trimRight_prefix _).trans (Text.trimRight_prefix _)
  | other h =>
    rw [parseLine?, afterKeyword?_eq_none h]
    rfl

/-! ## Files -/

/-- The files have the same lines, however often and in whichever order, and whether or not they end
in a carriage return. -/
structure SameLines (content content' : Text) : Prop where
  /-- The lines of the first file are in the second one. -/
  left : ∀ line ∈ content.splitOn (byte '\n'), ∃ line' ∈ content'.splitOn (byte '\n'),
    line' = line ∨ line' = line ++ [byte '\r'] ∨ line = line' ++ [byte '\r']
  /-- The lines of the second file are in the first one. -/
  right : ∀ line' ∈ content'.splitOn (byte '\n'), ∃ line ∈ content.splitOn (byte '\n'),
    line' = line ∨ line' = line ++ [byte '\r'] ∨ line = line' ++ [byte '\r']

/-- A carriage return at the end of a line is trimmed off. -/
theorem trim_eq_of_return {line line' : Text}
    (h : line' = line ∨ line' = line ++ [byte '\r'] ∨ line = line' ++ [byte '\r']) :
    line'.trim = line.trim := by
  have hreturn : ∀ s : Text, trim (s ++ [byte '\r']) = trim s :=
    Text.trim_append_blank (Text.isBlank_of_isBlankSequence rfl)
  rcases h with rfl | rfl | rfl
  · rfl
  · exact hreturn line
  · exact (hreturn line').symm

/-- Contents with the same lines have the same imports. -/
theorem SameLines.parse_eq {content content' : Text} (h : SameLines content content') :
    parse content' = parse content := by
  refine (Ordered.isOrdered_ofList _).ext (Ordered.isOrdered_ofList _) fun q => ?_
  show q ∈ parse content' ↔ q ∈ parse content
  rw [mem_parse, mem_parse]
  constructor
  · rintro ⟨line', hline', hq⟩
    obtain ⟨line, hline, heq⟩ := h.right line' hline'
    exact ⟨line, hline, trim_eq_of_return heq ▸ hq⟩
  · rintro ⟨line, hline, hq⟩
    obtain ⟨line', hline', heq⟩ := h.left line hline
    exact ⟨line', hline', (trim_eq_of_return heq).symm ▸ hq⟩

/-- The packages of a file whose lines are written as import statements, or as something else, are
the qualifiers of the types imported, in increasing order and nothing else. Neither the order of the
lines nor how often they come, nor a carriage return at their ends, makes a difference. -/
theorem parse_eq_written {content : Text}
    (h : ∀ line ∈ content.splitOn (byte '\n'), ∃ p, Written line p) :
    Ordered.IsOrdered (parse content) ∧
    (∀ q, q ∈ parse content ↔ ∃ line ∈ content.splitOn (byte '\n'), ∃ qualifier name,
      IsImport line qualifier name ∧ name ≠ "*" ∧ q = join [byte '.'] qualifier) ∧
    ∀ content', SameLines content content' → parse content' = parse content := by
  refine ⟨Ordered.isOrdered_ofList _, fun q => ?_, fun content' hsame => hsame.parse_eq⟩
  rw [mem_parse]
  constructor
  · rintro ⟨line, hline, hq⟩
    obtain ⟨p, hp⟩ := h line hline
    rw [parseLine?_of_written hp] at hq
    subst hq
    cases hp with
    | type himport hname => exact ⟨line, hline, _, _, himport, hname, rfl⟩
  · rintro ⟨line, hline, qualifier, name, himport, hname, rfl⟩
    exact ⟨line, hline, parseLine?_of_written (.type himport hname)⟩

/-- A file with a statement for each way of writing a line. A no-break space stands in front of the
first keyword, a tab behind it, and a comment behind the semicolon. -/
def fourLines : Text :=
  join [byte '\n'] ["\u00A0import\ta.b.C ; // import d.D;", "import static f.G.g;", "import e.*;",
    "class A extends C"]

/-- The same lines in another order, one of them twice, with carriage returns. -/
def fiveLines : Text :=
  join [byte '\n'] ["import e.*;\r", "class A extends C", "\u00A0import\ta.b.C ; // import d.D;\r",
    "import e.*;", "import static f.G.g;\r"]

/-- A word of solid bytes without dots and semicolons is an identifier. -/
theorem isIdentifier_of_all {id : Text} (hne : id ≠ [])
    (hdot : byte '.' ∉ id) (hsemicolon : byte ';' ∉ id) (h : id.all fun b => IsSolid b) :
    IsIdentifier id where
  ne_nil := hne
  dot_notMem := hdot
  semicolon_notMem := hsemicolon
  hasNoBlank := Text.hasNoBlank_of_forall fun b hb => of_decide_eq_true (List.all_eq_true.1 h b hb)

/-- The type that the first line imports is the only one. -/
theorem parse_eq_written_fourLines :
    (∀ line ∈ fourLines.splitOn (byte '\n'), ∃ p, Written line p) ∧
      SameLines fourLines fiveLines ∧ Text.ofString "a.b" ∈ parse fourLines ∧
      parse fiveLines = parse fourLines := by
  have hlines : fourLines.splitOn (byte '\n') =
      [Text.ofString "\u00A0import\ta.b.C ; // import d.D;", "import static f.G.g;",
        "import e.*;", "class A extends C"] := by decide
  have hlines' : fiveLines.splitOn (byte '\n') =
      [Text.ofString "import e.*;\r", "class A extends C",
        "\u00A0import\ta.b.C ; // import d.D;\r", "import e.*;", "import static f.G.g;\r"] := by
    decide
  have hspace : IsBlank (Text.ofString " ") := Text.isBlank_of_isBlankSequence (by decide)
  have hbreak : IsBlank (Text.ofString "\u00A0") := Text.isBlank_of_isBlankSequence (by decide)
  have hident : ∀ id ∈ [Text.ofString "a", "b", "C", "e", "*"], IsIdentifier id := by
    intro id hid
    refine isIdentifier_of_all ?_ ?_ ?_ ?_ <;> revert id <;> decide
  have htype : IsImport "\u00A0import\ta.b.C ; // import d.D;" ["a", "b"] "C" := by
    refine ⟨by decide, fun id hid => hident id (by revert id; decide), ?_⟩
    exact ⟨"\u00A0", byte '\t', "", " ", " // import d.D;", hbreak, .inr rfl, Text.isBlank_nil,
      hspace, by decide⟩
  have hpackage : IsImport "import e.*;" ["e"] "*" := by
    refine ⟨by decide, fun id hid => hident id (by revert id; decide), ?_⟩
    exact ⟨"", byte ' ', "", "", "", Text.isBlank_nil, .inl rfl, Text.isBlank_nil, Text.isBlank_nil,
      by decide⟩
  have hstatic : Written "import static f.G.g;" none := by
    have hform : Text.ofString "import static f.G.g;" =
        [] ++ Text.ofString "import" ++ byte ' ' :: [] ++ Text.ofString "static" ++
          byte ' ' :: Text.ofString "f.G.g;" := by decide
    rw [hform]
    exact .static Text.isBlank_nil (.inl rfl) Text.isBlank_nil (.inl rfl)
  have hother : Written "class A extends C" none := by
    refine .other fun b hb => ?_
    rcases hb with rfl | rfl <;> decide +kernel
  have hwritten : ∀ line ∈ fourLines.splitOn (byte '\n'), ∃ p, Written line p := by
    intro line hline
    rw [hlines] at hline
    simp only [List.mem_cons, List.not_mem_nil, or_false] at hline
    rcases hline with rfl | rfl | rfl | rfl
    · exact ⟨_, .type htype (by decide)⟩
    · exact ⟨_, hstatic⟩
    · exact ⟨_, .package hpackage⟩
    · exact ⟨_, hother⟩
  have hsame : SameLines fourLines fiveLines := by
    refine ⟨?_, ?_⟩ <;> rw [hlines, hlines'] <;> decide
  obtain ⟨-, hmem, hparse⟩ := parse_eq_written hwritten
  refine ⟨hwritten, hsame, (hmem _).2 ⟨_, ?_, _, _, htype, by decide, by decide⟩, hparse _ hsame⟩
  rw [hlines]
  exact List.mem_cons_self

end

end Import

end PackageCycles

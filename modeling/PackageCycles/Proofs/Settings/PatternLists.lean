import PackageCycles.Proofs.Text.Separator
import PackageCycles.Proofs.Text.Trim
import PackageCycles.Settings.Variables

/-!
# Patterns from a variable

A list of patterns is written into a variable as entries between separators. An entry is a pattern
with blanks around it, or blanks alone (`Settings.Spells`). What the entries spell is read off them
again when they are trimmed and the empty ones are left out (`Settings.Spells.filter_trim`), so it
only matters that the value is split where the entries were joined. A line break in the value has it
split at line breaks, whatever commas the patterns hold (`Settings.Spells.splitPatterns_lines`).
Without one it is split at commas, and as blanks hold no comma, an entry is not split if its pattern
has none (`Settings.Spells.splitPatterns_commas`).
-/

namespace PackageCycles.Settings

open Text (byte join ofString trim IsBlank IsSolid)

/-! ## Entries -/

/-- The entries are the patterns in order, with blanks around them and entries of blanks alone
anywhere between them. -/
inductive Spells : List Text → List Text → Prop where
  /-- No entries spell no patterns. -/
  | nil : Spells [] []
  /-- An entry of blanks, or an empty one, does not count. -/
  | blank {w : Text} {entries ps : List Text} (hw : IsBlank w) (h : Spells entries ps) :
    Spells (w :: entries) ps
  /-- An entry is a pattern between blanks. -/
  | pattern {before p after : Text} {entries ps : List Text} (hbefore : IsBlank before)
    (hafter : IsBlank after) (h : Spells entries ps) :
    Spells ((before ++ p ++ after) :: entries) (p :: ps)

section
variable {ps entries lines : List Text} {b : UInt8} {w value : Text}

namespace Spells

/-- Patterns spell themselves, also if each has the same blanks behind it. -/
theorem map_append (hw : IsBlank w) : ∀ ps : List Text, Spells (ps.map (· ++ w)) ps
  | [] => .nil
  | _ :: ps => .pattern Text.isBlank_nil hw (map_append hw ps)

theorem refl (ps : List Text) : Spells ps ps := by
  simpa using map_append Text.isBlank_nil ps

theorem append_blank (h : Spells entries ps) (hw : IsBlank w) : Spells (entries ++ [w]) ps := by
  induction h with
  | nil => exact .blank hw .nil
  | blank hblank _ ih => exact .blank hblank ih
  | pattern hbefore hafter _ ih => exact .pattern hbefore hafter ih

/-- A solid byte in an entry is one of its pattern. -/
theorem notMem (h : Spells entries ps) (hb : IsSolid b) (hps : ∀ p ∈ ps, b ∉ p) :
    ∀ entry ∈ entries, b ∉ entry := by
  induction h with
  | nil => exact fun _ hentry => nomatch hentry
  | blank hblank _ ih => exact List.forall_mem_cons.2 ⟨hblank.notMem hb, ih hps⟩
  | pattern hbefore hafter _ ih =>
    obtain ⟨hp, hps⟩ := List.forall_mem_cons.1 hps
    refine List.forall_mem_cons.2 ⟨?_, ih hps⟩
    rw [List.mem_append, List.mem_append, not_or, not_or]
    exact ⟨⟨hbefore.notMem hb, hp⟩, hafter.notMem hb⟩

/-- Trimming the entries and leaving the empty ones out gives the patterns. -/
theorem filter_trim (h : Spells entries ps) (hps : ∀ p ∈ ps, p ≠ [] ∧ trim p = p) :
    (entries.map trim).filter (· ≠ []) = ps := by
  induction h with
  | nil => rfl
  | blank hw _ ih =>
    rw [List.map_cons, Text.trim_eq_nil hw, List.filter_cons_of_neg (by simp)]
    exact ih hps
  | @pattern before p after entries ps hbefore hafter _ ih =>
    obtain ⟨⟨hne, htrim⟩, hps⟩ := List.forall_mem_cons.1 hps
    have hentry : trim (before ++ p ++ after) = p := by
      rw [Text.trim_append_blank hafter, Text.trim_blank_append hbefore, htrim]
    rw [List.map_cons, hentry, List.filter_cons_of_pos (by simpa using hne), ih hps]

end Spells

/-! ## Separators -/

/-- A value with a line break is split at line breaks. -/
theorem splitPatterns_of_mem (h : byte '\n' ∈ value) :
    splitPatterns value = ((value.splitOn (byte '\n')).map trim).filter (· ≠ []) := by
  rw [splitPatterns, if_pos (List.contains_iff_mem.2 h)]

/-- A value without a line break is split at commas. -/
theorem splitPatterns_of_notMem (h : byte '\n' ∉ value) :
    splitPatterns value = ((value.splitOn (byte ',')).map trim).filter (· ≠ []) := by
  rw [splitPatterns, if_neg (mt List.contains_iff_mem.1 h)]

namespace Spells

/-- At least two lines with a line break between neighbours are read as the patterns they spell. -/
theorem splitPatterns_lines (h : Spells lines ps) (hps : ∀ p ∈ ps, p ≠ [] ∧ trim p = p)
    (hlines : ∀ line ∈ lines, byte '\n' ∉ line) (hlength : 2 ≤ lines.length) :
    splitPatterns (join [byte '\n'] lines) = ps := by
  match lines, hlength with
  | line :: next :: rest, _ =>
    have hbreak : byte '\n' ∈ join [byte '\n'] (line :: next :: rest) := by
      rw [join, List.intercalate_cons_cons]
      simp
    rw [splitPatterns_of_mem hbreak, Text.splitOn_join (List.cons_ne_nil _ _) hlines, h.filter_trim hps]

/-- Lines of which the last one ends in a line break too are read as the patterns they spell. -/
theorem splitPatterns_endedLines (h : Spells lines ps) (hps : ∀ p ∈ ps, p ≠ [] ∧ trim p = p)
    (hlines : ∀ line ∈ lines, byte '\n' ∉ line) :
    splitPatterns (join [byte '\n'] lines ++ [byte '\n']) = ps := by
  by_cases hne : lines = []
  · subst hne
    cases h
    decide +kernel
  · -- Behind the last line break stands one more line, and it is empty.
    have hjoin : join [byte '\n'] lines ++ [byte '\n'] = join [byte '\n'] (lines ++ [[]]) := by
      rw [Text.join_concat [] hne, List.append_nil]
    have hfree : ∀ line ∈ lines ++ [[]], byte '\n' ∉ line :=
      List.forall_mem_append.2 ⟨hlines, List.forall_mem_singleton.2 List.not_mem_nil⟩
    have hlength : 2 ≤ (lines ++ [[]]).length := by
      have hpos := List.length_pos_of_ne_nil hne
      rw [List.length_append, List.length_singleton]
      omega
    rw [hjoin, (h.append_blank Text.isBlank_nil).splitPatterns_lines hps hfree hlength]

/-- Entries between commas are read as the patterns they spell. -/
theorem splitPatterns_commas (h : Spells entries ps) (hps : ∀ p ∈ ps, p ≠ [] ∧ trim p = p)
    (hcomma : ∀ p ∈ ps, byte ',' ∉ p) (hentries : ∀ entry ∈ entries, byte '\n' ∉ entry) :
    splitPatterns (join [byte ','] entries) = ps := by
  have hbreak : byte '\n' ∉ join [byte ','] entries := by
    intro hmem
    rcases Text.mem_join hmem with heq | ⟨entry, hentry, hmem⟩
    · exact absurd heq (by decide)
    · exact hentries entry hentry hmem
  rw [splitPatterns_of_notMem hbreak]
  by_cases hne : entries = []
  · subst hne
    cases h
    decide +kernel
  · rw [Text.splitOn_join hne (h.notMem (by decide) hcomma), h.filter_trim hps]

end Spells

/-- A list of patterns that are not empty, have no blanks at their ends and hold no line break is
what it is read as when it is written one pattern to a line. Blanks around the patterns do not
matter, such as a carriage return in front of each line break, nor do blank lines, nor the last line
break if there is another one. If no pattern holds a comma, the list may be written between commas,
again with any blanks but line breaks around the patterns, and with blank entries. -/
theorem splitPatterns_roundTrip (hps : ∀ p ∈ ps, p ≠ [] ∧ trim p = p ∧ byte '\n' ∉ p) :
    splitPatterns (join [byte '\n'] ps ++ [byte '\n']) = ps ∧
    (∀ lines, Spells lines ps → (∀ line ∈ lines, byte '\n' ∉ line) →
      splitPatterns (join [byte '\n'] lines ++ [byte '\n']) = ps ∧
      (2 ≤ lines.length → splitPatterns (join [byte '\n'] lines) = ps)) ∧
    ((∀ p ∈ ps, byte ',' ∉ p) → splitPatterns (join [byte ','] ps) = ps ∧
      ∀ entries, Spells entries ps → (∀ entry ∈ entries, byte '\n' ∉ entry) →
        splitPatterns (join [byte ','] entries) = ps) := by
  have htrim : ∀ p ∈ ps, p ≠ [] ∧ trim p = p := fun p hp => ⟨(hps p hp).1, (hps p hp).2.1⟩
  have hbreak : ∀ p ∈ ps, byte '\n' ∉ p := fun p hp => (hps p hp).2.2
  refine ⟨(Spells.refl ps).splitPatterns_endedLines htrim hbreak, fun lines h hlines => ?_,
    fun hcomma => ?_⟩
  · exact ⟨h.splitPatterns_endedLines htrim hlines, h.splitPatterns_lines htrim hlines⟩
  · exact ⟨(Spells.refl ps).splitPatterns_commas htrim hcomma hbreak,
      fun entries h => h.splitPatterns_commas htrim hcomma⟩

/-- Two lists are read off values as they are commonly written. In the first one a pattern holds a
comma, the lines end in carriage returns, and two lines are blank. In the second one there are blanks
behind a pattern and in front of one, an empty entry, and a comma behind the last pattern. -/
theorem splitPatterns_roundTrip_twoValues :
    splitPatterns "\r\n a[b,c]\r\n\t\r\ncom\\.acme\\..*\r\n" = ["a[b,c]", "com\\.acme\\..*"] ∧
      splitPatterns "a\\..* ,,\u00A0b," = ["a\\..*", "b"] := by
  have hblank : ∀ w ∈ [ofString "\r", " ", "\t", "\u00A0"], IsBlank w := fun w hw =>
    Text.isBlank_of_isBlankSequence (by revert w; decide)
  have hreturn := hblank "\r" (by decide)
  have hspace := hblank " " (by decide)
  have hlines : Spells [ofString "\r", ofString " " ++ ofString "a[b,c]" ++ ofString "\r",
      ofString "\t" ++ ofString "\r", [] ++ ofString "com\\.acme\\..*" ++ ofString "\r"]
      ["a[b,c]", "com\\.acme\\..*"] :=
    .blank hreturn <| .pattern hspace hreturn <|
      .blank ((hblank "\t" (by decide)).append hreturn) <| .pattern Text.isBlank_nil hreturn .nil
  have hentries : Spells [[] ++ ofString "a\\..*" ++ ofString " ", [],
      ofString "\u00A0" ++ ofString "b" ++ [], []] ["a\\..*", "b"] :=
    .pattern Text.isBlank_nil hspace <| .blank Text.isBlank_nil <|
      .pattern (hblank "\u00A0" (by decide)) Text.isBlank_nil <| .blank Text.isBlank_nil .nil
  have hcounted : ∀ p ∈ [ofString "a[b,c]", "com\\.acme\\..*"],
      p ≠ [] ∧ trim p = p ∧ byte '\n' ∉ p := by
    decide +kernel
  have hplain : ∀ p ∈ [ofString "a\\..*", "b"], p ≠ [] ∧ trim p = p ∧ byte '\n' ∉ p := by
    decide +kernel
  obtain ⟨-, hread, -⟩ := splitPatterns_roundTrip hcounted
  obtain ⟨-, -, hsplit⟩ := splitPatterns_roundTrip hplain
  exact ⟨(hread _ hlines (by decide)).1, (hsplit (by decide)).2 _ hentries (by decide)⟩

end

end PackageCycles.Settings

import Mathlib.Data.List.Infix
import PackageCycles.Text.Blank

/-!
# What trimming takes off

The byte sequences that trimming looks for are the encodings of the blank characters
(`Text.isBlankSequence_iff`). They are taken off one after the other, from either end in the same
way (`Text.Strips`). This stops at an ASCII character that is no blank, because no sequence begins
in a character and ends in another (`Text.trimLeft_append_cons`, `Text.trimRight_append_cons`). So
blanks around a text are taken off and nothing else is (`Text.trimLeft_blank_append`,
`Text.trimRight_append_blank`, `Text.trimLeft_eq_self`, `Text.trimRight_eq_self`). A blank does not
begin in the middle of another character either, so what is left of a text when it is trimmed does
not depend on the blanks that are put around it, whatever its bytes are (`Text.trim_blank_append`,
`Text.trim_append_blank`).
-/

namespace PackageCycles

namespace Text

/-! ## Blank characters and their bytes -/

/-- The text is made up of blank characters. -/
def IsBlank (s : Text) : Prop := ∃ cs : List Char, (∀ c ∈ cs, isBlankChar c) ∧ ofChars cs = s

/-- No blank character occurs in the text. -/
def HasNoBlank (s : Text) : Prop := ∀ c, isBlankChar c → ¬ String.utf8EncodeChar c <:+: s

/-- The bytes are those of one blank. -/
def isBlankSequence : Text → Bool
  | [a] => isBlankByte a
  | [a, b] => isBlankPair a b
  | [a, b, c] => isBlankTriple a b c
  | _ => false

/-- The blank characters. -/
def blankChars : List Char :=
  ['\x09', '\x0A', '\x0B', '\x0C', '\x0D', ' ', '\u0085', '\u00A0', '\u1680', '\u2000', '\u2001',
    '\u2002', '\u2003', '\u2004', '\u2005', '\u2006', '\u2007', '\u2008', '\u2009', '\u200A',
    '\u2028', '\u2029', '\u202F', '\u205F', '\u3000']

/-- Their encodings. -/
def blankSequences : List Text := blankChars.map String.utf8EncodeChar

section
variable {a b c : UInt8} {s u v w rest : Text} {char : Char}

theorem isBlankChar_of_mem_blankChars : ∀ char ∈ blankChars, isBlankChar char :=
  List.all_eq_true.1 (by decide)

theorem mem_blankChars_of_isBlankChar (h : isBlankChar char) : char ∈ blankChars := by
  simp only [isBlankChar, Bool.or_eq_true, Bool.and_eq_true, decide_eq_true_eq] at h
  have hmem : char.toNat ∈ blankChars.map Char.toNat := by
    simp [blankChars]
    omega
  obtain ⟨d, hd, heq⟩ := List.mem_map.1 hmem
  rw [← Char.ofNat_toNat char, ← heq, Char.ofNat_toNat]
  exact hd

/-- A blank character is encoded as a blank sequence. -/
theorem isBlankSequence_of_mem_blankChars :
    ∀ char ∈ blankChars, isBlankSequence (String.utf8EncodeChar char) :=
  List.all_eq_true.1 (by decide +kernel)

/-- What holds of the bytes of all numbers holds of all bytes. -/
theorem forall_byte {P : UInt8 → Prop} (h : ∀ n < 256, P (UInt8.ofNat n)) (b : UInt8) : P b := by
  have hb := h b.toNat b.toNat_lt
  rwa [UInt8.ofNat_toNat] at hb

theorem mem_blankSequences_of_isBlankByte : ∀ a, isBlankByte a → [a] ∈ blankSequences :=
  forall_byte (by decide +kernel)

theorem mem_blankSequences_of_isBlankPair (h : isBlankPair a b) : [a, b] ∈ blankSequences := by
  simp only [isBlankPair, Bool.and_eq_true, Bool.or_eq_true, decide_eq_true_eq] at h
  obtain ⟨rfl, rfl | rfl⟩ := h <;> decide +kernel

theorem mem_blankSequences_of_isBlankTriple (h : isBlankTriple a b c) :
    [a, b, c] ∈ blankSequences := by
  have hrange : ∀ c : UInt8, ((0x80 ≤ c ∧ c ≤ 0x8A ∨ c = 0xA8) ∨ c = 0xA9) ∨ c = 0xAF →
      [0xE2, 0x80, c] ∈ blankSequences :=
    forall_byte (by decide +kernel)
  simp only [isBlankTriple, Bool.and_eq_true, Bool.or_eq_true, decide_eq_true_eq] at h
  rcases h with ((⟨⟨rfl, rfl⟩, rfl⟩ | ⟨⟨rfl, rfl⟩, hc⟩) | ⟨⟨rfl, rfl⟩, rfl⟩) | ⟨⟨rfl, rfl⟩, rfl⟩
  · decide +kernel
  · exact hrange c hc
  · decide +kernel
  · decide +kernel

/-- The sequences are the encodings of the blank characters. -/
theorem isBlankSequence_iff :
    isBlankSequence w ↔ ∃ char, isBlankChar char ∧ String.utf8EncodeChar char = w := by
  constructor
  · intro h
    have hw : w ∈ blankSequences := by
      match w, h with
      | [a], h => exact mem_blankSequences_of_isBlankByte a h
      | [a, b], h => exact mem_blankSequences_of_isBlankPair h
      | [a, b, c], h => exact mem_blankSequences_of_isBlankTriple h
    obtain ⟨char, hmem, heq⟩ := List.mem_map.1 hw
    exact ⟨char, isBlankChar_of_mem_blankChars char hmem, heq⟩
  · rintro ⟨char, hchar, rfl⟩
    exact isBlankSequence_of_mem_blankChars char (mem_blankChars_of_isBlankChar hchar)

theorem isBlank_nil : IsBlank [] := ⟨[], by simp, rfl⟩

/-- A single blank is blank. -/
theorem isBlank_of_isBlankSequence (hw : isBlankSequence w) : IsBlank w := by
  obtain ⟨char, hchar, rfl⟩ := isBlankSequence_iff.1 hw
  exact ⟨[char], by simpa using hchar, List.flatMap_singleton _ _⟩

/-- Blanks behind blanks are blank. -/
theorem IsBlank.append (hu : IsBlank u) (hv : IsBlank v) : IsBlank (u ++ v) := by
  obtain ⟨cs, hcs, rfl⟩ := hu
  obtain ⟨cs', hcs', rfl⟩ := hv
  exact ⟨cs ++ cs', List.forall_mem_append.2 ⟨hcs, hcs'⟩, List.flatMap_append⟩

theorem hasNoBlank_nil : HasNoBlank [] := by
  intro char _ hinfix
  have hnil := List.eq_nil_of_infix_nil hinfix
  exact absurd hnil (String.utf8EncodeChar_ne_nil)

/-- No part of a text without blanks is one. -/
theorem HasNoBlank.not_isBlankSequence (h : HasNoBlank s) (hw : w <:+: s) : ¬ isBlankSequence w := by
  intro hblank
  obtain ⟨char, hchar, rfl⟩ := isBlankSequence_iff.1 hblank
  exact h char hchar hw

/-! ## One blank -/

/-- No blank begins as a shorter one. -/
theorem not_isBlank_of_isBlankPair (h : isBlankPair a b) :
    isBlankByte a = false ∧ isBlankByte b = false := by
  simp only [isBlankPair, Bool.and_eq_true, Bool.or_eq_true, decide_eq_true_eq] at h
  obtain ⟨rfl, rfl | rfl⟩ := h <;> exact ⟨rfl, rfl⟩

/-- No blank begins or ends as a shorter one. -/
theorem not_isBlank_of_isBlankTriple (h : isBlankTriple a b c) :
    (isBlankByte a = false ∧ isBlankPair a b = false) ∧
      isBlankByte c = false ∧ isBlankPair b c = false := by
  have hrange : ∀ c : UInt8, ((0x80 ≤ c ∧ c ≤ 0x8A ∨ c = 0xA8) ∨ c = 0xA9) ∨ c = 0xAF →
      isBlankByte c = false :=
    forall_byte (by decide +kernel)
  simp only [isBlankTriple, Bool.and_eq_true, Bool.or_eq_true, decide_eq_true_eq] at h
  rcases h with ((⟨⟨rfl, rfl⟩, rfl⟩ | ⟨⟨rfl, rfl⟩, hc⟩) | ⟨⟨rfl, rfl⟩, rfl⟩) | ⟨⟨rfl, rfl⟩, rfl⟩
  · decide
  · exact ⟨⟨rfl, rfl⟩, hrange c hc, rfl⟩
  · decide
  · decide

/-- The byte is the first one of a character, and not one that continues a character. -/
def Begins (b : UInt8) : Prop := b < 0x80 ∨ 0xC0 ≤ b

instance (b : UInt8) : Decidable (Begins b) := inferInstanceAs (Decidable (_ ∨ _))

/-- A blank of two bytes holds no ASCII character, and no other one begins inside it. -/
theorem isBlankPair_eq_false (h : a < 0x80 ∨ Begins b) : isBlankPair a b = false := by
  by_contra hpair
  simp only [isBlankPair, Bool.not_eq_false, Bool.and_eq_true, Bool.or_eq_true,
    decide_eq_true_eq] at hpair
  obtain ⟨rfl, rfl | rfl⟩ := hpair <;> revert h <;> decide

/-- A blank of three bytes holds no ASCII character, and no other one begins inside it. -/
theorem isBlankTriple_eq_false (h : a < 0x80 ∨ Begins b ∨ Begins c) :
    isBlankTriple a b c = false := by
  by_contra htriple
  have hrange : ∀ c : UInt8, ((0x80 ≤ c ∧ c ≤ 0x8A ∨ c = 0xA8) ∨ c = 0xA9) ∨ c = 0xAF →
      ¬ Begins c :=
    forall_byte (by decide +kernel)
  simp only [isBlankTriple, Bool.not_eq_false, Bool.and_eq_true, Bool.or_eq_true,
    decide_eq_true_eq] at htriple
  rcases htriple with ((⟨⟨rfl, rfl⟩, rfl⟩ | ⟨⟨rfl, rfl⟩, hc⟩) | ⟨⟨rfl, rfl⟩, rfl⟩) |
    ⟨⟨rfl, rfl⟩, rfl⟩
  · revert h
    decide
  · have hc := hrange c hc
    have hfirst : ¬ (0xE2 : UInt8) < 0x80 ∧ ¬ Begins 0x80 := by decide
    rcases h with h | h | h
    · exact hfirst.1 h
    · exact hfirst.2 h
    · exact hc h
  · revert h
    decide
  · revert h
    decide

/-- A byte that is a character of its own and no blank. -/
def IsSolid (b : UInt8) : Prop := b < 0x80 ∧ ¬ isBlankByte b

instance (b : UInt8) : Decidable (IsSolid b) := inferInstanceAs (Decidable (_ ∧ _))

/-- The only ASCII characters in a blank are the blanks of one byte. -/
theorem isBlankByte_of_mem (hw : isBlankSequence w) (hb : b ∈ w) (hlt : b < 0x80) :
    isBlankByte b := by
  match w, hw with
  | [a], h =>
    obtain rfl := List.mem_singleton.1 hb
    exact h
  | [a, a'], h =>
    have hpair : isBlankPair a a' = false := isBlankPair_eq_false (by
      rcases List.mem_pair.1 hb with rfl | rfl
      · exact .inl hlt
      · exact .inr (.inl hlt))
    cases hpair.symm.trans h
  | [a, a', a''], h =>
    have htriple : isBlankTriple a a' a'' = false := isBlankTriple_eq_false (by
      simp only [List.mem_cons, List.not_mem_nil, or_false] at hb
      rcases hb with rfl | rfl | rfl
      · exact .inl hlt
      · exact .inr (.inl (.inl hlt))
      · exact .inr (.inr (.inl hlt)))
    cases htriple.symm.trans h

/-- Blanks hold no solid byte. -/
theorem IsBlank.notMem (hw : IsBlank w) (hb : IsSolid b) : b ∉ w := by
  obtain ⟨cs, hcs, rfl⟩ := hw
  intro hmem
  obtain ⟨char, hchar, hmem⟩ := List.mem_flatMap.1 hmem
  have hsequence := isBlankSequence_iff.2 ⟨char, hcs char hchar, rfl⟩
  exact hb.2 (isBlankByte_of_mem hsequence hmem hb.1)

/-- The first byte of blanks is the first one of a character. -/
theorem IsBlank.begins (hw : IsBlank (b :: w)) : Begins b := by
  obtain ⟨cs, hcs, heq⟩ := hw
  cases cs with
  | nil => cases heq
  | cons char cs =>
    have hfirst : ∀ c ∈ blankChars, ((String.utf8EncodeChar c).head?.any fun a => Begins a) = true :=
      List.all_eq_true.1 (by decide +kernel)
    have hb := hfirst char (mem_blankChars_of_isBlankChar (hcs char List.mem_cons_self))
    rw [ofChars, List.flatMap_cons] at heq
    obtain ⟨a, sequence, hsequence⟩ :=
      List.exists_cons_of_ne_nil (String.utf8EncodeChar_ne_nil (c := char))
    rw [hsequence] at hb heq
    obtain rfl : a = b := (List.cons.inj heq).1
    simpa using hb

/-- There is no blank among solid bytes. -/
theorem hasNoBlank_of_forall (h : ∀ b ∈ s, IsSolid b) : HasNoBlank s := by
  intro char hchar hpart
  have hsequence := isBlankSequence_iff.2 ⟨char, hchar, rfl⟩
  obtain ⟨b, hb⟩ := List.exists_mem_of_ne_nil _ (String.utf8EncodeChar_ne_nil (c := char))
  have hsolid := h b (hpart.subset hb)
  exact hsolid.2 (isBlankByte_of_mem hsequence hb hsolid.1)

/-! ## Taking blanks off -/

/-- `drop?` takes one blank off the start of a text, and `strip` does so as long as there is one. The
bytes of a blank stand in the order of `arrange`. -/
structure Strips (arrange : Text → Text) (drop? : Text → Option Text) (strip : Text → Text) :
    Prop where
  /-- The bytes of a blank stand in some order. -/
  perm : ∀ w, (arrange w).Perm w
  /-- A blank at the start is taken off. -/
  drop?_append : ∀ {w : Text}, isBlankSequence w → ∀ s, drop? (arrange w ++ s) = some s
  /-- Nothing else is taken off. -/
  exists_append : ∀ {s rest : Text}, drop? s = some rest →
    ∃ w, isBlankSequence w ∧ arrange w ++ rest = s
  /-- What comes behind an ASCII character does not matter. -/
  drop?_append_cons : ∀ {b : UInt8}, b < 0x80 → ∀ {u : Text}, u ≠ [] → ∀ v,
    drop? (u ++ b :: v) = (drop? u).map (· ++ b :: v)
  /-- Without a blank at the start the text stays. -/
  strip_of_none : ∀ {s : Text}, drop? s = none → strip s = s
  /-- After one blank has been taken off, the next ones are. -/
  strip_of_some : ∀ {s rest : Text}, drop? s = some rest → strip s = strip rest

/-- What comes behind the first byte of a character does not matter for a blank in front of it. -/
theorem dropBlank?_append_cons (hb : Begins b) (hu : u ≠ []) (v : Text) :
    dropBlank? (u ++ b :: v) = (dropBlank? u).map (· ++ b :: v) := by
  match u, hu with
  | [a], _ =>
    have hpair : isBlankPair a b = false := isBlankPair_eq_false (.inr hb)
    have htriple : ∀ c, isBlankTriple a b c = false :=
      fun c => isBlankTriple_eq_false (.inr (.inl hb))
    cases v with
    | nil | cons => by_cases ha : isBlankByte a <;> simp [dropBlank?, ha, hpair, htriple]
  | [a, a'], _ =>
    have htriple : isBlankTriple a a' b = false := isBlankTriple_eq_false (.inr (.inr hb))
    by_cases ha : isBlankByte a
    · simp [dropBlank?, ha]
    · by_cases hpair : isBlankPair a a' <;> simp [dropBlank?, ha, hpair, htriple]
  | a :: a' :: a'' :: rest, _ =>
    simp only [List.cons_append, dropBlank?]
    split
    · rfl
    · split
      · rfl
      · split <;> rfl

/-- Trimming the start takes off one blank after another. -/
theorem strips_trimLeft : Strips id dropBlank? trimLeft where
  perm w := .refl w
  drop?_append {w} hw s := by
    match w, hw with
    | [a], h =>
      have ha : isBlankByte a := h
      match s with
      | [] | [_] | _ :: _ :: _ => simp [dropBlank?, ha]
    | [a, b], h =>
      have hab : isBlankPair a b := h
      obtain ⟨ha, -⟩ := not_isBlank_of_isBlankPair hab
      cases s with
      | nil | cons => simp [dropBlank?, ha, hab]
    | [a, b, c], h =>
      have habc : isBlankTriple a b c := h
      obtain ⟨⟨ha, hab⟩, -⟩ := not_isBlank_of_isBlankTriple habc
      simp [dropBlank?, ha, hab, habc]
  exists_append {s rest} h := by
    unfold dropBlank? at h
    repeat' split at h
    all_goals cases h
    all_goals first | exact ⟨[_], ‹_›, rfl⟩ | exact ⟨[_, _], ‹_›, rfl⟩ | exact ⟨[_, _, _], ‹_›, rfl⟩
  drop?_append_cons hb _ hu v := dropBlank?_append_cons (.inl hb) hu v
  strip_of_none h := by
    rw [trimLeft]
    split
    next => rfl
    next rest hrest => cases h.symm.trans hrest
  strip_of_some h := by
    rw [trimLeft]
    split
    next hnone => cases h.symm.trans hnone
    next rest hrest =>
      cases h.symm.trans hrest
      rfl

/-- So does trimming the end, with the bytes of each blank in reverse order. -/
theorem strips_trimLeftReversed : Strips List.reverse dropBlankReversed? trimLeftReversed where
  perm w := List.reverse_perm w
  drop?_append {w} hw s := by
    match w, hw with
    | [a], h =>
      have ha : isBlankByte a := h
      match s with
      | [] | [_] | _ :: _ :: _ => simp [dropBlankReversed?, ha]
    | [a, b], h =>
      have hab : isBlankPair a b := h
      obtain ⟨-, hb⟩ := not_isBlank_of_isBlankPair hab
      cases s with
      | nil | cons => simp [dropBlankReversed?, hb, hab]
    | [a, b, c], h =>
      have habc : isBlankTriple a b c := h
      obtain ⟨-, hc, hbc⟩ := not_isBlank_of_isBlankTriple habc
      simp [dropBlankReversed?, hc, hbc, habc]
  exists_append {s rest} h := by
    unfold dropBlankReversed? at h
    repeat' split at h
    all_goals cases h
    all_goals first | exact ⟨[_], ‹_›, rfl⟩ | exact ⟨[_, _], ‹_›, rfl⟩ | exact ⟨[_, _, _], ‹_›, rfl⟩
  drop?_append_cons {b} hb u hu v := by
    match u, hu with
    | [c], _ =>
      have hpair : isBlankPair b c = false := isBlankPair_eq_false (.inl hb)
      have htriple : ∀ a, isBlankTriple a b c = false :=
        fun a => isBlankTriple_eq_false (.inr (.inl (.inl hb)))
      cases v with
      | nil | cons => by_cases hc : isBlankByte c <;> simp [dropBlankReversed?, hc, hpair, htriple]
    | [c, c'], _ =>
      have htriple : isBlankTriple b c' c = false := isBlankTriple_eq_false (.inl hb)
      by_cases hc : isBlankByte c
      · simp [dropBlankReversed?, hc]
      · by_cases hpair : isBlankPair c' c <;> simp [dropBlankReversed?, hc, hpair, htriple]
    | c :: c' :: c'' :: rest, _ =>
      simp only [List.cons_append, dropBlankReversed?]
      split
      · rfl
      · split
        · rfl
        · split <;> rfl
  strip_of_none h := by
    rw [trimLeftReversed]
    split
    next => rfl
    next rest hrest => cases h.symm.trans hrest
  strip_of_some h := by
    rw [trimLeftReversed]
    split
    next hnone => cases h.symm.trans hnone
    next rest hrest =>
      cases h.symm.trans hrest
      rfl

namespace Strips

variable {arrange : Text → Text} {drop? : Text → Option Text} {strip : Text → Text}

/-- Taking a blank off leaves fewer bytes. -/
theorem length_lt (h : Strips arrange drop? strip) (hrest : drop? s = some rest) :
    rest.length < s.length := by
  obtain ⟨w, hw, rfl⟩ := h.exists_append hrest
  have hpos : 0 < w.length := by
    cases w with
    | nil => cases hw
    | cons => exact Nat.succ_pos _
  rw [List.length_append, (h.perm w).length_eq]
  omega

/-- What holds of texts that do not start with a blank, and of a text if it holds of the rest behind
its first blank, holds of every text. -/
theorem induction (h : Strips arrange drop? strip) {P : Text → Prop}
    (hnone : ∀ s, drop? s = none → P s)
    (hsome : ∀ w s, isBlankSequence w → P s → P (arrange w ++ s)) (s : Text) : P s := by
  match hdrop : drop? s with
  | none => exact hnone s hdrop
  | some rest =>
    have hrest : P rest := h.induction hnone hsome rest
    obtain ⟨w, hw, rfl⟩ := h.exists_append hdrop
    exact hsome w rest hw hrest
termination_by s.length
decreasing_by exact h.length_lt hdrop

/-- A blank at the start does not matter. -/
theorem blank_append (h : Strips arrange drop? strip) (hw : isBlankSequence w) (s : Text) :
    strip (arrange w ++ s) = strip s :=
  h.strip_of_some (h.drop?_append hw s)

/-- What is left is the end of the text. -/
theorem suffix (h : Strips arrange drop? strip) (s : Text) : strip s <:+ s := by
  induction s using h.induction with
  | hnone s hnone =>
    rw [h.strip_of_none hnone]
  | hsome w s hw ih =>
    rw [h.blank_append hw]
    exact ih.trans (List.suffix_append _ _)

/-- A text that does not start with a blank stays. -/
theorem eq_self (h : Strips arrange drop? strip) (hs : ∀ w, isBlankSequence w → ¬ arrange w <+: s) :
    strip s = s := by
  refine h.strip_of_none (Option.eq_none_iff_forall_not_mem.2 fun rest hrest => ?_)
  obtain ⟨w, hw, heq⟩ := h.exists_append hrest
  exact hs w hw ⟨rest, heq⟩

/-- A text that starts with a solid byte stays. -/
theorem cons_eq_self (h : Strips arrange drop? strip) (hb : IsSolid b) (v : Text) :
    strip (b :: v) = b :: v := by
  refine h.eq_self fun w hw hprefix => hb.2 ?_
  have hmem : b ∈ w := by
    cases harrange : arrange w with
    | nil =>
      obtain rfl : w = [] := (harrange ▸ h.perm w).nil_eq.symm
      cases hw
    | cons a w' =>
      rw [harrange] at hprefix
      obtain ⟨rfl, -⟩ := List.cons_prefix_cons.1 hprefix
      exact (h.perm w).mem_iff.1 (harrange ▸ List.mem_cons_self)
  exact isBlankByte_of_mem hw hmem hb.1

/-- If a text does not matter for the blank in front of it, it does not for all blanks there. -/
theorem append (h : Strips arrange drop? strip) {t : Text}
    (hdrop : ∀ u, u ≠ [] → drop? (u ++ t) = (drop? u).map (· ++ t)) (u : Text) :
    strip (u ++ t) = if strip u = [] then strip t else strip u ++ t := by
  induction u using h.induction with
  | hnone u hnone =>
    rw [h.strip_of_none hnone]
    by_cases hu : u = []
    · rw [if_pos hu, hu, List.nil_append]
    · rw [if_neg hu]
      refine h.strip_of_none ?_
      rw [hdrop u hu, hnone, Option.map_none]
  | hsome w u hw ih =>
    rw [List.append_assoc, h.blank_append hw, h.blank_append hw]
    exact ih

/-- Blanks in front of an ASCII character are taken off without regard to what comes behind it. -/
theorem append_cons (h : Strips arrange drop? strip) (hb : b < 0x80) (u v : Text) :
    strip (u ++ b :: v) = if strip u = [] then strip (b :: v) else strip u ++ b :: v :=
  h.append (fun _ hu => h.drop?_append_cons hb hu v) u

/-- Blanks are taken off up to a solid byte. -/
theorem append_solid (h : Strips arrange drop? strip) (hb : IsSolid b) (u v : Text) :
    strip (u ++ b :: v) = strip u ++ b :: v := by
  rw [h.append_cons hb.1, h.cons_eq_self hb]
  split
  next hnil => rw [hnil, List.nil_append]
  next => rfl

end Strips

/-! ## Trimming -/

/-- Blanks in front of a text are taken off. -/
theorem trimLeft_blank_append (hw : IsBlank w) (s : Text) : trimLeft (w ++ s) = trimLeft s := by
  obtain ⟨cs, hcs, rfl⟩ := hw
  induction cs with
  | nil => rfl
  | cons char cs ih =>
    obtain ⟨hchar, hcs⟩ := List.forall_mem_cons.1 hcs
    have hsequence := isBlankSequence_iff.2 ⟨char, hchar, rfl⟩
    rw [ofChars, List.flatMap_cons, List.append_assoc]
    exact (strips_trimLeft.blank_append hsequence _).trans (ih hcs)

/-- Blanks behind a text are taken off. -/
theorem trimRight_append_blank (hw : IsBlank w) (s : Text) : trimRight (s ++ w) = trimRight s := by
  obtain ⟨cs, hcs, rfl⟩ := hw
  induction cs generalizing s with
  | nil => rw [ofChars, List.flatMap_nil, List.append_nil]
  | cons char cs ih =>
    obtain ⟨hchar, hcs⟩ := List.forall_mem_cons.1 hcs
    have hsequence := isBlankSequence_iff.2 ⟨char, hchar, rfl⟩
    have hdrop := strips_trimLeftReversed.blank_append hsequence s.reverse
    rw [ofChars, List.flatMap_cons, ← List.append_assoc]
    refine (ih (s ++ String.utf8EncodeChar char) hcs).trans ?_
    rw [trimRight, List.reverse_append, hdrop, trimRight]

/-- A text without blanks stays. -/
theorem trimLeft_eq_self (hs : HasNoBlank s) : trimLeft s = s :=
  strips_trimLeft.eq_self fun _ hw hprefix => hs.not_isBlankSequence hprefix.isInfix hw

/-- A text without blanks stays. -/
theorem trimRight_eq_self (hs : HasNoBlank s) : trimRight s = s := by
  rw [trimRight, strips_trimLeftReversed.eq_self, List.reverse_reverse]
  intro w hw hprefix
  exact hs.not_isBlankSequence (List.reverse_prefix.1 hprefix).isInfix hw

/-- A solid byte keeps what comes behind it from being trimmed at the left. -/
theorem trimLeft_append_cons (hb : IsSolid b) (u v : Text) :
    trimLeft (u ++ b :: v) = trimLeft u ++ b :: v :=
  strips_trimLeft.append_solid hb u v

/-- A solid byte keeps what comes before it from being trimmed at the right. -/
theorem trimRight_append_cons (hb : IsSolid b) (u v : Text) :
    trimRight (u ++ b :: v) = u ++ b :: trimRight v := by
  have hreverse : (u ++ b :: v).reverse = v.reverse ++ b :: u.reverse := by simp
  rw [trimRight, hreverse, strips_trimLeftReversed.append_solid hb, trimRight]
  simp

/-- Trimming at the right leaves the start of a text. -/
theorem trimRight_prefix (s : Text) : trimRight s <+: s := by
  rw [trimRight, ← List.reverse_suffix, List.reverse_reverse]
  exact strips_trimLeftReversed.suffix s.reverse

/-- Blanks alone are taken off altogether. -/
theorem trimLeft_eq_nil (hw : IsBlank w) : trimLeft w = [] := by
  have hnil : trimLeft (w ++ []) = trimLeft [] := trimLeft_blank_append hw []
  rw [List.append_nil] at hnil
  rw [hnil, trimLeft_eq_self hasNoBlank_nil]

/-- Blanks behind a text stay when it is trimmed at the left, if anything does. -/
theorem trimLeft_append_blank (hw : IsBlank w) (s : Text) :
    trimLeft (s ++ w) = if trimLeft s = [] then [] else trimLeft s ++ w := by
  have hdrop : ∀ u : Text, u ≠ [] → dropBlank? (u ++ w) = (dropBlank? u).map (· ++ w) := by
    intro u hu
    cases w with
    | nil => simp
    | cons b w => exact dropBlank?_append_cons hw.begins hu w
  have happend := strips_trimLeft.append hdrop s
  rwa [trimLeft_eq_nil hw] at happend

/-- Blanks in front of a text do not matter when it is trimmed. -/
theorem trim_blank_append (hw : IsBlank w) (s : Text) : trim (w ++ s) = trim s := by
  rw [trim, trimLeft_blank_append hw, trim]

/-- Blanks behind a text do not matter when it is trimmed. -/
theorem trim_append_blank (hw : IsBlank w) (s : Text) : trim (s ++ w) = trim s := by
  rw [trim, trim, trimLeft_append_blank hw]
  split
  next hnil => rw [hnil]
  next => exact trimRight_append_blank hw (trimLeft s)

/-- Nothing is left of blanks alone. -/
theorem trim_eq_nil (hw : IsBlank w) : trim w = [] := by
  rw [trim, trimLeft_eq_nil hw, trimRight_eq_self hasNoBlank_nil]

end

end Text

end PackageCycles

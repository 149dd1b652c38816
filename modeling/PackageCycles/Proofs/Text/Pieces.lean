import Mathlib.Data.List.Basic
import PackageCycles.Text.Utf8

/-!
# Words that tell what they stand for

A way to write elements as words is prefix free if a text that starts with the word of an element
tells the element and what comes behind (`Text.PrefixFree`); then words put one after the other can
be taken apart again, up to a text that starts no word (`Text.PrefixFree.flatMap`). The bytes of
characters are such words (`Text.utf8EncodeChar_append_inj`), and reading a text as characters and
stray bytes loses nothing: their bytes are the text (`Text.flatMap_bytes_pieces`).
-/

namespace PackageCycles

/-- The bytes that a piece was read from. -/
def Piece.bytes : Piece → Text
  | .char c => String.utf8EncodeChar c
  | .stray b => [b]

/-- A piece as it can be read: bytes below 0x80 are characters. -/
def Piece.IsRead : Piece → Prop
  | .char _ => True
  | .stray b => 0x80 ≤ b

namespace Text

/-! ## Prefix free words -/

/-- A text that starts with the word of an element tells the element and the rest. -/
def PrefixFree {α : Type} (P : α → Prop) (word : α → Text) : Prop :=
  ∀ ⦃a b : α⦄ ⦃x y : Text⦄, P a → P b → word a ++ x = word b ++ y → a = b ∧ x = y

/-- Texts neither of which starts with the other are no starts of one text. -/
theorem append_ne_append {u v x y : Text} (hu : ¬ u <+: v) (hv : ¬ v <+: u) :
    u ++ x ≠ v ++ y := by
  intro h
  rcases List.prefix_or_prefix_of_prefix (List.prefix_append u x) ⟨y, h.symm⟩ with huv | hvu
  · exact hu huv
  · exact hv hvu

/-- Words are prefix free if none of them starts with another. -/
theorem PrefixFree.of_prefix {α : Type} {P : α → Prop} {word : α → Text}
    (h : ∀ a b, word a <+: word b → a = b) : PrefixFree P word := by
  intro a b x y _ _ heq
  have hab : a = b := by
    by_contra hne
    exact append_ne_append (fun h' => hne (h a b h')) (fun h' => hne (h b a h').symm) heq
  cases hab
  exact ⟨rfl, List.append_cancel_left heq⟩

/-- Words in front of a text that starts no word can be taken apart. -/
theorem PrefixFree.flatMap {α : Type} {P : α → Prop} {word : α → Text} {stop : Text}
    (h : PrefixFree P word) (hstop : ∀ {a : α} {x y : Text}, P a → word a ++ x ≠ stop ++ y) :
    ∀ {as bs : List α} {x y : Text}, (∀ a ∈ as, P a) → (∀ b ∈ bs, P b) →
      as.flatMap word ++ (stop ++ x) = bs.flatMap word ++ (stop ++ y) → as = bs ∧ x = y
  | [], [], _, _, _, _, heq => ⟨rfl, List.append_cancel_left heq⟩
  | [], b :: bs, _, _, _, hbs, heq => by
    rw [List.flatMap_nil, List.nil_append, List.flatMap_cons, List.append_assoc] at heq
    exact absurd heq.symm (hstop (hbs b List.mem_cons_self))
  | a :: as, [], _, _, has, _, heq => by
    rw [List.flatMap_nil, List.nil_append, List.flatMap_cons, List.append_assoc] at heq
    exact absurd heq (hstop (has a List.mem_cons_self))
  | a :: as, b :: bs, _, _, has, hbs, heq => by
    obtain ⟨ha, has⟩ := List.forall_mem_cons.1 has
    obtain ⟨hb, hbs⟩ := List.forall_mem_cons.1 hbs
    rw [List.flatMap_cons, List.append_assoc, List.flatMap_cons, List.append_assoc] at heq
    obtain ⟨hab, hrest⟩ := h ha hb heq
    obtain ⟨hlists, hxy⟩ := h.flatMap hstop has hbs hrest
    exact ⟨by rw [hab, hlists], hxy⟩

/-! ## Characters -/

/-- The bytes of a character tell the character. -/
theorem utf8EncodeChar_append_inj {c d : Char} {x y : Text}
    (h : String.utf8EncodeChar c ++ x = String.utf8EncodeChar d ++ y) : c = d ∧ x = y := by
  have hdecode : ∀ (c : Char) (x : Text),
      (String.utf8EncodeChar c ++ x).toByteArray.utf8DecodeChar? 0 = some c := by
    intro c x
    rw [List.toByteArray_append]
    exact ByteArray.utf8DecodeChar?_utf8EncodeChar_append
  have hchar : some c = some d := by rw [← hdecode c x, h, hdecode]
  cases hchar
  exact ⟨rfl, List.append_cancel_left h⟩

section
variable {s rest : Text} {p : Piece} {a b c d : UInt8} {n : Nat}

theorem ofNat_eq_of_toNat_eq (h : n = b.toNat) : UInt8.ofNat n = b := by
  rw [h, UInt8.ofNat_toNat]

theorem isTail_iff : isTail b ↔ 128 ≤ b.toNat ∧ b.toNat ≤ 191 := by
  rw [isTail, Bool.and_eq_true, decide_eq_true_iff, decide_eq_true_iff, UInt8.le_iff_toNat_le,
    UInt8.le_iff_toNat_le]
  rfl

theorem toNat_val_ofNat (h : n.isValidChar) : (Char.ofNat n).val.toNat = n := by
  rw [Char.ofNat, dif_pos h]
  rfl

/-- A lead byte for two is the first byte of the character that is read. -/
theorem utf8EncodeChar_two (ha : 0xC2 ≤ a.toNat) (ha' : a.toNat ≤ 0xDF) (hb : isTail b) :
    String.utf8EncodeChar (Char.ofNat (a.toNat % 32 * 64 + tailBits b)) = [a, b] := by
  obtain ⟨hb, hb'⟩ := isTail_iff.1 hb
  rw [tailBits, String.utf8EncodeChar, toNat_val_ofNat (.inl (by omega))]
  rw [if_neg (by omega), if_pos (by omega), ofNat_eq_of_toNat_eq (b := a) (by omega),
    ofNat_eq_of_toNat_eq (b := b) (by omega)]

/-- A lead byte for three is the first byte of the character that is read. -/
theorem utf8EncodeChar_three (ha : 0xE0 ≤ a.toNat) (ha' : a.toNat ≤ 0xEF) (hb : isTail b)
    (hc : isTail c) (hlow : a.toNat = 0xE0 → 0xA0 ≤ b.toNat)
    (hhigh : a.toNat = 0xED → b.toNat ≤ 0x9F) :
    String.utf8EncodeChar (Char.ofNat (a.toNat % 16 * 4096 + tailBits b * 64 + tailBits c)) =
      [a, b, c] := by
  obtain ⟨hb, hb'⟩ := isTail_iff.1 hb
  obtain ⟨hc, hc'⟩ := isTail_iff.1 hc
  have hvalid : (a.toNat % 16 * 4096 + b.toNat % 64 * 64 + c.toNat % 64).isValidChar := by
    rw [Nat.isValidChar]
    omega
  rw [tailBits, tailBits, String.utf8EncodeChar, toNat_val_ofNat hvalid]
  rw [if_neg (by omega), if_neg (by omega), if_pos (by omega),
    ofNat_eq_of_toNat_eq (b := a) (by omega), ofNat_eq_of_toNat_eq (b := b) (by omega),
    ofNat_eq_of_toNat_eq (b := c) (by omega)]

/-- A lead byte for four is the first byte of the character that is read. -/
theorem utf8EncodeChar_four (ha : 0xF0 ≤ a.toNat) (ha' : a.toNat ≤ 0xF4) (hb : isTail b)
    (hc : isTail c) (hd : isTail d) (hlow : a.toNat = 0xF0 → 0x90 ≤ b.toNat)
    (hhigh : a.toNat = 0xF4 → b.toNat ≤ 0x8F) :
    String.utf8EncodeChar (Char.ofNat
      (a.toNat % 8 * 262144 + tailBits b * 4096 + tailBits c * 64 + tailBits d)) =
      [a, b, c, d] := by
  obtain ⟨hb, hb'⟩ := isTail_iff.1 hb
  obtain ⟨hc, hc'⟩ := isTail_iff.1 hc
  obtain ⟨hd, hd'⟩ := isTail_iff.1 hd
  have hvalid : (a.toNat % 8 * 262144 + b.toNat % 64 * 4096 + c.toNat % 64 * 64 +
      d.toNat % 64).isValidChar := by
    rw [Nat.isValidChar]
    omega
  rw [tailBits, tailBits, tailBits, String.utf8EncodeChar, toNat_val_ofNat hvalid]
  rw [if_neg (by omega), if_neg (by omega), if_neg (by omega),
    ofNat_eq_of_toNat_eq (b := a) (by omega), ofNat_eq_of_toNat_eq (b := b) (by omega),
    ofNat_eq_of_toNat_eq (b := c) (by omega), ofNat_eq_of_toNat_eq (b := d) (by omega)]

/-- A byte below 0x80 is the character that is read. -/
theorem utf8EncodeChar_one (ha : a.toNat < 0x80) :
    String.utf8EncodeChar (Char.ofNat a.toNat) = [a] := by
  rw [String.utf8EncodeChar, toNat_val_ofNat (.inl (by omega)), if_pos (by omega),
    UInt8.ofNat_toNat]

/-- The bounds of the second byte, where the first byte is `first`, are narrower ones. -/
theorem isTail_of_ite {first low high first' : UInt8} (hlow : 0x80 ≤ low) (hhigh : high ≤ 0xBF)
    (h : (if a = first then low else 0x80) ≤ b) (h' : b ≤ if a = first' then high else 0xBF) :
    isTail b ∧ (a.toNat = first.toNat → low.toNat ≤ b.toNat) ∧
      (a.toNat = first'.toNat → b.toNat ≤ high.toNat) := by
  rw [isTail, Bool.and_eq_true, decide_eq_true_iff, decide_eq_true_iff]
  refine ⟨⟨?_, ?_⟩, fun heq => ?_, fun heq => ?_⟩
  · split at h
    · exact UInt8.le_trans hlow h
    · exact h
  · split at h'
    · exact UInt8.le_trans h' hhigh
    · exact h'
  · rwa [if_pos (UInt8.toNat_inj.1 heq), UInt8.le_iff_toNat_le] at h
  · rwa [if_pos (UInt8.toNat_inj.1 heq), UInt8.le_iff_toNat_le] at h'

/-- A byte from 0x80 on may stand for itself. -/
theorem bytes_stray (ha : ¬ a < 0x80) (rest : Text) :
    a :: rest = (Piece.stray a).bytes ++ rest ∧ (Piece.stray a).IsRead :=
  ⟨rfl, UInt8.not_lt.1 ha⟩

/-- The first piece of a text is made of its first bytes. -/
theorem eq_append_of_uncons (h : uncons s = some (p, rest)) : s = p.bytes ++ rest ∧ p.IsRead := by
  revert h
  fun_cases uncons s with
  | case1 => exact nofun
  | case2 a rest hascii =>
    rintro ⟨⟩
    refine ⟨?_, trivial⟩
    rw [Piece.bytes, utf8EncodeChar_one (UInt8.lt_iff_toNat_lt.1 hascii)]
    rfl
  | case3 a _ htwo b more htail =>
    rintro ⟨⟩
    refine ⟨?_, trivial⟩
    simp only [Bool.and_eq_true, decide_eq_true_eq, UInt8.le_iff_toNat_le] at htwo
    rw [Piece.bytes, utf8EncodeChar_two htwo.1 htwo.2 htail]
    rfl
  | case6 a _ _ hthree b c more htails =>
    rintro ⟨⟩
    refine ⟨?_, trivial⟩
    simp only [Bool.and_eq_true, decide_eq_true_eq] at hthree htails
    obtain ⟨⟨hb, hb'⟩, hc⟩ := htails
    obtain ⟨htail, hlow, hhigh⟩ := isTail_of_ite (by decide) (by decide) hb hb'
    rw [Piece.bytes, utf8EncodeChar_three (UInt8.le_iff_toNat_le.1 hthree.1)
      (UInt8.le_iff_toNat_le.1 hthree.2) htail hc hlow hhigh]
    rfl
  | case9 a _ _ _ hfour b c d more htails =>
    rintro ⟨⟩
    refine ⟨?_, trivial⟩
    simp only [Bool.and_eq_true, decide_eq_true_eq] at hfour htails
    obtain ⟨⟨⟨hb, hb'⟩, hc⟩, hd⟩ := htails
    obtain ⟨htail, hlow, hhigh⟩ := isTail_of_ite (by decide) (by decide) hb hb'
    rw [Piece.bytes, utf8EncodeChar_four (UInt8.le_iff_toNat_le.1 hfour.1)
      (UInt8.le_iff_toNat_le.1 hfour.2) htail hc hd hlow hhigh]
    rfl
  -- In all other cases the first byte starts no character.
  | case4 | case5 | case7 | case8 | case10 | case11 | case12 =>
    rintro ⟨⟩
    exact bytes_stray ‹_› _

/-- Every text that is not empty starts with a piece. -/
theorem eq_nil_of_uncons (h : uncons s = none) : s = [] := by
  revert h
  fun_cases uncons s with
  | case1 => exact fun _ => rfl
  | _ => exact nofun

theorem pieces_nil : pieces [] = [] := by
  rw [pieces.eq_def]
  split
  next => rfl
  next hsome => cases hsome

theorem pieces_of_uncons (h : uncons s = some (p, rest)) : s.pieces = p :: rest.pieces := by
  rw [pieces.eq_def]
  split
  next hnone => cases hnone.symm.trans h
  next hsome =>
    cases h.symm.trans hsome
    rfl

/-- The bytes of the pieces of a text are the text. -/
theorem flatMap_bytes_pieces (s : Text) : s.pieces.flatMap Piece.bytes = s := by
  induction s using pieces.induct with
  | case1 s hnone => rw [eq_nil_of_uncons hnone, pieces_nil, List.flatMap_nil]
  | case2 s p rest hsome ih =>
    rw [pieces_of_uncons hsome, List.flatMap_cons, ih, (eq_append_of_uncons hsome).1]

/-- The pieces of a text are such as can be read. -/
theorem isRead_of_mem_pieces (s : Text) : ∀ p ∈ s.pieces, p.IsRead := by
  induction s using pieces.induct with
  | case1 s hnone =>
    rw [eq_nil_of_uncons hnone, pieces_nil]
    exact fun p hp => absurd hp List.not_mem_nil
  | case2 s p rest hsome ih =>
    rw [pieces_of_uncons hsome]
    exact List.forall_mem_cons.2 ⟨(eq_append_of_uncons hsome).2, ih⟩

end

/-! ## A byte below 0x80 behind a text -/

section
variable {s t rest : Text} {p : Piece} {a b : UInt8}

/-- A byte below 0x80 does not go on a character. -/
theorem isTail_eq_false (hb : b < 0x80) : isTail b = false := by
  rw [isTail, decide_eq_false (UInt8.not_le.2 hb), Bool.false_and]

/-- Nor does it where the least byte to go on with depends on the first one. -/
theorem decide_low_eq_false (a first : UInt8) {low : UInt8} (hlow : 0x80 ≤ low) (hb : b < 0x80) :
    decide ((if a = first then low else 0x80) ≤ b) = false := by
  refine decide_eq_false (UInt8.not_le.2 ?_)
  split
  · exact UInt8.lt_of_lt_of_le hb hlow
  · exact hb

/-- A byte below 0x80 behind a text does not change how the text is read. -/
theorem uncons_append_cons (hb : b < 0x80) (h : uncons s = some (p, rest)) :
    uncons (s ++ b :: t) = some (p, rest ++ b :: t) := by
  have htail := isTail_eq_false hb
  revert h
  fun_cases uncons s with
  | case1 => exact nofun
  | case2 a rest hascii =>
    rintro ⟨⟩
    simp [uncons, hascii]
  | case3 a hascii htwo c more hc =>
    rintro ⟨⟩
    simp [uncons, hascii, htwo, hc]
  | case4 a hascii htwo c more hc =>
    rintro ⟨⟩
    simp [uncons, hascii, htwo, hc]
  | case5 a hascii htwo =>
    rintro ⟨⟩
    simp [uncons, hascii, htwo, htail]
  | case6 a hascii htwo hthree c d more hc =>
    rintro ⟨⟩
    simp [uncons, hascii, htwo, hthree, hc]
  | case7 a hascii htwo hthree c d more hc =>
    rintro ⟨⟩
    simp [uncons, hascii, htwo, hthree, hc]
  | case8 a rest hascii htwo hthree hshort =>
    rintro ⟨⟩
    rcases rest with _ | ⟨c, _ | ⟨d, more⟩⟩
    · cases t with
      | nil => simp [uncons, hascii, htwo, hthree]
      | cons d t =>
        have hlow := decide_low_eq_false a 0xE0 (show 0x80 ≤ 0xA0 by decide) hb
        simp [uncons, hascii, htwo, hthree, hlow]
    · simp [uncons, hascii, htwo, hthree, htail]
    · exact (hshort c d more rfl).elim
  | case9 a hascii htwo hthree hfour c d e more hc =>
    rintro ⟨⟩
    simp [uncons, hascii, htwo, hthree, hfour, hc]
  | case10 a hascii htwo hthree hfour c d e more hc =>
    rintro ⟨⟩
    simp [uncons, hascii, htwo, hthree, hfour, hc]
  | case11 a rest hascii htwo hthree hfour hshort =>
    rintro ⟨⟩
    rcases rest with _ | ⟨c, _ | ⟨d, _ | ⟨e, more⟩⟩⟩
    · rcases t with _ | ⟨d, _ | ⟨e, t⟩⟩
      · simp [uncons, hascii, htwo, hthree, hfour]
      · simp [uncons, hascii, htwo, hthree, hfour]
      · have hlow := decide_low_eq_false a 0xF0 (show 0x80 ≤ 0x90 by decide) hb
        simp [uncons, hascii, htwo, hthree, hfour, hlow]
    · cases t <;> simp [uncons, hascii, htwo, hthree, hfour, htail]
    · simp [uncons, hascii, htwo, hthree, hfour, htail]
    · exact (hshort c d e more rfl).elim
  | case12 a rest hascii htwo hthree hfour =>
    rintro ⟨⟩
    simp [uncons, hascii, htwo, hthree, hfour]

/-- A text is read in two parts where the second one starts with a byte below 0x80. -/
theorem pieces_append_cons (hb : b < 0x80) (s t : Text) :
    pieces (s ++ b :: t) = pieces s ++ pieces (b :: t) := by
  induction s using pieces.induct with
  | case1 s hnone => rw [eq_nil_of_uncons hnone, pieces_nil, List.nil_append, List.nil_append]
  | case2 s p rest hsome ih =>
    rw [pieces_of_uncons hsome, pieces_of_uncons (uncons_append_cons hb hsome), ih, List.cons_append]

/-- A text is read as characters in two parts where the second one starts with a byte below 0x80. -/
theorem toChars_append_cons (hb : b < 0x80) (s t : Text) :
    toChars (s ++ b :: t) = toChars s ++ toChars (b :: t) := by
  rw [toChars, pieces_append_cons hb, List.map_append]
  rfl

theorem toChars_cons (hb : b < 0x80) (t : Text) :
    toChars (b :: t) = Char.ofNat b.toNat :: toChars t := by
  have huncons : uncons (b :: t) = some (.char (Char.ofNat b.toNat), t) := by simp [uncons, hb]
  rw [toChars, pieces_of_uncons huncons, List.map_cons]
  rfl

end

end Text

end PackageCycles

import PackageCycles.Proofs.Text.Pieces
import PackageCycles.Text.Quoted

/-!
# Quoted texts can be read back

Between double quotes a character is written plainly, or as an escape sequence that is a backslash
with one more character, or a backslash, a letter and as many hexadecimal digits as the letter calls
for (`Text.Spelling`). The first bytes of a spelling tell which of these it is, so spellings are
prefix free, and a spelling tells the piece that is spelled (`Text.piece_spell`). No spelling starts
with a double quote. Hence a quoted text tells the text and what comes behind it
(`Text.quoted_append_inj`).
-/

namespace PackageCycles.Text

/-! ## Hexadecimal digits -/

section
variable {width n m : Nat} {x y : Text}

theorem ofChars_append (cs ds : List Char) : ofChars (cs ++ ds) = ofChars cs ++ ofChars ds :=
  List.flatMap_append

theorem ofChars_cons (c : Char) (cs : List Char) :
    ofChars (c :: cs) = String.utf8EncodeChar c ++ ofChars cs :=
  List.flatMap_cons

theorem hex_one (h : n < 16) : hex 1 n = String.utf8EncodeChar n.digitChar := by
  rw [hex, Nat.toDigits_of_lt_base h]
  simp [ofChars]

/-- The last digit of a number stands last. -/
theorem hex_succ : hex (width + 2) n =
    hex (width + 1) (n / 16) ++ String.utf8EncodeChar (n % 16).digitChar := by
  have hlast : ofChars [(n % 16).digitChar] = String.utf8EncodeChar (n % 16).digitChar := by
    simp [ofChars]
  rw [hex, hex, ← hlast, ← ofChars_append, Nat.toDigits_eq_if (by decide)]
  split
  next hlt =>
    rw [Nat.div_eq_of_lt hlt, Nat.mod_eq_of_lt hlt, Nat.toDigits_zero, List.length_singleton,
      List.length_singleton, Nat.add_sub_cancel, ← List.replicate_succ']
    rfl
  next =>
    rw [List.length_append, List.length_singleton, show width + 2 = width + 1 + 1 from rfl,
      Nat.add_sub_add_right, List.append_assoc]

/-- A digit is one byte. -/
theorem length_digit (h : n < 16) : (String.utf8EncodeChar n.digitChar).length = 1 :=
  (by decide : ∀ n < 16, (String.utf8EncodeChar n.digitChar).length = 1) n h

/-- The digits are different. -/
theorem digit_inj (hn : n < 16) (hm : m < 16)
    (h : String.utf8EncodeChar n.digitChar = String.utf8EncodeChar m.digitChar) : n = m :=
  (by decide : ∀ n < 16, ∀ m < 16,
    String.utf8EncodeChar n.digitChar = String.utf8EncodeChar m.digitChar → n = m) n hn m hm h

theorem div_lt_pow (h : n < Nat.pow 16 (width + 2)) : n / 16 < Nat.pow 16 (width + 1) :=
  (Nat.div_lt_iff_lt_mul (by decide)).2 h

/-- A number with digits enough has exactly so many. -/
theorem length_hex : ∀ {width n : Nat}, n < Nat.pow 16 (width + 1) →
    (hex (width + 1) n).length = width + 1
  | 0, _, h => by rw [hex_one h, length_digit h]
  | width + 1, n, h => by
    rw [hex_succ, List.length_append, length_hex (div_lt_pow h),
      length_digit (Nat.mod_lt n (by decide))]

/-- The digits tell the number. -/
theorem hex_inj : ∀ {width n m : Nat}, n < Nat.pow 16 (width + 1) → m < Nat.pow 16 (width + 1) →
    hex (width + 1) n = hex (width + 1) m → n = m
  | 0, _, _, hn, hm, h => by
    rw [hex_one hn, hex_one hm] at h
    exact digit_inj hn hm h
  | width + 1, n, m, hn, hm, h => by
    have hmod : ∀ n, n % 16 < 16 := fun n => Nat.mod_lt n (by decide)
    rw [hex_succ, hex_succ] at h
    obtain ⟨hfront, hlast⟩ := List.append_inj' h
      ((length_digit (hmod n)).trans (length_digit (hmod m)).symm)
    have hquotient := hex_inj (div_lt_pow hn) (div_lt_pow hm) hfront
    have hremainder := digit_inj (hmod n) (hmod m) hlast
    rw [← Nat.div_add_mod n 16, hquotient, hremainder, Nat.div_add_mod]

theorem hex_append_inj (width : Nat) (hn : n < Nat.pow 16 (width + 1))
    (hm : m < Nat.pow 16 (width + 1)) (h : hex (width + 1) n ++ x = hex (width + 1) m ++ y) :
    n = m ∧ x = y := by
  obtain ⟨hdigits, hrest⟩ := List.append_inj h ((length_hex hn).trans (length_hex hm).symm)
  exact ⟨hex_inj hn hm hdigits, hrest⟩

end

/-! ## Spellings -/

/-- The letters that call for hexadecimal digits. -/
inductive HexMark where
  /-- Two digits, for a byte or a control character. -/
  | byte
  /-- Four digits. -/
  | short
  /-- Eight digits. -/
  | long
  deriving DecidableEq

/-- The letter. -/
def HexMark.letter : HexMark → Char
  | .byte => 'x'
  | .short => 'u'
  | .long => 'U'

/-- The number of digits. -/
def HexMark.width : HexMark → Nat
  | .byte => 2
  | .short => 4
  | .long => 8

/-- How a piece is written between double quotes. -/
inductive Spelling where
  /-- As it is. -/
  | plain (c : Char)
  /-- By a backslash and another character. -/
  | escape (letter : Char)
  /-- By the digits of a number. -/
  | digits (mark : HexMark) (n : Nat)

namespace Spelling

/-- The bytes of a spelling. -/
def text : Spelling → Text
  | .plain c => ofChars [c]
  | .escape letter => ofChars ['\\', letter]
  | .digits mark n => ofChars ['\\', mark.letter] ++ hex mark.width n

/-- The spelling can be told from others: what is written plainly is neither a double quote nor a
backslash, an escape does not look like one with digits, and there are digits enough for the
number. -/
def IsClear : Spelling → Prop
  | .plain c => c ≠ '"' ∧ c ≠ '\\'
  | .escape letter => ∀ mark : HexMark, letter ≠ mark.letter
  | .digits mark n => n < Nat.pow 16 mark.width

/-- The character that an escape stands for. -/
def unescape (letter : Char) : Char :=
  match letter with
  | 'a' => Char.ofNat 7
  | 'b' => Char.ofNat 8
  | 't' => Char.ofNat 9
  | 'n' => Char.ofNat 10
  | 'v' => Char.ofNat 11
  | 'f' => Char.ofNat 12
  | 'r' => Char.ofNat 13
  | letter => letter

/-- The piece that is spelled. -/
def piece : Spelling → Piece
  | .plain c => .char c
  | .escape letter => .char (unescape letter)
  | .digits .byte n => if n < 0x80 then .char (Char.ofNat n) else .stray (UInt8.ofNat n)
  | .digits _ n => .char (Char.ofNat n)

end Spelling

/-- How a piece is spelled. -/
def spell : Piece → Spelling
  | .stray b => .digits .byte b.toNat
  | .char c =>
    if c = '"' || c = '\\' then .escape c
    else if Unicode.isPrintable c then .plain c
    else match shortEscape? c with
      | some letter => .escape letter
      | none =>
        if c.toNat < 0x20 || c.toNat = 0x7F then .digits .byte c.toNat
        else if c.toNat < 0x10000 then .digits .short c.toNat
        else .digits .long c.toNat

section
variable {p q : Piece} {c letter : Char} {x y : Text} {s t : Spelling}

theorem quotePiece_eq (p : Piece) : quotePiece p = (spell p).text := by
  cases p with
  | stray b => rfl
  | char c =>
    rw [quotePiece, spell]
    split
    next => rfl
    next =>
      split
      next => rfl
      next =>
        cases shortEscape? c with
        | some letter => rfl
        | none =>
          simp only
          split
          next => rfl
          next =>
            split
            next => rfl
            next => rfl

/-- The letters of short escapes tell the character and call for no digits. -/
theorem unescape_of_shortEscape? (h : shortEscape? c = some letter) :
    Spelling.unescape letter = c ∧ ∀ mark : HexMark, letter ≠ mark.letter := by
  rw [shortEscape?] at h
  split at h
  case h_8 => exact nomatch h
  all_goals
    next hcode =>
      cases h
      refine ⟨?_, fun mark => by cases mark <;> decide⟩
      rw [← Char.ofNat_toNat c, hcode]
      rfl

/-- A spelling tells the piece that is spelled. -/
theorem piece_spell (hp : p.IsRead) : (spell p).piece = p := by
  cases p with
  | stray b =>
    have hb : ¬ b.toNat < 0x80 := Nat.not_lt.2 (UInt8.le_iff_toNat_le.1 hp)
    rw [spell, Spelling.piece, if_neg hb, UInt8.ofNat_toNat]
  | char c =>
    rw [spell]
    split
    next hquote =>
      rw [Bool.or_eq_true, decide_eq_true_iff, decide_eq_true_iff] at hquote
      rcases hquote with rfl | rfl
      · rfl
      · rfl
    next =>
      split
      next => rfl
      next =>
        cases hletter : shortEscape? c with
        | some letter => exact congrArg Piece.char (unescape_of_shortEscape? hletter).1
        | none =>
          simp only
          split
          next hcontrol =>
            rw [Bool.or_eq_true, decide_eq_true_iff, decide_eq_true_iff] at hcontrol
            have hlow : c.toNat < 0x80 := by omega
            rw [Spelling.piece, if_pos hlow, Char.ofNat_toNat]
          next =>
            split
            next => exact congrArg Piece.char (Char.ofNat_toNat c)
            next => exact congrArg Piece.char (Char.ofNat_toNat c)

/-- Spellings can be told from each other. -/
theorem isClear_spell (p : Piece) : (spell p).IsClear := by
  cases p with
  | stray b => exact b.toNat_lt
  | char c =>
    rw [spell]
    split
    next hquote =>
      rw [Bool.or_eq_true, decide_eq_true_iff, decide_eq_true_iff] at hquote
      intro mark
      rcases hquote with rfl | rfl
      · cases mark <;> decide
      · cases mark <;> decide
    next hquote =>
      split
      next =>
        rw [Bool.or_eq_true, decide_eq_true_iff, decide_eq_true_iff, not_or] at hquote
        exact hquote
      next =>
        cases hletter : shortEscape? c with
        | some letter => exact (unescape_of_shortEscape? hletter).2
        | none =>
          simp only
          split
          next hcontrol =>
            rw [Bool.or_eq_true, decide_eq_true_iff, decide_eq_true_iff] at hcontrol
            show c.toNat < 256
            omega
          next =>
            split
            next hshort => exact hshort
            next =>
              have hvalid : c.toNat < 0x110000 := by
                rcases c.valid with hlow | ⟨-, hhigh⟩
                · exact Nat.lt_trans hlow (by decide)
                · exact hhigh
              exact Nat.lt_trans hvalid (by decide)

/-- The letter of a mark tells the mark. -/
theorem HexMark.letter_inj : ∀ m m' : HexMark, m.letter = m'.letter → m = m' := by
  intro m m'
  cases m <;> cases m' <;> decide

/-- Digits enough for the mark tell the number and the rest. -/
theorem HexMark.hex_append_inj (mark : HexMark) {n m : Nat} (hn : n < Nat.pow 16 mark.width)
    (hm : m < Nat.pow 16 mark.width) (h : hex mark.width n ++ x = hex mark.width m ++ y) :
    n = m ∧ x = y := by
  cases mark with
  | byte => exact Text.hex_append_inj 1 hn hm h
  | short => exact Text.hex_append_inj 3 hn hm h
  | long => exact Text.hex_append_inj 7 hn hm h

theorem ofChars_cons_append_inj {cs ds : List Char} {d : Char}
    (h : ofChars (c :: cs) ++ x = ofChars (d :: ds) ++ y) :
    c = d ∧ ofChars cs ++ x = ofChars ds ++ y := by
  rw [ofChars_cons, List.append_assoc, ofChars_cons, List.append_assoc] at h
  exact utf8EncodeChar_append_inj h

/-- The first character of a spelling is a backslash unless the spelling is plain. -/
theorem Spelling.text_append_ne_plain (hc : c ≠ '\\') {cs : List Char} :
    ofChars [c] ++ x ≠ ofChars ('\\' :: cs) ++ y :=
  fun h => hc (ofChars_cons_append_inj h).1

/-- Spellings are prefix free. -/
theorem Spelling.prefixFree_text : PrefixFree Spelling.IsClear Spelling.text := by
  intro s t x y hs ht h
  match s, t with
  | .plain c, .plain d =>
    obtain ⟨rfl, hrest⟩ := ofChars_cons_append_inj h
    exact ⟨rfl, hrest⟩
  | .plain c, .escape letter => exact absurd h (text_append_ne_plain hs.2)
  | .escape letter, .plain d => exact absurd h.symm (text_append_ne_plain ht.2)
  | .plain c, .digits mark n =>
    rw [text, text, List.append_assoc] at h
    exact absurd h (text_append_ne_plain hs.2)
  | .digits mark n, .plain d =>
    rw [text, text, List.append_assoc] at h
    exact absurd h.symm (text_append_ne_plain ht.2)
  | .escape letter, .escape letter' =>
    obtain ⟨rfl, hrest⟩ := ofChars_cons_append_inj (ofChars_cons_append_inj h).2
    exact ⟨rfl, hrest⟩
  | .escape letter, .digits mark n =>
    rw [text, text, List.append_assoc] at h
    exact absurd (ofChars_cons_append_inj (ofChars_cons_append_inj h).2).1 (hs mark)
  | .digits mark n, .escape letter =>
    rw [text, text, List.append_assoc] at h
    exact absurd (ofChars_cons_append_inj (ofChars_cons_append_inj h).2).1.symm (ht mark)
  | .digits mark n, .digits mark' n' =>
    rw [text, text, List.append_assoc, List.append_assoc] at h
    obtain ⟨hmark, hdigits⟩ := ofChars_cons_append_inj (ofChars_cons_append_inj h).2
    obtain rfl := HexMark.letter_inj mark mark' hmark
    obtain ⟨rfl, hrest⟩ := mark.hex_append_inj hs ht hdigits
    exact ⟨rfl, hrest⟩

/-- No spelling starts with a double quote. -/
theorem Spelling.text_append_ne_quote (hs : s.IsClear) : s.text ++ x ≠ ofChars ['"'] ++ y := by
  intro h
  cases s with
  | plain c => exact hs.1 (ofChars_cons_append_inj h).1
  | escape letter => exact absurd (ofChars_cons_append_inj h).1 (by decide)
  | digits mark n =>
    rw [text, List.append_assoc] at h
    exact absurd (ofChars_cons_append_inj h).1 (by decide)

/-! ## Quoted texts -/

/-- What is written for a piece tells the piece. -/
theorem prefixFree_quotePiece : PrefixFree Piece.IsRead quotePiece := by
  intro p q x y hp hq h
  rw [quotePiece_eq, quotePiece_eq] at h
  obtain ⟨hspell, hrest⟩ := Spelling.prefixFree_text (isClear_spell p) (isClear_spell q) h
  exact ⟨by rw [← piece_spell hp, hspell, piece_spell hq], hrest⟩

/-- A quoted text tells the text and what comes behind it. -/
theorem quoted_append_inj {s t : Text} (h : s.quoted ++ x = t.quoted ++ y) : s = t ∧ x = y := by
  have hopen : ∀ (s x : Text), s.quoted ++ x =
      "\"" ++ (s.pieces.flatMap quotePiece ++ ("\"" ++ x)) := by
    intro s x
    rw [quoted, List.append_assoc, List.append_assoc]
  rw [hopen, hopen] at h
  have hstop : ∀ {p : Piece} {x y : Text}, p.IsRead → quotePiece p ++ x ≠ "\"" ++ y := by
    intro p x y _
    rw [quotePiece_eq]
    exact Spelling.text_append_ne_quote (isClear_spell p)
  obtain ⟨hpieces, hrest⟩ := prefixFree_quotePiece.flatMap hstop (isRead_of_mem_pieces s)
    (isRead_of_mem_pieces t) (List.append_cancel_left h)
  exact ⟨by rw [← flatMap_bytes_pieces s, hpieces, flatMap_bytes_pieces], hrest⟩

end

end PackageCycles.Text

import Mathlib.Data.List.Basic
import PackageCycles.Text.Basic

/-!
# What separators tell

A text that is put in front of a separator can be told from the whole if the separator neither occurs
in it nor begins in it (`Text.Free`): the first occurrence of the separator cuts the whole in one way
(`Text.Free.cut`), so parts can be told from what they are joined to (`Text.join_inj`). Splitting at
a byte gives back the parts that were joined by it (`Text.splitOn_join`), and the lines of a text of
lines (`Text.splitOn_flatMap_line`). Decimal numbers and truth values are words that hold no colon
and tell what they stand for (`Text.ofInt_injective`, `Text.ofBool_injective`).
-/

namespace PackageCycles

namespace Text

/-! ## Separators -/

section
variable {separator x x' y y' : Text} {a b : UInt8}

/-- The separator does not occur in the text, and no occurrence begins in the text when the
separator comes after it. -/
def Free (separator x : Text) : Prop := ¬ separator <:+: x ++ separator.dropLast

theorem Free.not_isInfix (h : Free separator x) : ¬ separator <:+: x :=
  fun hx => h (hx.trans List.infix_append_left)

/-- For a separator of one byte this means that the byte does not occur. -/
theorem free_byte_iff : Free [b] x ↔ b ∉ x := by
  rw [Free, List.dropLast_singleton, List.append_nil, not_iff_not, List.mem_iff_append]
  constructor
  · rintro ⟨before, after, rfl⟩
    exact ⟨before, after, by simp⟩
  · rintro ⟨before, after, rfl⟩
    exact ⟨before, after, by simp⟩

/-- Two different bytes do not overlap with themselves. -/
theorem free_pair_iff (hab : a ≠ b) : Free [a, b] x ↔ ¬ [a, b] <:+: x := by
  refine ⟨Free.not_isInfix, fun hx hfree => ?_⟩
  obtain ⟨before, after, h⟩ := hfree
  have hlast : before ++ [a, b] ++ after = x ++ [a] := h
  rcases List.eq_nil_or_concat after with rfl | ⟨after, c, rfl⟩
  · -- The second byte would be the last one, which is the first byte.
    have hends : (before ++ [a]) ++ [b] = x ++ [a] := by simpa using hlast
    exact hab (List.singleton_inj.1 (List.append_inj' hends rfl).2).symm
  · have hends : (before ++ [a, b] ++ after) ++ [c] = x ++ [a] := by simpa using hlast
    exact hx ⟨before, after, (List.append_inj' hends rfl).1⟩

/-- Where the separator comes after a text that is free of it, it does not come earlier. -/
theorem Free.eq_nil {z : Text} (hfree : Free separator (x ++ z))
    (h : separator ++ y = z ++ (separator ++ y')) : z = [] := by
  by_contra hne
  have hpos := List.length_pos_of_ne_nil hne
  have hlength : separator.length ≤ (z ++ separator.dropLast).length := by
    rw [List.length_append, List.length_dropLast]
    omega
  -- The separator begins in `z`, and all of it but its last byte is in front of `y'`.
  have hstart : z ++ separator.dropLast <+: z ++ (separator ++ y') :=
    (List.prefix_append_right_inj z).2
      ((List.dropLast_prefix separator).trans (List.prefix_append _ _))
  have hoverlap : separator <+: z ++ separator.dropLast :=
    List.prefix_of_prefix_length_le ⟨y, h⟩ hstart hlength
  refine hfree ?_
  rw [List.append_assoc]
  exact hoverlap.isInfix.trans List.infix_append_right

/-- A text is cut in one way by the first occurrence of a separator. -/
theorem Free.cut (hx : Free separator x) (hx' : Free separator x')
    (h : x ++ separator ++ y = x' ++ separator ++ y') : x = x' ∧ y = y' := by
  rw [List.append_assoc, List.append_assoc] at h
  rcases List.append_eq_append_iff.1 h with ⟨z, rfl, hz⟩ | ⟨z, rfl, hz⟩
  · obtain rfl := hx'.eq_nil hz
    exact ⟨(List.append_nil x).symm, List.append_cancel_left hz⟩
  · obtain rfl := hx.eq_nil hz
    exact ⟨List.append_nil x', (List.append_cancel_left hz).symm⟩

/-- A text is cut in one way by the last occurrence of a byte. -/
theorem cut_last (hy : b ∉ y) (hy' : b ∉ y') (h : x ++ [b] ++ y = x' ++ [b] ++ y') :
    x = x' ∧ y = y' := by
  have hreverse : y.reverse ++ [b] ++ x.reverse = y'.reverse ++ [b] ++ x'.reverse := by
    simpa using congrArg List.reverse h
  obtain ⟨hy, hx⟩ := Free.cut (free_byte_iff.2 (by simpa using hy))
    (free_byte_iff.2 (by simpa using hy')) hreverse
  exact ⟨List.reverse_inj.1 hx, List.reverse_inj.1 hy⟩

/-- A byte of joined parts is one of a part, or the separator. -/
theorem mem_join : ∀ {parts : List Text}, b ∈ join [a] parts →
    b = a ∨ ∃ part ∈ parts, b ∈ part
  | [], h => nomatch h
  | [part], h => .inr ⟨part, List.mem_singleton_self part, by simpa [join] using h⟩
  | part :: next :: parts, h => by
    rw [join, List.intercalate_cons_cons] at h
    rcases List.mem_append.1 h with h | h
    · rcases List.mem_append.1 h with h | h
      · exact .inr ⟨part, List.mem_cons_self, h⟩
      · exact .inl (List.mem_singleton.1 h)
    · rcases mem_join h with h | ⟨part', hpart', h⟩
      · exact .inl h
      · exact .inr ⟨part', List.mem_cons_of_mem _ hpart', h⟩

/-- The last part stands at the end, behind a separator. -/
theorem join_concat : ∀ {parts : List Text} (last : Text), parts ≠ [] →
    join separator (parts ++ [last]) = join separator parts ++ separator ++ last
  | [], _, h => absurd rfl h
  | [part], last, _ => by simp [join, List.intercalate_cons_cons]
  | part :: next :: parts, last, _ => by
    have ih : join separator (next :: (parts ++ [last])) = _ :=
      join_concat last (List.cons_ne_nil next parts)
    rw [join] at ih
    rw [List.cons_append, List.cons_append, join, List.intercalate_cons_cons, ih, join, join,
      List.intercalate_cons_cons]
    simp only [List.append_assoc]

/-- Parts that are free of the separator can be told from what they are joined to. -/
theorem join_inj : ∀ {parts parts' : List Text}, parts ≠ [] → parts' ≠ [] →
    (∀ p ∈ parts, Free separator p) → (∀ p ∈ parts', Free separator p) →
    join separator parts = join separator parts' → parts = parts'
  | [], _, hne, _, _, _, _ => absurd rfl hne
  | _, [], _, hne, _, _, _ => absurd rfl hne
  | [p], [q], _, _, _, _, h => by
    simpa [join] using h
  | [p], q :: q' :: rest, _, _, hfree, _, h => by
    refine absurd ⟨q, join separator (q' :: rest), ?_⟩ (hfree p List.mem_cons_self).not_isInfix
    simpa [join] using h.symm
  | p :: p' :: rest, [q], _, _, _, hfree, h => by
    refine absurd ⟨p, join separator (p' :: rest), ?_⟩ (hfree q List.mem_cons_self).not_isInfix
    simpa [join] using h
  | p :: p' :: rest, q :: q' :: rest', _, _, hfree, hfree', h => by
    obtain ⟨hp, hrest⟩ := List.forall_mem_cons.1 hfree
    obtain ⟨hq, hrest'⟩ := List.forall_mem_cons.1 hfree'
    rw [join, join, List.intercalate_cons_cons, List.intercalate_cons_cons] at h
    obtain ⟨rfl, htail⟩ := hp.cut hq h
    rw [join_inj (List.cons_ne_nil _ _) (List.cons_ne_nil _ _) hrest hrest' htail]

/-- The stretches of a text between separators, as lists are split in general. -/
theorem splitOn_eq (separator : UInt8) (s : Text) :
    splitOn separator s = List.splitOn separator s := by
  induction s with
  | nil => rfl
  | cons b s ih =>
    unfold splitOn at ih ⊢
    rw [List.foldr_cons, ih, List.splitOn_cons_eq_if_modifyHead]
    obtain ⟨part, rest, hparts⟩ := List.exists_cons_of_ne_nil (List.splitOn_ne_nil separator s)
    by_cases hb : b = separator
    · simp [hb]
    · simp [hb, hparts]

/-- Parts that are free of a byte are what their text is split into at it. -/
theorem splitOn_join {parts : List Text} (hne : parts ≠ []) (h : ∀ part ∈ parts, b ∉ part) :
    (join [b] parts).splitOn b = parts := by
  rw [splitOn_eq, join, List.splitOn_intercalate b h hne]

/-- Lines without a line break are what their text is split into, with nothing behind the last. -/
theorem splitOn_flatMap_line : ∀ {lines : List Text}, (∀ line ∈ lines, b ∉ line) →
    splitOn b (lines.flatMap fun line => line ++ [b]) = lines ++ [[]]
  | [], _ => rfl
  | line :: rest, h => by
    obtain ⟨hline, hrest⟩ := List.forall_mem_cons.1 h
    have ih := splitOn_flatMap_line hrest
    rw [splitOn_eq] at ih ⊢
    rw [List.flatMap_cons, List.append_assoc, List.singleton_append,
      List.splitOn_append_cons_self_of_not_mem hline, ih, List.cons_append]

end

/-! ## Decimal numbers -/

section
variable {n : Nat} {c : Char} {b : UInt8}

/-- Numbers are written with the digits from `0` to `9`. -/
theorem digit_bounds (hc : c ∈ Nat.toDigits 10 n) : 48 ≤ c.toNat ∧ c.toNat ≤ 57 := by
  have hdigit := Nat.isDigit_of_mem_toDigits (by decide) (by decide) hc
  simp only [Char.isDigit, Bool.and_eq_true, decide_eq_true_eq] at hdigit
  exact hdigit

theorem toNat_byte_digit (hc : c ∈ Nat.toDigits 10 n) : (byte c).toNat = c.toNat := by
  have hbound := (digit_bounds hc).2
  show c.toNat % 256 = c.toNat
  omega

/-- A decimal number has one byte for each digit. -/
theorem ofNat_eq_map (n : Nat) : ofNat n = (Nat.toDigits 10 n).map byte := by
  have hsingle : ∀ c ∈ Nat.toDigits 10 n, String.utf8EncodeChar c = [byte c] := by
    intro c hc
    have hbound : c.toNat ≤ 127 := Nat.le_trans (digit_bounds hc).2 (by decide)
    exact String.utf8EncodeChar_eq_singleton (Char.utf8Size_eq_one_iff.2 hbound)
  rw [ofNat, ofChars, List.flatMap_congr hsingle, ← List.map_eq_flatMap]

/-- So are their texts. -/
theorem bounds_of_mem_ofNat (h : b ∈ ofNat n) : 48 ≤ b.toNat ∧ b.toNat ≤ 57 := by
  rw [ofNat_eq_map] at h
  obtain ⟨c, hc, rfl⟩ := List.mem_map.1 h
  rw [toNat_byte_digit hc]
  exact digit_bounds hc

/-- The digits can be read back from a decimal number. -/
theorem map_ofNat (n : Nat) :
    (ofNat n).map (fun b => Char.ofNat b.toNat) = Nat.toDigits 10 n := by
  have hread : ∀ c ∈ Nat.toDigits 10 n, Char.ofNat (byte c).toNat = c := by
    intro c hc
    rw [toNat_byte_digit hc, Char.ofNat_toNat]
  rw [ofNat_eq_map, List.map_map]
  exact (List.map_congr_left hread).trans (List.map_id _)

/-- A decimal number tells the number. -/
theorem ofNat_injective : Function.Injective ofNat := by
  intro n m h
  have hdigits : Nat.toDigits 10 n = Nat.toDigits 10 m := by
    rw [← map_ofNat, h, map_ofNat]
  rw [← Nat.ofDigitChars_ten_toDigits (n := n), hdigits, Nat.ofDigitChars_ten_toDigits]

theorem ofInt_injective : Function.Injective ofInt := by
  have hminus : ∀ {n : Nat} {rest : Text}, ofNat n ≠ byte '-' :: rest := by
    intro n rest h
    exact absurd (bounds_of_mem_ofNat (h ▸ List.mem_cons_self)) (by decide)
  rintro (n | n) (m | m) h
  · exact congrArg Int.ofNat (ofNat_injective h)
  · exact (hminus h).elim
  · exact (hminus h.symm).elim
  · have hsucc : n + 1 = m + 1 := ofNat_injective (List.cons_inj_right _ |>.1 h)
    exact congrArg Int.negSucc (Nat.succ.inj hsucc)

theorem colon_notMem_ofInt (n : Int) : byte ':' ∉ ofInt n := by
  have hcolon : ∀ n, byte ':' ∉ ofNat n := fun n h => absurd (bounds_of_mem_ofNat h) (by decide)
  cases n with
  | ofNat n => exact hcolon n
  | negSucc n => exact List.not_mem_cons_of_ne_of_not_mem (by decide) (hcolon (n + 1))

end

/-! ## Truth values -/

theorem ofBool_injective : Function.Injective ofBool :=
  fun b b' => (by decide : ∀ b b', ofBool b = ofBool b' → b = b') b b'

theorem colon_notMem_ofBool : ∀ b, byte ':' ∉ ofBool b := by decide

end Text

end PackageCycles

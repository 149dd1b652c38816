import PackageCycles.Proofs.Pattern.Blanks
import PackageCycles.Proofs.Pattern.Groups
import PackageCycles.Proofs.Pattern.Sets

/-!
# What a stretch of a pattern leads to

A pattern is read in stretches: blanks and comments, then literal text, then the sign behind it. The
lemmas `gives_readStretch`, `gives_readBehind`, `gives_readSign`, `gives_closeGroup` and
`gives_addUnit` say what each part of a stretch may lead to. Then it follows that a stretch takes
some of the text (`length_readStretch_lt`), and that a pattern with fewer closing parentheses than
open groups is not read (`not_gives_readAll_of_unclosed`).
-/

namespace PackageCycles.Pattern

open Read

/-! ## Quantifiers -/

/-- A character that a quantifier consists of. -/
def InQuantifier (c : Char) : Prop := isDigit c ∨ c ∈ ['*', '+', '?', '\x7b', ',', '\x7d']

/-- What stands for a number of repetitions: a sign, a number in braces, or two of them, of which
the second one may be missing. -/
inductive QuantifierText : List Char → Prop
  /-- A sign. -/
  | sign (c : Char) (known : c = '*' ∨ c = '+' ∨ c = '?') : QuantifierText [c]
  /-- A number. -/
  | exact (ds : List Char) (digits : ∀ d ∈ ds, isDigit d) :
    QuantifierText ('\x7b' :: ds ++ ['\x7d'])
  /-- A least number and perhaps a greatest one. -/
  | range (ds es : List Char) (digits : ∀ d ∈ ds, isDigit d) (digits' : ∀ e ∈ es, isDigit e) :
    QuantifierText ('\x7b' :: ds ++ ',' :: es ++ ['\x7d'])

/-- It consists of digits and the signs of a quantifier. -/
theorem QuantifierText.inQuantifier {q : List Char} (hq : QuantifierText q) :
    ∀ d ∈ q, InQuantifier d := by
  have hbraces : InQuantifier '\x7b' ∧ InQuantifier '\x7d' :=
    ⟨.inr (by decide), .inr (by decide)⟩
  have hdigits {ds : List Char} (digits : ∀ d ∈ ds, isDigit d) : ∀ d ∈ ds, InQuantifier d :=
    fun d hd => .inl (digits d hd)
  cases hq with
  | sign c known =>
    refine List.forall_mem_singleton.2 (.inr ?_)
    rcases known with rfl | rfl | rfl <;> decide
  | exact ds digits =>
    exact List.forall_mem_append.2 ⟨List.forall_mem_cons.2 ⟨hbraces.1, hdigits digits⟩,
      List.forall_mem_singleton.2 hbraces.2⟩
  | range ds es digits digits' =>
    exact List.forall_mem_append.2 ⟨List.forall_mem_append.2
      ⟨List.forall_mem_cons.2 ⟨hbraces.1, hdigits digits⟩,
        List.forall_mem_cons.2 ⟨.inr (by decide), hdigits digits'⟩⟩,
      List.forall_mem_singleton.2 hbraces.2⟩

/-- A text starts with digits, perhaps none. -/
theorem split_at_digits (cs : List Char) :
    ∃ ds, cs = ds ++ cs.dropWhile isDigit ∧ ∀ d ∈ ds, isDigit d :=
  ⟨cs.takeWhile isDigit, List.takeWhile_append_dropWhile.symm, fun _ hd => List.mem_takeWhile_imp hd⟩

/-- A text that is recognized as a quantifier starts with one. -/
theorem quantifierText_of_startsQuantifier {cs : List Char} (h : startsQuantifier cs) :
    ∃ q more, cs = q ++ more ∧ QuantifierText q := by
  rcases cs with _ | ⟨c, cs⟩
  · cases h
  · rw [startsQuantifier] at h
    split at h
    · rename_i hc
      refine ⟨[c], cs, rfl, .sign c ?_⟩
      simpa [isQuantifier, hc, or_assoc] using h
    · rename_i hc
      obtain rfl := Decidable.not_not.1 hc
      obtain ⟨ds, hds, hdigits⟩ := split_at_digits cs
      split at h
      · cases h
      · split at h
        · rename_i more hdrop
          rw [hdrop] at hds
          exact ⟨'\x7b' :: ds ++ ['\x7d'], more, by simp [hds], .exact ds hdigits⟩
        · rename_i more hdrop
          obtain ⟨es, hes, hdigits'⟩ := split_at_digits more
          split at h
          · rename_i hdrop'
            rw [hdrop, hes, hdrop'] at hds
            exact ⟨'\x7b' :: ds ++ ',' :: es ++ ['\x7d'], more.dropWhile isDigit |>.tail,
              by simp [hds, hdrop'], .range ds es hdigits hdigits'⟩
          · cases h
        · cases h

/-- The number written with digits. -/
def numeral (ds : List Char) : Nat := ds.foldl (fun n c => n * 10 + (c.toNat - 48)) 0

section
variable {ds es more : List Char} {σ τ : Reader} {n : Nat}

/-- A number ends where its digits do. -/
theorem gives_number_of_digits {e : Char} (text : σ.rest = ds ++ e :: more)
    (digits : ∀ d ∈ ds, isDigit d) (he : isDigit e = false) (h : number.Gives σ n τ) :
    n = numeral ds ∧ τ = σ.before (e :: more) := by
  rw [number, gives_takeWhile_bind, text, List.takeWhile_append_of_pos digits,
    List.dropWhile_append_of_pos digits, List.takeWhile_cons_of_neg (by simp [he]),
    List.dropWhile_cons_of_neg (by simp [he]), List.append_nil] at h
  dsimp only at h
  split at h
  · exact (not_gives_throw_bind h).elim
  · exact gives_pure_iff.1 h

/-- A single number in braces is the greatest number of repetitions, too. -/
theorem gives_greatest_of_brace {least : Nat} (text : σ.rest = '\x7d' :: more)
    (h : (greatest least).Gives σ n τ) : n = least ∧ τ = σ := by
  rw [greatest, gives_peek?_bind, text, if_pos (by simp)] at h
  exact gives_pure_iff.1 h

/-- Behind a comma stands the greatest number of repetitions, or there is none. -/
theorem gives_greatest_of_comma {least : Nat} (text : σ.rest = ',' :: es ++ '\x7d' :: more)
    (digits : ∀ e ∈ es, isDigit e) (h : (greatest least).Gives σ n τ) :
    n = (if es = [] then unbounded else numeral es) ∧ τ = σ.before ('\x7d' :: more) := by
  rw [greatest, gives_peek?_bind, text, if_neg (by simp), gives_skip_bind, gives_peek?_bind,
    Reader.before_rest, text] at h
  rcases es with _ | ⟨e, es⟩
  · rw [if_pos (by rfl)] at h
    obtain ⟨rfl, rfl⟩ := gives_pure_iff.1 h
    exact ⟨rfl, rfl⟩
  · have he : e ≠ '\x7d' := by
      rintro rfl
      exact absurd (digits _ List.mem_cons_self) (by decide)
    rw [if_neg (by simpa using he)] at h
    rw [if_neg (List.cons_ne_nil _ _)]
    exact gives_number_of_digits (σ := σ.before (e :: es ++ '\x7d' :: more)) rfl digits (by decide) h

end

/-- The bounds and the place where reading a quantifier ends do not depend on what is behind it. -/
theorem QuantifierText.gives {q : List Char} (hq : QuantifierText q) :
    ∃ bounds : Bounds, ∀ σ more, σ.rest = q ++ more → ∀ b τ, repetitions.Gives σ b τ →
      b = bounds ∧ τ = σ.before more := by
  cases hq with
  | sign c known =>
    obtain rfl | rfl | rfl := known
    · refine ⟨⟨0, unbounded⟩, fun σ more text b τ h => ?_⟩
      rw [repetitions, gives_next?_bind, text] at h
      exact gives_pure_iff.1 h
    · refine ⟨⟨1, unbounded⟩, fun σ more text b τ h => ?_⟩
      rw [repetitions, gives_next?_bind, text] at h
      exact gives_pure_iff.1 h
    · refine ⟨⟨0, 1⟩, fun σ more text b τ h => ?_⟩
      rw [repetitions, gives_next?_bind, text] at h
      exact gives_pure_iff.1 h
  | exact ds digits =>
    refine ⟨⟨numeral ds, numeral ds⟩, fun σ more text b τ h => ?_⟩
    replace text : σ.rest = '\x7b' :: (ds ++ '\x7d' :: more) := by simp [text]
    rw [repetitions, gives_next?_bind, text] at h
    obtain ⟨least, τ₁, hleast, hnext⟩ := gives_bind_iff.1 h
    obtain ⟨rfl, rfl⟩ := gives_number_of_digits rfl digits (by decide) hleast
    obtain ⟨most, τ₂, hmost, hnext⟩ := gives_bind_iff.1 hnext
    obtain ⟨rfl, rfl⟩ := gives_greatest_of_brace rfl hmost
    exact gives_pure_iff.1 (gives_skip_bind.1 hnext)
  | range ds es digits digits' =>
    refine ⟨⟨numeral ds, if es = [] then unbounded else numeral es⟩, fun σ more text b τ h => ?_⟩
    replace text : σ.rest = '\x7b' :: (ds ++ ',' :: (es ++ '\x7d' :: more)) := by simp [text]
    rw [repetitions, gives_next?_bind, text] at h
    obtain ⟨least, τ₁, hleast, hnext⟩ := gives_bind_iff.1 h
    obtain ⟨rfl, rfl⟩ := gives_number_of_digits rfl digits (by decide) hleast
    obtain ⟨most, τ₂, hmost, hnext⟩ := gives_bind_iff.1 hnext
    obtain ⟨rfl, rfl⟩ := gives_greatest_of_comma rfl digits' hmost
    exact gives_pure_iff.1 (gives_skip_bind.1 hnext)

/-- The parenthesis that closes a pattern does not make a quantifier of its end. -/
theorem startsQuantifier_append {t : List Char} (ht : Closes t) (cs : List Char) :
    startsQuantifier (cs ++ t) = startsQuantifier cs := by
  rcases cs with _ | ⟨c, cs⟩
  · obtain rfl | ⟨ds, rfl⟩ := ht.eq_nil_or_cons <;> rfl
  · rw [List.cons_append, startsQuantifier, startsQuantifier,
      takeWhile_append_of_closes ht (by decide), dropWhile_append_of_closes ht (by decide)]
    congr 2
    rcases cs.dropWhile isDigit with _ | ⟨d, ds⟩
    · obtain rfl | ⟨ds, rfl⟩ := ht.eq_nil_or_cons <;> rfl
    · by_cases hbrace : d = '\x7d'
      · subst hbrace
        rfl
      · by_cases hcomma : d = ','
        · subst hcomma
          simp only [List.cons_append]
          rw [dropWhile_append_of_closes ht (by decide)]
          rcases ds.dropWhile isDigit with _ | ⟨e, es⟩
          · obtain rfl | ⟨ds, rfl⟩ := ht.eq_nil_or_cons <;> rfl
          · rw [List.cons_append]
            by_cases he : e = '\x7d'
            · subst he
              rfl
            · simp [he]
        · simp [hbrace, hcomma]

/-! ## Units -/

/-- What is behind the sign that makes a quantifier lazy, if there is one. -/
def behindLazy (cs : List Char) : List Char := if cs.head? = some '?' then cs.tail else cs

section
variable {n n' : Nest} {grouped : Bool} {unit : Regex} {σ σ' : Reader}

/-- A unit is added as it is, or repeated as the quantifier behind it says. -/
theorem gives_addUnit (h : (addUnit n grouped unit).Gives σ n' σ') :
    ∃ b, behindBlanks σ.options.spaced σ.rest = some b ∧
      (startsQuantifier b = false ∧ n' = n.push unit ∧ σ' = σ.before b ∨
        startsQuantifier b ∧ ∃ bounds τ c, repetitions.Gives (σ.before b) bounds τ ∧
          behindBlanks τ.options.spaced τ.rest = some c ∧ σ' = τ.before (behindLazy c) ∧
          n' = { n.push (unit.times grouped bounds (c.head? = some '?')) with
            afterQuantifier := true }) := by
  rw [addUnit] at h
  obtain ⟨b, hb, hunit⟩ := gives_blanks_bind.1 h
  refine ⟨b, hb, ?_⟩
  rw [gives_rest_bind, Reader.before_rest] at hunit
  split at hunit
  · rename_i hquantifier
    refine .inr ⟨hquantifier, ?_⟩
    obtain ⟨bounds, τ, hbounds, hnext⟩ := gives_bind_iff.1 hunit
    obtain ⟨c, hc, hlazy⟩ := gives_blanks_bind.1 hnext
    refine ⟨bounds, τ, c, hbounds, hc, ?_⟩
    rw [gives_peek?_bind, Reader.before_rest, ← List.head?_eq_getElem?] at hlazy
    rw [behindLazy]
    dsimp only at hlazy
    split at hlazy
    · rename_i hhead
      rw [gives_skip_bind] at hlazy
      split at hlazy
      · exact (not_gives_throw_bind hlazy).elim
      · obtain ⟨rfl, rfl⟩ := gives_pure_iff.1 hlazy
        rw [if_pos hhead, ← List.drop_one]
        exact ⟨rfl, rfl⟩
    · rename_i hhead
      split at hlazy
      · exact (not_gives_throw_bind hlazy).elim
      · obtain ⟨rfl, rfl⟩ := gives_pure_iff.1 hlazy
        rw [if_neg hhead]
        exact ⟨rfl, rfl⟩
  · rename_i hquantifier
    obtain ⟨rfl, rfl⟩ := gives_pure_iff.1 hunit
    exact .inl ⟨Bool.eq_false_iff.2 hquantifier, rfl, rfl⟩

/-- The expression of a group is the condition of the conditional around it, or a unit there. -/
theorem gives_closeGroup (h : (closeGroup n).Gives σ n' σ') :
    ∃ parent outer r, n.outer = parent :: outer ∧ n.level.close = .ok r ∧
      (parent.kind = .ifMatches ∧ parent.before = [] ∧
          n' = ⟨{ parent with before := [r] }, outer, false⟩ ∧
          σ' = { σ with options := n.level.saved } ∨
        ¬ (parent.kind = .ifMatches ∧ parent.before = []) ∧
          (addUnit ⟨parent, outer, false⟩ true r).Gives { σ with options := n.level.saved } n' σ') := by
  rw [closeGroup] at h
  split at h
  · exact (not_gives_throw h).elim
  · rename_i parent outer houter
    split at h
    · exact (not_gives_throw h).elim
    · rename_i r hr
      refine ⟨parent, outer, r, houter, hr, ?_⟩
      rw [gives_setOptions_bind] at h
      split at h
      · rename_i hcondition
        obtain ⟨rfl, rfl⟩ := gives_pure_iff.1 h
        simp only [Bool.and_eq_true, decide_eq_true_eq, List.isEmpty_iff] at hcondition
        exact .inl ⟨hcondition.1, hcondition.2, rfl, rfl⟩
      · rename_i hcondition
        simp only [Bool.and_eq_true, decide_eq_true_eq, List.isEmpty_iff] at hcondition
        exact .inr ⟨hcondition, h⟩

/-- An opening parenthesis opens a group inside the innermost one, or it only changes the options.
-/
theorem gives_openGroup (h : (openGroup n).Gives σ n' σ') :
    ∃ kind, (groupOpening n.level.kind).Gives σ kind σ' ∧
      n' = match kind with
        | none => { n with afterQuantifier := false }
        | some kind =>
          ⟨Level.start kind σ'.options.mode.heading σ.options, n.level :: n.outer, false⟩ := by
  rw [openGroup, gives_options_bind] at h
  obtain ⟨kind, τ, hopening, hnext⟩ := gives_bind_iff.1 h
  refine ⟨kind, ?_⟩
  cases kind with
  | none =>
    obtain ⟨rfl, rfl⟩ := gives_pure_iff.1 hnext
    exact ⟨hopening, rfl⟩
  | some kind =>
    rw [gives_options_bind] at hnext
    obtain ⟨rfl, rfl⟩ := gives_pure_iff.1 hnext
    exact ⟨hopening, rfl⟩

end

/-! ## Literal text -/

/-- A character that may stand in literal text. -/
def IsLiteral (spaced : Bool) (c : Char) : Prop :=
  c ∉ ['\\', '[', '(', ')'] ∧ (spaced = true → c ≠ '#')

/-- Characters of a kind that no sign is of may stand in literal text. -/
theorem isLiteral_of_kind {p : Char → Bool} (hp : ['\\', '[', '(', ')', '#'].any p = false)
    {spaced : Bool} {c : Char} (h : p c) : IsLiteral spaced c := by
  have hne : c ∉ ['\\', '[', '(', ')', '#'] := fun hmem => List.any_eq_false.1 hp c hmem h
  exact ⟨fun hmem => hne (List.mem_append_left ['#'] hmem), fun _ hc => hne (by simp [hc])⟩

/-- What does not end literal text may stand in it. -/
theorem isLiteral_of_not_endsLiteral {spaced : Bool} {c : Char} {cs : List Char}
    (h : endsLiteral spaced c cs = false) : IsLiteral spaced c := by
  by_cases hbrace : c = '\x7b'
  · subst hbrace
    exact ⟨by decide, fun _ => by decide⟩
  · replace h : (if spaced then isSpacedSpecial c else isSpecial c) = false := by
      simpa [endsLiteral, hbrace] using h
    constructor
    · intro hmem
      simp only [List.mem_cons, List.not_mem_nil, or_false] at hmem
      obtain rfl | rfl | rfl | rfl := hmem <;> cases spaced <;> exact absurd h (by decide)
    · rintro rfl rfl
      exact absurd h (by decide)

/-- A text is cut into its literal start and the rest. -/
theorem literalText_spec (spaced : Bool) (cs : List Char) :
    cs = (literalText spaced cs).1 ++ (literalText spaced cs).2 ∧
      ∀ c ∈ (literalText spaced cs).1, IsLiteral spaced c := by
  induction cs with
  | nil => exact ⟨rfl, fun _ h => nomatch h⟩
  | cons c cs ih =>
    rw [literalText]
    split
    · exact ⟨rfl, fun _ h => nomatch h⟩
    · rename_i hordinary
      refine ⟨congrArg (c :: ·) ih.1, fun d hd => ?_⟩
      rcases List.mem_cons.1 hd with rfl | hd
      · exact isLiteral_of_not_endsLiteral (Bool.eq_false_iff.2 hordinary)
      · exact ih.2 d hd

/-- Literal text ends where the pattern does. -/
theorem literalText_append {t : List Char} (ht : Closes t) (spaced : Bool) (cs : List Char) :
    literalText spaced (cs ++ t) =
      ((literalText spaced cs).1, (literalText spaced cs).2 ++ t) := by
  induction cs with
  | nil =>
    obtain rfl | ⟨ds, rfl⟩ := ht.eq_nil_or_cons
    · rfl
    · cases spaced <;> rfl
  | cons c cs ih =>
    have hends : endsLiteral spaced c (cs ++ t) = endsLiteral spaced c cs := by
      rw [endsLiteral, endsLiteral, ← List.cons_append, startsQuantifier_append ht]
    rw [List.cons_append, literalText, literalText, ih, hends]
    split <;> rfl

/-! ## Signs and stretches -/

/-- The unit that a sign starts is read in the same way. -/
theorem Read.Follows.signUnit {S : Reader → Reader → Prop} {t : List Char} (hS : Textless S)
    (ht : Closes t) (hgroups : SharesGroups S) (c : Char) (cs : List Char) :
    Follows S t (Same S t) cs (signUnit c) (signUnit c) := by
  unfold Pattern.signUnit
  refine options fun σ τ hστ => ?_
  rw [(hgroups σ τ hστ).1]
  split
  · exact bind (bracketed hS ht (fun _ => rfl) (by simp)).same fun _ _ _ => pure _
  · exact (backslash hS ht (fun _ => hgroups) (by simp)).same
  · exact pure _
  · exact pure _
  · split
    · exact pure _
    · exact pure _

section
variable {n n' : Nest} {literal : List Char} {c : Char} {σ σ' : Reader}

/-- A sign opens or closes a group, starts an alternative or starts a unit. -/
theorem gives_readSign (h : (readSign n c).Gives σ n' σ') :
    c = '(' ∧ (openGroup n).Gives σ n' σ' ∨
      c = '|' ∧ n' = { n with level := n.level.nextAlternative, afterQuantifier := false } ∧
        σ' = σ ∨
      c = ')' ∧ (closeGroup n).Gives σ n' σ' ∨
      c ∉ ['(', '|', ')'] ∧ ∃ unit τ, (signUnit c).Gives σ unit τ ∧
        (addUnit n false unit).Gives τ n' σ' := by
  unfold readSign at h
  split at h
  · exact .inl ⟨rfl, h⟩
  · obtain ⟨rfl, rfl⟩ := gives_pure_iff.1 h
    exact .inr (.inl ⟨rfl, rfl, rfl⟩)
  · exact .inr (.inr (.inl ⟨rfl, h⟩))
  · rename_i hopen hbar hclose
    obtain ⟨unit, τ, hunit, hadd⟩ := gives_bind_iff.1 h
    refine .inr (.inr (.inr ⟨?_, unit, τ, hunit, hadd⟩))
    simp only [List.mem_cons, List.not_mem_nil, or_false, not_or]
    exact ⟨hopen, hbar, hclose⟩

/-- The nest behind literal text, if there is any. -/
def Nest.behind (n : Nest) (o : Options) (literal : List Char) : Nest :=
  if literal.isEmpty then n else n.pushLiteral o literal

section
variable {more : List Char}

/-- Literal text in front of no sign is a part of its own. -/
theorem gives_readBehind_of_ordinary (hhead : ∀ c ∈ σ.rest.head?, isSpecial c = false) :
    (readBehind n literal).Gives σ n' σ' ↔ n' = n.pushLiteral σ.options literal ∧ σ' = σ := by
  rw [readBehind, gives_options_bind, gives_rest_bind]
  cases hrest : σ.rest with
  | nil => exact gives_pure_iff
  | cons c more =>
    have hordinary := hhead c (by rw [hrest]; rfl)
    dsimp only
    rw [if_pos (by simp [hordinary])]
    exact gives_pure_iff

/-- A quantifier behind literal text is one of its last character. -/
theorem gives_readBehind_of_quantifier (hrest : σ.rest = c :: more) (hc : isQuantifier c) :
    (readBehind n literal).Gives σ n' σ' ↔ ∃ last, literal.getLast? = some last ∧
      (addUnit (n.pushLiteral σ.options literal.dropLast) false
        (literalUnit σ.options last.toNat)).Gives σ n' σ' := by
  rw [readBehind, gives_options_bind, gives_rest_bind, hrest]
  dsimp only
  rw [if_neg (by simp [isSpecial, hc]), if_pos hc]
  cases hlast : literal.getLast? with
  | none => exact ⟨fun h => (not_gives_throw h).elim, fun ⟨_, hnone, _⟩ => nomatch hnone⟩
  | some last =>
    refine ⟨fun h => ⟨last, rfl, h⟩, fun ⟨last', hlast', h⟩ => ?_⟩
    rwa [Option.some.inj hlast']

/-- Any other sign is read with the literal text in front of it. -/
theorem gives_readBehind_of_sign (hrest : σ.rest = c :: more) (hspecial : isSpecial c)
    (hc : isQuantifier c = false) :
    (readBehind n literal).Gives σ n' σ' ↔
      (readSign (n.behind σ.options literal) c).Gives (σ.before more) n' σ' := by
  rw [readBehind, gives_options_bind, gives_rest_bind, hrest]
  dsimp only
  rw [if_neg (by simp [hspecial]), if_neg (by simp [hc]), gives_skip_bind, hrest, Nest.behind]
  split <;> rfl

/-- Behind literal text stands no sign, a quantifier of its last character, or another sign. -/
theorem gives_readBehind (h : (readBehind n literal).Gives σ n' σ') :
    (∀ c ∈ σ.rest.head?, isSpecial c = false) ∧ n' = n.pushLiteral σ.options literal ∧ σ' = σ ∨
      (∃ c more last, σ.rest = c :: more ∧ isQuantifier c ∧ literal.getLast? = some last ∧
        (addUnit (n.pushLiteral σ.options literal.dropLast) false
          (literalUnit σ.options last.toNat)).Gives σ n' σ') ∨
      ∃ c more, σ.rest = c :: more ∧ isSpecial c ∧ isQuantifier c = false ∧
        (readSign (n.behind σ.options literal) c).Gives (σ.before more) n' σ' := by
  by_cases hhead : ∀ c ∈ σ.rest.head?, isSpecial c = false
  · exact .inl ⟨hhead, (gives_readBehind_of_ordinary hhead).1 h⟩
  · obtain ⟨c, hc, hspecial⟩ : ∃ c ∈ σ.rest.head?, isSpecial c := by simpa using hhead
    obtain ⟨more, hrest⟩ := List.head?_eq_some_iff.1 hc
    cases hquantifier : isQuantifier c with
    | true =>
      obtain ⟨last, hlast, hadd⟩ := (gives_readBehind_of_quantifier hrest hquantifier).1 h
      exact .inr (.inl ⟨c, more, last, hrest, hquantifier, hlast, hadd⟩)
    | false =>
      have hsign := (gives_readBehind_of_sign hrest hspecial hquantifier).1 h
      exact .inr (.inr ⟨c, more, hrest, hspecial, hquantifier, hsign⟩)

end

/-- A stretch is what stands behind blanks and comments: literal text, more of them, and a sign. -/
theorem gives_readStretch (h : (readStretch n).Gives σ n' σ') :
    ∃ b, behindBlanks σ.options.spaced σ.rest = some b ∧
      (readBehind n (literalText σ.options.spaced b).1).Gives
        (σ.before ((behindBlanks σ.options.spaced (literalText σ.options.spaced b).2).getD []))
        n' σ' := by
  rw [readStretch] at h
  obtain ⟨b, hb, h⟩ := gives_blanks_bind.1 h
  rw [gives_options_bind, gives_rest_bind] at h
  exact ⟨b, hb, gives_attempt_blanks_bind.1 h⟩

end

/-! ## What is left of the text -/

@[simp] theorem Nest.push_outer (n : Nest) (r : Regex) : (n.push r).outer = n.outer := rfl

@[simp] theorem Nest.pushLiteral_outer (n : Nest) (o : Options) (cs : List Char) :
    (n.pushLiteral o cs).outer = n.outer := by
  have hfold (n : Nest) :
      (cs.foldl (fun n c => n.push (literalUnit o c.toNat)) n).outer = n.outer := by
    induction cs generalizing n with
    | nil => rfl
    | cons c cs ih => exact ih _
  exact hfold _

@[simp] theorem Nest.behind_outer (n : Nest) (o : Options) (cs : List Char) :
    (n.behind o cs).outer = n.outer := by
  unfold Nest.behind
  split
  · rfl
  · exact n.pushLiteral_outer o cs

theorem behindLazy_suffix (cs : List Char) : behindLazy cs <:+ cs := by
  unfold behindLazy
  split
  · exact List.tail_suffix cs
  · exact List.suffix_rfl

section
variable {n n' : Nest} {grouped : Bool} {unit : Regex} {literal cs ds : List Char} {c : Char}
  {σ σ' : Reader}

/-- A quantifier is the front of the text. -/
theorem repetitions_suffix {bounds : Bounds} (hquantifier : startsQuantifier σ.rest)
    (h : repetitions.Gives σ bounds σ') : σ'.rest <:+ σ.rest := by
  obtain ⟨q, more, htext, hq⟩ := quantifierText_of_startsQuantifier hquantifier
  obtain ⟨bounds', hgives⟩ := hq.gives
  obtain ⟨-, rfl⟩ := hgives σ more htext bounds σ' h
  exact ⟨q, htext.symm⟩

theorem addUnit_before (h : (addUnit n grouped unit).Gives σ n' σ') : σ' = σ.before σ'.rest := by
  obtain ⟨b, -, ⟨-, -, rfl⟩ | ⟨hquantifier, bounds, τ, c, hbounds, -, rfl, -⟩⟩ := gives_addUnit h
  · rfl
  · obtain ⟨q, more, htext, hq⟩ := quantifierText_of_startsQuantifier hquantifier
    obtain ⟨bounds', hgives⟩ := hq.gives
    obtain ⟨-, rfl⟩ := hgives (σ.before b) more htext bounds τ hbounds
    rfl

/-- With a unit no group is opened or closed. -/
theorem addUnit_suffix (h : (addUnit n grouped unit).Gives σ n' σ') :
    σ'.rest <:+ σ.rest ∧ n'.outer = n.outer := by
  obtain ⟨b, hb, ⟨-, rfl, rfl⟩ | ⟨hquantifier, bounds, τ, c, hbounds, hc, rfl, rfl⟩⟩ :=
    gives_addUnit h
  · exact ⟨behindBlanks_suffix hb, rfl⟩
  · have hrepeated : τ.rest <:+ b := repetitions_suffix (σ := σ.before b) hquantifier hbounds
    exact ⟨(behindLazy_suffix c).trans ((behindBlanks_suffix hc).trans
      (hrepeated.trans (behindBlanks_suffix hb))), rfl⟩

theorem closeGroup_suffix (h : (closeGroup n).Gives σ n' σ') : σ'.rest <:+ σ.rest := by
  obtain ⟨parent, outer, r, -, -, ⟨-, -, -, rfl⟩ | ⟨-, hadd⟩⟩ := gives_closeGroup h
  · exact List.suffix_rfl
  · exact (addUnit_suffix hadd).1

theorem signUnit_suffix (h : (signUnit c).Gives σ unit σ') : σ'.rest <:+ σ.rest :=
  (Follows.signUnit textless_twins closes_nil sharesGroups_twins c σ.rest).suffix h

theorem signUnit_before (h : (signUnit c).Gives σ unit σ') : σ' = σ.before σ'.rest :=
  (Follows.signUnit (textless_triplets σ) closes_nil (sharesGroups_triplets σ) c σ.rest).before h

theorem readSign_suffix (h : (readSign n c).Gives σ n' σ') : σ'.rest <:+ σ.rest := by
  obtain ⟨-, hopen⟩ | ⟨-, -, rfl⟩ | ⟨-, hclose⟩ | ⟨-, unit, τ, hunit, hadd⟩ := gives_readSign h
  · obtain ⟨kind, hopening, -⟩ := gives_openGroup hopen
    exact (opening_of_gives hopening).suffix
  · exact List.suffix_rfl
  · exact closeGroup_suffix hclose
  · exact (addUnit_suffix hadd).1.trans (signUnit_suffix hunit)

theorem readBehind_suffix (h : (readBehind n literal).Gives σ n' σ') : σ'.rest <:+ σ.rest := by
  obtain ⟨-, -, rfl⟩ | ⟨c, more, last, -, -, -, hadd⟩ | ⟨c, more, hrest, -, -, hsign⟩ :=
    gives_readBehind h
  · exact List.suffix_rfl
  · exact (addUnit_suffix hadd).1
  · rw [hrest]
    exact (readSign_suffix hsign).trans (List.suffix_cons c more)

theorem behindBlanks_getD_suffix (spaced : Bool) (cs : List Char) :
    (behindBlanks spaced cs).getD [] <:+ cs := by
  cases hb : behindBlanks spaced cs with
  | none => exact List.nil_suffix
  | some b => exact behindBlanks_suffix hb

theorem literalText_suffix (spaced : Bool) (cs : List Char) : (literalText spaced cs).2 <:+ cs :=
  ⟨_, (literalText_spec spaced cs).1.symm⟩

/-- Literal text that is empty ends at a sign. -/
theorem isSpecial_of_literalText_nil {spaced : Bool} (hspaces : withoutSpaces spaced (c :: cs) = c :: cs)
    (hline : ¬ StartsLine spaced (c :: cs)) (h : (literalText spaced (c :: cs)).1 = []) :
    isSpecial c := by
  rw [literalText] at h
  split at h
  · rename_i hends
    rw [endsLiteral, Bool.and_eq_true] at hends
    cases spaced with
    | false => exact hends.1
    | true =>
      have hspace : isSpace c = false := by
        by_contra hspace
        rw [Bool.not_eq_false] at hspace
        have hlength := (List.dropWhile_suffix (l := cs) isSpace).length_le
        rw [withoutSpaces, if_pos rfl, List.dropWhile_cons_of_pos hspace] at hspaces
        rw [hspaces] at hlength
        exact Nat.not_succ_le_self _ hlength
      have hhash : c ≠ '#' := fun hc => hline ⟨rfl, congrArg some hc⟩
      simpa [isSpacedSpecial, hspace, hhash] using hends.1
  · cases h

/-- A stretch of a text that is not empty takes some of it. -/
theorem length_readStretch_lt (hrest : σ.rest ≠ []) (h : (readStretch n).Gives σ n' σ') :
    σ'.rest.length < σ.rest.length := by
  obtain ⟨b, hb, hbehind⟩ := gives_readStretch h
  have hlength := (behindBlanks_suffix hb).length_le
  have hsuffix := (readBehind_suffix hbehind).length_le
  have hmore := (behindBlanks_getD_suffix σ.options.spaced
    (literalText σ.options.spaced b).2).length_le
  have hsplit := congrArg List.length (literalText_spec σ.options.spaced b).1
  rw [List.length_append] at hsplit
  rw [Reader.before_rest] at hsuffix
  rcases hliteral : (literalText σ.options.spaced b).1 with _ | ⟨d, ds⟩
  · rcases b with _ | ⟨c, cs⟩
    · have hpos := List.length_pos_of_ne_nil hrest
      rw [List.length_nil] at hsplit
      omega
    · obtain ⟨hcomment, hline, hspaces⟩ := behindBlanks_settled hb
      have hspecial := isSpecial_of_literalText_nil hspaces hline hliteral
      have hsame : (literalText σ.options.spaced (c :: cs)).2 = c :: cs := by
        have hspec := (literalText_spec σ.options.spaced (c :: cs)).1
        rw [hliteral] at hspec
        exact hspec.symm
      rw [hliteral, hsame, behindBlanks_of_other (by rwa [hspaces]) (by rwa [hspaces]), hspaces] at hbehind
      obtain ⟨hhead, -, -⟩ | ⟨-, -, last, -, -, hlast, -⟩ | ⟨e, more, heq, -, -, hsign⟩ :=
        gives_readBehind hbehind
      · rw [hhead c rfl] at hspecial
        cases hspecial
      · cases hlast
      · cases heq
        exact (Nat.lt_succ_of_le (readSign_suffix hsign).length_le).trans_le hlength
  · rw [hliteral, List.length_cons] at hsplit
    omega

/-- There are fewer closing parentheses in a text than groups are open. -/
def Nest.Unclosed (n : Nest) (cs : List Char) : Prop := cs.count ')' < n.outer.length

/-- A group that stays open stays so further on in the text. -/
theorem Nest.Unclosed.of_suffix (h : n.Unclosed cs) (hds : ds <:+ cs) (hn : n'.outer = n.outer) :
    n'.Unclosed ds := by
  unfold Nest.Unclosed at *
  rw [hn]
  exact (hds.sublist.count_le ')').trans_lt h

/-- A sign closes one group at most. -/
theorem readSign_unclosed (hn : n.Unclosed (c :: σ.rest)) (h : (readSign n c).Gives σ n' σ') :
    n'.Unclosed σ'.rest := by
  have hrest : σ.rest <:+ c :: σ.rest := List.suffix_cons _ _
  obtain ⟨-, hopen⟩ | ⟨-, rfl, rfl⟩ | ⟨rfl, hclose⟩ | ⟨-, unit, τ, hunit, hadd⟩ := gives_readSign h
  · obtain ⟨kind, hopening, rfl⟩ := gives_openGroup hopen
    have hsuffix := (opening_of_gives hopening).suffix.trans hrest
    cases kind with
    | none => exact hn.of_suffix hsuffix rfl
    | some kind =>
      have hlevel : n.Unclosed σ'.rest := hn.of_suffix hsuffix rfl
      exact Nat.lt_succ_of_lt hlevel
  · exact hn.of_suffix hrest rfl
  · obtain ⟨parent, outer, r, houter, -, hclosed⟩ := gives_closeGroup hclose
    have hparent : Nest.Unclosed ⟨parent, outer, false⟩ σ.rest := by
      simpa [Nest.Unclosed, houter] using hn
    obtain ⟨-, -, rfl, rfl⟩ | ⟨-, hadd⟩ := hclosed
    · exact hparent
    · obtain ⟨hsuffix, hsame⟩ := addUnit_suffix hadd
      exact hparent.of_suffix hsuffix hsame
  · obtain ⟨hsuffix, hsame⟩ := addUnit_suffix hadd
    exact hn.of_suffix (hsuffix.trans ((signUnit_suffix hunit).trans hrest)) hsame

theorem readBehind_unclosed (hn : n.Unclosed σ.rest)
    (h : (readBehind n literal).Gives σ n' σ') : n'.Unclosed σ'.rest := by
  obtain ⟨-, rfl, rfl⟩ | ⟨c, more, last, hrest, -, -, hadd⟩ | ⟨c, more, hrest, -, -, hsign⟩ :=
    gives_readBehind h
  · exact hn.of_suffix List.suffix_rfl (Nest.pushLiteral_outer ..)
  · obtain ⟨hsuffix, hsame⟩ := addUnit_suffix hadd
    exact hn.of_suffix hsuffix (hsame.trans (Nest.pushLiteral_outer ..))
  · refine readSign_unclosed ?_ hsign
    rw [Reader.before_rest, ← hrest]
    exact hn.of_suffix List.suffix_rfl (Nest.behind_outer ..)

/-- A group that stays open stays so behind a stretch. -/
theorem readStretch_unclosed (hn : n.Unclosed σ.rest) (h : (readStretch n).Gives σ n' σ') :
    n'.Unclosed σ'.rest := by
  obtain ⟨b, hb, hbehind⟩ := gives_readStretch h
  refine readBehind_unclosed (hn.of_suffix ?_ rfl) hbehind
  exact (behindBlanks_getD_suffix _ _).trans
    ((literalText_suffix _ _).trans (behindBlanks_suffix hb))

end

/-- A pattern ends when all its groups are closed. -/
theorem gives_finish {n : Nest} {r : Regex} {σ σ' : Reader} (h : (readAll.finish n).Gives σ r σ') :
    n.outer = [] ∧ n.level.close = .ok r ∧ σ' = σ := by
  rw [readAll.finish] at h
  split at h
  · exact (not_gives_throw_bind h).elim
  · rename_i houter
    split at h
    · rename_i hclose
      obtain ⟨rfl, rfl⟩ := gives_pure_iff.1 h
      exact ⟨by simpa using houter, hclose, rfl⟩
    · exact (not_gives_throw h).elim

/-- A pattern in which a group stays open is not read. -/
theorem not_gives_readAll_of_unclosed {fuel : Nat} {n : Nest} {r : Regex} {σ σ' : Reader}
    (hn : n.Unclosed σ.rest) : ¬ (readAll fuel n).Gives σ r σ' := by
  intro h
  induction fuel generalizing n σ with
  | zero =>
    rw [readAll] at h
    rw [Nest.Unclosed, (gives_finish h).1] at hn
    exact Nat.not_lt_zero _ hn
  | succ fuel ih =>
    rw [readAll, gives_rest_bind] at h
    split at h
    · rw [Nest.Unclosed, (gives_finish h).1] at hn
      exact Nat.not_lt_zero _ hn
    · obtain ⟨n', τ, hstretch, hnext⟩ := gives_bind_iff.1 h
      exact ih (readStretch_unclosed hn hstretch) hnext

end PackageCycles.Pattern

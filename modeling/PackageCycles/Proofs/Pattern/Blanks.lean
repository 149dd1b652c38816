import Mathlib.Data.List.DropRight
import PackageCycles.Proofs.Pattern.Reading

/-!
# Blanks and comments in front of the end of a pattern

A pattern is wrapped by what is put in front of it and by `wrapEnd` behind it. Blanks and comments
are passed over in the same way with `wrapEnd` behind them, unless a comment is still open where the
pattern ends: then it takes in the parenthesis of `wrapEnd`, and what is left has none
(`behindBlanks_append`).
-/

namespace PackageCycles.Pattern

/-- What stands behind a wrapped pattern. -/
def wrapEnd : List Char := [')', '\\', 'z']

theorem closes_wrapEnd : Closes wrapEnd := fun _ h => (Option.some.inj h).symm

/-- What is left of a wrapped pattern when a comment has taken in the closing parenthesis. -/
def IsSpent (cs : List Char) : Prop := cs = [] ∨ cs = ['\\', 'z']

/-- The text without the blanks at its start, if blanks mean nothing. -/
def withoutSpaces (spaced : Bool) (cs : List Char) : List Char :=
  if spaced then cs.dropWhile isSpace else cs

theorem withoutSpaces_suffix (spaced : Bool) (cs : List Char) : withoutSpaces spaced cs <:+ cs := by
  unfold withoutSpaces
  split
  · exact List.dropWhile_suffix _
  · exact List.suffix_rfl

theorem withoutSpaces_idem (spaced : Bool) (cs : List Char) :
    withoutSpaces spaced (withoutSpaces spaced cs) = withoutSpaces spaced cs := by
  unfold withoutSpaces
  split
  · exact List.dropWhile_idempotent isSpace cs
  · rfl

/-- Blanks are passed over in the same way in front of the end of the wrapping. -/
theorem withoutSpaces_append (spaced : Bool) (cs : List Char) :
    withoutSpaces spaced (cs ++ wrapEnd) = withoutSpaces spaced cs ++ wrapEnd := by
  unfold withoutSpaces
  split
  · exact dropWhile_append_of_closes closes_wrapEnd (by decide) cs
  · rfl

/-! ## Comments -/

/-- A comment in parentheses starts here. -/
def StartsComment (cs : List Char) : Prop := ['(', '?', '#'] <+: cs

/-- A comment up to the end of the line starts here. -/
def StartsLine (spaced : Bool) (cs : List Char) : Prop := spaced = true ∧ cs.head? = some '#'

/-- The end of the wrapping starts no comment, nor does a comment start only with its help. -/
theorem startsComment_append (cs : List Char) :
    StartsComment (cs ++ wrapEnd) ↔ StartsComment cs := by
  rcases cs with _ | ⟨c, _ | ⟨d, _ | ⟨e, cs⟩⟩⟩ <;> simp [StartsComment, wrapEnd]

theorem startsLine_append (spaced : Bool) (cs : List Char) :
    StartsLine spaced (cs ++ wrapEnd) ↔ StartsLine spaced cs := by
  cases cs <;> simp [StartsLine, wrapEnd]

/-- What is behind the parenthesis that closes a comment, if one does. -/
def afterComment? (cs : List Char) : Option (List Char) :=
  match cs.dropWhile (· ≠ ')') with
  | [] => none
  | _ :: more => some more

/-- What is left behind a comment up to the end of the line. -/
def afterLine (cs : List Char) : List Char := cs.dropWhile (· ≠ '\n')

theorem afterComment?_suffix {cs more : List Char} (h : afterComment? cs = some more) :
    more <:+ cs := by
  unfold afterComment? at h
  split at h
  · cases h
  · rename_i c ds heq
    obtain rfl := Option.some.inj h
    exact (List.suffix_cons c ds).trans (heq ▸ List.dropWhile_suffix _)

/-- Behind a comment less is left. -/
theorem length_afterComment?_lt {cs more : List Char} (h : afterComment? cs = some more) :
    more.length < cs.length := by
  unfold afterComment? at h
  split at h
  · cases h
  · rename_i c ds heq
    obtain rfl := Option.some.inj h
    have hlength := (List.dropWhile_suffix (l := cs) (· ≠ ')')).length_le
    rw [heq] at hlength
    exact hlength

theorem length_afterLine_lt {spaced : Bool} {cs : List Char} (h : StartsLine spaced cs) :
    (afterLine cs).length < cs.length := by
  obtain ⟨more, rfl⟩ := List.head?_eq_some_iff.1 h.2
  exact Nat.lt_succ_of_le (List.dropWhile_suffix (l := more) (· ≠ '\n')).length_le

section
variable {spaced : Bool} {cs : List Char} (fuel : Nat)

/-- A comment in parentheses is passed over if it is closed. -/
theorem afterBlanks_of_comment (h : StartsComment (withoutSpaces spaced cs)) :
    afterBlanks spaced (fuel + 1) cs =
      (afterComment? (withoutSpaces spaced cs)).bind (afterBlanks spaced fuel) := by
  unfold withoutSpaces at *
  obtain ⟨more, hmore⟩ := h
  rw [afterBlanks, ← hmore, afterComment?]
  change (match (['(', '?', '#'] ++ more).dropWhile (· ≠ ')') with
    | [] => none
    | _ :: more => afterBlanks spaced fuel more : Option (List Char)) = _
  cases (['(', '?', '#'] ++ more).dropWhile (· ≠ ')') <;> rfl

/-- A comment up to the end of the line is passed over. -/
theorem afterBlanks_of_line (h : StartsLine spaced (withoutSpaces spaced cs)) :
    afterBlanks spaced (fuel + 1) cs =
      afterBlanks spaced fuel (afterLine (withoutSpaces spaced cs)) := by
  unfold withoutSpaces at *
  obtain ⟨rfl, hhead⟩ := h
  obtain ⟨more, hmore⟩ := List.head?_eq_some_iff.1 hhead
  rw [afterBlanks, hmore]
  rfl

/-- Where no comment starts only blanks are passed over. -/
theorem afterBlanks_of_other (hcomment : ¬ StartsComment (withoutSpaces spaced cs))
    (hline : ¬ StartsLine spaced (withoutSpaces spaced cs)) :
    afterBlanks spaced (fuel + 1) cs = some (withoutSpaces spaced cs) := by
  unfold withoutSpaces at *
  rw [afterBlanks]
  split
  · rename_i heq
    rw [heq] at hcomment
    exact (hcomment ⟨_, rfl⟩).elim
  · rename_i heq
    cases spaced with
    | true => exact (hline ⟨rfl, by rw [heq]; rfl⟩).elim
    | false => rfl
  · rfl

end

/-- Blanks and comments are passed over one comment at a time. -/
theorem blanks_induction (spaced : Bool) {motive : List Char → Prop}
    (comment : ∀ cs more, StartsComment (withoutSpaces spaced cs) →
      afterComment? (withoutSpaces spaced cs) = some more → motive more → motive cs)
    (unclosed : ∀ cs, StartsComment (withoutSpaces spaced cs) →
      afterComment? (withoutSpaces spaced cs) = none → motive cs)
    (line : ∀ cs, StartsLine spaced (withoutSpaces spaced cs) →
      motive (afterLine (withoutSpaces spaced cs)) → motive cs)
    (other : ∀ cs, ¬ StartsComment (withoutSpaces spaced cs) →
      ¬ StartsLine spaced (withoutSpaces spaced cs) → motive cs) (cs : List Char) : motive cs := by
  induction hn : cs.length using Nat.strongRecOn generalizing cs with
  | ind n ih =>
    subst hn
    have hlength := (withoutSpaces_suffix spaced cs).length_le
    by_cases hcomment : StartsComment (withoutSpaces spaced cs)
    · cases hmore : afterComment? (withoutSpaces spaced cs) with
      | none => exact unclosed cs hcomment hmore
      | some more =>
        have hlt := length_afterComment?_lt hmore
        exact comment cs more hcomment hmore (ih _ (by omega) more rfl)
    · by_cases hline : StartsLine spaced (withoutSpaces spaced cs)
      · have hlt := length_afterLine_lt hline
        exact line cs hline (ih _ (by omega) _ rfl)
      · exact other cs hcomment hline

/-- What is behind blanks and comments, or none if a comment is not closed. -/
def behindBlanks (spaced : Bool) (cs : List Char) : Option (List Char) :=
  afterBlanks spaced (cs.length + 1) cs

/-- Fuel that is more than there are characters is never used up. -/
theorem afterBlanks_succ {spaced : Bool} {cs : List Char} {fuel : Nat} (h : cs.length < fuel) :
    afterBlanks spaced (fuel + 1) cs = afterBlanks spaced fuel cs := by
  induction fuel generalizing cs with
  | zero => exact absurd h (Nat.not_lt_zero _)
  | succ fuel ih =>
    have hle := (withoutSpaces_suffix spaced cs).length_le
    by_cases hcomment : StartsComment (withoutSpaces spaced cs)
    · rw [afterBlanks_of_comment _ hcomment, afterBlanks_of_comment _ hcomment]
      cases hmore : afterComment? (withoutSpaces spaced cs) with
      | none => rfl
      | some more =>
        have hlt := length_afterComment?_lt hmore
        exact ih (by omega)
    · by_cases hline : StartsLine spaced (withoutSpaces spaced cs)
      · have hlt := length_afterLine_lt hline
        rw [afterBlanks_of_line _ hline, afterBlanks_of_line _ hline]
        exact ih (by omega)
      · rw [afterBlanks_of_other _ hcomment hline, afterBlanks_of_other _ hcomment hline]

/-- Any amount of fuel above the number of characters is enough. -/
theorem afterBlanks_eq {spaced : Bool} {cs : List Char} {fuel : Nat} (h : cs.length < fuel) :
    afterBlanks spaced fuel cs = behindBlanks spaced cs := by
  induction fuel, h using Nat.le_induction with
  | base => rfl
  | succ fuel hle ih => rw [afterBlanks_succ hle, ih]

/-- The reader goes behind blanks and comments, or to the end of the text if a comment is not
closed. -/
theorem Read.run_blanks (σ : Reader) : blanks.run σ =
    match behindBlanks σ.options.spaced σ.rest with
    | some more => (.ok (), σ.before more)
    | none => (.error .unterminatedComment, σ.before []) := by
  rw [blanks, run_bind, run_rest]
  dsimp only
  rw [run_bind, run_options, behindBlanks]
  dsimp only
  cases afterBlanks σ.options.spaced (σ.rest.length + 1) σ.rest <;> rfl

section
variable {β : Type} {σ σ' : Reader} {b : β} {f : Unit → Read β}

theorem Read.gives_blanks_bind : (blanks >>= f).Gives σ b σ' ↔
    ∃ more, behindBlanks σ.options.spaced σ.rest = some more ∧
      (f ()).Gives (σ.before more) b σ' := by
  rw [Gives, run_bind, run_blanks]
  cases behindBlanks σ.options.spaced σ.rest with
  | none =>
    constructor
    · rintro ⟨⟩
    · rintro ⟨_, ⟨⟩, -⟩
  | some more =>
    constructor
    · exact fun h => ⟨more, rfl, h⟩
    · rintro ⟨_, ⟨⟩, h⟩
      exact h

/-- The pass that only counts groups goes on at the end of the text where a comment is not closed.
-/
theorem Read.gives_attempt_blanks_bind : (attempt blanks >>= f).Gives σ b σ' ↔
    (f ()).Gives (σ.before ((behindBlanks σ.options.spaced σ.rest).getD [])) b σ' := by
  rw [gives_attempt_bind, run_blanks]
  cases behindBlanks σ.options.spaced σ.rest <;> rfl

end

section
variable {spaced : Bool} {cs more : List Char}

theorem behindBlanks_of_comment (h : StartsComment (withoutSpaces spaced cs))
    (hmore : afterComment? (withoutSpaces spaced cs) = some more) :
    behindBlanks spaced cs = behindBlanks spaced more := by
  have hlt := length_afterComment?_lt hmore
  have hle := (withoutSpaces_suffix spaced cs).length_le
  rw [behindBlanks, afterBlanks_of_comment _ h, hmore]
  exact afterBlanks_eq (by omega)

theorem behindBlanks_of_unclosed (h : StartsComment (withoutSpaces spaced cs))
    (hmore : afterComment? (withoutSpaces spaced cs) = none) : behindBlanks spaced cs = none := by
  rw [behindBlanks, afterBlanks_of_comment _ h, hmore]
  rfl

theorem behindBlanks_of_line (h : StartsLine spaced (withoutSpaces spaced cs)) :
    behindBlanks spaced cs = behindBlanks spaced (afterLine (withoutSpaces spaced cs)) := by
  have hlt := length_afterLine_lt h
  have hle := (withoutSpaces_suffix spaced cs).length_le
  rw [behindBlanks, afterBlanks_of_line _ h]
  exact afterBlanks_eq (by omega)

theorem behindBlanks_of_other (hcomment : ¬ StartsComment (withoutSpaces spaced cs))
    (hline : ¬ StartsLine spaced (withoutSpaces spaced cs)) :
    behindBlanks spaced cs = some (withoutSpaces spaced cs) :=
  afterBlanks_of_other _ hcomment hline

/-- Blanks and comments are the front of a text. -/
theorem behindBlanks_suffix (h : behindBlanks spaced cs = some more) : more <:+ cs := by
  induction cs using blanks_induction spaced with
  | comment cs ds hcomment hds ih =>
    rw [behindBlanks_of_comment hcomment hds] at h
    exact (ih h).trans ((afterComment?_suffix hds).trans (withoutSpaces_suffix spaced cs))
  | unclosed cs hcomment hds =>
    rw [behindBlanks_of_unclosed hcomment hds] at h
    cases h
  | line cs hline ih =>
    rw [behindBlanks_of_line hline] at h
    exact (ih h).trans ((List.dropWhile_suffix _).trans (withoutSpaces_suffix spaced cs))
  | other cs hcomment hline =>
    rw [behindBlanks_of_other hcomment hline] at h
    exact Option.some.inj h ▸ withoutSpaces_suffix spaced cs

/-- Behind blanks and comments there are none. -/
theorem behindBlanks_settled (h : behindBlanks spaced cs = some more) :
    ¬ StartsComment more ∧ ¬ StartsLine spaced more ∧ withoutSpaces spaced more = more := by
  induction cs using blanks_induction spaced with
  | comment cs ds hcomment hds ih => exact ih (behindBlanks_of_comment hcomment hds ▸ h)
  | unclosed cs hcomment hds =>
    rw [behindBlanks_of_unclosed hcomment hds] at h
    cases h
  | line cs hline ih => exact ih (behindBlanks_of_line hline ▸ h)
  | other cs hcomment hline =>
    rw [behindBlanks_of_other hcomment hline] at h
    obtain rfl := Option.some.inj h
    exact ⟨hcomment, hline, withoutSpaces_idem spaced cs⟩

/-- It does not matter whether blanks are passed over before. -/
theorem behindBlanks_withoutSpaces (spaced : Bool) (cs : List Char) :
    behindBlanks spaced (withoutSpaces spaced cs) = behindBlanks spaced cs := by
  have hidem := withoutSpaces_idem spaced cs
  by_cases hcomment : StartsComment (withoutSpaces spaced cs)
  · cases hmore : afterComment? (withoutSpaces spaced cs) with
    | none =>
      rw [behindBlanks_of_unclosed hcomment hmore,
        behindBlanks_of_unclosed (by rwa [hidem]) (by rwa [hidem])]
    | some more =>
      rw [behindBlanks_of_comment hcomment hmore,
        behindBlanks_of_comment (by rwa [hidem]) (by rwa [hidem])]
  · by_cases hline : StartsLine spaced (withoutSpaces spaced cs)
    · rw [behindBlanks_of_line hline, behindBlanks_of_line (by rwa [hidem]), hidem]
    · rw [behindBlanks_of_other hcomment hline,
        behindBlanks_of_other (by rwa [hidem]) (by rwa [hidem]), hidem]

/-! ## With the end of the wrapping behind them -/

/-- A comment that is closed in the pattern ends at the same place. -/
theorem afterComment?_append (hmore : afterComment? cs = some more) :
    afterComment? (cs ++ wrapEnd) = some (more ++ wrapEnd) := by
  unfold afterComment? at *
  rw [List.dropWhile_append]
  cases hdrop : cs.dropWhile (· ≠ ')') with
  | nil =>
    rw [hdrop] at hmore
    cases hmore
  | cons c ds =>
    rw [hdrop] at hmore
    obtain rfl := Option.some.inj hmore
    rfl

/-- A comment that is not closed in the pattern ends with the parenthesis of the wrapping. -/
theorem afterComment?_append_none (hmore : afterComment? cs = none) :
    afterComment? (cs ++ wrapEnd) = some ['\\', 'z'] := by
  unfold afterComment? at *
  rw [List.dropWhile_append]
  cases hdrop : cs.dropWhile (· ≠ ')') with
  | nil => rfl
  | cons c ds =>
    rw [hdrop] at hmore
    cases hmore

/-- A comment in the last line of the pattern takes in the end of the wrapping. -/
theorem afterLine_append (cs : List Char) :
    afterLine (cs ++ wrapEnd) = if afterLine cs = [] then [] else afterLine cs ++ wrapEnd := by
  unfold afterLine
  rw [List.dropWhile_append]
  cases cs.dropWhile (· ≠ '\n') with
  | nil => rfl
  | cons c ds => rfl

theorem behindBlanks_nil (spaced : Bool) : behindBlanks spaced [] = some [] := by
  cases spaced <;> rfl

/-- What is left of the wrapping has neither blanks nor comments. -/
theorem behindBlanks_spent {cs : List Char} (spaced : Bool) (h : IsSpent cs) :
    behindBlanks spaced cs = some cs := by
  rcases h with rfl | rfl <;> cases spaced <;> rfl

/-- Blanks and comments end at the same place with the end of the wrapping behind them, or a comment
has taken in its parenthesis. -/
theorem behindBlanks_append (spaced : Bool) (cs : List Char) :
    (∃ more, behindBlanks spaced cs = some more ∧
      behindBlanks spaced (cs ++ wrapEnd) = some (more ++ wrapEnd)) ∨
    behindBlanks spaced cs ∈ [none, some []] ∧
      ∃ more, IsSpent more ∧ behindBlanks spaced (cs ++ wrapEnd) = some more := by
  induction cs using blanks_induction spaced with
  | comment cs more hcomment hmore ih =>
    rw [behindBlanks_of_comment hcomment hmore]
    rw [← startsComment_append, ← withoutSpaces_append] at hcomment
    have happend := afterComment?_append hmore
    rw [← withoutSpaces_append] at happend
    rwa [behindBlanks_of_comment hcomment happend]
  | unclosed cs hcomment hmore =>
    rw [behindBlanks_of_unclosed hcomment hmore]
    rw [← startsComment_append, ← withoutSpaces_append] at hcomment
    have happend := afterComment?_append_none hmore
    rw [← withoutSpaces_append] at happend
    rw [behindBlanks_of_comment hcomment happend]
    exact .inr ⟨by simp, _, .inr rfl, behindBlanks_spent spaced (.inr rfl)⟩
  | line cs hline ih =>
    rw [behindBlanks_of_line hline]
    rw [← startsLine_append, ← withoutSpaces_append] at hline
    rw [behindBlanks_of_line hline, withoutSpaces_append, afterLine_append]
    split
    · rename_i hnil
      rw [hnil, behindBlanks_nil]
      exact .inr ⟨by simp, [], .inl rfl, rfl⟩
    · exact ih
  | other cs hcomment hline =>
    rw [behindBlanks_of_other hcomment hline]
    rw [← startsComment_append, ← withoutSpaces_append] at hcomment
    rw [← startsLine_append, ← withoutSpaces_append] at hline
    rw [behindBlanks_of_other hcomment hline, withoutSpaces_append]
    exact .inl ⟨_, rfl, rfl⟩

end

end PackageCycles.Pattern

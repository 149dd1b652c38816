import PackageCycles.Pattern.Parser
import PackageCycles.Proofs.Pattern.Reading

/-!
# Sets in front of a closing parenthesis

A set that is read to its closing bracket is read in the same way with something behind the pattern
(`Read.Follows.set`). The pass that only counts groups goes over the same characters, as long as no
minus sign stands in front of an opening bracket: there that pass and the other one may differ on
where the set ends.
-/

namespace PackageCycles.Pattern

open Read

/-- The text has a minus sign in front of an opening bracket, which may take away from a set. -/
def HasSubtraction (cs : List Char) : Prop := ['-', '['] <:+: cs

theorem HasSubtraction.of_suffix {cs ds : List Char} (h : HasSubtraction ds) (hds : ds <:+ cs) :
    HasSubtraction cs := h.trans hds.isInfix

/-- What is further on in a text without subtraction has none. -/
theorem not_hasSubtraction_of_suffix {cs ds : List Char} (h : ¬ HasSubtraction cs) (hds : ds <:+ cs) :
    ¬ HasSubtraction ds := fun hsub => h (hsub.of_suffix hds)

/-- Behind a bracket a minus sign is followed by another bracket. -/
def MayTakeAway (cs : List Char) : Prop := HasSubtraction (cs.dropWhile (· ≠ '['))

instance (cs : List Char) : Decidable (MayTakeAway cs) :=
  inferInstanceAs (Decidable (['-', '['] <:+: cs.dropWhile (· ≠ '[')))

/-- Nor is anything taken away behind a bracket that stands further on. -/
theorem not_mayTakeAway_of_suffix {cs ds : List Char} (h : ¬ MayTakeAway cs) (hds : ds <:+ cs) :
    ¬ MayTakeAway ds := by
  obtain ⟨before, rfl⟩ := hds
  refine not_hasSubtraction_of_suffix h ?_
  rw [List.dropWhile_append]
  split
  · exact List.suffix_rfl
  · exact (List.dropWhile_suffix _).trans (List.suffix_append _ _)

/-- Without one no set is taken from the set that a bracket opens. -/
theorem not_hasSubtraction_of_bracket {cs : List Char} (h : ¬ MayTakeAway ('[' :: cs)) :
    ¬ HasSubtraction cs :=
  not_hasSubtraction_of_suffix h (List.suffix_cons '[' cs)

/-- Where nothing is taken away no bracket follows a minus sign. -/
theorem head?_ne_of_not_hasSubtraction {cs : List Char} (h : ¬ HasSubtraction ('-' :: cs)) :
    cs.head? ≠ some '[' := by
  intro hhead
  obtain ⟨more, rfl⟩ := List.head?_eq_some_iff.1 hhead
  exact h ⟨[], more, rfl⟩

/-! ## Posix classes -/

/-- What stands behind the two signs that end a posix class. -/
def afterClassEnd? : List Char → Option (List Char)
  | ':' :: ']' :: more => some more
  | _ => none

/-- A posix class without the sign that negates it. -/
def withoutNegation : List Char → List Char
  | '^' :: c :: more => c :: more
  | cs => cs

/-- Behind a colon a class has a name, perhaps negated, and then a colon and a bracket. -/
theorem afterPosixClass?_colon (cs : List Char) :
    afterPosixClass? (':' :: cs) =
      afterClassEnd? ((withoutNegation cs).dropWhile Unicode.isWordChar) := rfl

theorem afterPosixClass?_of_ne {c : Char} (hc : c ≠ ':') (cs : List Char) :
    afterPosixClass? (c :: cs) = none := by
  simp [afterPosixClass?, hc]

theorem afterClassEnd?_suffix {cs more : List Char} (h : afterClassEnd? cs = some more) :
    more <:+ cs := by
  unfold afterClassEnd? at h
  split at h
  · cases h
    exact ⟨[':', ']'], rfl⟩
  · cases h

theorem withoutNegation_suffix (cs : List Char) : withoutNegation cs <:+ cs := by
  unfold withoutNegation
  split
  · exact List.suffix_cons _ _
  · exact List.suffix_rfl

section
variable {t : List Char} (ht : Closes t)
include ht

/-- The end of a class is found in the same place. -/
theorem afterClassEnd?_append (cs : List Char) :
    afterClassEnd? (cs ++ t) = (afterClassEnd? cs).map (· ++ t) := by
  rcases cs with _ | ⟨c, _ | ⟨d, more⟩⟩
  · obtain rfl | ⟨ds, rfl⟩ := ht.eq_nil_or_cons
    · rfl
    · simp [afterClassEnd?]
  · obtain rfl | ⟨ds, rfl⟩ := ht.eq_nil_or_cons <;> simp [afterClassEnd?]
  · by_cases hc : c = ':'
    · by_cases hd : d = ']'
      · subst hc hd
        rfl
      · simp [afterClassEnd?, hd]
    · simp [afterClassEnd?, hc]

/-- A negation is passed over in the same way, unless the text is nothing else. -/
theorem withoutNegation_append {cs : List Char} (hcs : cs ≠ ['^']) :
    withoutNegation (cs ++ t) = withoutNegation cs ++ t := by
  rcases cs with _ | ⟨c, _ | ⟨d, more⟩⟩
  · obtain rfl | ⟨ds, rfl⟩ := ht.eq_nil_or_cons <;> rfl
  · have hc : c ≠ '^' := fun h => hcs (h ▸ rfl)
    simp [withoutNegation, hc]
  · by_cases hc : c = '^'
    · subst hc
      rfl
    · simp [withoutNegation, hc]

/-- A class is passed over in the same way. -/
theorem afterPosixClass?_append (cs : List Char) :
    afterPosixClass? (cs ++ t) = (afterPosixClass? cs).map (· ++ t) := by
  rcases cs with _ | ⟨c, cs⟩
  · obtain rfl | ⟨ds, rfl⟩ := ht.eq_nil_or_cons <;> rfl
  · by_cases hc : c = ':'
    · subst hc
      rw [List.cons_append, afterPosixClass?_colon, afterPosixClass?_colon]
      by_cases hcs : cs = ['^']
      · subst hcs
        obtain rfl | ⟨ds, rfl⟩ := ht.eq_nil_or_cons <;> rfl
      · rw [withoutNegation_append ht hcs, dropWhile_append_of_closes ht isWordChar_paren,
          afterClassEnd?_append ht]
    · rw [List.cons_append, afterPosixClass?_of_ne hc, afterPosixClass?_of_ne hc]
      rfl

end

theorem afterPosixClass?_suffix {cs more : List Char} (h : afterPosixClass? cs = some more) :
    more <:+ cs := by
  rcases cs with _ | ⟨c, cs⟩
  · cases h
  · by_cases hc : c = ':'
    · subst hc
      rw [afterPosixClass?_colon] at h
      exact (afterClassEnd?_suffix h).trans ((List.dropWhile_suffix _).trans
        ((withoutNegation_suffix cs).trans (List.suffix_cons _ _)))
    · rw [afterPosixClass?_of_ne hc] at h
      cases h

namespace Read

/-! ## Sets that are not closed -/

section
variable (ic : Bool) (fuel : Nat) (s : SetState) (code : Nat) (escaped : Bool)

/-- A set has to be closed. -/
theorem Fails.set_nil : Fails [] (set false ic fuel s) := by
  cases fuel with
  | zero =>
    rw [Pattern.set]
    exact Fails.throw _ _
  | succ fuel =>
    rw [Pattern.set]
    exact Fails.next_nil (Fails.throw _ _)

theorem Fails.single_nil : Fails [] (set.single (set false ic fuel) false ic s code escaped) := by
  rw [set.single]
  refine Fails.peek_nil ?_
  simp only [reduceCtorEq, decide_false, Bool.and_false, Bool.false_eq_true, if_false]
  exact Fails.set_nil ic fuel _

theorem Fails.subtract_nil (group : CharGroup) : Fails [] (set.subtract (set false ic fuel) ic group) := by
  intro σ hσ a σ' hgives
  have hopening : set.opening.run σ = (.ok ⟨CharGroup.empty, none, true⟩, σ) := by
    rw [set.opening, run_bind, run_peek?, hσ]
    rfl
  rw [set.subtract, Gives, run_bind, hopening] at hgives
  obtain ⟨removed, τ, hset, -⟩ := gives_bind_iff.1 hgives
  exact Fails.set_nil ic fuel _ σ hσ removed τ hset

/-- A minus sign at the end of the text does not close a set. -/
theorem Fails.single_minus (hset : Fails ['-'] (set false ic fuel
    { s with group := s.group.addRange code code, first := false })) :
    Fails ['-'] (set.single (set false ic fuel) false ic s code escaped) := by
  intro σ hσ a σ' hgives
  rw [set.single, Gives, run_bind, run_peek?, hσ] at hgives
  simp only [List.getElem?_cons_zero, Option.some.injEq, Char.reduceEq, decide_false,
    Bool.and_false, Bool.false_eq_true, if_false] at hgives
  exact hset σ hσ a σ' hgives

theorem Fails.ordinary_nil : Fails [] (set.ordinary (set false ic fuel) false ic s code escaped) := by
  rw [set.ordinary]
  split
  · dsimp only
    split
    · contradiction
    · split
      · exact Fails.subtract_nil ic fuel _
      · split
        · exact Fails.throw _ _
        · exact Fails.set_nil ic fuel _
  · exact Fails.rest (Fails.single_nil ic fuel s code escaped)

/-- A minus sign cannot be the last character of a set. -/
theorem Fails.set_minus : Fails ['-'] (set false ic fuel s) := by
  cases fuel with
  | zero =>
    rw [Pattern.set]
    exact Fails.throw _ _
  | succ fuel =>
    rw [Pattern.set]
    exact Fails.next (Fails.ordinary_nil ic fuel s _ false)

end

end Read

/-! ## Sets -/

/-- What the second reading has read of a set. The pass that only counts groups has passed over
what the set contains. -/
structure SetState.Beside (counting : Bool) (s s' : SetState) : Prop where
  /-- A range is open in both or in neither. -/
  pending : s'.pending = s.pending
  /-- Both are at the start of the set or behind it. -/
  first : s'.first = s.first
  /-- The contents are the same. -/
  group : counting = false → s'.group = s.group

/-- No set is about to be taken away, neither here nor in the rest of the text. -/
structure SetState.Undivided (s : SetState) (cs : List Char) : Prop where
  /-- No set is taken away from another one. -/
  text : ¬ HasSubtraction cs
  /-- What ends the open range is not a bracket. -/
  head : s.pending.isSome → cs.head? ≠ some '['

/-- A set starts without a range. -/
theorem opening_pending {σ σ' : Reader} {s : SetState} (h : set.opening.Gives σ s σ') :
    s.pending = none := by
  rw [set.opening, gives_peek?_bind] at h
  split at h
  · rw [gives_skip_bind] at h
    obtain ⟨rfl, -⟩ := gives_pure_iff.1 h
    rfl
  · obtain ⟨rfl, -⟩ := gives_pure_iff.1 h
    rfl

namespace Read.Follows

section
variable {S : Reader → Reader → Prop} {t : List Char} (hS : Textless S) (ht : Closes t)
  {counting ic ic' : Bool} (hic : counting = false → ic' = ic)
include hS ht

/-- A set starts with a negation or not. -/
theorem opening (cs : List Char) : Follows S t (Same S t) cs set.opening set.opening := by
  rw [set.opening]
  cases cs with
  | nil =>
    refine peek_nil ?_
    simp only [reduceCtorEq, ht.head?_ne (show '^' ≠ ')' by decide), if_false]
    exact pure _
  | cons c more =>
    refine peek ?_
    split
    · exact skip hS (pure _)
    · exact pure _

variable {fuel fuel' : Nat} (ih : ∀ s s' cs, s.Beside counting s' →
  (counting → s.Undivided cs) →
    Follows S t (Agrees S t counting) cs (set false ic fuel s) (set counting ic' fuel' s'))
include hic ih

/-- What is taken away from a set is read in the same way, unless only groups are counted. -/
theorem subtract (hcounting : counting = false) (group : CharGroup) (cs : List Char) :
    Follows S t (Agrees S t counting) cs (set.subtract (set false ic fuel) ic group)
      (set.subtract (set counting ic' fuel') ic' group) := by
  subst hcounting
  obtain rfl := hic rfl
  rw [set.subtract, set.subtract]
  refine bind (opening hS ht cs) fun s cs' _ => ?_
  refine bind (ih s s cs' ⟨rfl, rfl, fun _ => rfl⟩ (by simp)).same ?_
  intro removed cs'' _
  cases cs'' with
  | nil => exact of_fails (Fails.peek_nil (Fails.throw _ _)) _
  | cons c more =>
    refine peek ?_
    split
    · contradiction
    · exact skip hS (pure _).agrees
    · exact throw _ _

/-- A character that is not the end of a range is read in the same way. The pass that only counts
groups does not take a minus sign and a bracket for a subtraction, so there must be none. -/
theorem single {s s' : SetState} (hs : s.Beside counting s') (code : Nat) (escaped : Bool)
    (cs : List Char) (hpending : s.pending = none) (hcs : counting → ¬ HasSubtraction cs)
    (hminus : counting → code = '-'.toNat → escaped = false → cs.head? ≠ some '[') :
    Follows S t (Agrees S t counting) cs (set.single (set false ic fuel) false ic s code escaped)
      (set.single (set counting ic' fuel') counting ic' s' code escaped) := by
  cases cs with
  | nil => exact of_fails (Fails.single_nil ic fuel s code escaped) _
  | cons c more =>
    rw [set.single, set.single]
    refine peek ?_
    rw [hs.first]
    split
    · rename_i hdivides
      simp only [Bool.and_eq_true, decide_eq_true_eq, Bool.not_eq_true', Option.some.injEq]
        at hdivides
      obtain ⟨⟨⟨hcode, hescaped⟩, -⟩, hhead⟩ := hdivides
      cases counting with
      | true => exact (hminus rfl hcode hescaped (congrArg some hhead)).elim
      | false =>
        rw [hs.group rfl]
        exact skip hS (subtract hS ht hic ih rfl _ more)
    · refine ih _ _ _ ⟨hs.pending, rfl, fun h => by rw [hs.group h]⟩ fun h => ⟨hcs h, ?_⟩
      simp [hpending]

/-- A character of a set is read in the same way, at the end of a range or not. -/
theorem ordinary {s s' : SetState} (hs : s.Beside counting s') (code : Nat) (escaped : Bool)
    (cs : List Char) (hcs : counting → ¬ HasSubtraction cs)
    (hminus : counting → code = '-'.toNat → escaped = false → cs.head? ≠ some '[')
    (hbracket : counting → s.pending.isSome → code = '['.toNat → escaped = true) :
    Follows S t (Agrees S t counting) cs (set.ordinary (set false ic fuel) false ic s code escaped)
      (set.ordinary (set counting ic' fuel') counting ic' s' code escaped) := by
  rw [set.ordinary, set.ordinary, hs.pending]
  cases hpending : s.pending with
  | some low =>
    simp only [Bool.false_eq_true, if_false]
    split
    · rename_i hdivides
      simp only [Bool.and_eq_true, decide_eq_true_eq, Bool.not_eq_true'] at hdivides
      cases counting with
      | true =>
        have hescaped := hbracket rfl (by rw [hpending]; rfl) hdivides.1
        exact Bool.noConfusion (hescaped.symm.trans hdivides.2)
      | false =>
        rw [hs.group rfl]
        exact subtract hS ht hic ih rfl _ cs
    · split
      · exact throw _ _
      · cases counting with
        | true => exact ih _ _ _ ⟨rfl, rfl, by simp⟩ fun h => ⟨hcs h, by simp⟩
        | false =>
          rw [hs.group rfl]
          exact ih _ _ _ ⟨rfl, rfl, fun _ => rfl⟩ (by simp)
  | none =>
    have hsingle := single hS ht hic ih hs code escaped cs hpending hcs hminus
    dsimp only
    refine rest ?_
    rcases cs with _ | ⟨c, more⟩
    · exact of_fails (Fails.single_nil ic fuel s code escaped) _
    · by_cases hc : c = '-'
      · subst hc
        cases more with
        | nil =>
          exact of_fails (Fails.single_minus ic fuel s code escaped (Fails.set_minus ic fuel _)) _
        | cons d more =>
          simp only [List.cons_append]
          by_cases hd : d = ']'
          · rw [if_neg (not_not_intro hd), if_neg (not_not_intro hd)]
            exact hsingle
          · rw [if_pos hd, if_pos hd]
            refine skip hS (ih _ _ _ ⟨rfl, rfl, hs.group⟩ fun h => ⟨?_, fun _ => ?_⟩)
            · exact not_hasSubtraction_of_suffix (hcs h) (List.suffix_cons _ _)
            · exact head?_ne_of_not_hasSubtraction (hcs h)
      · split
        · rename_i heq
          exact (hc (List.cons.inj heq).1).elim
        · split
          · rename_i heq
            exact (hc (List.cons.inj heq).1).elim
          · exact hsingle

section
variable {s s' : SetState} (hs : s.Beside counting s') {more : List Char}
  (hmore : counting → ¬ HasSubtraction more)
include hs hmore

/-- A closing bracket is the end of the set, or its first character. -/
theorem set_closing : Follows S t (Agrees S t counting) (']' :: more) (set false ic (fuel + 1) s)
    (set counting ic' (fuel' + 1) s') := by
  rw [Pattern.set, Pattern.set]
  refine next hS ?_
  change Follows S t _ more (if s.first then _ else _) (if s'.first then _ else _)
  rw [hs.first]
  split
  · exact ordinary hS ht hic ih hs _ _ more hmore (by simp) (by simp)
  · exact pure_agrees fun h => by rw [hs.group h, hic h]

/-- A property of characters is taken into the set. The pass that only counts groups passes over
its faults. -/
theorem set_property (c : Char) : Follows S t (Agrees S t counting) more
    (Pattern.property >>= fun p =>
      set false ic fuel ⟨s.group.addProperty p (c = 'P') ic, none, false⟩)
    (if counting then
      attempt Pattern.property >>= fun _ => set counting ic' fuel' ⟨s'.group, none, false⟩
    else Pattern.property >>= fun p =>
      set counting ic' fuel' ⟨s'.group.addProperty p (c = 'P') ic', none, false⟩) := by
  cases counting with
  | true =>
    refine attempt_bind true (property hS ht more).agrees fun p cs' hsuffix => ?_
    refine ih _ _ _ ⟨rfl, rfl, by simp⟩ fun h => ⟨?_, by simp⟩
    exact not_hasSubtraction_of_suffix (hmore h) hsuffix
  | false =>
    obtain rfl := hic rfl
    refine bind (property hS ht more) fun p cs' _ => ?_
    rw [hs.group rfl]
    exact ih _ _ _ ⟨rfl, rfl, fun _ => rfl⟩ (by simp)

/-- Behind a backslash stands a class of characters, a minus sign or the code of a character. -/
theorem set_backslash : Follows S t (Agrees S t counting) ('\\' :: more)
    (set false ic (fuel + 1) s) (set counting ic' (fuel' + 1) s') := by
  rw [Pattern.set, Pattern.set]
  refine next hS ?_
  change Follows S t _ more (peek? 0 >>= _) (peek? 0 >>= _)
  cases more with
  | nil => exact of_fails (Fails.peek_nil (Fails.ordinary_nil ic fuel s _ false)) _
  | cons d more =>
    have hrest : counting → ¬ HasSubtraction more := fun h =>
      not_hasSubtraction_of_suffix (hmore h) (List.suffix_cons d more)
    refine peek ?_
    dsimp only
    rw [hs.pending]
    split
    · refine skip hS ?_
      cases hpending : s.pending with
      | some low => exact throw_bind _ _ _
      | none =>
        simp only [Option.isSome_none, Bool.false_and, Bool.false_eq_true, if_false]
        cases classLetter? d with
        | some letter =>
          refine ih _ _ _ ⟨rfl, rfl, fun h => by rw [hs.group h]⟩ fun h => ⟨hrest h, ?_⟩
          simp
        | none => exact set_property hS ht hic ih hs hrest d
    · split
      · rename_i hminus
        subst hminus
        refine skip hS (ih _ _ _ ⟨rfl, rfl, fun h => by rw [hs.group h]⟩ fun h => ?_)
        exact ⟨hrest h, fun _ => head?_ne_of_not_hasSubtraction (hmore h)⟩
      · refine bind (escapedCode hS ht _) fun code cs' hsuffix => ?_
        refine ordinary hS ht hic ih hs code true cs' (fun h => ?_) (by simp) (by simp)
        exact not_hasSubtraction_of_suffix (hmore h) hsuffix

/-- An opening bracket stands for itself, with a class of characters behind it or not. -/
theorem set_bracket (hpending : counting → s.pending = none) :
    Follows S t (Agrees S t counting) ('[' :: more) (set false ic (fuel + 1) s)
      (set counting ic' (fuel' + 1) s') := by
  rw [Pattern.set, Pattern.set]
  refine next hS ?_
  change Follows S t _ more (if s.pending.isNone then _ else _) (if s'.pending.isNone then _ else _)
  rw [hs.pending]
  have hordinary (cs' : List Char) (hsuffix : cs' <:+ more) :=
    ordinary hS ht hic ih hs '['.toNat false cs'
      (fun h => not_hasSubtraction_of_suffix (hmore h) hsuffix) (by simp)
      fun h hopen _ => by simp [hpending h] at hopen
  split
  · refine rest ?_
    rw [afterPosixClass?_append ht]
    cases hclass : afterPosixClass? more with
    | some cs' =>
      have hsuffix := afterPosixClass?_suffix hclass
      exact setRest hS hsuffix (hordinary cs' hsuffix)
    | none => exact hordinary more List.suffix_rfl
  · exact hordinary more List.suffix_rfl

/-- Any other character stands for itself. -/
theorem set_other {c : Char} (hc : c ∉ [']', '\\', '['])
    (hminus : counting → c = '-' → more.head? ≠ some '[') :
    Follows S t (Agrees S t counting) (c :: more) (set false ic (fuel + 1) s)
      (set counting ic' (fuel' + 1) s') := by
  simp only [List.mem_cons, List.not_mem_nil, or_false, not_or] at hc
  rw [Pattern.set, Pattern.set]
  refine next hS ?_
  split
  · exact throw _ _
  · rename_i heq
    exact (hc.1 (Option.some.inj heq)).elim
  · rename_i heq
    exact (hc.2.1 (Option.some.inj heq)).elim
  · rename_i heq
    exact (hc.2.2 (Option.some.inj heq)).elim
  · rename_i heq
    obtain rfl := Option.some.inj heq
    refine ordinary hS ht hic ih hs _ _ more hmore (fun h hcode _ => ?_) fun _ _ hcode => ?_
    · exact hminus h (Char.toNat_inj.1 hcode)
    · exact (hc.2.2 (Char.toNat_inj.1 hcode)).elim

end

end

variable {S : Reader → Reader → Prop} {t : List Char}

/-- A set is read in the same way with more fuel and a closing text behind the pattern. If nothing
is taken away from a set, the pass that counts groups goes over the same characters. -/
theorem set (hS : Textless S) (ht : Closes t) {counting ic ic' : Bool}
    (hic : counting = false → ic' = ic) {fuel fuel' : Nat} (hfuel : fuel ≤ fuel')
    {s s' : SetState} (hs : s.Beside counting s') {cs : List Char}
    (hcs : counting → s.Undivided cs) :
    Follows S t (Agrees S t counting) cs (set false ic fuel s) (set counting ic' fuel' s') := by
  induction fuel generalizing fuel' s s' cs with
  | zero =>
    rw [Pattern.set]
    exact throw _ _
  | succ fuel ih =>
    obtain ⟨fuel', rfl⟩ := Nat.exists_eq_add_one.2 (Nat.zero_lt_of_lt hfuel)
    replace ih := fun s s' cs hs => @ih fuel' (Nat.le_of_succ_le_succ hfuel) s s' hs cs
    cases cs with
    | nil =>
      rw [Pattern.set]
      exact of_fails (Fails.next_nil (Fails.throw _ _)) _
    | cons c more =>
      have hmore : counting → ¬ HasSubtraction more := fun h =>
        not_hasSubtraction_of_suffix (hcs h).text (List.suffix_cons c more)
      by_cases hclosing : c = ']'
      · exact hclosing ▸ set_closing hS ht hic ih hs hmore
      by_cases hbackslash : c = '\\'
      · exact hbackslash ▸ set_backslash hS ht hic ih hs hmore
      by_cases hbracket : c = '['
      · subst hbracket
        refine set_bracket hS ht hic ih hs hmore fun h => ?_
        exact Option.not_isSome_iff_eq_none.1 fun hopen => (hcs h).head hopen rfl
      · refine set_other hS ht hic ih hs hmore (by simp [hclosing, hbackslash, hbracket]) ?_
        rintro h rfl
        exact head?_ne_of_not_hasSubtraction (hcs h).text

/-- A set is read in the same way. The pass that only counts groups reads the same characters if
nothing is taken away from the set. -/
theorem bracketed (hS : Textless S) (ht : Closes t) {counting ic ic' : Bool}
    (hic : counting = false → ic' = ic) {cs : List Char} (hcs : counting → ¬ HasSubtraction cs) :
    Follows S t (Agrees S t counting) cs (bracketed false ic) (bracketed counting ic') := by
  unfold Pattern.bracketed
  refine rest ?_
  dsimp only
  refine (opening hS ht cs).bind_gives fun σ s σ' _ hsuffix hgives => ?_
  refine set hS ht hic (by simp) ⟨rfl, rfl, fun _ => rfl⟩ fun h => ⟨?_, fun hpending => ?_⟩
  · exact not_hasSubtraction_of_suffix (hcs h) hsuffix
  · rw [opening_pending hgives] at hpending
    cases hpending

end Read.Follows

end PackageCycles.Pattern

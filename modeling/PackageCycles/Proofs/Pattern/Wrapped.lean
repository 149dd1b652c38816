import PackageCycles.Proofs.Pattern.Stretches

/-!
# The wrapped pattern

A pattern and its wrapped form are read side by side, with the same groups given to both. Behind each
stretch the two readings are at the same place, or one of them cannot come to its end any more
because a parenthesis is missing (`Alongside`, `readStretch_wrapped`). So if both come to their ends,
the wrapped pattern denotes what the pattern denotes, between the anchors (`Regex.parse_wrapped`).
-/

namespace PackageCycles.Pattern

open Read

/-- The reader with the end of the wrapping behind its text. -/
def Reader.wrapped (σ : Reader) : Reader := σ.before (σ.rest ++ wrapEnd)

@[simp] theorem Reader.wrapped_rest (σ : Reader) : σ.wrapped.rest = σ.rest ++ wrapEnd := rfl

@[simp] theorem Reader.wrapped_options (σ : Reader) : σ.wrapped.options = σ.options := rfl

@[simp] theorem Reader.wrapped_groups (σ : Reader) : σ.wrapped.groups = σ.groups := rfl

/-- Only the text differs. -/
theorem twins_wrapped (σ : Reader) : Twins σ σ.wrapped := rfl

/-- A reading that goes on in the same way gives the same for the wrapped pattern. -/
theorem Read.Follows.gives_wrapped {α : Type} {act act' : Read α} {σ σ' : Reader} {a : α}
    (h : Follows Twins wrapEnd (Same Twins wrapEnd) σ.rest act act') (hgives : act.Gives σ a σ') :
    act'.Gives σ.wrapped a σ'.wrapped := by
  obtain ⟨-, hresult, hrest, hrelated⟩ := h σ σ.wrapped a σ' (twins_wrapped σ) rfl rfl hgives
  refine Prod.ext hresult ?_
  rw [Twins] at hrelated
  rw [hrelated, hrest]
  rfl

section
variable {σ σ' τ : Reader} {kind : GroupKind}

/-- The wrapped pattern starts with a character of a kind to which the closing parenthesis does not
belong exactly if the pattern does. -/
theorem exists_head?_wrapped {p : Char → Bool} (hp : p ')' = false) :
    (∃ c ∈ σ.wrapped.rest.head?, p c) ↔ ∃ c ∈ σ.rest.head?, p c := by
  rw [Reader.wrapped_rest]
  cases σ.rest with
  | nil => simp [wrapEnd, hp]
  | cons c more => simp

/-- The wrapped pattern names the groups that the pattern names. -/
theorem namesGroup_wrapped {n : Nat} : NamesGroup σ.wrapped n ↔ NamesGroup σ n :=
  and_congr (exists_head?_wrapped isWordChar_paren) (by
    rw [Reader.wrapped_rest, takeWhile_append_of_closes closes_wrapEnd isWordChar_paren]
    rfl)

/-- A condition is read in the same way for the wrapped pattern, or no parenthesis closes it. -/
theorem conditional_wrapped {kind' : GroupKind} {τ' : Reader} (h : conditional.Gives σ kind σ')
    (h' : conditional.Gives σ.wrapped kind' τ') :
    kind' = kind ∧ τ' = σ'.wrapped ∨ ')' ∉ σ'.rest := by
  have hdigit : (∃ c ∈ σ.wrapped.rest.head?, isDigit c) ↔ ∃ c ∈ σ.rest.head?, isDigit c :=
    exists_head?_wrapped (by decide)
  have hdrop : σ.wrapped.rest.dropWhile Unicode.isWordChar =
      σ.rest.dropWhile Unicode.isWordChar ++ wrapEnd :=
    dropWhile_append_of_closes closes_wrapEnd isWordChar_paren σ.rest
  cases condition_of_gives h with
  | number n more digit number known =>
    have hcondition : Condition σ.wrapped (.ifCaptured n) (σ.before more).wrapped :=
      .number n (more ++ wrapEnd) (hdigit.2 digit)
        ((Follows.number textless_twins closes_wrapEnd σ.rest).gives_wrapped number) known
    exact .inl ((gives_of_condition hcondition).eq h')
  | name n more noDigit names closed =>
    have hcondition : Condition σ.wrapped (.ifCaptured n) (σ.before more).wrapped :=
      .name n (more ++ wrapEnd) (mt hdigit.1 noDigit) (namesGroup_wrapped.2 names)
        (by rw [hdrop, closed]; rfl)
    exact .inl ((gives_of_condition hcondition).eq h')
  | test kind σ' noDigit unnamed group =>
    obtain ⟨rfl, rfl, -⟩ := gives_testGroup group
    cases condition_of_gives h' with
    | number n more digit => exact (noDigit (hdigit.1 digit)).elim
    | name n more noDigit' names closed =>
      rw [hdrop] at closed
      cases hword : σ.rest.dropWhile Unicode.isWordChar with
      | nil =>
        -- The name ends with the pattern: it is read again as an expression without an end.
        refine .inr fun hmem => ?_
        rcases List.mem_cons.1 hmem with heq | hmem
        · exact absurd heq (by decide)
        · exact absurd (List.dropWhile_eq_nil_iff.1 hword _ hmem) (by decide)
      | cons d ds =>
        rw [hword] at closed
        refine (unnamed n (namesGroup_wrapped.1 names) ?_).elim
        rw [hword, (List.cons.inj closed).1]
        rfl
    | test kind' τ' noDigit' unnamed' group' =>
      obtain ⟨rfl, rfl, -⟩ := gives_testGroup group'
      exact .inl ⟨rfl, rfl⟩

/-- A group without a prefix has none in the wrapped pattern. -/
theorem startsPlain_append {cs : List Char} (h : startsPlain cs) :
    startsPlain (cs ++ wrapEnd) := by
  rcases cs with _ | ⟨c, _ | ⟨d, cs⟩⟩
  · rfl
  · have hc : c ≠ '?' := by
      rintro rfl
      cases h
    simp [startsPlain, hc]
  · exact h

/-- An opening parenthesis leads to the same in the wrapped pattern, or no parenthesis closes the
group. -/
theorem groupOpening_wrapped {inside : GroupKind} {kind kind' : Option GroupKind} {τ' : Reader}
    (h : (groupOpening inside).Gives σ kind σ')
    (h' : (groupOpening inside).Gives σ.wrapped kind' τ') :
    kind' = kind ∧ τ' = σ'.wrapped ∨ ')' ∉ σ'.rest ∧ kind.isSome := by
  have hsame (hopening : Opening inside σ.wrapped kind σ'.wrapped) :
      kind' = kind ∧ τ' = σ'.wrapped ∨ ')' ∉ σ'.rest ∧ kind.isSome :=
    .inl ((gives_of_opening hopening).eq h')
  have htext {cs : List Char} (text : σ.rest = cs) : σ.wrapped.rest = cs ++ wrapEnd := by
    rw [Reader.wrapped_rest, text]
  cases opening_of_gives h with
  | plain kind σ' start group =>
    exact hsame (.plain kind σ'.wrapped (startsPlain_append start)
      ((Follows.plainGroup _).gives_wrapped group))
  | uncaptured cs text => exact hsame (.uncaptured _ (htext text))
  | atomic cs text => exact hsame (.atomic _ (htext text))
  | look negative backward cs text =>
    refine hsame (.look negative backward _ ?_)
    rw [htext text, List.append_assoc]
    rfl
  | named bracket close cs kind σ' pair text first group =>
    refine hsame (.named bracket close _ kind _ pair (htext text) ?_ ?_)
    · cases cs with
      | nil => exact ⟨by decide, by decide⟩
      | cons c cs => exact first
    · exact (Follows.namedGroup textless_twins closes_wrapEnd sharesGroups_twins _ _ close
        cs).gives_wrapped group
  | condition cs kind σ' text group =>
    rw [gives_groupOpening_prefixed (htext text) (by decide)] at h'
    have hcondition : (conditional >>= fun kind => pure (some kind)).Gives
        (σ.before cs).wrapped kind' τ' := gives_next?_bind.1 h'
    obtain ⟨k', rfl, group'⟩ := gives_map_some hcondition
    obtain ⟨rfl, rfl⟩ | hclosed := conditional_wrapped group group'
    · exact .inl ⟨rfl, rfl⟩
    · exact .inr ⟨hclosed, rfl⟩
  | letters c cs kind σ' text letter group =>
    exact hsame (.letters c _ kind _ (htext text) letter
      ((Follows.optionsGroup closes_wrapEnd _ _ inside _).gives_wrapped group))

end

/-! ## Units and signs -/

/-- The nest inside the group that wraps the pattern. -/
def Nest.within (n : Nest) (root : Level) : Nest := { n with outer := n.outer ++ [root] }

@[simp] theorem Nest.within_level (n : Nest) (root : Level) : (n.within root).level = n.level := rfl

@[simp] theorem Nest.within_outer (n : Nest) (root : Level) :
    (n.within root).outer = n.outer ++ [root] := rfl

/-- Literal text is added inside the group that wraps the pattern. -/
theorem Nest.within_pushLiteral (n : Nest) (root : Level) (o : Options) (cs : List Char) :
    (n.within root).pushLiteral o cs = (n.pushLiteral o cs).within root := by
  have hfold (n : Nest) : cs.foldl (fun n c => n.push (literalUnit o c.toNat)) (n.within root) =
      (cs.foldl (fun n c => n.push (literalUnit o c.toNat)) n).within root := by
    induction cs generalizing n with
    | nil => rfl
    | cons c cs ih => exact ih (n.push (literalUnit o c.toNat))
  exact hfold { n with afterQuantifier := false }

theorem Nest.within_behind (n : Nest) (root : Level) (o : Options) (cs : List Char) :
    (n.within root).behind o cs = (n.behind o cs).within root := by
  unfold Nest.behind
  split
  · rfl
  · exact n.within_pushLiteral root o cs

/-- Without its parenthesis the group that wraps the pattern stays open. -/
theorem Nest.unclosed_within_of_spent {n : Nest} {root : Level} {cs : List Char} (h : IsSpent cs) :
    (n.within root).Unclosed cs := by
  obtain rfl | rfl := h <;> simp [Nest.Unclosed]

/-- What is left of the wrapping starts no quantifier. -/
theorem startsQuantifier_spent {cs : List Char} (h : IsSpent cs) : startsQuantifier cs = false := by
  obtain rfl | rfl := h <;> rfl

/-- The sign that makes a quantifier lazy is not found in the wrapping. -/
theorem behindLazy_append (cs : List Char) :
    behindLazy (cs ++ wrapEnd) = behindLazy cs ++ wrapEnd ∧
      ((cs ++ wrapEnd).head? = some '?' ↔ cs.head? = some '?') := by
  unfold behindLazy
  cases cs with
  | nil => exact ⟨rfl, by decide⟩
  | cons c cs =>
    refine ⟨?_, .rfl⟩
    rw [List.cons_append, List.head?_cons, List.head?_cons]
    split <;> rfl

section
variable {n n' m : Nest} {root : Level} {grouped : Bool} {unit : Regex} {literal : List Char}
  {c : Char} {σ σ' τ' : Reader}

/-- A unit is added in the same way, or a comment behind it takes in the closing parenthesis. -/
theorem addUnit_wrapped (h : (addUnit n grouped unit).Gives σ n' σ')
    (h' : (addUnit (n.within root) grouped unit).Gives σ.wrapped m τ') :
    m = n'.within root ∧ τ' = σ'.wrapped ∨ m.Unclosed τ'.rest := by
  obtain ⟨b, hb, hunit⟩ := gives_addUnit h
  obtain ⟨b', hb', hunit'⟩ := gives_addUnit h'
  obtain ⟨b₁, hb₁, happend⟩ | ⟨-, b₁, hspent, happend⟩ :=
    behindBlanks_append σ.options.spaced σ.rest
  · obtain rfl : b₁ = b := Option.some.inj (hb₁.symm.trans hb)
    obtain rfl : b' = b₁ ++ wrapEnd := Option.some.inj (hb'.symm.trans happend)
    rw [startsQuantifier_append closes_wrapEnd] at hunit'
    obtain ⟨hnone, rfl, rfl⟩ | ⟨hsome, bounds, τ, c, hbounds, hc, rfl, rfl⟩ := hunit
    · obtain ⟨-, rfl, rfl⟩ | ⟨hsome, -⟩ := hunit'
      · exact .inl ⟨rfl, rfl⟩
      · rw [hnone] at hsome
        cases hsome
    · obtain ⟨hnone, -⟩ | ⟨-, bounds', τ₁, c', hbounds', hc', rfl, rfl⟩ := hunit'
      · rw [hsome] at hnone
        cases hnone
      · obtain ⟨q, more, rfl, hq⟩ := quantifierText_of_startsQuantifier hsome
        obtain ⟨bounds₁, hgives⟩ := hq.gives
        obtain ⟨rfl, rfl⟩ := hgives _ more rfl _ _ hbounds
        obtain ⟨rfl, rfl⟩ := hgives _ (more ++ wrapEnd) (by simp) _ _ hbounds'
        obtain ⟨c₁, hc₁, happend⟩ | ⟨-, c₁, hspent, happend⟩ :=
          behindBlanks_append σ.options.spaced more
        · obtain rfl : c₁ = c := Option.some.inj (hc₁.symm.trans hc)
          obtain rfl : c' = c₁ ++ wrapEnd := Option.some.inj (hc'.symm.trans happend)
          obtain ⟨hlazy, hiff⟩ := behindLazy_append c₁
          refine .inl ⟨?_, ?_⟩
          · simp only [hiff]
            rfl
          · rw [hlazy]
            rfl
        · obtain rfl : c' = c₁ := Option.some.inj (hc'.symm.trans happend)
          exact .inr ((Nest.unclosed_within_of_spent (n := n) hspent).of_suffix
            (behindLazy_suffix c') rfl)
  · obtain rfl : b' = b₁ := Option.some.inj (hb'.symm.trans happend)
    rw [startsQuantifier_spent hspent] at hunit'
    obtain ⟨-, rfl, rfl⟩ | ⟨hsome, -⟩ := hunit'
    · exact .inr ((Nest.unclosed_within_of_spent (n := n) hspent).of_suffix List.suffix_rfl rfl)
    · cases hsome

/-- A closing parenthesis closes the same group, or a comment takes in the one of the wrapping. -/
theorem closeGroup_wrapped (h : (closeGroup n).Gives σ n' σ')
    (h' : (closeGroup (n.within root)).Gives σ.wrapped m τ') :
    m = n'.within root ∧ τ' = σ'.wrapped ∨ m.Unclosed τ'.rest := by
  obtain ⟨parent, outer, r, houter, hr, hclosed⟩ := gives_closeGroup h
  obtain ⟨parent', outer', r', houter', hr', hclosed'⟩ := gives_closeGroup h'
  rw [Nest.within_outer, houter] at houter'
  cases houter'
  obtain rfl : r' = r := Except.ok.inj (hr'.symm.trans hr)
  obtain ⟨hkind, hbefore, rfl, rfl⟩ | ⟨hother, hadd⟩ := hclosed
  · obtain ⟨-, -, rfl, rfl⟩ | ⟨hother, -⟩ := hclosed'
    · exact .inl ⟨rfl, rfl⟩
    · exact (hother ⟨hkind, hbefore⟩).elim
  · obtain ⟨hkind, hbefore, -⟩ | ⟨-, hadd'⟩ := hclosed'
    · exact (hother ⟨hkind, hbefore⟩).elim
    · exact addUnit_wrapped hadd hadd'

/-- A sign leads to the same, or the pattern or the wrapped one cannot be read to its end. -/
theorem readSign_wrapped (h : (readSign n c).Gives σ n' σ')
    (h' : (readSign (n.within root) c).Gives σ.wrapped m τ') :
    (m = n'.within root ∧ τ' = σ'.wrapped) ∨ n'.Unclosed σ'.rest ∨ m.Unclosed τ'.rest := by
  obtain ⟨rfl, hopen⟩ | ⟨rfl, rfl, rfl⟩ | ⟨rfl, hclose⟩ | ⟨hc, unit, τ, hunit, hadd⟩ :=
    gives_readSign h
  · obtain ⟨kind, hopening, rfl⟩ := gives_openGroup hopen
    obtain ⟨kind', hopening', rfl⟩ := gives_openGroup (n := n.within root) h'
    obtain ⟨rfl, rfl⟩ | ⟨hparen, hsome⟩ := groupOpening_wrapped hopening hopening'
    · refine .inl ⟨?_, rfl⟩
      cases kind' <;> rfl
    · obtain ⟨kind, rfl⟩ := Option.isSome_iff_exists.1 hsome
      refine .inr (.inl ?_)
      rw [Nest.Unclosed, List.count_eq_zero_of_not_mem hparen]
      exact Nat.succ_pos _
  · obtain ⟨rfl, rfl⟩ := gives_pure_iff.1 (show (pure _ : Read Nest).Gives _ _ _ from h')
    exact .inl ⟨rfl, rfl⟩
  · obtain hsame | hunclosed := closeGroup_wrapped hclose h'
    · exact .inl hsame
    · exact .inr (.inr hunclosed)
  · obtain ⟨rfl, -⟩ | ⟨rfl, -⟩ | ⟨rfl, -⟩ | ⟨-, unit', τ₁, hunit', hadd'⟩ := gives_readSign h'
    · exact (hc (by simp)).elim
    · exact (hc (by simp)).elim
    · exact (hc (by simp)).elim
    · obtain ⟨rfl, rfl⟩ := ((Follows.signUnit textless_twins closes_wrapEnd
        sharesGroups_twins c _).gives_wrapped hunit).eq hunit'
      obtain hsame | hunclosed := addUnit_wrapped hadd hadd'
      · exact .inl hsame
      · exact .inr (.inr hunclosed)

end

/-! ## Stretches -/

/-- What is left of the wrapping when its parenthesis has been read. -/
def afterParen : List Char := ['\\', 'z']

/-- How the readings of a pattern and of the wrapped one stand to each other behind a stretch. -/
inductive Alongside (root : Level) (n : Nest) (σ : Reader) (m : Nest) (τ : Reader) : Prop
  /-- They are at the same place. -/
  | same (nest : m = n.within root) (reader : τ = σ.wrapped)
  /-- The pattern is at its end, and the wrapped one has gone on to close the group around it. -/
  | closed (ended : σ.rest = [])
    (closes : (closeGroup (n.within root)).Gives (σ.before afterParen) m τ)
  /-- The pattern cannot be read to its end. -/
  | unclosed (count : n.Unclosed σ.rest)
  /-- The wrapped pattern cannot be read to its end. -/
  | spent (count : m.Unclosed τ.rest)

/-- Whether a quantifier was read before does not matter for a closing parenthesis. -/
theorem closeGroup_congr {n m : Nest} (hlevel : m.level = n.level) (houter : m.outer = n.outer) :
    closeGroup m = closeGroup n := by
  rw [closeGroup, closeGroup, hlevel, houter]

theorem Nest.behind_level (n : Nest) (o : Options) (cs : List Char) :
    (n.behind o cs).level = (n.pushLiteral o cs).level := by
  unfold Nest.behind
  split
  · rename_i hempty
    rw [List.isEmpty_iff.1 hempty]
    rfl
  · rfl

section
variable {n n' m : Nest} {root : Level} {literal : List Char} {σ σ' τ' : Reader}

/-- At its end the pattern is followed by the parenthesis that closes the group around it. -/
theorem readBehind_wrapped_nil (hrest : σ.rest = []) (h : (readBehind n literal).Gives σ n' σ')
    (h' : (readBehind (n.within root) literal).Gives σ.wrapped m τ') :
    Alongside root n' σ' m τ' := by
  obtain ⟨rfl, rfl⟩ := (gives_readBehind_of_ordinary (by simp [hrest])).1 h
  have hwrapped : σ'.wrapped.rest = ')' :: afterParen := by rw [Reader.wrapped_rest, hrest]; rfl
  have hclose := (gives_readBehind_of_sign hwrapped (by decide) (by decide)).1 h'
  rw [Nest.within_behind] at hclose
  have hcongr : closeGroup ((n.pushLiteral σ'.options literal).within root) =
      closeGroup ((n.behind σ'.options literal).within root) :=
    closeGroup_congr (n.behind_level σ'.options literal).symm (by simp)
  refine .closed hrest ?_
  rw [hcongr]
  exact hclose

/-- Literal text and the sign behind it lead to readings that are alongside. -/
theorem readBehind_wrapped (h : (readBehind n literal).Gives σ n' σ')
    (h' : (readBehind (n.within root) literal).Gives σ.wrapped m τ') :
    Alongside root n' σ' m τ' := by
  cases hrest : σ.rest with
  | nil => exact readBehind_wrapped_nil hrest h h'
  | cons c more =>
    have hwrapped : σ.wrapped.rest = c :: (more ++ wrapEnd) := by
      rw [Reader.wrapped_rest, hrest]
      rfl
    obtain ⟨hhead, rfl, rfl⟩ | ⟨d, ds, last, htext, hquantifier, hlast, hadd⟩ |
      ⟨d, ds, htext, hspecial, hquantifier, hsign⟩ := gives_readBehind h
    · rw [gives_readBehind_of_ordinary (by rw [hwrapped]; rwa [hrest] at hhead),
        Nest.within_pushLiteral] at h'
      exact .same h'.1 h'.2
    · cases hrest.symm.trans htext
      obtain ⟨last', hlast', hadd'⟩ := (gives_readBehind_of_quantifier hwrapped hquantifier).1 h'
      obtain rfl : last' = last := Option.some.inj (hlast'.symm.trans hlast)
      rw [Nest.within_pushLiteral] at hadd'
      obtain ⟨rfl, rfl⟩ | hunclosed := addUnit_wrapped hadd hadd'
      · exact .same rfl rfl
      · exact .spent hunclosed
    · cases hrest.symm.trans htext
      have hsign' := (gives_readBehind_of_sign hwrapped hspecial hquantifier).1 h'
      rw [Nest.within_behind] at hsign'
      obtain ⟨rfl, rfl⟩ | hunclosed | hunclosed := readSign_wrapped hsign hsign'
      · exact .same rfl rfl
      · exact .unclosed hunclosed
      · exact .spent hunclosed

/-- Behind a stretch the readings of the pattern and of the wrapped one are alongside. -/
theorem readStretch_wrapped (h : (readStretch n).Gives σ n' σ')
    (h' : (readStretch (n.within root)).Gives σ.wrapped m τ') : Alongside root n' σ' m τ' := by
  obtain ⟨b, hb, hbehind⟩ := gives_readStretch h
  obtain ⟨b', hb', hbehind'⟩ := gives_readStretch h'
  obtain ⟨b₁, hb₁, happend⟩ | ⟨-, b₁, hspent, happend⟩ :=
    behindBlanks_append σ.options.spaced σ.rest
  · obtain rfl : b₁ = b := Option.some.inj (hb₁.symm.trans hb)
    obtain rfl : b' = b₁ ++ wrapEnd := Option.some.inj (hb'.symm.trans happend)
    rw [Reader.wrapped_options, literalText_append closes_wrapEnd] at hbehind'
    dsimp only at hbehind'
    obtain ⟨c, hc, happend⟩ | ⟨hc, c, hspent, happend⟩ :=
      behindBlanks_append σ.options.spaced (literalText σ.options.spaced b₁).2
    · rw [hc] at hbehind
      rw [happend] at hbehind'
      exact readBehind_wrapped hbehind hbehind'
    · rw [happend] at hbehind'
      exact .spent (readBehind_unclosed (Nest.unclosed_within_of_spent hspent) hbehind')
  · obtain rfl : b' = b₁ := Option.some.inj (hb'.symm.trans happend)
    refine .spent (readBehind_unclosed (n := n.within root) ?_ hbehind')
    exact (Nest.unclosed_within_of_spent (n := n) hspent).of_suffix
      ((behindBlanks_getD_suffix _ _).trans (literalText_suffix _ _)) rfl

end

/-! ## The whole pattern -/

/-- The expression that matches where the given one does, up to the end of the text and from its
start on. -/
def Regex.anchored (r : Regex) : Regex :=
  sequence .forward [.anchor .textStart, r, .anchor .textEnd]

/-- What is outside the group that wraps a pattern. -/
def Level.outermost : Level :=
  (Level.start .plain .forward Options.none).push (.anchor .textStart)

/-- An anchored expression is the only alternative. -/
theorem Regex.alternatives_anchored (r : Regex) : alternatives [r.anchored] = r.anchored := by
  by_cases hr : r = .empty
  · subst hr
    rfl
  · simp [anchored, sequence, alternatives, choices, mergeOnto, firstOf, hr]

/-- What is read of a wrapped pattern is anchored. -/
theorem close_outermost (r : Regex) :
    ((Level.outermost.push r).push (.anchor .textEnd)).close = .ok r.anchored :=
  congrArg Except.ok r.alternatives_anchored

/-- At its end a pattern has no open groups. -/
theorem readAll_ended {fuel : Nat} {n : Nest} {r : Regex} {σ σ' : Reader} (hrest : σ.rest = [])
    (h : (readAll fuel n).Gives σ r σ') : n.outer = [] ∧ n.level.close = .ok r := by
  cases fuel with
  | zero => exact ⟨(gives_finish h).1, (gives_finish h).2.1⟩
  | succ fuel =>
    rw [readAll, gives_rest_bind, hrest] at h
    exact ⟨(gives_finish h).1, (gives_finish h).2.1⟩

/-- In the rest of the wrapping nothing is repeated. -/
theorem gives_addUnit_of_spent {n n' : Nest} {grouped : Bool} {unit : Regex} {σ σ' : Reader}
    (hspent : IsSpent σ.rest) (h : (addUnit n grouped unit).Gives σ n' σ') :
    n' = n.push unit ∧ σ' = σ := by
  obtain ⟨b, hb, hunit⟩ := gives_addUnit h
  obtain rfl : σ.rest = b := Option.some.inj ((behindBlanks_spent _ hspent).symm.trans hb)
  obtain ⟨-, rfl, rfl⟩ | ⟨hsome, -⟩ := hunit
  · exact ⟨rfl, rfl⟩
  · rw [startsQuantifier_spent hspent] at hsome
    cases hsome

/-- A stretch that starts with a parenthesis or backslash consists of that sign. -/
theorem gives_readStretch_sign {n n' : Nest} {c : Char} {more : List Char} {σ σ' : Reader}
    (hc : c = '(' ∨ c = ')' ∨ c = '\\') (hcomment : ¬ StartsComment (c :: more))
    (hrest : σ.rest = c :: more) (h : (readStretch n).Gives σ n' σ') :
    (readSign n c).Gives (σ.before more) n' σ' := by
  have hspaces : withoutSpaces σ.options.spaced (c :: more) = c :: more := by
    obtain rfl | rfl | rfl := hc <;> cases σ.options.spaced <;> rfl
  have hline : ¬ StartsLine σ.options.spaced (c :: more) := by
    obtain rfl | rfl | rfl := hc <;> simp [StartsLine]
  have hblanks : behindBlanks σ.options.spaced (c :: more) = some (c :: more) := by
    rw [behindBlanks_of_other, hspaces] <;> rwa [hspaces]
  have hliteral : literalText σ.options.spaced (c :: more) = ([], c :: more) := by
    obtain rfl | rfl | rfl := hc <;> cases σ.options.spaced <;> rfl
  obtain ⟨b, hb, hbehind⟩ := gives_readStretch h
  rw [hrest, hblanks] at hb
  obtain rfl := Option.some.inj hb
  rw [hliteral, hblanks] at hbehind
  obtain ⟨hhead, -⟩ | ⟨d, more, last, -, -, hlast, -⟩ | ⟨d, more, htext, -, -, hsign⟩ :=
    gives_readBehind hbehind
  · have hordinary := hhead c rfl
    obtain rfl | rfl | rfl := hc <;> exact absurd hordinary (by decide)
  · cases hlast
  · cases htext
    exact hsign

/-- The wrapping ends with the end of the text. -/
theorem gives_readSign_afterParen {n n' : Nest} {σ σ' : Reader} (hrest : σ.rest = ['z'])
    (h : (readSign n '\\').Gives σ n' σ') : n' = n.push (.anchor .textEnd) ∧ σ' = σ.before [] := by
  obtain ⟨hc, -⟩ | ⟨hc, -⟩ | ⟨hc, -⟩ | ⟨-, unit, τ, hunit, hadd⟩ := gives_readSign h
  · exact absurd hc (by decide)
  · exact absurd hc (by decide)
  · exact absurd hc (by decide)
  · have hend : (signUnit '\\').Gives σ (.anchor .textEnd) (σ.before []) := by
      obtain ⟨cs, o, groups, number, skip⟩ := σ
      obtain rfl : cs = ['z'] := hrest
      rfl
    obtain ⟨rfl, rfl⟩ := hend.eq hunit
    exact gives_addUnit_of_spent (.inl rfl) hadd

/-- When the group around a pattern is closed, the end of the text is added. -/
theorem readAll_closed {fuel : Nat} {n m : Nest} {r r' : Regex} {σ τ τ' : Reader}
    (houter : n.outer = []) (hr : n.level.close = .ok r)
    (hclose : (closeGroup (n.within .outermost)).Gives (σ.before afterParen) m τ)
    (h : (readAll (fuel + 1) m).Gives τ r' τ') : r' = r.anchored := by
  obtain ⟨parent, outer, r₁, houter', hr₁, hclosed⟩ := gives_closeGroup hclose
  rw [Nest.within_outer, houter] at houter'
  cases houter'
  obtain rfl : r₁ = r := Except.ok.inj (hr₁.symm.trans hr)
  obtain ⟨hkind, -⟩ | ⟨-, hadd⟩ := hclosed
  · cases hkind
  · obtain ⟨rfl, rfl⟩ := gives_addUnit_of_spent (.inr rfl) hadd
    rw [readAll, gives_rest_bind] at h
    obtain ⟨m, τ, hstretch, hnext⟩ := gives_bind_iff.1 h
    obtain ⟨rfl, rfl⟩ :=
      gives_readSign_afterParen rfl (gives_readStretch_sign (.inr (.inr rfl))
        (by simp [StartsComment]) rfl hstretch)
    obtain ⟨-, hresult⟩ := readAll_ended rfl hnext
    exact Except.ok.inj (hresult.symm.trans (close_outermost r₁))

/-- If a pattern and the wrapped one can be read with the same groups, the second is the first one
with anchors. -/
theorem readAll_wrapped {fuel fuel' : Nat} {n : Nest} {r r' : Regex} {σ σ' τ' : Reader}
    (hfuel : σ.rest.length < fuel) (hfuel' : σ.rest.length + 1 < fuel')
    (h : (readAll fuel n).Gives σ r σ')
    (h' : (readAll fuel' (n.within .outermost)).Gives σ.wrapped r' τ') : r' = r.anchored := by
  induction fuel generalizing fuel' n σ with
  | zero => exact (Nat.not_lt_zero _ hfuel).elim
  | succ fuel ih =>
    obtain ⟨fuel', rfl⟩ := Nat.exists_eq_add_one.2 (Nat.zero_lt_of_lt hfuel')
    obtain ⟨fuel₁, rfl⟩ := Nat.exists_eq_add_one.2 (show 0 < fuel' by omega)
    have hwrapped : σ.wrapped.rest.isEmpty = false := by simp [wrapEnd]
    rw [readAll, gives_rest_bind, hwrapped] at h'
    obtain ⟨m, τ, hstretch', hnext'⟩ := gives_bind_iff.1 h'
    rcases hrest : σ.rest with _ | ⟨c, more⟩
    · obtain ⟨houter, hr⟩ := readAll_ended hrest h
      have htext : σ.wrapped.rest = ')' :: afterParen := by
        rw [Reader.wrapped_rest, hrest]
        rfl
      exact readAll_closed houter hr (gives_readStretch_sign (.inr (.inl rfl))
        (by simp [StartsComment]) htext hstretch') hnext'
    · rw [readAll, gives_rest_bind, hrest] at h
      obtain ⟨n₁, σ₁, hstretch, hnext⟩ := gives_bind_iff.1 h
      have hlength := length_readStretch_lt (by simp [hrest]) hstretch
      cases readStretch_wrapped hstretch hstretch' with
      | same nest reader =>
        subst nest reader
        exact ih (by omega) (by omega) hnext hnext'
      | closed ended closes =>
        obtain ⟨houter, hr⟩ := readAll_ended ended hnext
        exact readAll_closed houter hr closes hnext'
      | unclosed count => exact (not_gives_readAll_of_unclosed count hnext).elim
      | spent count => exact (not_gives_readAll_of_unclosed count hnext').elim

/-- What stands in front of a wrapped pattern. -/
def wrapStart : List Char := ['\\', 'A', '(', '?', ':']

/-- What stands in front of a wrapped pattern opens the group around it. -/
theorem gives_readAll_wrapStart {fuel : Nat} {cs : List Char} {groups : Groups} {r : Regex}
    {σ' : Reader} (h : (readAll (fuel + 2) ⟨Level.start .plain .forward Options.none, [], false⟩).Gives
      (Reader.start (wrapStart ++ cs) groups) r σ') :
    (readAll fuel ⟨Level.start .plain .forward Options.none, [.outermost], false⟩).Gives
      (Reader.start cs groups) r σ' := by
  rw [readAll, gives_rest_bind] at h
  obtain ⟨n, σ, hstretch, hnext⟩ := gives_bind_iff.1 h
  have hgroup : ¬ StartsComment ('(' :: '?' :: ':' :: cs) := by simp [StartsComment]
  obtain ⟨hc, -⟩ | ⟨hc, -⟩ | ⟨hc, -⟩ | ⟨-, unit, τ, hunit, hadd⟩ :=
    gives_readSign (gives_readStretch_sign (.inr (.inr rfl)) (by simp [StartsComment]) rfl hstretch)
  · exact absurd hc (by decide)
  · exact absurd hc (by decide)
  · exact absurd hc (by decide)
  · have hanchor : (signUnit '\\').Gives (Reader.start ('A' :: '(' :: '?' :: ':' :: cs) groups)
        (.anchor .textStart) (Reader.start ('(' :: '?' :: ':' :: cs) groups) := rfl
    have hblanks : behindBlanks false ('(' :: '?' :: ':' :: cs) =
        some (withoutSpaces false ('(' :: '?' :: ':' :: cs)) :=
      behindBlanks_of_other hgroup (by simp [StartsLine])
    obtain ⟨rfl, rfl⟩ := hanchor.eq hunit
    obtain ⟨b, hb, hunit⟩ := gives_addUnit hadd
    obtain rfl := Option.some.inj (hblanks.symm.trans hb)
    obtain ⟨-, rfl, rfl⟩ | ⟨hsome, -⟩ := hunit
    · rw [readAll, gives_rest_bind] at hnext
      obtain ⟨m, τ, hstretch, hlast⟩ := gives_bind_iff.1 hnext
      obtain ⟨kind, hopening, rfl⟩ :=
        gives_openGroup (gives_readStretch_sign (.inl rfl) hgroup rfl hstretch)
      obtain ⟨rfl, rfl⟩ := (gives_of_opening (.uncaptured cs rfl)).eq hopening
      exact hlast
    · cases hsome

/-- A pattern that is parsed is read with the groups that are found in it. -/
theorem Regex.gives_of_parse {cs : List Char} {r : Regex} (h : Regex.parse cs = .ok r) :
    ∃ groups σ', groupsOf cs = .ok groups ∧
      (readAll (cs.length + 1) ⟨Level.start .plain .forward Options.none, [], false⟩).Gives
        (Reader.start cs groups) r σ' := by
  rw [parse] at h
  cases hgroups : groupsOf cs with
  | error fault =>
    rw [hgroups] at h
    cases h
  | ok groups =>
    rw [hgroups] at h
    exact ⟨groups, _, rfl, Prod.ext h rfl⟩

/-- If wrapping a pattern does not change the numbers of its groups, the wrapped pattern denotes
what the pattern denotes, anchored. -/
theorem Regex.parse_wrapped {cs : List Char} {r r' : Regex} (h : Regex.parse cs = .ok r)
    (h' : Regex.parse (wrapStart ++ cs ++ wrapEnd) = .ok r')
    (hgroups : groupsOf (wrapStart ++ cs ++ wrapEnd) = groupsOf cs) : r' = r.anchored := by
  obtain ⟨groups, σ, hbare, hread⟩ := gives_of_parse h
  obtain ⟨groups', τ, hwrapped, hread'⟩ := gives_of_parse h'
  obtain rfl : groups' = groups :=
    Except.ok.inj (hwrapped.symm.trans (hgroups.trans hbare))
  rw [List.append_assoc] at hread'
  have hlength : (wrapStart ++ (cs ++ wrapEnd)).length + 1 = (cs.length + 7) + 2 := by
    simp [wrapStart, wrapEnd]
  rw [hlength] at hread'
  exact readAll_wrapped (σ := Reader.start cs groups') (Nat.lt_succ_self _)
    (show cs.length + 1 < cs.length + 7 by omega) hread (gives_readAll_wrapStart hread')

end PackageCycles.Pattern

import PackageCycles.Proofs.Pattern.CountedGroups

/-!
# The numbers of groups in a wrapped pattern

The pass that counts groups is put beside the one that reads the pattern. The two are kept in step by
what they know in common, the text and the options that closing parentheses will restore (`Linked`),
from stretch to stretch (`readStretch_continues`) until the pattern ends. If nothing may be taken
away from a set, the groups of a pattern that can be read therefore have the same names and numbers
in the wrapped pattern (`groupsOf_wrapped`).
-/

namespace PackageCycles.Pattern

open Read

/-! ## The two passes side by side -/

/-- The options that closing parentheses will restore, the next ones first. -/
def Nest.restored (n : Nest) : List Options := (n.level :: n.outer).dropLast.map (·.saved)

/-- What will be restored depends on what the open groups have saved. -/
theorem Nest.restored_congr {n m : Nest} (hsaved : m.level.saved = n.level.saved)
    (houter : m.outer = n.outer) : m.restored = n.restored := by
  unfold Nest.restored
  rw [houter]
  cases n.outer with
  | nil => rfl
  | cons parent outer => simp [hsaved]

/-- The innermost group is closed first. -/
theorem Nest.restored_cons {n : Nest} {parent : Level} {outer : List Level} {b : Bool}
    (houter : n.outer = parent :: outer) :
    n.restored = n.level.saved :: (⟨parent, outer, b⟩ : Nest).restored := by
  unfold Nest.restored
  rw [houter]
  rfl

/-- The pass that counts groups is at the same place as the other one, and blanks mean the same in
both, here and behind each closing parenthesis. -/
structure Linked (n : Nest) (σ κ : Reader) (saved : List Options) : Prop where
  /-- The texts. -/
  rest : κ.rest = σ.rest
  /-- What blanks mean here. -/
  spaced : κ.options.spaced = σ.options.spaced
  /-- What blanks mean behind the parentheses. -/
  saved : saved.map (·.spaced) = n.restored.map (·.spaced)

/-- Where the pass that counts groups is when the other one has read on: at the same place, or at
the end with the same groups, or the other pass will find a fault. -/
def Continues (κ : Reader) (saved : List Options) (n : Nest) (σ : Reader) : Prop :=
  (∃ κ' saved', Linked n σ κ' saved' ∧ Advances κ saved κ' saved') ∨ SameGroups κ saved ∨
    σ.rest.head? = some '?'

section
variable {n n' : Nest} {κ κ' σ σ' : Reader} {saved saved' : List Options} {c : Char}

/-- What is passed over before does no harm. -/
theorem Continues.trans (h : Advances κ saved κ' saved') (h' : Continues κ' saved' n σ) :
    Continues κ saved n σ := by
  obtain ⟨κ₁, saved₁, hlinked, hadvances⟩ | hsame | hquestion := h'
  · exact .inl ⟨κ₁, saved₁, hlinked, h.trans hadvances⟩
  · exact .inr (.inl (h.sameGroups hsame))
  · exact .inr (.inr hquestion)

/-- What is passed over with the same options keeps the passes in step. -/
theorem Passes.continues (h : Passes κ saved σ.rest) (hspaced : κ.options.spaced = σ.options.spaced)
    (hsaved : saved.map (·.spaced) = n.restored.map (·.spaced)) : Continues κ saved n σ := by
  obtain ⟨κ', hrest, hoptions, hadvances⟩ | hsame := h
  · exact .inl ⟨κ', saved, ⟨hrest, by rw [hoptions, hspaced], hsaved⟩, hadvances⟩
  · exact .inr (.inl hsame)

/-- A unit does not change what its group has saved. -/
theorem addUnit_level {grouped : Bool} {unit : Regex} (h : (addUnit n grouped unit).Gives σ n' σ') :
    n'.level.saved = n.level.saved := by
  obtain ⟨b, -, ⟨-, rfl, -⟩ | ⟨-, bounds, τ, c, -, -, -, rfl⟩⟩ := gives_addUnit h <;> rfl

theorem addUnit_restored {grouped : Bool} {unit : Regex}
    (h : (addUnit n grouped unit).Gives σ n' σ') : n'.restored = n.restored :=
  Nest.restored_congr (addUnit_level h) (addUnit_suffix h).2

/-- A unit is passed over in both passes. -/
theorem addUnit_continues {grouped : Bool} {unit : Regex} (hlinked : Linked n σ κ saved)
    (h : (addUnit n grouped unit).Gives σ n' σ') : Continues κ saved n' σ' := by
  refine (Passes.addUnit hlinked.rest hlinked.spaced h).continues ?_ ?_
  · rw [addUnit_before h]
    exact hlinked.spaced
  · rw [addUnit_restored h]
    exact hlinked.saved

/-- A sign leads both passes on to the same place. -/
theorem readSign_continues (hrest : κ.rest = c :: σ.rest)
    (hspaced : κ.options.spaced = σ.options.spaced)
    (hsaved : saved.map (·.spaced) = n.restored.map (·.spaced)) (hspecial : isSpecial c)
    (hcomment : ¬ StartsComment κ.rest) (hplain : ¬ MayTakeAway (c :: σ.rest))
    (h : (readSign n c).Gives σ n' σ') : Continues κ saved n' σ' := by
  obtain ⟨rfl, hopen⟩ | ⟨rfl, rfl, rfl⟩ | ⟨rfl, hclose⟩ | ⟨hc, unit, τ, hunit, hadd⟩ :=
    gives_readSign h
  · obtain ⟨kind, hopening, rfl⟩ := gives_openGroup hopen
    obtain ⟨κ', hrest', hspaced', hadvances⟩ | hquestion :=
      (opening_of_gives hopening).advances saved hrest hspaced hcomment
    · cases kind with
      | none => exact .inl ⟨κ', saved, ⟨hrest', hspaced', hsaved⟩, hadvances⟩
      | some kind =>
        refine .inl ⟨κ', κ.options :: saved, ⟨hrest', hspaced', ?_⟩, hadvances⟩
        rw [Nest.restored_cons (b := false) rfl, List.map_cons, List.map_cons, hspaced, hsaved]
        rfl
    · exact .inr (.inr hquestion)
  · have htext : κ.rest = ['|'] ++ σ'.rest := hrest
    have hsame : (⟨n.level.nextAlternative, n.outer, false⟩ : Nest).restored = n.restored :=
      Nest.restored_congr rfl rfl
    refine Passes.continues (.literal htext fun d hd => ?_) hspaced (by rw [hsame, hsaved])
    obtain rfl := List.mem_singleton.1 hd
    exact ⟨by decide, fun _ => by decide⟩
  · obtain ⟨parent, outer, r, houter, -, hclosed⟩ := gives_closeGroup hclose
    rw [Nest.restored_cons (b := false) houter, List.map_cons] at hsaved
    obtain ⟨o, saved₁, rfl, ho, hsaved₁⟩ := List.map_eq_cons_iff.1 hsaved
    refine .trans (.close hrest) ?_
    obtain ⟨-, -, rfl, rfl⟩ | ⟨-, hadd⟩ := hclosed
    · rw [Nest.restored_congr (m := ⟨parent, outer, false⟩)
        (n := ⟨{ parent with before := [r] }, outer, false⟩) rfl rfl] at hsaved₁
      exact .inl ⟨{ κ.before σ.rest with options := o }, saved₁, ⟨rfl, ho, hsaved₁⟩, .refl⟩
    · have hlinked : Linked ⟨parent, outer, false⟩ { σ with options := n.level.saved }
          { κ.before σ.rest with options := o } saved₁ := ⟨rfl, ho, hsaved₁⟩
      exact addUnit_continues hlinked hadd
  · have hpasses := Passes.signUnit saved hrest hc hspecial hplain hunit
    obtain ⟨κ', hrest', hoptions, hadvances⟩ | hsame := hpasses
    · refine .trans hadvances (addUnit_continues ⟨hrest', ?_, hsaved⟩ hadd)
      rw [hoptions, hspaced, signUnit_before hunit]
      rfl
    · exact .inr (.inl hsame)

/-- Literal text does not change what its group has saved. -/
theorem Nest.pushLiteral_saved (n : Nest) (o : Options) (cs : List Char) :
    (n.pushLiteral o cs).level.saved = n.level.saved := by
  have hfold (n : Nest) :
      (cs.foldl (fun n c => n.push (literalUnit o c.toNat)) n).level.saved = n.level.saved := by
    induction cs generalizing n with
    | nil => rfl
    | cons c cs ih => exact ih _
  exact hfold _

theorem Nest.pushLiteral_restored (n : Nest) (o : Options) (cs : List Char) :
    (n.pushLiteral o cs).restored = n.restored :=
  restored_congr (n.pushLiteral_saved o cs) (n.pushLiteral_outer o cs)

theorem Nest.behind_restored (n : Nest) (o : Options) (cs : List Char) :
    (n.behind o cs).restored = n.restored := by
  unfold Nest.behind
  split
  · rfl
  · exact n.pushLiteral_restored o cs

/-- The passes stay in step over literal text and the sign behind it. -/
theorem readBehind_continues {literal : List Char} (hlinked : Linked n σ κ saved)
    (hcomment : ¬ StartsComment σ.rest) (hplain : ¬ MayTakeAway σ.rest)
    (h : (readBehind n literal).Gives σ n' σ') : Continues κ saved n' σ' := by
  obtain ⟨-, rfl, rfl⟩ | ⟨c, more, last, -, -, -, hadd⟩ | ⟨c, more, hrest, hspecial, -, hsign⟩ :=
    gives_readBehind h
  · refine .inl ⟨κ, saved, ⟨hlinked.rest, hlinked.spaced, ?_⟩, .refl⟩
    rw [Nest.pushLiteral_restored, hlinked.saved]
  · refine addUnit_continues (σ := σ) ⟨hlinked.rest, hlinked.spaced, ?_⟩ hadd
    rw [Nest.pushLiteral_restored, hlinked.saved]
  · refine readSign_continues (σ := σ.before more) (hlinked.rest.trans hrest) hlinked.spaced ?_
      hspecial ?_ ?_ hsign
    · rw [Nest.behind_restored, hlinked.saved]
    · rwa [hlinked.rest]
    · rwa [Reader.before_rest, ← hrest]

/-- The text of a stretch in front of its sign is passed over. -/
theorem Passes.literalText (saved : List Options) (hrest : κ.rest = σ.rest)
    (hspaced : κ.options.spaced = σ.options.spaced) {b : List Char}
    (hb : behindBlanks σ.options.spaced σ.rest = some b) :
    Passes κ saved ((behindBlanks σ.options.spaced
      (literalText σ.options.spaced b).2).getD []) := by
  obtain ⟨hsplit, hliteral⟩ := literalText_spec σ.options.spaced b
  have hblanks : Passes κ saved b := by
    have hpasses := Passes.blanks κ saved
    rwa [hrest, hspaced, hb] at hpasses
  refine hblanks.trans fun κ₁ hrest₁ hoptions₁ => ?_
  have htext : Passes κ₁ saved (Pattern.literalText σ.options.spaced b).2 :=
    .literal (hrest₁.trans hsplit) (by rwa [hoptions₁, hspaced])
  refine htext.trans fun κ₂ hrest₂ hoptions₂ => ?_
  have hpasses := Passes.blanks κ₂ saved
  rwa [hrest₂, hoptions₂, hoptions₁, hspaced] at hpasses

/-- Behind blanks and comments no comment starts. -/
theorem not_startsComment_behindBlanks (spaced : Bool) (cs : List Char) :
    ¬ StartsComment ((behindBlanks spaced cs).getD []) := by
  cases hb : behindBlanks spaced cs with
  | none => simp [StartsComment]
  | some b => exact (behindBlanks_settled hb).1

/-- A stretch leads both passes on to the same place. -/
theorem readStretch_continues (hlinked : Linked n σ κ saved) (hplain : ¬ MayTakeAway σ.rest)
    (h : (readStretch n).Gives σ n' σ') : Continues κ saved n' σ' := by
  obtain ⟨b, hb, hbehind⟩ := gives_readStretch h
  have hpasses := Passes.literalText saved hlinked.rest hlinked.spaced hb
  obtain ⟨κ', hrest', hoptions', hadvances⟩ | hsame := hpasses
  · refine .trans hadvances (readBehind_continues ⟨hrest', ?_, hlinked.saved⟩ ?_ ?_ hbehind)
    · rw [hoptions', hlinked.spaced]
      rfl
    · exact not_startsComment_behindBlanks _ _
    · exact not_mayTakeAway_of_suffix hplain ((behindBlanks_getD_suffix _ _).trans
        ((literalText_suffix _ _).trans (behindBlanks_suffix hb)))
  · exact .inr (.inl hsame)

/-! ## The whole pattern -/

theorem readStretch_suffix (h : (readStretch n).Gives σ n' σ') : σ'.rest <:+ σ.rest := by
  obtain ⟨b, hb, hbehind⟩ := gives_readStretch h
  exact (readBehind_suffix hbehind).trans ((behindBlanks_getD_suffix _ _).trans
    ((literalText_suffix _ _).trans (behindBlanks_suffix hb)))

/-- A quantifier has to follow something. -/
theorem not_gives_readStretch_question (hrest : σ.rest.head? = some '?') :
    ¬ (readStretch n).Gives σ n' σ' := by
  intro h
  obtain ⟨cs, hcs⟩ := List.head?_eq_some_iff.1 hrest
  have hspaces (spaced : Bool) : withoutSpaces spaced ('?' :: cs) = '?' :: cs := by
    cases spaced <;> rfl
  have hblanks : behindBlanks σ.options.spaced ('?' :: cs) = some ('?' :: cs) := by
    rw [behindBlanks_of_other, hspaces] <;> rw [hspaces] <;> simp [StartsComment, StartsLine]
  have hliteral : literalText σ.options.spaced ('?' :: cs) = ([], '?' :: cs) := by
    cases σ.options.spaced <;> rfl
  obtain ⟨b, hb, hbehind⟩ := gives_readStretch h
  rw [hcs, hblanks] at hb
  obtain rfl := Option.some.inj hb
  rw [hliteral, hblanks] at hbehind
  obtain ⟨hhead, -⟩ | ⟨c, more, last, -, -, hlast, -⟩ | ⟨c, more, htext, -, hquantifier, -⟩ :=
    gives_readBehind hbehind
  · exact absurd (hhead '?' rfl) (by decide)
  · cases hlast
  · cases htext
    exact absurd hquantifier (by decide)

/-- At the end of a pattern both passes have seen the same groups. -/
theorem sameGroups_of_ended (hrest : κ.rest = []) (hsaved : saved = []) : SameGroups κ saved := by
  subst hsaved
  refine ⟨κ.groups, κ.nextNumber, .of_nil hrest, fun o => ?_⟩
  have htext : κ.wrapped.rest = ')' :: ['\\', 'z'] := by
    rw [Reader.wrapped_rest, hrest]
    rfl
  exact .close htext (.of_spent (.inr rfl))

/-- If a pattern can be read to its end, it has the same groups when it is wrapped. -/
theorem readAll_sameGroups {fuel : Nat} {r : Regex} (hfuel : σ.rest.length < fuel)
    (hlinked : Linked n σ κ saved) (hplain : ¬ MayTakeAway σ.rest)
    (h : (readAll fuel n).Gives σ r σ') : SameGroups κ saved := by
  induction fuel generalizing n σ κ saved with
  | zero => exact (Nat.not_lt_zero _ hfuel).elim
  | succ fuel ih =>
    by_cases hrest : σ.rest = []
    · have houter := (readAll_ended hrest h).1
      have hsaved := hlinked.saved
      rw [Nest.restored, houter] at hsaved
      exact sameGroups_of_ended (hlinked.rest.trans hrest) (List.map_eq_nil_iff.1 hsaved)
    · rw [readAll, gives_rest_bind, if_neg (by simpa using hrest)] at h
      obtain ⟨n₁, τ, hstretch, hnext⟩ := gives_bind_iff.1 h
      have hlength := length_readStretch_lt hrest hstretch
      have hsuffix := readStretch_suffix hstretch
      obtain ⟨κ', saved', hlinked', hadvances⟩ | hsame | hquestion :=
        readStretch_continues hlinked hplain hstretch
      · exact hadvances.sameGroups
          (ih (by omega) hlinked' (not_mayTakeAway_of_suffix hplain hsuffix) hnext)
      · exact hsame
      · rcases fuel with _ | fuel
        · omega
        · rw [readAll, gives_rest_bind, if_neg (by cases hτ : τ.rest <;> simp_all)] at hnext
          obtain ⟨n₂, τ₂, hstretch', -⟩ := gives_bind_iff.1 hnext
          exact (not_gives_readStretch_question hquestion hstretch').elim

end

/-- What stands in front of a wrapped pattern opens the group around it. -/
theorem counts_wrapStart {cs : List Char} {groups found : Groups} {number : Nat}
    (h : Counts (Reader.start cs groups).wrapped [Options.none] found number) :
    Counts (Reader.start (wrapStart ++ cs ++ wrapEnd) groups) [] found number := by
  have hrest : (Reader.start (wrapStart ++ cs ++ wrapEnd) groups).rest =
      '\\' :: 'A' :: '(' :: '?' :: ':' :: (cs ++ wrapEnd) := rfl
  refine Counts.escape hrest (by simp) rfl (Nat.le_succ _) ?_
  have hopen : (Reader.start ('(' :: '?' :: ':' :: cs) groups).rest = '(' :: '?' :: ':' :: cs := rfl
  have hadvances : Advances (Reader.start ('(' :: '?' :: ':' :: cs) groups) []
      (Reader.start cs groups) [Options.none] := .signed hopen (by decide)
  exact hadvances wrapEnd (.inr rfl) [] found number h

/-- The names of groups are numbered after the pass. -/
theorem groupsOf_of_counts {cs : List Char} {groups : Groups} {number : Nat}
    (h : Counts (Reader.start cs ⟨[0], []⟩) [] groups number) :
    groupsOf cs = .ok (numberNames number groups.numbers (groups.names.map (·.1))) := by
  obtain ⟨κ, hgives, rfl, rfl⟩ := h (cs.length + 1) (Nat.lt_succ_self _)
  rw [groupsOf, show (countGroups (cs.length + 1) []).run (Reader.start cs ⟨[0], []⟩) = (.ok (), κ)
    from hgives]

/-- Wrapping a pattern does not change the numbers of its groups, if it takes no set from another
one. -/
theorem groupsOf_wrapped {cs : List Char} {r : Regex} (h : Regex.parse cs = .ok r)
    (hplain : ¬ MayTakeAway cs) : groupsOf (wrapStart ++ cs ++ wrapEnd) = groupsOf cs := by
  obtain ⟨groups, σ', -, hread⟩ := Regex.gives_of_parse h
  have hsame : SameGroups (Reader.start cs ⟨[0], []⟩) [] :=
    readAll_sameGroups (σ := Reader.start cs groups) (Nat.lt_succ_self _) ⟨rfl, rfl, rfl⟩ hplain
      hread
  obtain ⟨found, number, hbare, hwrapped⟩ := hsame
  rw [groupsOf_of_counts hbare, groupsOf_of_counts (counts_wrapStart (hwrapped Options.none))]

end PackageCycles.Pattern

import Mathlib.Data.List.Forall2
import PackageCycles.Exclusion
import PackageCycles.Proofs.Pattern.Anchoring
import PackageCycles.Proofs.Settings.Validation
import PackageCycles.Proofs.Text.Pieces

/-!
# Which packages patterns exclude

Patterns are read one after the other, each as it is written and then wrapped, and the first fault
ends the reading (`Exclusion.compileFrom_eq_error_iff`). A rule decides on names by the wrapped
pattern. By the laws of the engine, where wrapping leaves the numbers of the groups as they are, a
package is left out exactly if the pattern matches its whole name
(`ExclusionRule.IsFor.excludes_iff`).
-/

namespace PackageCycles

open Pattern (Regex Machine groupsOf runSteps runSteps_thenEnd MayTakeAway wrapEnd)

/-! ## One pattern -/

namespace ExclusionRule

/-- The pattern denotes the expression. -/
def Denotes (pattern : Text) (r : Regex) : Prop := Regex.parse (Text.toChars pattern) = .ok r

/-- The pattern can be read as it is written and wrapped. -/
def IsWellFormed (pattern : Text) : Prop :=
  (∃ r, Denotes pattern r) ∧ ∃ r, Denotes (wrap pattern) r

/-- The fault is found in the text that is read: the pattern or, if there is none in that, the
wrapped one. -/
structure HasFault (pattern read : Text) (fault : Pattern.Fault) : Prop where
  /-- Reading the text ends with the fault. -/
  found : Regex.parse (Text.toChars read) = .error fault
  /-- What the text is. -/
  place : read = pattern ∨ read = wrap pattern ∧ ∃ r, Denotes pattern r

/-- Wrapping leaves the numbers of the groups as they are. -/
def KeepsNumbers (pattern : Text) : Prop :=
  groupsOf (Text.toChars (wrap pattern)) = groupsOf (Text.toChars pattern)

/-- The rule is the one for the pattern. -/
structure IsFor (rule : ExclusionRule) (pattern : Text) : Prop where
  /-- It holds the pattern. -/
  holds : rule.pattern = pattern
  /-- The pattern can be read as it is written. -/
  written : ∃ r, Denotes pattern r
  /-- It decides by the wrapped pattern. -/
  wrapped : Denotes (wrap pattern) rule.regex

section
variable {index : Nat} {pattern : Text} {rule : ExclusionRule} {cause : PatternError}

/-- The pattern is read as it is written and then wrapped. -/
theorem compile_eq (index : Nat) (pattern : Text) : compile index pattern =
    match Regex.parse (Text.toChars pattern), Regex.parse (Text.toChars (wrap pattern)) with
    | .error fault, _ => .error ⟨index, pattern, pattern, fault⟩
    | .ok _, .error fault => .error ⟨index, pattern, wrap pattern, fault⟩
    | .ok _, .ok regex => .ok ⟨pattern, regex⟩ := by
  dsimp only [compile]
  cases Regex.parse (Text.toChars pattern) with
  | error fault => rfl
  | ok r => cases Regex.parse (Text.toChars (wrap pattern)) <;> rfl

/-- A pattern is compiled into the rule for it. -/
theorem compile_eq_ok_iff : compile index pattern = .ok rule ↔ rule.IsFor pattern := by
  rw [compile_eq]
  constructor
  · intro h
    split at h
    · cases h
    · cases h
    · rename_i hwritten hwrapped
      cases h
      exact ⟨rfl, ⟨_, hwritten⟩, hwrapped⟩
  · rintro ⟨rfl, ⟨r, hwritten⟩, hwrapped⟩
    rw [show Regex.parse (Text.toChars rule.pattern) = .ok r from hwritten,
      show Regex.parse (Text.toChars (wrap rule.pattern)) = .ok rule.regex from hwrapped]

/-- If it is not, the cause tells the pattern, its place and its fault. -/
theorem compile_eq_error_iff : compile index pattern = .error cause ↔
    cause.index = index ∧ cause.pattern = pattern ∧ HasFault pattern cause.read cause.fault := by
  obtain ⟨place, holds, read, fault⟩ := cause
  rw [compile_eq]
  constructor
  · intro h
    split at h
    · rename_i hwritten
      cases h
      exact ⟨rfl, rfl, hwritten, .inl rfl⟩
    · rename_i hwritten hwrapped
      cases h
      exact ⟨rfl, rfl, hwrapped, .inr ⟨rfl, _, hwritten⟩⟩
    · cases h
  · rintro ⟨hindex, hholds, found, hread | ⟨hread, r, hwritten⟩⟩
    · dsimp only at hindex hholds hread found
      subst hindex hholds hread
      rw [found]
    · dsimp only at hindex hholds hread found
      subst hindex hholds hread
      rw [found, show Regex.parse (Text.toChars holds) = .ok r from hwritten]

/-- The wrapped pattern is read character by character as the pattern between what is put around it.
-/
theorem toChars_wrap (pattern : Text) :
    Text.toChars (wrap pattern) = Pattern.wrapped (Text.toChars pattern) := by
  have hwrap : wrap pattern = 92 :: 65 :: 40 :: 63 :: 58 :: (pattern ++ 41 :: [92, 122]) := by
    rw [wrap, List.append_assoc]
    rfl
  have hend : Text.toChars (41 :: [92, 122]) = wrapEnd := by decide +kernel
  rw [hwrap, Text.toChars_cons (by decide), Text.toChars_cons (by decide),
    Text.toChars_cons (by decide), Text.toChars_cons (by decide), Text.toChars_cons (by decide),
    Text.toChars_append_cons (by decide), hend]
  rfl

/-- Wrapping keeps the numbers of groups if nothing may be taken away from a set. -/
theorem keepsNumbers_of_not_mayTakeAway {r : Regex} (h : Denotes pattern r)
    (hplain : ¬ MayTakeAway (Text.toChars pattern)) : KeepsNumbers pattern := by
  rw [KeepsNumbers, toChars_wrap]
  exact Regex.engine.groups_wrapped h hplain

/-- A rule applies to the packages whose whole name its pattern matches. -/
theorem IsFor.excludes_iff (h : rule.IsFor pattern) (hkeeps : KeepsNumbers pattern) {name : Text}
    (hname : rule.regex.Decides (Text.toChars name)) :
    rule.excludes name = true ↔
      ∃ r, Denotes pattern r ∧ r.MatchesWhole (Text.toChars name).toArray := by
  obtain ⟨r, hr⟩ := h.written
  have hwrapped := h.wrapped
  rw [Denotes, toChars_wrap] at hwrapped
  rw [KeepsNumbers, toChars_wrap] at hkeeps
  rw [ExclusionRule.excludes, Regex.engine.finds_wrapped_iff hr hwrapped hkeeps hname]
  constructor
  · exact fun hwhole => ⟨r, hr, hwhole⟩
  · rintro ⟨r', hr', hwhole⟩
    obtain rfl : r' = r := Except.ok.inj (hr'.symm.trans hr)
    exact hwhole

/-- There is a rule exactly for the well-formed patterns. -/
theorem isWellFormed_iff : IsWellFormed pattern ↔ ∃ rule : ExclusionRule, rule.IsFor pattern := by
  constructor
  · rintro ⟨hwritten, regex, hwrapped⟩
    exact ⟨⟨pattern, regex⟩, rfl, hwritten, hwrapped⟩
  · rintro ⟨rule, -, hwritten, hwrapped⟩
    exact ⟨hwritten, rule.regex, hwrapped⟩

end

end ExclusionRule

/-! ## A list of patterns -/

namespace Exclusion

open ExclusionRule

section
variable {index : Nat} {patterns : List Text} {rules : List ExclusionRule} {cause : PatternError}

/-- Reading succeeds with a rule for each pattern. -/
theorem compileFrom_eq_ok_iff : compileFrom index patterns = .ok rules ↔
    List.Forall₂ (fun pattern rule => IsFor rule pattern) patterns rules := by
  induction patterns generalizing index rules with
  | nil =>
    rw [List.forall₂_nil_left_iff, compileFrom, Except.ok.injEq, eq_comm]
  | cons p patterns ih =>
    rw [compileFrom, Success.bind_iff, List.forall₂_cons_left_iff]
    constructor
    · rintro ⟨rule, hrule, hmore⟩
      obtain ⟨rules', hrules, ⟨⟩⟩ := Success.bind_iff.1 hmore
      exact ⟨rule, rules', compile_eq_ok_iff.1 hrule, ih.1 hrules, rfl⟩
    · rintro ⟨rule, rules', hrule, hrules, rfl⟩
      exact ⟨rule, compile_eq_ok_iff.2 hrule, Success.bind_iff.2 ⟨rules', ih.2 hrules, rfl⟩⟩

/-- Reading fails at the first pattern with a fault. -/
theorem compileFrom_eq_error_iff : compileFrom index patterns = .error cause ↔
    ∃ before after, patterns = before ++ cause.pattern :: after ∧
      cause.index = index + before.length ∧ (∀ p ∈ before, IsWellFormed p) ∧
      HasFault cause.pattern cause.read cause.fault := by
  induction patterns generalizing index with
  | nil =>
    refine iff_of_false nofun ?_
    rintro ⟨before, after, hsplit, -⟩
    exact absurd hsplit.symm (by simp)
  | cons p patterns ih =>
    rw [compileFrom]
    simp only [List.cons_eq_append_iff]
    cases hp : ExclusionRule.compile index p with
    | error cause' =>
      obtain ⟨hindex, hpattern', hfault⟩ := compile_eq_error_iff.1 hp
      constructor
      · rintro ⟨⟩
        exact ⟨[], patterns, .inl ⟨rfl, by rw [hpattern']⟩, hindex, nofun, hpattern' ▸ hfault⟩
      · rintro ⟨before, after, ⟨rfl, htail⟩ | ⟨tail, rfl, -⟩, hplace, hbefore, hfault'⟩
        · obtain ⟨hpattern, -⟩ := List.cons.inj htail
          cases hp.symm.trans (compile_eq_error_iff.2 ⟨hplace, hpattern, hpattern ▸ hfault'⟩)
          rfl
        · obtain ⟨rule, hrule⟩ := isWellFormed_iff.1 (hbefore p List.mem_cons_self)
          cases hp.symm.trans (compile_eq_ok_iff.2 hrule)
    | ok rule =>
      have hrule := compile_eq_ok_iff.1 hp
      refine (Success.return_error_iff (x := compileFrom (index + 1) patterns)).trans (ih.trans ?_)
      constructor
      · rintro ⟨before, after, rfl, hplace, hbefore, hfault⟩
        refine ⟨p :: before, after, .inr ⟨before, rfl, rfl⟩, ?_, ?_, hfault⟩
        · rw [hplace, List.length_cons]
          omega
        · exact List.forall_mem_cons.2 ⟨isWellFormed_iff.2 ⟨rule, hrule⟩, hbefore⟩
      · rintro ⟨before, after, ⟨rfl, htail⟩ | ⟨tail, rfl, rfl⟩, hplace, hbefore, hfault⟩
        · obtain ⟨hpattern, -⟩ := List.cons.inj htail
          cases hp.symm.trans (compile_eq_error_iff.2 ⟨hplace, hpattern, hpattern ▸ hfault⟩)
        · refine ⟨tail, after, rfl, ?_, (List.forall_mem_cons.1 hbefore).2, hfault⟩
          rw [hplace, List.length_cons]
          omega

/-- The rules of an exclusion are those for its patterns, in their order. -/
theorem compile_eq_ok_iff {e : Exclusion} : compile patterns = .ok e ↔
    List.Forall₂ (fun pattern rule => IsFor rule pattern) patterns e.rules := by
  obtain ⟨rules⟩ := e
  rw [compile, Success.bind_iff]
  constructor
  · rintro ⟨rules', hrules, ⟨⟩⟩
    exact compileFrom_eq_ok_iff.1 hrules
  · exact fun h => ⟨rules, compileFrom_eq_ok_iff.2 h, rfl⟩

/-- If there is no exclusion, the cause is the fault of the first pattern that has one. -/
theorem compile_eq_error_iff : compile patterns = .error cause ↔
    ∃ before after, patterns = before ++ cause.pattern :: after ∧ cause.index = before.length ∧
      (∀ p ∈ before, IsWellFormed p) ∧ HasFault cause.pattern cause.read cause.fault := by
  rw [compile, Success.return_error_iff]
  simp only [compileFrom_eq_error_iff, Nat.zero_add]

/-- There is an exclusion exactly for well-formed patterns. -/
theorem exists_compile_eq_ok_iff :
    (∃ e, compile patterns = .ok e) ↔ ∀ p ∈ patterns, IsWellFormed p := by
  constructor
  · rintro ⟨e, he⟩
    have hrules := compile_eq_ok_iff.1 he
    clear he
    generalize e.rules = rules at hrules
    induction hrules with
    | nil => exact nofun
    | cons hrule _ ih =>
      exact List.forall_mem_cons.2 ⟨isWellFormed_iff.2 ⟨_, hrule⟩, ih⟩
  · intro h
    suffices hrules : ∃ rules, List.Forall₂ (fun pattern rule => IsFor rule pattern) patterns rules by
      obtain ⟨rules, hrules⟩ := hrules
      exact ⟨⟨rules⟩, compile_eq_ok_iff.2 hrules⟩
    induction patterns with
    | nil => exact ⟨[], .nil⟩
    | cons p patterns ih =>
      obtain ⟨hp, hmore⟩ := List.forall_mem_cons.1 h
      obtain ⟨rule, hrule⟩ := isWellFormed_iff.1 hp
      obtain ⟨rules, hrules⟩ := ih hmore
      exact ⟨rule :: rules, .cons hrule hrules⟩

/-- No rule gives up its match of the name. -/
def Decides (e : Exclusion) (name : Text) : Prop :=
  ∀ rule ∈ e.rules, rule.regex.Decides (Text.toChars name)

instance (e : Exclusion) (name : Text) : Decidable (e.Decides name) :=
  inferInstanceAs (Decidable (∀ rule ∈ e.rules, rule.regex.Decides (Text.toChars name)))

/-- A package is left out if one of the patterns matches its whole name. -/
theorem excludes_iff {e : Exclusion} {name : Text} (h : compile patterns = .ok e)
    (hkeeps : ∀ p ∈ patterns, KeepsNumbers p) (hname : e.Decides name) :
    e.excludes name = true ↔ ∃ p ∈ patterns, ∃ r, Denotes p r ∧
      r.MatchesWhole (Text.toChars name).toArray := by
  have hrules := compile_eq_ok_iff.1 h
  clear h
  rw [Decides] at hname
  rw [excludes]
  generalize e.rules = rules at hrules hname
  induction hrules with
  | nil => exact iff_of_false Bool.false_ne_true nofun
  | cons hrule _ ih =>
    obtain ⟨hkeep, hkeeps⟩ := List.forall_mem_cons.1 hkeeps
    obtain ⟨hfirst, hname⟩ := List.forall_mem_cons.1 hname
    rw [List.any_cons, Bool.or_eq_true, hrule.excludes_iff hkeep hfirst, List.exists_mem_cons_iff]
    exact or_congr_right (ih hkeeps hname)

end

/-- Reading patterns fails with the first fault, and otherwise a package is left out if one of the
patterns matches its whole name, where wrapping leaves the numbers of the groups as they are. It
does so unless a set may be taken from another one. -/
theorem excludes_wholeNames (patterns : List Text) :
    ((∃ e, compile patterns = .ok e) ↔ ∀ p ∈ patterns, IsWellFormed p) ∧
    (∀ cause, compile patterns = .error cause ↔
      ∃ before after, patterns = before ++ cause.pattern :: after ∧ cause.index = before.length ∧
        (∀ p ∈ before, IsWellFormed p) ∧ HasFault cause.pattern cause.read cause.fault) ∧
    (∀ p ∈ patterns, IsWellFormed p → ¬ MayTakeAway (Text.toChars p) → KeepsNumbers p) ∧
    ∀ e, compile patterns = .ok e → (∀ p ∈ patterns, KeepsNumbers p) → ∀ name, e.Decides name →
      (e.excludes name = true ↔ ∃ p ∈ patterns, ∃ r, Denotes p r ∧
        r.MatchesWhole (Text.toChars name).toArray) := by
  refine ⟨exists_compile_eq_ok_iff, fun cause => compile_eq_error_iff, ?_, ?_⟩
  · rintro p - ⟨⟨r, hr⟩, -⟩ hplain
    exact keepsNumbers_of_not_mayTakeAway hr hplain
  · exact fun e he hkeeps name hname => excludes_iff he hkeeps hname

/-- Three alternatives, one of which refers to a group of its own. -/
def alternatives : Text := "a|a(b)\\1|c"

/-- A name is left out by the alternative that takes it whole. -/
theorem excludes_wholeNames_alternatives : ∃ e, compile [alternatives] = .ok e ∧
    (∀ p ∈ [alternatives], KeepsNumbers p) ∧ e.Decides "abb" ∧ e.excludes "abb" = true ∧
    ∃ p ∈ [alternatives], ∃ r, Denotes p r ∧
      r.MatchesWhole (Text.toChars "abb").toArray := by
  have hrun : (compile [alternatives]).toOption.any (fun e =>
      decide (e.Decides "abb" ∧ e.excludes "abb" = true)) = true := by decide +kernel
  cases he : compile [alternatives] with
  | error cause =>
    rw [he] at hrun
    cases hrun
  | ok e =>
    rw [he] at hrun
    obtain ⟨hname, hexcluded⟩ := of_decide_eq_true hrun
    obtain ⟨hcompile, -, hkeeps, hexcludes⟩ := excludes_wholeNames [alternatives]
    have hplain : ∀ p ∈ [alternatives], ¬ MayTakeAway (Text.toChars p) := by
      decide +kernel
    have hkept := fun p hp => hkeeps p hp (hcompile.1 ⟨e, he⟩ p hp) (hplain p hp)
    exact ⟨e, rfl, hkept, hname, hexcluded, (hexcludes e he hkept "abb" hname).1 hexcluded⟩

/-- In the pattern by itself the reference is to the character in front of it. Wrapped, the group
behind it comes first: the pass that counts groups takes the bracket that is taken away for the end
of a range, so it reads the options that switch unnamed groups off, and the parenthesis behind them
switches them on again only if a group is open. -/
def shiftedNumbers : Text := "[n-[^](?n))]](?<m>c)\\1(b)"

/-- A package is not left out although the pattern matches its whole name. -/
theorem excludes_misses_shiftedNumbers : ∃ e, compile [shiftedNumbers] = .ok e ∧
    e.Decides "nccb" ∧ e.excludes "nccb" = false ∧
    ∃ r, Denotes shiftedNumbers r ∧ r.MatchesWhole (Text.toChars "nccb").toArray := by
  have hrun : (compile [shiftedNumbers]).toOption.any (fun e =>
      decide (e.Decides "nccb" ∧ e.excludes "nccb" = false)) = true := by decide +kernel
  have hwritten : (Regex.parse (Text.toChars shiftedNumbers)).toOption.any (fun r =>
      decide (runSteps (Text.toChars "nccb").toArray 0 100 (Machine.start r 0).thenEnd =
        some true)) = true := by decide +kernel
  cases he : compile [shiftedNumbers] with
  | error cause =>
    rw [he] at hrun
    cases hrun
  | ok e =>
    rw [he] at hrun
    obtain ⟨hname, hexcluded⟩ := of_decide_eq_true hrun
    obtain ⟨r, hr⟩ := (((exists_compile_eq_ok_iff.1 ⟨e, he⟩) _ List.mem_cons_self).1)
    rw [show Regex.parse (Text.toChars shiftedNumbers) = .ok r from hr] at hwritten
    exact ⟨e, rfl, hname, hexcluded, r, hr, (runSteps_thenEnd (of_decide_eq_true hwritten)).1 rfl⟩

end Exclusion

end PackageCycles

import PackageCycles.Proofs.Pattern.Counting
import PackageCycles.Proofs.Pattern.Wrapped

/-!
# What the pass that counts groups passes over

The pass that counts groups knows less about a pattern than the one that reads it. From what the
second one reads it is shown where the first one comes to, in the pattern by itself and in the
wrapped one (`Advances`). Literal text, escape sequences, sets and quantifiers are passed over
without a group being found, unless a comment at the end of the pattern takes in what is left of the
wrapped one: then both have the same groups from there on (`Passes`, `SameGroups`).
-/

namespace PackageCycles.Pattern

open Read

/-! ## Ways from one place to another -/

/-- The pass that counts groups comes from one place of a pattern to another, in the pattern by
itself and in the wrapped one, whatever groups are open around it. -/
def Advances (κ : Reader) (saved : List Options) (κ' : Reader) (saved' : List Options) : Prop :=
  ∀ t, t = [] ∨ t = wrapEnd → ∀ base groups number,
    Counts (κ'.before (κ'.rest ++ t)) (saved' ++ base) groups number →
      Counts (κ.before (κ.rest ++ t)) (saved ++ base) groups number

/-- From a place on the pattern by itself and the wrapped one have the same groups. -/
def SameGroups (κ : Reader) (saved : List Options) : Prop :=
  ∃ groups number, Counts κ saved groups number ∧
    ∀ o, Counts κ.wrapped (saved ++ [o]) groups number

/-- The pattern ends, or the wrapping closes it. -/
theorem closes_of_end {t : List Char} (h : t = [] ∨ t = wrapEnd) : Closes t := by
  obtain rfl | rfl := h
  · exact closes_nil
  · exact closes_wrapEnd

section
variable {κ κ' κ₁ : Reader} {saved saved' saved₁ : List Options} {cs : List Char}

theorem Advances.refl : Advances κ saved κ saved := fun _ _ _ _ _ h => h

theorem Advances.trans (h : Advances κ saved κ' saved') (h' : Advances κ' saved' κ₁ saved₁) :
    Advances κ saved κ₁ saved₁ :=
  fun t ht base groups number hcounts => h t ht base _ _ (h' t ht base groups number hcounts)

/-- If the pass comes to a place from which on both have the same groups, they have them from here
on. -/
theorem Advances.sameGroups (h : Advances κ saved κ' saved') (h' : SameGroups κ' saved') :
    SameGroups κ saved := by
  obtain ⟨groups, number, hbare, hwrapped⟩ := h'
  have hnil (κ : Reader) : κ.before (κ.rest ++ []) = κ := by rw [List.append_nil]; rfl
  refine ⟨groups, number, ?_, fun o => h _ (.inr rfl) [o] _ _ (hwrapped o)⟩
  have hstart := h [] (.inl rfl) [] groups number
  rw [hnil, hnil, List.append_nil, List.append_nil] at hstart
  exact hstart hbare

/-- Literal text is passed over. -/
theorem Advances.literal {ds : List Char} (hrest : κ.rest = ds ++ cs)
    (hds : ∀ d ∈ ds, IsLiteral κ.options.spaced d) : Advances κ saved (κ.before cs) saved := by
  intro t _ base groups number h
  have htext : (κ.before (κ.rest ++ t)).rest = ds ++ (cs ++ t) := by
    rw [Reader.before_rest, hrest, List.append_assoc]
  exact (Counts.literal_iff htext hds).2 h

/-- A closing parenthesis is passed over. -/
theorem Advances.close {o : Options} (hrest : κ.rest = ')' :: cs) :
    Advances κ (o :: saved) { κ.before cs with options := o } saved := by
  intro t _ base groups number h
  have htext : (κ.before (κ.rest ++ t)).rest = ')' :: (cs ++ t) := by
    rw [Reader.before_rest, hrest, List.cons_append]
  exact Counts.close htext h

/-- The pass that counts groups comes to a place with the same groups open, or at the end of the
pattern a comment takes in what is left of the wrapped one. -/
def Passes (κ : Reader) (saved : List Options) (cs : List Char) : Prop :=
  (∃ κ', κ'.rest = cs ∧ κ'.options = κ.options ∧ Advances κ saved κ' saved) ∨ SameGroups κ saved

theorem Passes.literal {ds : List Char} (hrest : κ.rest = ds ++ cs)
    (hds : ∀ d ∈ ds, IsLiteral κ.options.spaced d) : Passes κ saved cs :=
  .inl ⟨κ.before cs, rfl, rfl, .literal hrest hds⟩

/-- A part behind another one is passed over. -/
theorem Passes.trans {ds : List Char} (h : Passes κ saved cs)
    (h' : ∀ κ', κ'.rest = cs → κ'.options = κ.options → Passes κ' saved ds) :
    Passes κ saved ds := by
  obtain ⟨κ', hrest, hoptions, hadvances⟩ | hsame := h
  · obtain ⟨κ₁, hrest₁, hoptions₁, hadvances₁⟩ | hsame := h' κ' hrest hoptions
    · exact .inl ⟨κ₁, hrest₁, hoptions₁.trans hoptions, hadvances.trans hadvances₁⟩
    · exact .inr (hadvances.sameGroups hsame)
  · exact .inr hsame

/-- Blanks and comments are passed over. -/
theorem Passes.blanks (κ : Reader) (saved : List Options) :
    Passes κ saved ((behindBlanks κ.options.spaced κ.rest).getD []) := by
  have hexists : ∃ skipped : Bool,
      StartsComment (withoutSpaces κ.options.spaced κ.rest) ∧ skipped = false ∨
      ¬ StartsComment (withoutSpaces κ.options.spaced κ.rest) ∧ skipped = κ.skipCapture := by
    by_cases h : StartsComment (withoutSpaces κ.options.spaced κ.rest)
    · exact ⟨false, .inl ⟨h, rfl⟩⟩
    · exact ⟨κ.skipCapture, .inr ⟨h, rfl⟩⟩
  obtain ⟨skipped, hskipped⟩ := hexists
  have hwrapped := hskipped
  rw [← startsComment_append, ← withoutSpaces_append] at hwrapped
  obtain ⟨more, hmore, happend⟩ | ⟨hmore, more, hspent, happend⟩ :=
    behindBlanks_append κ.options.spaced κ.rest
  · refine .inl ⟨{ κ.before more with skipCapture := skipped }, ?_, rfl, ?_⟩
    · rw [hmore]
      rfl
    · rintro t (rfl | rfl) base groups number h
      · rw [List.append_nil] at h ⊢
        refine Counts.blanks hskipped ?_
        rw [Reader.before_rest, Reader.before_options, hmore]
        exact h
      · refine Counts.blanks (κ := κ.wrapped) hwrapped ?_
        rw [Reader.wrapped_options, Reader.wrapped_rest, happend]
        exact h
  · refine .inr ⟨κ.groups, κ.nextNumber, Counts.blanks hskipped ?_, fun o =>
      Counts.blanks (κ := κ.wrapped) hwrapped ?_⟩
    · have hnil : (behindBlanks κ.options.spaced κ.rest).getD [] = [] := by
        simp only [List.mem_cons, List.not_mem_nil, or_false] at hmore
        obtain hmore | hmore := hmore <;> rw [hmore] <;> rfl
      rw [hnil]
      exact Counts.of_nil rfl
    · rw [Reader.wrapped_options, Reader.wrapped_rest, happend]
      exact Counts.of_spent hspent

end

/-! ## Escape sequences and sets -/

/-- The second reader is another one with some text left. -/
def At (κ : Reader) (_ τ : Reader) : Prop := τ = κ.before τ.rest

theorem textless_at (κ : Reader) : Textless (At κ) := by
  rintro σ τ cs ds h
  rw [At] at *
  rw [h]
  rfl

/-- The pass that counts groups goes on where the reading of the pattern does. -/
theorem Read.Follows.run_at {α : Type} {κ σ σ' : Reader} {t : List Char} {counting : Bool}
    {act act' : Read α} {a : α}
    (h : Follows (At κ) t (Agrees (At κ) t counting) σ.rest act act') (hgives : act.Gives σ a σ') :
    σ'.rest <:+ σ.rest ∧ (act'.run (κ.before (σ.rest ++ t))).2 = κ.before (σ'.rest ++ t) := by
  obtain ⟨hsuffix, hagrees⟩ := h σ (κ.before (σ.rest ++ t)) a σ' rfl rfl rfl hgives
  refine ⟨hsuffix, ?_⟩
  rw [← hagrees.rest]
  exact hagrees.related

/-- It reads the same, if the reading does not depend on what is known of the groups. -/
theorem Read.Follows.gives_at {α : Type} {κ σ σ' : Reader} {t : List Char} {act act' : Read α}
    {a : α} (h : Follows (At κ) t (Same (At κ) t) σ.rest act act') (hgives : act.Gives σ a σ') :
    act'.Gives (κ.before (σ.rest ++ t)) a (κ.before (σ'.rest ++ t)) := by
  obtain ⟨-, hsame⟩ := h σ (κ.before (σ.rest ++ t)) a σ' rfl rfl rfl hgives
  refine Prod.ext hsame.result ?_
  rw [← hsame.rest]
  exact hsame.related

section
variable {κ σ σ' : Reader} {saved : List Options} {unit : Regex} {c : Char}

theorem isLiteral_of_isDigit {spaced : Bool} (h : isDigit c) : IsLiteral spaced c :=
  isLiteral_of_kind (by decide) h

/-- A quantifier is literal text to the pass that counts groups. -/
theorem InQuantifier.isLiteral {spaced : Bool} (h : InQuantifier c) : IsLiteral spaced c := by
  rcases h with hdigit | hmem
  · exact isLiteral_of_isDigit hdigit
  · refine isLiteral_of_kind (p := fun d => d ∈ ['*', '+', '?', '\x7b', ',', '\x7d']) (by decide) ?_
    exact decide_eq_true hmem

/-- An escape sequence is passed over. The pass that counts groups may take more digits than the
number of a group has, but digits are passed over in any case. -/
theorem Advances.escape (hrest : κ.rest = '\\' :: σ.rest)
    (h : (backslash false).Gives σ unit σ') : Advances κ saved (κ.before σ'.rest) saved := by
  intro t ht base groups number hcounts
  rcases hσ : σ.rest with _ | ⟨c, cs⟩
  · exact (Fails.backslash_nil σ hσ unit σ' h).elim
  have htext : (κ.before (κ.rest ++ t)).rest = '\\' :: (c :: cs ++ t) := by
    rw [Reader.before_rest, hrest, hσ, List.cons_append]
  by_cases hdigit : '1' ≤ c ∧ c ≤ '9'
  · obtain ⟨ks, hsplit, hks⟩ := gives_backslash_of_digit hσ hdigit h
    have hread := run_backslash_of_digit (σ := κ.before (c :: cs ++ t)) rfl hdigit
    refine Counts.escape htext (by simp) hread ?_ ?_
    · exact (List.dropWhile_suffix _).length_le
    · have hdrop : (c :: cs ++ t).dropWhile isDigit = σ'.rest.dropWhile isDigit ++ t := by
        rw [dropWhile_append_of_closes (closes_of_end ht) (by decide), ← hσ, hsplit,
          List.dropWhile_append_of_pos hks]
      have hend : (κ.before (σ'.rest ++ t)).rest =
          σ'.rest.takeWhile isDigit ++ (σ'.rest.dropWhile isDigit ++ t) := by
        rw [← List.append_assoc, List.takeWhile_append_dropWhile]
        rfl
      rw [Reader.before_rest, Reader.before_before, hdrop]
      exact (Counts.literal_iff hend fun k hk =>
        isLiteral_of_isDigit (List.mem_takeWhile_imp hk)).1 hcounts
  · have hfollows : Follows (At κ) t (Agrees (At κ) t true) σ.rest (backslash false)
        (backslash true) :=
      Follows.backslash (textless_at κ) (closes_of_end ht) (by simp) fun _ d hd => by
        rw [hσ] at hd
        exact Option.some.inj hd ▸ hdigit
    obtain ⟨hsuffix, hread⟩ := hfollows.run_at h
    rw [hσ] at hread hsuffix
    refine Counts.escape htext (by simp) hread ?_ hcounts
    rw [Reader.before_rest, List.length_append, List.length_append]
    exact Nat.add_le_add_right hsuffix.length_le _

/-- A set is passed over. -/
theorem Advances.set {ic : Bool} {set : CharSet} (hrest : κ.rest = '[' :: σ.rest)
    (hplain : ¬ HasSubtraction σ.rest)
    (h : (bracketed false ic).Gives σ set σ') : Advances κ saved (κ.before σ'.rest) saved := by
  intro t ht base groups number hcounts
  have htext : (κ.before (κ.rest ++ t)).rest = '[' :: (σ.rest ++ t) := by
    rw [Reader.before_rest, hrest, List.cons_append]
  have hfollows : Follows (At κ) t (Agrees (At κ) t true) σ.rest (bracketed false ic)
      (bracketed true false) :=
    Follows.bracketed (textless_at κ) (closes_of_end ht) (by simp) fun _ => hplain
  obtain ⟨hsuffix, hread⟩ := hfollows.run_at h
  refine Counts.set htext hread ?_ hcounts
  rw [Reader.before_rest, List.length_append, List.length_append]
  exact Nat.add_le_add_right hsuffix.length_le _

/-- The unit that a sign starts is passed over. -/
theorem Passes.signUnit (saved : List Options) (hrest : κ.rest = c :: σ.rest)
    (hc : c ∉ ['(', '|', ')']) (hspecial : isSpecial c) (hplain : ¬ MayTakeAway (c :: σ.rest))
    (h : (signUnit c).Gives σ unit σ') : Passes κ saved σ'.rest := by
  have hpassed (hset : c ≠ '[') (hescape : c ≠ '\\') : Passes κ saved σ.rest := by
    have htext : κ.rest = [c] ++ σ.rest := hrest
    refine .literal htext fun d hd => ?_
    obtain rfl := List.mem_singleton.1 hd
    simp only [List.mem_cons, List.not_mem_nil, or_false, not_or] at hc
    refine ⟨?_, fun _ hhash => absurd (hhash ▸ hspecial) (by decide)⟩
    simp only [List.mem_cons, List.not_mem_nil, or_false, not_or]
    exact ⟨hescape, hset, hc.1, hc.2.2⟩
  rw [Pattern.signUnit, gives_options_bind] at h
  split at h
  · obtain ⟨set, τ, hset, hpure⟩ := gives_bind_iff.1 h
    obtain ⟨-, rfl⟩ := gives_pure_iff.1 hpure
    exact .inl ⟨κ.before σ'.rest, rfl, rfl, .set hrest (not_hasSubtraction_of_bracket hplain) hset⟩
  · exact .inl ⟨κ.before σ'.rest, rfl, rfl, .escape hrest h⟩
  · obtain ⟨-, rfl⟩ := gives_pure_iff.1 h
    exact hpassed (by decide) (by decide)
  · obtain ⟨-, rfl⟩ := gives_pure_iff.1 h
    exact hpassed (by decide) (by decide)
  · rename_i hset hescape _ _
    split at h
    · obtain ⟨-, rfl⟩ := gives_pure_iff.1 h
      exact hpassed hset hescape
    · obtain ⟨-, rfl⟩ := gives_pure_iff.1 h
      exact hpassed hset hescape

/-- A unit is passed over with the quantifier behind it. -/
theorem Passes.addUnit {n n' : Nest} {grouped : Bool} (hrest : κ.rest = σ.rest)
    (hspaced : κ.options.spaced = σ.options.spaced) (h : (addUnit n grouped unit).Gives σ n' σ') :
    Passes κ saved σ'.rest := by
  obtain ⟨b, hb, hunit⟩ := gives_addUnit h
  have hblanks : Passes κ saved b := by
    have hpasses := Passes.blanks κ saved
    rwa [hrest, hspaced, hb] at hpasses
  obtain ⟨-, -, rfl⟩ | ⟨hquantifier, bounds, τ, c, hbounds, hc, rfl, -⟩ := hunit
  · exact hblanks
  · obtain ⟨q, more, rfl, hq⟩ := quantifierText_of_startsQuantifier hquantifier
    obtain ⟨bounds', hgives⟩ := hq.gives
    obtain ⟨-, rfl⟩ := hgives (σ.before (q ++ more)) more rfl bounds τ hbounds
    refine hblanks.trans fun κ₁ hrest₁ hoptions₁ => ?_
    have hquantified : Passes κ₁ saved more :=
      .literal hrest₁ fun d hd => (hq.inQuantifier d hd).isLiteral
    refine hquantified.trans fun κ₂ hrest₂ hoptions₂ => ?_
    have hbehind : Passes κ₂ saved c := by
      have hpasses := Passes.blanks κ₂ saved
      rwa [hrest₂, hoptions₂, hoptions₁, hspaced, show behindBlanks σ.options.spaced more = some c
        from hc] at hpasses
    refine hbehind.trans fun κ₃ hrest₃ _ => ?_
    unfold behindLazy
    split
    · rename_i hhead
      obtain ⟨ds, rfl⟩ := List.head?_eq_some_iff.1 hhead
      have htext : κ₃.rest = ['?'] ++ ds := hrest₃
      exact .literal htext fun d hd => List.mem_singleton.1 hd ▸ ⟨by decide, fun _ => by decide⟩
    · exact .inl ⟨κ₃, hrest₃, rfl, .refl⟩

end

end PackageCycles.Pattern

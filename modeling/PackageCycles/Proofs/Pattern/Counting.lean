import PackageCycles.Proofs.Pattern.Stretches

/-!
# The pass that counts groups

Before a pattern is read, its groups are counted. The pass that does so goes from sign to sign, over
most faults, too. `Counts` says that it comes to the end from a place on and what it has found there,
and there is a lemma for each way in which it goes on (`Counts.step`).
-/

namespace PackageCycles.Pattern

open Read

/-- From the reader on, the pass that counts groups comes to its end and has found the given groups
and the given number for the next one. -/
def Counts (κ : Reader) (saved : List Options) (groups : Groups) (number : Nat) : Prop :=
  ∀ fuel, κ.rest.length < fuel → ∃ κ', (countGroups fuel saved).Gives κ () κ' ∧
    κ'.groups = groups ∧ κ'.nextNumber = number

/-- Where a comment starts some of the text is passed over. -/
theorem length_behindBlanks_lt {spaced : Bool} {cs : List Char}
    (h : StartsComment cs ∨ StartsLine spaced cs) :
    ((behindBlanks spaced cs).getD []).length < cs.length := by
  refine Nat.lt_of_le_of_ne (behindBlanks_getD_suffix spaced cs).length_le fun hlength => ?_
  have hsame := (behindBlanks_getD_suffix spaced cs).eq_of_length hlength
  cases hb : behindBlanks spaced cs with
  | none =>
    rw [hb, Option.getD_none] at hsame
    subst hsame
    obtain ⟨more, hmore⟩ | ⟨-, hhead⟩ := h
    · cases hmore
    · cases hhead
  | some b =>
    rw [hb, Option.getD_some] at hsame
    subst hsame
    obtain ⟨hcomment, hline, -⟩ := behindBlanks_settled hb
    exact h.elim hcomment hline

namespace Counts

section
variable {κ κ' : Reader} {saved saved' : List Options} {groups : Groups} {number : Nat}
  {c : Char} {cs : List Char}

/-- At the end of the text the groups are those found so far. -/
theorem of_nil (hrest : κ.rest = []) : Counts κ saved κ.groups κ.nextNumber := by
  intro fuel hfuel
  refine ⟨κ, ?_, rfl, rfl⟩
  cases fuel with
  | zero => exact (Nat.not_lt_zero _ hfuel).elim
  | succ fuel =>
    rw [countGroups, gives_rest_bind, hrest]
    rfl

/-- A sign leads to a shorter text. -/
theorem step (h : Counts κ' saved' groups number) (hlength : κ'.rest.length < κ.rest.length)
    (hsign : (countSign saved).Gives κ saved' κ') : Counts κ saved groups number := by
  intro fuel hfuel
  cases fuel with
  | zero => exact (Nat.not_lt_zero _ hfuel).elim
  | succ fuel =>
    obtain ⟨κ₁, hgives, hgroups, hnumber⟩ := h fuel (by omega)
    refine ⟨κ₁, ?_, hgroups, hnumber⟩
    have hrest : κ.rest.isEmpty = false := by
      rw [List.isEmpty_eq_false_iff]
      exact List.ne_nil_of_length_pos (Nat.zero_lt_of_lt hlength)
    rw [countGroups, gives_rest_bind, hrest]
    exact gives_bind_iff.2 ⟨saved', κ', hsign, hgives⟩

/-- A character that is no sign only takes the reader further. -/
theorem gives_countSign_skip (saved : List Options) (hrest : κ.rest = c :: cs)
    (hc : IsLiteral κ.options.spaced c) :
    (countSign saved).Gives κ saved (κ.before cs) := by
  obtain ⟨hsign, hhash⟩ := hc
  simp only [List.mem_cons, List.not_mem_nil, or_false, not_or] at hsign
  rw [countSign, gives_rest_bind, hrest]
  split <;> rename_i heq
  · exact (hsign.1 (List.cons.inj heq).1).elim
  · exact (hsign.2.1 (List.cons.inj heq).1).elim
  · exact (hsign.2.2.2 (List.cons.inj heq).1).elim
  · exact (hsign.2.2.1 (List.cons.inj heq).1).elim
  · exact (hsign.2.2.1 (List.cons.inj heq).1).elim
  · rw [gives_options_bind, if_neg fun hspaced => hhash hspaced (List.cons.inj heq).1,
      gives_skip_bind, hrest]
    rfl
  · rw [gives_skip_bind, hrest]
    rfl

/-- A character that is no sign is passed over. -/
theorem skip_iff (hrest : κ.rest = c :: cs) (hc : IsLiteral κ.options.spaced c) :
    Counts κ saved groups number ↔ Counts (κ.before cs) saved groups number := by
  have hsign := gives_countSign_skip saved hrest hc
  constructor
  · intro h fuel hfuel
    obtain ⟨κ', hgives, hgroups, hnumber⟩ := h (fuel + 1) (by simpa [hrest] using hfuel)
    rw [countGroups, gives_rest_bind, hrest] at hgives
    obtain ⟨saved', κ₁, hfirst, hnext⟩ := gives_bind_iff.1 hgives
    obtain ⟨rfl, rfl⟩ := hsign.eq hfirst
    exact ⟨κ', hnext, hgroups, hnumber⟩
  · exact fun h => h.step (by simp [hrest]) hsign

/-- Literal text is passed over. -/
theorem literal_iff {ds : List Char} (hrest : κ.rest = ds ++ cs)
    (hds : ∀ d ∈ ds, IsLiteral κ.options.spaced d) :
    Counts κ saved groups number ↔ Counts (κ.before cs) saved groups number := by
  induction ds generalizing κ with
  | nil =>
    rw [show κ.before cs = κ by rw [← List.nil_append cs, ← hrest]; rfl]
  | cons d ds ih =>
    rw [skip_iff hrest (hds d List.mem_cons_self)]
    exact ih rfl fun e he => hds e (List.mem_cons_of_mem d he)

/-- What follows a backslash is read as an escape sequence. -/
theorem escape (hrest : κ.rest = '\\' :: cs) (hcs : cs ≠ [])
    (hread : ((backslash true).run (κ.before cs)).2 = κ')
    (hlength : κ'.rest.length ≤ cs.length) (h : Counts κ' saved groups number) :
    Counts κ saved groups number := by
  refine h.step (by rw [hrest]; exact Nat.lt_succ_of_le hlength) ?_
  rw [countSign, gives_rest_bind, hrest]
  change (Read.skip 1 >>= fun _ =>
    if !cs.isEmpty then attempt (backslash true) >>= fun _ => pure saved else pure saved).Gives _ _ _
  rw [gives_skip_bind, hrest, if_pos (by simpa using hcs), gives_attempt_bind]
  exact gives_pure_iff.2 ⟨rfl, hread.symm⟩

/-- What follows a bracket is read as a set. -/
theorem set (hrest : κ.rest = '[' :: cs)
    (hread : ((bracketed true false).run (κ.before cs)).2 = κ')
    (hlength : κ'.rest.length ≤ cs.length) (h : Counts κ' saved groups number) :
    Counts κ saved groups number := by
  refine h.step (by rw [hrest]; exact Nat.lt_succ_of_le hlength) ?_
  rw [countSign, gives_rest_bind, hrest]
  change (Read.skip 1 >>= fun _ => attempt (bracketed true false) >>= fun _ => pure saved).Gives _ _ _
  rw [gives_skip_bind, hrest, gives_attempt_bind]
  exact gives_pure_iff.2 ⟨rfl, hread.symm⟩

/-- A closing parenthesis restores the options. -/
theorem close {o : Options} (hrest : κ.rest = ')' :: cs)
    (h : Counts { κ.before cs with options := o } saved groups number) :
    Counts κ (o :: saved) groups number := by
  refine h.step (by simp [hrest]) ?_
  rw [countSign, gives_rest_bind, hrest]
  change (Read.skip 1 >>= fun _ => countClosing (o :: saved)).Gives _ _ _
  rw [gives_skip_bind, hrest]
  rfl

/-- An opening parenthesis that starts no comment. -/
theorem opening (hrest : κ.rest = '(' :: cs) (hcomment : ¬ StartsComment κ.rest)
    (hread : (countOpening saved).Gives (κ.before cs) saved' κ')
    (hlength : κ'.rest.length ≤ cs.length) (h : Counts κ' saved' groups number) :
    Counts κ saved groups number := by
  refine h.step (by rw [hrest]; exact Nat.lt_succ_of_le hlength) ?_
  rw [hrest] at hcomment
  rw [countSign, gives_rest_bind, hrest]
  split <;> rename_i heq
  · cases heq
  · cases heq
  · cases heq
  · rw [heq] at hcomment
    exact (hcomment ⟨_, rfl⟩).elim
  · rw [gives_skip_bind, hrest]
    exact hread
  · cases heq
  · rename_i hopen
    exact (hopen cs rfl).elim

/-- A comment in parentheses is passed over with the blanks and comments behind it. -/
theorem comment (hcomment : StartsComment κ.rest)
    (h : Counts { κ.before ((behindBlanks κ.options.spaced κ.rest).getD []) with
      skipCapture := false } saved groups number) : Counts κ saved groups number := by
  refine h.step (length_behindBlanks_lt (.inl hcomment)) ?_
  obtain ⟨more, hrest⟩ := hcomment
  rw [countSign, gives_rest_bind, ← hrest]
  change (attempt blanks >>= fun _ => setSkipCapture false >>= fun _ => pure saved).Gives _ _ _
  rw [gives_attempt_blanks_bind, hrest]
  rfl

/-- A comment up to the end of the line is passed over with the blanks and comments behind it. -/
theorem line (hline : StartsLine κ.options.spaced κ.rest)
    (h : Counts (κ.before ((behindBlanks κ.options.spaced κ.rest).getD [])) saved groups number) :
    Counts κ saved groups number := by
  refine h.step (length_behindBlanks_lt (.inr hline)) ?_
  obtain ⟨hspaced, hhead⟩ := hline
  obtain ⟨more, hrest⟩ := List.head?_eq_some_iff.1 hhead
  rw [countSign, gives_rest_bind, hrest]
  change (options >>= fun o => if o.spaced then attempt blanks >>= fun _ => pure saved
    else Read.skip 1 >>= fun _ => pure saved).Gives _ _ _
  rw [gives_options_bind, if_pos hspaced, gives_attempt_blanks_bind, hrest]
  rfl

theorem isLiteral_of_isSpace {spaced : Bool} (h : isSpace c) : IsLiteral spaced c :=
  isLiteral_of_kind (by decide) h

/-- Blanks are literal text to the pass that counts groups. -/
theorem withoutSpaces_split (spaced : Bool) (cs : List Char) :
    ∃ ds, cs = ds ++ withoutSpaces spaced cs ∧ ∀ d ∈ ds, IsLiteral spaced d := by
  unfold withoutSpaces
  split
  · exact ⟨cs.takeWhile isSpace, List.takeWhile_append_dropWhile.symm,
      fun d hd => isLiteral_of_isSpace (List.mem_takeWhile_imp hd)⟩
  · exact ⟨[], rfl, nofun⟩

/-- Blanks and comments are passed over. -/
theorem blanks {skipped : Bool}
    (hskipped : StartsComment (withoutSpaces κ.options.spaced κ.rest) ∧ skipped = false ∨
      ¬ StartsComment (withoutSpaces κ.options.spaced κ.rest) ∧ skipped = κ.skipCapture)
    (h : Counts { κ.before ((behindBlanks κ.options.spaced κ.rest).getD []) with
      skipCapture := skipped } saved groups number) : Counts κ saved groups number := by
  obtain ⟨ds, hsplit, hds⟩ := withoutSpaces_split κ.options.spaced κ.rest
  rw [literal_iff hsplit hds]
  rw [← behindBlanks_withoutSpaces] at h
  obtain ⟨hcomment, rfl⟩ | ⟨hcomment, rfl⟩ := hskipped
  · exact comment hcomment h
  · by_cases hline : StartsLine κ.options.spaced (withoutSpaces κ.options.spaced κ.rest)
    · exact line hline h
    · rw [behindBlanks_withoutSpaces, behindBlanks_of_other hcomment hline] at h
      exact h

/-- In the rest of the wrapping there are no groups. -/
theorem of_spent (hrest : IsSpent κ.rest) : Counts κ saved κ.groups κ.nextNumber := by
  obtain hnil | hend := hrest
  · exact of_nil hnil
  · exact escape hend (by simp) rfl (Nat.zero_le _) (of_nil rfl)

end

end Counts

end PackageCycles.Pattern

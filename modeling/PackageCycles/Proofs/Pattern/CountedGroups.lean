import PackageCycles.Proofs.Pattern.Passing

/-!
# Groups in the pass that counts them

For each way in which an opening parenthesis is read (`Opening`), the pass that counts groups comes
to the same place in the pattern by itself and in the wrapped one (`Opening.advances`): it numbers
the group, notes its number or name, or passes over the prefix of a group that does not capture.
What it leaves unread of a prefix are no signs (`GoesOver`).
-/

namespace PackageCycles.Pattern

open Read

/-! ## Names of groups -/

/-- The reader goes over characters that are no signs. -/
def GoesOver (σ σ' : Reader) : Prop :=
  σ' = σ.before σ'.rest ∧
    ∃ ks, σ.rest = ks ++ σ'.rest ∧ ∀ spaced, ∀ k ∈ ks, IsLiteral spaced k

theorem isLiteral_of_isWordChar {spaced : Bool} {c : Char} (h : Unicode.isWordChar c) :
    IsLiteral spaced c :=
  isLiteral_of_kind (by decide) h

section
variable {σ τ σ' : Reader}

/-- One part after another. -/
theorem GoesOver.trans (h : GoesOver σ τ) (h' : GoesOver τ σ') : GoesOver σ σ' := by
  obtain ⟨hτ, ks, hks, hliteral⟩ := h
  obtain ⟨hσ', ls, hls, hliteral'⟩ := h'
  refine ⟨?_, ks ++ ls, by rw [hks, hls, List.append_assoc], fun spaced k hk => ?_⟩
  · rw [hσ', hτ]
    rfl
  · obtain hk | hk := List.mem_append.1 hk
    · exact hliteral spaced k hk
    · exact hliteral' spaced k hk

/-- The reader goes over a word. -/
theorem GoesOver.dropWhile {p : Char → Bool} (hp : ∀ c, p c → Unicode.isWordChar c) :
    GoesOver σ (σ.before (σ.rest.dropWhile p)) :=
  ⟨rfl, σ.rest.takeWhile p, List.takeWhile_append_dropWhile.symm, fun _ k hk =>
    isLiteral_of_isWordChar (hp k (List.mem_takeWhile_imp hk))⟩

theorem GoesOver.one {c : Char} {cs : List Char} (hrest : σ.rest = c :: cs)
    (hc : ∀ spaced, IsLiteral spaced c) : GoesOver σ (σ.before cs) :=
  ⟨rfl, [c], hrest, fun spaced _ hk => List.mem_singleton.1 hk ▸ hc spaced⟩

theorem GoesOver.number {n : Nat} (h : number.Gives σ n σ') : GoesOver σ σ' := by
  obtain rfl := gives_number h
  exact .dropWhile fun _ => isWordChar_of_isDigit

/-- The look at what follows a number that is released takes nothing. -/
theorem eq_of_gives_releasedNumberEnd {close : Char} {m n : Nat} (h : (peek? 0 >>= fun
      | some d => if d = close then pure m else throw Fault.groupName
      | none => pure m).Gives σ n σ') : σ' = σ := by
  rw [gives_peek?_bind] at h
  split at h
  · split at h
    · exact (gives_pure_iff.1 h).2
    · exact (not_gives_throw h).elim
  · exact (gives_pure_iff.1 h).2

/-- The group that is released is given by its number or name. -/
theorem GoesOver.releasedNumber {close : Char} {n : Nat} (h : (releasedNumber close).Gives σ n σ') :
    GoesOver σ σ' := by
  rw [Pattern.releasedNumber, gives_peek?_bind] at h
  split at h
  · exact (not_gives_throw h).elim
  · split at h
    · obtain ⟨m, τ, hnumber, hnext⟩ := gives_bind_iff.1 h
      rw [gives_isNumber_bind] at hnext
      split at hnext
      · obtain rfl := eq_of_gives_releasedNumberEnd hnext
        exact .number hnumber
      · exact (not_gives_throw_bind hnext).elim
    · split at h
      · rw [name, gives_takeWhile_bind, gives_numberOf?_bind] at h
        split at h
        · obtain rfl := eq_of_gives_releasedNumberEnd h
          exact .dropWhile fun _ hc => hc
        · exact (not_gives_throw_bind h).elim
      · exact (not_gives_throw_bind h).elim

variable {start : List Char} {close : Char} {kind : GroupKind}
  (hclose : ∀ spaced, IsLiteral spaced close)
include hclose

/-- A group ends with its closing bracket. -/
theorem GoesOver.capturing {number release : Option Nat}
    (h : (capturing start close number release).Gives σ kind σ') : GoesOver σ σ' := by
  rw [Pattern.capturing] at h
  dsimp only at h
  split at h
  · rw [gives_next?_bind] at h
    split at h
    · rename_i hhead
      obtain ⟨cs, hrest⟩ := List.head?_eq_some_iff.1 hhead
      obtain ⟨-, rfl⟩ := gives_pure_iff.1 h
      rw [hrest]
      exact .one hrest hclose
    · exact (not_gives_unrecognized h).elim
  · exact (not_gives_unrecognized h).elim

/-- Behind the name stands the group that is released, or the bracket. -/
theorem GoesOver.namedGroupEnd {mayRelease : Bool} {number : Option Nat}
    (h : (namedGroupEnd start close mayRelease number).Gives σ kind σ') : GoesOver σ σ' := by
  rw [Pattern.namedGroupEnd, gives_peek?_bind] at h
  split at h
  · rename_i hminus
    rw [gives_skip_bind] at h
    obtain ⟨n, τ, hreleased, hnext⟩ := gives_bind_iff.1 h
    have hhead : σ.rest.head? = some '-' := by
      simp only [Bool.and_eq_true, decide_eq_true_eq, ← List.head?_eq_getElem?] at hminus
      exact hminus.2
    obtain ⟨cs, hrest⟩ := List.head?_eq_some_iff.1 hhead
    rw [hrest] at hreleased
    have hone : GoesOver σ (σ.before cs) := .one hrest fun _ => ⟨by decide, fun _ => by decide⟩
    exact hone.trans ((GoesOver.releasedNumber hreleased).trans (capturing hclose hnext))
  · exact capturing hclose h

omit hclose in
/-- The look at what follows a name takes nothing. -/
theorem gives_checkNameEnd_bind {α : Type} {a : α} {f : Unit → Read α}
    (h : (checkNameEnd close >>= f).Gives σ a σ') : (f ()).Gives σ a σ' := by
  obtain ⟨⟨⟩, τ, hcheck, hnext⟩ := gives_bind_iff.1 h
  rw [checkNameEnd, gives_peek?_bind] at hcheck
  suffices τ = σ from this ▸ hnext
  split at hcheck
  · split at hcheck
    · exact (not_gives_throw hcheck).elim
    · exact (gives_pure_iff.1 hcheck).2
  · exact (gives_pure_iff.1 hcheck).2

/-- A group starts with its number, with its name or with the minus sign in front of the group that
it releases. -/
theorem gives_namedGroup (h : (namedGroup start close).Gives σ kind σ') :
    ∃ c cs τ, σ.rest = c :: cs ∧ GoesOver τ σ' ∧
      (isDigit c ∧ (∃ n, number.Gives σ n τ) ∨
        isDigit c = false ∧ Unicode.isWordChar c ∧
          τ = σ.before (σ.rest.dropWhile Unicode.isWordChar) ∨
        c = '-' ∧ τ = σ) := by
  rw [namedGroup, gives_peek?_bind] at h
  rcases hrest : σ.rest with _ | ⟨c, cs⟩
  · rw [hrest] at h
    exact (not_gives_unrecognized h).elim
  · rw [hrest] at h
    dsimp only [List.getElem?_cons_zero] at h
    split at h
    · rename_i hdigit
      obtain ⟨n, τ, hnumber, hnext⟩ := gives_bind_iff.1 h
      rw [gives_isNumber_bind] at hnext
      replace hnext := gives_checkNameEnd_bind hnext
      split at hnext
      · exact (not_gives_throw_bind hnext).elim
      · exact ⟨c, cs, τ, rfl, .namedGroupEnd hclose hnext, .inl ⟨hdigit, n, hnumber⟩⟩
    · rename_i hdigit
      split at h
      · rename_i hword
        rw [name, gives_takeWhile_bind, gives_numberOf?_bind] at h
        replace h := gives_checkNameEnd_bind h
        rw [hrest] at h
        exact ⟨c, cs, _, rfl, .namedGroupEnd hclose h,
          .inr (.inl ⟨Bool.eq_false_iff.2 hdigit, hword, rfl⟩)⟩
      · split at h
        · rename_i hminus
          exact ⟨c, cs, σ, rfl, .namedGroupEnd hclose h, .inr (.inr ⟨hminus, rfl⟩)⟩
        · exact (not_gives_throw h).elim

end

/-! ## Openings -/

section
variable {κ κ' σ σ' : Reader} {saved saved' : List Options} {cs : List Char}

/-- The pass comes from an opening parenthesis to where it is led, if that is so with either text
behind the pattern. -/
theorem Advances.opening (hrest : κ.rest = '(' :: cs) (hcomment : ¬ StartsComment κ.rest)
    (hsuffix : κ'.rest <:+ cs)
    (hread : ∀ t, t = [] ∨ t = wrapEnd → ∀ base, (countOpening (saved ++ base)).Gives
      (κ.before (cs ++ t)) (saved' ++ base) (κ'.before (κ'.rest ++ t))) :
    Advances κ saved κ' saved' := by
  intro t ht base groups number h
  have htext : (κ.before (κ.rest ++ t)).rest = '(' :: (cs ++ t) := by
    rw [Reader.before_rest, hrest, List.cons_append]
  have hcomment' : ¬ StartsComment (κ.before (κ.rest ++ t)).rest := by
    obtain rfl | rfl := ht
    · rwa [Reader.before_rest, List.append_nil]
    · rwa [Reader.before_rest, startsComment_append]
  refine Counts.opening htext hcomment' (hread t ht base) ?_ h
  rw [Reader.before_rest, List.length_append, List.length_append]
  exact Nat.add_le_add_right hsuffix.length_le _

/-- The reader has noted the number of a group. -/
def Reader.noted (κ : Reader) (n : Nat) : Reader :=
  if κ.groups.numbers.contains n then κ
  else { κ with groups := { κ.groups with numbers := κ.groups.numbers ++ [n] } }

/-- What is noted does not depend on the text. -/
theorem Reader.noted_before (κ : Reader) (n : Nat) (cs : List Char) :
    (κ.before cs).noted n = (κ.noted n).before cs := by
  unfold Reader.noted
  rw [Reader.before_groups]
  split <;> rfl

theorem Reader.noted_options (κ : Reader) (n : Nat) : (κ.noted n).options = κ.options := by
  unfold Reader.noted
  split <;> rfl

theorem Reader.noted_rest (κ : Reader) (n : Nat) : (κ.noted n).rest = κ.rest := by
  unfold Reader.noted
  split <;> rfl

/-- The reader has noted the name of a group. -/
def Reader.notedName (κ : Reader) (key : List Char) : Reader :=
  if (κ.groups.names.lookup key).isSome then κ
  else { κ with groups := { κ.groups with names := κ.groups.names ++ [(key, 0)] } }

theorem Reader.notedName_before (κ : Reader) (key cs : List Char) :
    (κ.before cs).notedName key = (κ.notedName key).before cs := by
  unfold Reader.notedName
  rw [Reader.before_groups]
  split <;> rfl

theorem Reader.notedName_options (κ : Reader) (key : List Char) :
    (κ.notedName key).options = κ.options := by
  unfold Reader.notedName
  split <;> rfl

theorem gives_noteNumber_bind {n : Nat} {f : Unit → Read Unit} :
    (noteNumber n >>= f).Gives κ () κ' ↔ (f ()).Gives (κ.noted n) () κ' := .rfl

theorem gives_noteName_bind {key : List Char} {f : Unit → Read Unit} :
    (noteName key >>= f).Gives κ () κ' ↔ (f ()).Gives (κ.notedName key) () κ' := .rfl

/-- A group without a prefix is numbered without regard to its text. -/
theorem gives_countPlain (κ : Reader) : ∃ κ' : Reader, κ'.options = κ.options ∧ κ'.rest = κ.rest ∧
    ∀ cs, countPlain.Gives (κ.before cs) () (κ'.before cs) := by
  by_cases hcounts : !κ.options.explicitCapture && !κ.skipCapture
  · refine ⟨{ ({ κ with nextNumber := κ.nextNumber + 1 } : Reader).noted κ.nextNumber with
      skipCapture := false }, Reader.noted_options .., Reader.noted_rest .., fun cs => ?_⟩
    rw [countPlain, gives_options_bind, gives_get_bind, if_pos (by exact hcounts)]
    rw [gives_takeNumber_bind, gives_noteNumber_bind]
    change (setSkipCapture false).Gives ((({ κ with nextNumber := κ.nextNumber + 1 } :
      Reader).before cs).noted κ.nextNumber) () _
    rw [Reader.noted_before]
    rfl
  · refine ⟨{ κ with skipCapture := false }, rfl, rfl, fun cs => ?_⟩
    rw [countPlain, gives_options_bind, gives_get_bind, if_neg (by exact hcounts)]
    rfl

/-- A digit that is not zero is one of the others. -/
theorem one_le_of_isDigit {c : Char} (hdigit : isDigit c) (hzero : c ≠ '0') :
    '1' ≤ c ∧ c ≤ '9' := by
  simp only [isDigit, Bool.and_eq_true, decide_eq_true_eq] at hdigit
  refine ⟨?_, hdigit.2⟩
  have hlow : 48 ≤ c.toNat := hdigit.1
  have hne : c.toNat ≠ 48 := fun h => hzero (Char.toNat_inj.1 h)
  exact show 49 ≤ c.toNat by omega

/-- The name or number of a group is noted, and what is left of the prefix are no signs. -/
theorem gives_countNamed {start : List Char} {close : Char} {kind : GroupKind} (κ : Reader)
    (hclose : ∀ spaced, IsLiteral spaced close)
    (h : (namedGroup start close).Gives σ kind σ') :
    ∃ κ' : Reader, κ'.options = κ.options ∧ κ'.rest <:+ σ.rest ∧
      (∃ ks, κ'.rest = ks ++ σ'.rest ∧ ∀ spaced, ∀ k ∈ ks, IsLiteral spaced k) ∧
      ∀ t, t = [] ∨ t = wrapEnd →
        countNamed.Gives (κ.before (σ.rest ++ t)) () (κ'.before (κ'.rest ++ t)) := by
  obtain ⟨c, cs, τ, hrest, ⟨-, ks, hks, hliteral⟩, hstart⟩ := gives_namedGroup hclose h
  have hpeek (t : List Char) : (κ.before (σ.rest ++ t)).rest[0]? = some c := by
    rw [Reader.before_rest, hrest]
    rfl
  obtain ⟨hdigit, n, hnumber⟩ | ⟨hdigit, hword, rfl⟩ | ⟨rfl, rfl⟩ := hstart
  · obtain rfl := gives_number hnumber
    by_cases hzero : c = '0'
    · subst hzero
      refine ⟨{ κ.before σ.rest with skipCapture := false }, rfl, List.suffix_rfl,
        ⟨σ.rest.takeWhile isDigit ++ ks, ?_, fun spaced k hk => ?_⟩, fun t _ => ?_⟩
      · rw [List.append_assoc, ← hks]
        exact List.takeWhile_append_dropWhile.symm
      · obtain hk | hk := List.mem_append.1 hk
        · exact isLiteral_of_isDigit (List.mem_takeWhile_imp hk)
        · exact hliteral spaced k hk
      · rw [countNamed, gives_peek?_bind, hpeek]
        rfl
    · refine ⟨{ (κ.noted n).before (σ.rest.dropWhile isDigit) with skipCapture := false },
        Reader.noted_options .., List.dropWhile_suffix _, ⟨ks, hks, hliteral⟩, fun t ht => ?_⟩
      have hfollows := Follows.number (textless_at κ) (closes_of_end ht) σ.rest
      rw [countNamed, gives_peek?_bind, hpeek]
      dsimp only
      rw [if_pos (by simpa using one_le_of_isDigit hdigit hzero)]
      refine gives_bind_iff.2 ⟨n, _, hfollows.gives_at hnumber, ?_⟩
      rw [gives_noteNumber_bind, Reader.noted_before]
      rfl
  · have hrange : ¬ ('1' ≤ c ∧ c ≤ '9') := by
      rintro ⟨hone, hnine⟩
      simp [isDigit, Char.le_trans (show '0' ≤ '1' by decide) hone, hnine] at hdigit
    have hzero : c ≠ '0' := by
      rintro rfl
      cases hdigit
    refine ⟨{ (κ.notedName (σ.rest.takeWhile Unicode.isWordChar)).before
        (σ.rest.dropWhile Unicode.isWordChar) with skipCapture := false },
      Reader.notedName_options .., List.dropWhile_suffix _, ⟨ks, hks, hliteral⟩, fun t ht => ?_⟩
    rw [countNamed, gives_peek?_bind, hpeek]
    dsimp only
    rw [if_neg (by simpa using hrange), if_pos (by simpa using ⟨hzero, hword⟩), name,
      gives_takeWhile_bind, Reader.before_rest,
      takeWhile_append_of_closes (closes_of_end ht) isWordChar_paren,
      dropWhile_append_of_closes (closes_of_end ht) isWordChar_paren, gives_noteName_bind,
      Reader.before_before, Reader.notedName_before]
    rfl
  · refine ⟨{ κ.before τ.rest with skipCapture := false }, rfl, List.suffix_rfl,
      ⟨ks, hks, hliteral⟩, fun t _ => ?_⟩
    rw [countNamed, gives_peek?_bind, hpeek]
    rfl

/-- Without a question mark a group without a prefix starts. -/
theorem gives_countOpening_plain (hrest : κ.rest.head? ≠ some '?')
    (h : countPlain.Gives κ () κ') : (countOpening saved).Gives κ (κ.options :: saved) κ' := by
  rw [countOpening, gives_options_bind, gives_rest_bind]
  split
  · rename_i heq
    rw [heq] at hrest
    exact (hrest rfl).elim
  · exact gives_bind_iff.2 ⟨(), κ', h, rfl⟩

/-- Behind a bracket the name or number of a group is noted. -/
theorem gives_countOpening_named {bracket close : Char} (hrest : κ.rest = '?' :: bracket :: cs)
    (hpair : closing? bracket = some close) (hcs : cs ≠ [])
    (h : countNamed.Gives (κ.before cs) () κ') :
    (countOpening saved).Gives κ (κ.options :: saved) κ' := by
  have hopens : opensName (bracket :: cs) := by
    obtain ⟨c, cs, rfl⟩ := List.exists_cons_of_ne_nil hcs
    rw [opensName, hpair]
    rfl
  rw [countOpening, gives_options_bind, gives_rest_bind, hrest]
  change (Read.skip 1 >>= fun _ => if opensName (bracket :: cs) then
      Read.skip 1 >>= fun _ => countNamed >>= fun _ => pure (κ.options :: saved)
    else countPrefixed κ.options saved).Gives κ _ _
  rw [gives_skip_bind, hrest, if_pos hopens, gives_skip_bind]
  exact gives_bind_iff.2 ⟨(), κ', h, rfl⟩

/-- Behind a question mark that opens no name stand letters or a sign. -/
theorem gives_countOpening_prefixed (hrest : κ.rest = '?' :: cs) (hopens : opensName cs = false)
    (h : (countPrefixed κ.options saved).Gives (κ.before cs) saved' κ') :
    (countOpening saved).Gives κ saved' κ' := by
  rw [countOpening, gives_options_bind, gives_rest_bind, hrest]
  change (Read.skip 1 >>= fun _ => if opensName cs then
      Read.skip 1 >>= fun _ => countNamed >>= fun _ => pure (κ.options :: saved)
    else countPrefixed κ.options saved).Gives κ _ _
  rw [gives_skip_bind, hrest, hopens]
  exact h

/-- Letters that change the options up to the closing parenthesis. -/
theorem gives_countPrefixed_close {o o' : Options} {ds : List Char}
    (hletters : readOptions false κ.options κ.rest = (o', ')' :: ds)) :
    (countPrefixed o saved).Gives κ saved
      { κ.before ds with options := o', skipCapture := false } := by
  rw [countPrefixed, gives_optionLetters_bind, hletters]
  rfl

/-- What follows letters that change the options is left to be read. -/
theorem gives_countPrefixed {o o' : Options} {d : Char} {ds : List Char}
    (hletters : readOptions false κ.options κ.rest = (o', d :: ds)) (hd : d ≠ ')') :
    (countPrefixed o saved).Gives κ (o :: saved)
      { κ.before (d :: ds) with options := o', skipCapture := d = '(' } := by
  rw [countPrefixed, gives_optionLetters_bind, hletters, gives_peek?_bind]
  dsimp only [List.getElem?_cons_zero]
  split
  · rename_i heq
    exact (hd (Option.some.inj heq)).elim
  · rename_i heq
    obtain rfl := Option.some.inj heq
    rfl
  · rename_i hopen
    have hopen : d ≠ '(' := fun h => hopen (congrArg some h)
    simp only [hopen, decide_false]
    rfl

/-- A sign that is no letter ends the letters. -/
theorem readOptions_of_sign {off : Bool} {o : Options} {c : Char} {cs : List Char}
    (hc : c ∈ [':', '=', '!', '>', '(']) : readOptions off o (c :: cs) = (o, c :: cs) := by
  simp only [List.mem_cons, List.not_mem_nil, or_false] at hc
  obtain rfl | rfl | rfl | rfl | rfl := hc <;> rfl

/-- A sign that is no bracket opens no name. -/
theorem opensName_of_sign {c : Char} (hc : closing? c = none) (cs : List Char) :
    opensName (c :: cs) = false := by
  cases cs with
  | nil => rfl
  | cons d cs => rw [opensName, hc]; rfl

/-- A sign that opens no name leads into a group. -/
theorem Advances.sign (saved : List Options) {c : Char} (hrest : κ.rest = '(' :: '?' :: c :: cs)
    (hc : c ∈ [':', '=', '!', '>', '(']) :
    Advances κ saved { κ.before (c :: cs) with skipCapture := c = '(' } (κ.options :: saved) := by
  have hhash : c ≠ '#' := by
    rintro rfl
    exact absurd hc (by decide)
  have hparen : c ≠ ')' := by
    rintro rfl
    exact absurd hc (by decide)
  have hname : closing? c = none := by
    simp only [List.mem_cons, List.not_mem_nil, or_false] at hc
    obtain rfl | rfl | rfl | rfl | rfl := hc <;> rfl
  refine .opening hrest (by simp [hrest, StartsComment, hhash.symm]) (List.suffix_cons _ _)
    fun t _ base => ?_
  refine gives_countOpening_prefixed (κ := κ.before ('?' :: c :: cs ++ t)) rfl
    (opensName_of_sign hname _) ?_
  exact gives_countPrefixed (κ := κ.before (c :: cs ++ t)) (readOptions_of_sign hc) hparen

/-- A sign that opens no name leads into a group, and then it is passed over. -/
theorem Advances.signed {c : Char} (hrest : κ.rest = '(' :: '?' :: c :: cs)
    (hc : c ∈ [':', '=', '!', '>']) :
    Advances κ saved { κ.before cs with skipCapture := false } (κ.options :: saved) := by
  have hopen : c ≠ '(' := by
    rintro rfl
    exact absurd hc (by decide)
  have hsign := Advances.sign saved hrest (List.mem_append_left ['('] hc)
  simp only [hopen, decide_false] at hsign
  have htext : (c :: cs) = [c] ++ cs := rfl
  refine hsign.trans (.literal htext fun d hd => ?_)
  obtain rfl := List.mem_singleton.1 hd
  simp only [List.mem_cons, List.not_mem_nil, or_false] at hc
  obtain rfl | rfl | rfl | rfl := hc <;> exact ⟨by decide, fun _ => by decide⟩

/-- A look behind is not taken for a name. -/
theorem Advances.lookBehind {c : Char} (hrest : κ.rest = '(' :: '?' :: '<' :: c :: cs)
    (hc : c = '=' ∨ c = '!') :
    Advances κ saved { κ.before cs with skipCapture := false } (κ.options :: saved) := by
  have hopening : Advances κ saved { κ.before (c :: cs) with skipCapture := false }
      (κ.options :: saved) := by
    refine .opening hrest (by simp [hrest, StartsComment]) ⟨['?', '<'], rfl⟩ fun t _ base => ?_
    refine gives_countOpening_named (κ := κ.before ('?' :: '<' :: c :: cs ++ t)) rfl rfl (by simp) ?_
    obtain rfl | rfl := hc <;> rfl
  have htext : (c :: cs) = [c] ++ cs := rfl
  refine hopening.trans (.literal htext fun d hd => ?_)
  obtain rfl := List.mem_singleton.1 hd
  obtain rfl | rfl := hc <;> exact ⟨by decide, fun _ => by decide⟩

/-- A group without a prefix. -/
theorem Advances.plain (saved : List Options) (hrest : κ.rest = '(' :: cs)
    (hcs : cs.head? ≠ some '?') :
    ∃ κ' : Reader, κ'.rest = cs ∧ κ'.options = κ.options ∧
      Advances κ saved κ' (κ.options :: saved) := by
  obtain ⟨κ', hoptions, -, hgives⟩ := gives_countPlain κ
  refine ⟨κ'.before cs, rfl, hoptions, .opening hrest ?_ List.suffix_rfl fun t ht base => ?_⟩
  · rw [hrest]
    rintro ⟨more, hmore⟩
    cases hmore
    exact hcs rfl
  · refine gives_countOpening_plain (κ := κ.before (cs ++ t)) ?_ (hgives _)
    rw [Reader.before_rest]
    cases cs with
    | nil => obtain rfl | rfl := ht <;> decide
    | cons c cs => exact hcs

/-- A group with a name or number. -/
theorem Advances.named (saved : List Options) {bracket close : Char} {start : List Char}
    {kind : GroupKind}
    (hrest : κ.rest = '(' :: '?' :: bracket :: cs) (hpair : closing? bracket = some close)
    (h : (namedGroup start close).Gives (σ.before cs) kind σ') :
    ∃ κ' : Reader, κ'.rest = σ'.rest ∧ κ'.options = κ.options ∧
      Advances κ saved κ' (κ.options :: saved) := by
  have hclose (spaced : Bool) : IsLiteral spaced close := by
    unfold closing? at hpair
    split at hpair <;> cases hpair <;> exact ⟨by decide, fun _ => by decide⟩
  have hcs : cs ≠ [] := by
    rintro rfl
    obtain ⟨c, cs, -, hrest, -⟩ := gives_namedGroup hclose h
    cases hrest
  obtain ⟨κ', hoptions, hsuffix, ⟨ks, hks, hliteral⟩, hgives⟩ := gives_countNamed κ hclose h
  refine ⟨κ'.before σ'.rest, rfl, hoptions, .trans (.opening hrest ?_
    (hsuffix.trans ⟨['?', bracket], rfl⟩) fun t ht base => ?_) (.literal hks (hliteral _))⟩
  · rw [hrest]
    rintro ⟨more, hmore⟩
    cases hmore
    cases hpair
  · exact gives_countOpening_named (κ := κ.before ('?' :: bracket :: cs ++ t)) rfl hpair
      (by simp [hcs]) (hgives t ht)

/-- A conditional: its condition is a group for the pass that counts groups. -/
theorem Advances.condition (saved : List Options) {kind : GroupKind}
    (hrest : κ.rest = '(' :: '?' :: '(' :: cs)
    (h : conditional.Gives (σ.before cs) kind σ') :
    ∃ κ' : Reader, κ'.rest = σ'.rest ∧ κ'.options = κ.options ∧ σ'.options = σ.options ∧
      Advances κ saved κ' (κ.options :: saved) := by
  have hsign := Advances.sign saved hrest (by decide)
  obtain ⟨n, key, -, hkey, hσ', hne, hword⟩ | ⟨-, rfl, -⟩ := gives_conditional h
  · obtain ⟨d, ds, rfl⟩ := List.exists_cons_of_ne_nil hne
    have hhead : cs.head? ≠ some '?' := by
      intro hhead
      obtain rfl : d = '?' := by
        rw [show cs = _ from hkey] at hhead
        exact Option.some.inj hhead
      exact absurd (hword _ List.mem_cons_self) (by decide)
    obtain ⟨κ₁, hrest₁, -, hopened⟩ := Advances.plain (κ.options :: saved)
      (κ := { κ.before ('(' :: cs) with skipCapture := true }) rfl hhead
    have hname : Advances κ₁ (κ.options :: κ.options :: saved) (κ₁.before (')' :: σ'.rest))
        (κ.options :: κ.options :: saved) :=
      .literal (hrest₁.trans hkey) fun k hk => isLiteral_of_isWordChar (hword k hk)
    exact ⟨{ κ₁.before σ'.rest with options := κ.options }, rfl, rfl, by rw [hσ']; rfl,
      hsign.trans (hopened.trans (hname.trans (.close rfl)))⟩
  · exact ⟨{ κ.before ('(' :: cs) with skipCapture := true }, rfl, rfl, rfl, hsign⟩

/-- Which letters are read does not depend on the options. -/
theorem readOptions_congr {o o' : Options} (hspaced : o'.spaced = o.spaced) (off : Bool)
    (cs : List Char) : (readOptions off o' cs).2 = (readOptions off o cs).2 ∧
      (readOptions off o' cs).1.spaced = (readOptions off o cs).1.spaced := by
  induction cs generalizing off o o' with
  | nil => exact ⟨rfl, hspaced⟩
  | cons c cs ih =>
    unfold readOptions
    split <;> first | exact ih (by exact hspaced) _ | exact ih (by exact rfl) _ | exact ⟨rfl, hspaced⟩

/-- Letters that change the options end the parentheses or open a group. -/
theorem exists_of_gives_optionsGroupEnd {start : List Char} {kind : Option GroupKind}
    (h : (next? >>= fun
      | some ')' => pure none
      | some ':' => pure (some GroupKind.plain)
      | _ => unrecognized start).Gives σ kind σ') :
    ∃ d ds, σ.rest = d :: ds ∧ σ' = σ.before ds ∧
      (d = ')' ∧ kind = none ∨ d = ':' ∧ kind = some .plain) := by
  rw [gives_next?_bind] at h
  rcases hrest : σ.rest with _ | ⟨d, ds⟩
  · rw [hrest] at h
    exact (not_gives_unrecognized h).elim
  · rw [hrest, List.head?_cons, List.tail_cons] at h
    split at h
    · rename_i heq
      obtain ⟨rfl, rfl⟩ := gives_pure_iff.1 h
      exact ⟨d, ds, rfl, rfl, .inl ⟨Option.some.inj heq, rfl⟩⟩
    · rename_i heq
      obtain ⟨rfl, rfl⟩ := gives_pure_iff.1 h
      exact ⟨d, ds, rfl, rfl, .inr ⟨Option.some.inj heq, rfl⟩⟩
    · exact (not_gives_unrecognized h).elim

/-- Letters that change the options are followed by a sign that is read, too. -/
theorem gives_optionsGroup {start : List Char} {inside : GroupKind} {kind : Option GroupKind}
    {c : Char} (hrest : σ.rest = c :: cs) (hc : c ≠ ')' ∧ c ≠ ':')
    (h : (optionsGroup start inside).Gives σ kind σ') :
    ∃ o d ds, readOptions false σ.options σ.rest = (o, d :: ds) ∧
      σ' = { σ.before ds with options := o } ∧
      (d = ')' ∧ kind = none ∨ d = ':' ∧ kind = some .plain) := by
  rw [optionsGroup] at h
  split at h
  · rw [gives_optionLetters_bind] at h
    obtain ⟨d, ds, htext, rfl, hkind⟩ := exists_of_gives_optionsGroupEnd h
    exact ⟨_, d, ds, Prod.ext rfl htext, rfl, hkind⟩
  · obtain ⟨d, ds, htext, -, hkind⟩ := exists_of_gives_optionsGroupEnd h
    rw [hrest] at htext
    cases htext
    obtain ⟨rfl, -⟩ | ⟨rfl, -⟩ := hkind
    · exact (hc.1 rfl).elim
    · exact (hc.2 rfl).elim

/-- Letters that change the options. -/
theorem Advances.letters {start : List Char} {inside : GroupKind} {kind : Option GroupKind} {c : Char}
    (hrest : κ.rest = '(' :: '?' :: c :: cs) (hspaced : κ.options.spaced = σ.options.spaced)
    (hcomment : ¬ StartsComment κ.rest)
    (hc : c ∉ [')', ':', '=', '!', '>', '\'', '<', '('])
    (h : (optionsGroup start inside).Gives (σ.before (c :: cs)) kind σ') :
    ∃ κ' : Reader, κ'.rest = σ'.rest ∧ κ'.options.spaced = σ'.options.spaced ∧
      Advances κ saved κ' (if kind.isSome then κ.options :: saved else saved) := by
  simp only [List.mem_cons, List.not_mem_nil, or_false, not_or] at hc
  obtain ⟨hparen, hcolon, -, -, -, hquote, hangle, -⟩ := hc
  have hname : closing? c = none := by
    unfold closing?
    split
    · contradiction
    · contradiction
    · rfl
  obtain ⟨o, d, ds, hletters, rfl, hkind⟩ := gives_optionsGroup rfl ⟨hparen, hcolon⟩ h
  rw [Reader.before_rest, Reader.before_options] at hletters
  obtain ⟨hsame, hspaced'⟩ := readOptions_congr hspaced false (c :: cs)
  rw [hletters] at hsame hspaced'
  have hcounted (t : List Char) (ht : t = [] ∨ t = wrapEnd) :
      readOptions false κ.options (c :: cs ++ t) =
        ((readOptions false κ.options (c :: cs)).1, d :: (ds ++ t)) := by
    rw [readOptions_append (closes_of_end ht), hsame]
    rfl
  have hsuffix : d :: ds <:+ c :: cs := by
    have hsuffix := readOptions_suffix false κ.options (c :: cs)
    rwa [hsame] at hsuffix
  obtain ⟨rfl, rfl⟩ | ⟨rfl, rfl⟩ := hkind
  · refine ⟨{ κ.before ds with
      options := (readOptions false κ.options (c :: cs)).1, skipCapture := false }, rfl, hspaced',
      .opening hrest hcomment ?_ fun t ht base => ?_⟩
    · exact (List.suffix_cons _ _).trans (hsuffix.trans (List.suffix_cons _ _))
    · exact gives_countOpening_prefixed (κ := κ.before ('?' :: c :: cs ++ t)) rfl
        (opensName_of_sign hname _)
        (gives_countPrefixed_close (κ := κ.before (c :: cs ++ t)) (hcounted t ht))
  · have hopened : Advances κ saved { κ.before (':' :: ds) with
        options := (readOptions false κ.options (c :: cs)).1, skipCapture := false }
        (κ.options :: saved) := by
      refine .opening hrest hcomment (hsuffix.trans (List.suffix_cons _ _)) fun t ht base => ?_
      exact gives_countOpening_prefixed (κ := κ.before ('?' :: c :: cs ++ t)) rfl
        (opensName_of_sign hname _)
        (gives_countPrefixed (κ := κ.before (c :: cs ++ t)) (hcounted t ht) (by decide))
    have htext : ':' :: ds = [':'] ++ ds := rfl
    refine ⟨{ κ.before ds with
      options := (readOptions false κ.options (c :: cs)).1, skipCapture := false }, rfl, hspaced',
      hopened.trans (.literal htext fun k hk => ?_)⟩
    obtain rfl := List.mem_singleton.1 hk
    exact ⟨by decide, fun _ => by decide⟩

/-- An opening parenthesis opens a group in both passes, or the pattern cannot be read on. -/
theorem Opening.advances (saved : List Options) {inside : GroupKind} {kind : Option GroupKind}
    (h : Opening inside σ kind σ') (hrest : κ.rest = '(' :: σ.rest)
    (hspaced : κ.options.spaced = σ.options.spaced) (hcomment : ¬ StartsComment κ.rest) :
    (∃ κ' : Reader, κ'.rest = σ'.rest ∧ κ'.options.spaced = σ'.options.spaced ∧
      Advances κ saved κ' (if kind.isSome then κ.options :: saved else saved)) ∨
    σ'.rest.head? = some '?' := by
  cases h with
  | plain kind σ' start group =>
    have hsame : σ'.rest = σ.rest ∧ σ'.options = σ.options := by
      rw [Gives, run_plainGroup] at group
      split at group <;> cases group <;> exact ⟨rfl, rfl⟩
    by_cases hquestion : σ.rest.head? = some '?'
    · exact .inr (hsame.1 ▸ hquestion)
    · obtain ⟨κ', hrest', hoptions, hadvances⟩ := Advances.plain saved hrest hquestion
      exact .inl ⟨κ', hrest'.trans hsame.1.symm, by rw [hoptions, hsame.2, hspaced], hadvances⟩
  | uncaptured cs text =>
    rw [text] at hrest
    exact .inl ⟨{ κ.before cs with skipCapture := false }, rfl, hspaced, .signed hrest (by decide)⟩
  | atomic cs text =>
    rw [text] at hrest
    exact .inl ⟨{ κ.before cs with skipCapture := false }, rfl, hspaced, .signed hrest (by decide)⟩
  | look negative backward cs text =>
    rw [text] at hrest
    refine .inl ⟨{ κ.before cs with skipCapture := false }, rfl, hspaced, ?_⟩
    cases backward with
    | false => cases negative <;> exact .signed hrest (by decide)
    | true => cases negative <;> exact .lookBehind hrest (by decide)
  | named bracket close cs kind σ' pair text first group =>
    rw [text] at hrest
    obtain ⟨κ', hrest', hoptions, hadvances⟩ := Advances.named saved hrest pair group
    have hbefore := (Follows.namedGroup (textless_triplets _) closes_nil (sharesGroups_triplets _)
      σ.rest σ.rest close cs).before group
    exact .inl ⟨κ', hrest', by rw [hoptions, hspaced, hbefore]; rfl, hadvances⟩
  | condition cs kind σ' text group =>
    rw [text] at hrest
    obtain ⟨κ', hrest', hoptions, hoptions', hadvances⟩ := Advances.condition saved hrest group
    exact .inl ⟨κ', hrest', by rw [hoptions, hoptions', hspaced], hadvances⟩
  | letters c cs kind σ' text letter group =>
    rw [text] at hrest
    exact .inl (Advances.letters hrest hspaced hcomment letter group)

end

end PackageCycles.Pattern

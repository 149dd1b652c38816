import Mathlib.Data.List.TakeWhile
import PackageCycles.Pattern.Parser
import PackageCycles.Proofs.Pattern.Reading

/-!
# Escape sequences in front of a closing parenthesis

What follows a backslash is read in the same way with something behind the pattern. What looks like
a reference to a group may turn out to be something else, and then it is read again from the
backslash on; the place reached by then does not matter (`Settles`).

The pass that only counts groups does not know them yet. It reads the same characters, except that
it takes all the digits behind a backslash for the number of a group, while the other pass takes
three of them at most if there is no such group.
-/

namespace PackageCycles.Pattern

open Read

/-- A reference is read with the same characters, or neither text is one. The pass that only counts
groups may find a fault, but no other reading of the text. -/
def Settles (S : Reader → Reader → Prop) (t : List Char) (counting : Bool)
    (first : Option Regex × Reader) (second : Except Fault (Option Regex) × Reader) : Prop :=
  S first.2 second.2 ∧
    match first.1 with
    | none => second.1 = .ok none
    | some r => second.2.rest = first.2.rest ++ t ∧ second.1 ≠ .ok none ∧
        (counting = false → second.1 = .ok (some r))

/-- The readers have the same options and groups. -/
def SharesGroups (S : Reader → Reader → Prop) : Prop :=
  ∀ σ τ, S σ τ → σ.options = τ.options ∧ σ.groups = τ.groups

/-- No name of a group ends in a parenthesis. -/
theorem closing?_ne_paren {c close : Char} (h : closing? c = some close) : close ≠ ')' := by
  unfold closing? at h
  split at h <;> cases h <;> decide

namespace Read.Follows

section
variable {S : Reader → Reader → Prop} {t : List Char} (hS : Textless S) {counting : Bool}
  {cs : List Char}

/-- Neither text is a reference. -/
theorem settles_none : Follows S t (Settles S t counting) cs (Pure.pure none) (Pure.pure none) := by
  rintro σ τ _ _ hστ rfl - ⟨⟩
  exact ⟨List.suffix_rfl, hστ, rfl⟩

/-- Both texts are the same reference. -/
theorem settles_some {r r' : Regex} (h : counting = false → r' = r) :
    Follows S t (Settles S t counting) cs (Pure.pure (some r)) (Pure.pure (some r')) := by
  rintro σ τ _ _ hστ rfl hτ ⟨⟩
  refine ⟨List.suffix_rfl, hστ, hτ, by simp [run_pure], fun hcounting => ?_⟩
  rw [run_pure, h hcounting]

/-- The pass that only counts groups may miss the group. -/
theorem settles_throw {r : Regex} {fault : Fault} {f : Unit → Read (Option Regex)}
    (h : counting = true) : Follows S t (Settles S t counting) cs (Pure.pure (some r))
      (MonadExcept.throw fault >>= f) := by
  rintro σ τ _ _ hστ rfl hτ ⟨⟩
  rw [run_bind, run_throw]
  exact ⟨List.suffix_rfl, hστ, hτ, by simp, by simp [h]⟩

include hS

/-- A text that is no reference is read again from its start. -/
theorem settle {act act' : Read (Option Regex)} {f f' : Read Regex}
    (h : Follows S t (Settles S t counting) cs act act')
    (hf : Follows S t (Agrees S t counting) cs f f') :
    Follows S t (Agrees S t counting) cs
      (act >>= fun
        | some r => Pure.pure r
        | none => Read.setRest cs >>= fun _ => f)
      (act' >>= fun
        | some r => Pure.pure r
        | none => Read.setRest (cs ++ t) >>= fun _ => f') := by
  intro σ τ b σ'' hστ hσ hτ hgives
  obtain ⟨a, σ', hact, hnext⟩ := gives_bind_iff.1 hgives
  obtain ⟨hsuffix, hS', hsettles⟩ := h σ τ a σ' hστ hσ hτ hact
  rw [run_bind]
  cases a with
  | none =>
    have hrun : act'.run τ = (.ok none, (act'.run τ).2) := Prod.ext hsettles rfl
    rw [hrun]
    exact hf (σ'.before cs) _ b σ'' (hS _ _ cs (cs ++ t) hS') rfl rfl hnext
  | some r =>
    obtain ⟨hrest, hsome, hresult⟩ := hsettles
    cases hnext
    rcases hrun : act'.run τ with ⟨fault | _ | r', τ'⟩
    · rw [hrun] at hrest hresult hS'
      exact ⟨hsuffix, ⟨fun h => (by cases hresult h), hrest, hS'⟩⟩
    · rw [hrun] at hsome
      exact (hsome rfl).elim
    · rw [hrun] at hrest hresult hS'
      exact ⟨hsuffix, ⟨fun h => (by cases hresult h; rfl), hrest, hS'⟩⟩

variable (ht : Closes t)
include ht

/-- What is read up to a closing sign is a reference, or the sign is missing. -/
theorem next_close {close : Char} (hclose : close ≠ ')') {act act' last : Read (Option Regex)}
    (hact : ∀ more, Follows S t (Settles S t counting) more act act')
    (hlast : ∀ σ a σ', last.Gives σ a σ' → last = Pure.pure none) :
    Follows S t (Settles S t counting) cs
      (next? >>= fun c => if c = some close then act else last)
      (next? >>= fun c => if c = some close then act' else last) := by
  cases cs with
  | nil =>
    intro σ τ a σ' hστ hσ hτ hgives
    rw [Gives, run_bind, run_next?, hσ] at hgives
    simp only [List.head?_nil, reduceCtorEq, if_false] at hgives
    obtain rfl := hlast _ _ _ hgives
    cases hgives
    rw [run_bind, run_next?, hτ]
    simp only [List.nil_append, ht.head?_ne hclose, if_false, run_pure]
    exact ⟨List.nil_suffix, hS σ τ _ _ hστ, rfl⟩
  | cons c more =>
    refine next hS ?_
    split
    · exact hact more
    · intro σ τ a σ' hστ hσ hτ hgives
      obtain rfl := hlast _ _ _ hgives
      exact settles_none σ τ a σ' hστ hσ hτ hgives

variable (hgroups : counting = false → SharesGroups S)
include hgroups

/-- A reference between brackets is read in the same way. The pass that only counts groups may not
know the group, but it reads the same characters. -/
theorem bracketedReference (strict : Bool) {close : Char} (hclose : close ≠ ')') (hcs : cs ≠ []) :
    Follows S t (Settles S t counting) cs (bracketedReference false strict close)
      (bracketedReference counting strict close) := by
  unfold Pattern.bracketedReference
  refine options fun σ τ hστ => ?_
  obtain ⟨c, more, rfl⟩ := List.exists_cons_of_ne_nil hcs
  refine peek ?_
  dsimp only
  split
  · refine bind (number hS ht _) fun n cs' _ => ?_
    refine next_close hS ht hclose (fun more => isNumber fun σ' τ' hστ' => ?_) fun _ _ _ _ => rfl
    split
    · split
      · exact settles_some fun h => by rw [(hgroups h σ τ hστ).1]
      · rename_i hnumber hmissing
        cases counting with
        | true => exact settles_throw rfl
        | false => exact (hmissing ((hgroups rfl σ' τ' hστ').2 ▸ hnumber)).elim
    · exact throw_bind _ _ _
  · refine bind (name hS ht _) fun key cs' _ => ?_
    split
    · refine next_close hS ht hclose (fun more => ?_) fun σ' a σ'' hgives => ?_
      · simp only [Bool.false_eq_true, if_false]
        cases counting with
        | true =>
          refine numberOf?_left fun found => ?_
          cases found with
          | some n => exact settles_some (by simp)
          | none => exact throw_bind _ _ _
        | false =>
          refine numberOf? fun σ' τ' hστ' => ?_
          rw [(hgroups rfl σ τ hστ).1, (hgroups rfl σ' τ' hστ').2]
          split
          · exact settles_some fun _ => rfl
          · exact throw_bind _ _ _
      · cases strict with
        | true => cases hgives
        | false => rfl
    · cases strict with
      | true => exact throw_bind _ _ _
      | false => exact settles_none

omit hgroups in
/-- Behind a bracket at the end of a pattern there is no reference. -/
theorem settles_bracket_end {c : Char} (close : Char) :
    Follows S t (Settles S t counting) [c] (Pure.pure none)
      (Read.skip 1 >>= fun _ => Pattern.bracketedReference counting false close) := by
  intro σ τ a σ' hστ hσ hτ hgives
  cases hgives
  suffices hrun : (Pattern.bracketedReference counting false close).run (τ.before t) =
      (.ok none, τ.before t) by
    rw [run_bind, run_skip, hτ]
    simp only [List.singleton_append, List.drop_one, List.tail_cons, hrun]
    exact ⟨hσ ▸ List.suffix_rfl, hS σ τ σ.rest t hστ, rfl⟩
  simp only [Pattern.bracketedReference, run_bind, run_options, run_peek?]
  obtain rfl | ⟨ds, rfl⟩ := ht.eq_nil_or_cons
  · rfl
  · have hdigit : isDigit ')' = false := by decide
    simp only [Reader.before_rest, List.getElem?_cons_zero, hdigit, Bool.false_eq_true, if_false]
    rw [run_bind, Pattern.name, run_takeWhile]
    simp only [Reader.before_rest, List.takeWhile_cons, List.dropWhile_cons, isWordChar_paren,
      Bool.false_eq_true, if_false, List.isEmpty_nil, Bool.not_true]
    rfl

omit hgroups in
/-- The number of a group, where both readings know the groups. -/
theorem numberReference (hshares : SharesGroups S) (cs : List Char) :
    Follows S t (Settles S t false) cs (numberReference false) (numberReference false) := by
  unfold Pattern.numberReference
  refine bind (number hS ht cs) fun n cs' _ => ?_
  simp only [Bool.false_eq_true, if_false]
  refine isNumber fun σ τ hστ => ?_
  rw [(hshares σ τ hστ).2]
  split
  · refine options fun σ' τ' hστ' => settles_some fun _ => ?_
    rw [(hshares σ' τ' hστ').1]
  · split
    · exact throw_bind _ _ _
    · exact settles_none

/-- A reference to a group is read in the same way, unless it is a number behind the backslash
itself and only groups are counted. -/
theorem reference {c : Char} {more : List Char}
    (hdigit : counting → ¬ ('1' ≤ c ∧ c ≤ '9')) :
    Follows S t (Settles S t counting) (c :: more) (reference false) (reference counting) := by
  unfold Pattern.reference
  refine rest ?_
  by_cases hk : c = 'k'
  · subst hk
    cases more with
    | nil => exact throw _ _
    | cons d more =>
      rw [List.cons_append, List.cons_append]
      refine bind (skip_of_le hS (by simp)) fun _ cs' _ => ?_
      cases hd : closing? d with
      | none => exact throw _ _
      | some close =>
        refine rest ?_
        dsimp only
        cases cs' with
        | nil => exact throw_bind _ _ _
        | cons e cs' => exact bracketedReference hS ht hgroups true (closing?_ne_paren hd) (by simp)
  · rw [List.cons_append]
    split
    · rename_i heq
      cases heq
    · rename_i heq
      exact (hk (List.cons.inj heq).1).elim
    · rename_i heq
      cases heq
      cases hc : closing? c with
      | some close =>
        dsimp only
        cases more with
        | nil =>
          obtain rfl | ⟨ds, rfl⟩ := ht.eq_nil_or_cons
          · exact settles_none
          · exact settles_bracket_end hS ht close
        | cons d more =>
          exact skip hS (bracketedReference hS ht hgroups false (closing?_ne_paren hc) (by simp))
      | none =>
        dsimp only
        split
        · rename_i hrange
          simp only [Bool.and_eq_true, decide_eq_true_eq] at hrange
          cases counting with
          | true => exact (hdigit rfl hrange).elim
          | false => exact numberReference hS ht (hgroups rfl) _
        · exact settles_none

end

section
variable {S : Reader → Reader → Prop} {t : List Char} (hS : Textless S) (ht : Closes t)
  {counting : Bool} (hgroups : counting = false → SharesGroups S)
include hS ht hgroups

/-- What a backslash stands for is read in the same way. The pass that only counts groups reads the
same characters, unless they start with the number of a group. -/
theorem backslash {cs : List Char}
    (hdigit : counting → ∀ c ∈ cs.head?, ¬ ('1' ≤ c ∧ c ≤ '9')) :
    Follows S t (Agrees S t counting) cs (backslash false) (backslash counting) := by
  unfold Pattern.backslash
  refine options fun σ τ hστ => ?_
  cases cs with
  | nil => exact of_fails (Fails.peek_nil (Fails.throw _ _)) _
  | cons c more =>
    refine peek ?_
    dsimp only
    split
    · exact skip hS (pure _).agrees
    · exact skip hS (pure_agrees fun h => by rw [(hgroups h σ τ hστ).1])
    · split
      · refine skip hS (bind (property hS ht more) fun p cs' _ => ?_)
        exact pure_agrees fun h => by rw [(hgroups h σ τ hστ).1]
      · refine rest ?_
        refine settle hS (reference hS ht hgroups fun h => hdigit h c rfl) ?_
        refine bind (escapedCode hS ht _) fun code cs' _ => ?_
        exact pure_agrees fun h => by rw [(hgroups h σ τ hστ).1]

end
end Read.Follows

theorem Read.Fails.backslash_nil {counting : Bool} : Fails [] (backslash counting) := by
  unfold Pattern.backslash
  rintro σ hσ unit σ' hgives
  exact Fails.peek_nil (Fails.throw _ _) σ hσ unit σ' (gives_options_bind.1 hgives)

/-! ## Numbers of groups -/

/-- A digit from one on that is no octal one is one of the last two. -/
theorem eq_of_not_octal {c : Char} (hc : '1' ≤ c ∧ c ≤ '9')
    (hoctal : ¬ ('0' ≤ c && c ≤ '7') = true) : c = '8' ∨ c = '9' := by
  have hhigh : c.toNat ≤ 57 := hc.2
  have hlow : 56 ≤ c.toNat := by
    by_contra hlow
    have hseven : c ≤ '7' := Nat.lt_succ_iff.1 (Nat.not_le.1 hlow)
    have hzero : '0' ≤ c := Char.le_trans (by decide) hc.1
    simp [hseven, hzero] at hoctal
  rw [← Char.toNat_inj, ← Char.toNat_inj]
  exact (Nat.le_succ_iff.1 hhigh).imp (fun h => Nat.le_antisymm h hlow) id

section
variable {σ : Reader} {c : Char} {cs : List Char} (counting : Bool)

/-- A digit from one on starts the number of a group. -/
theorem reference_of_digit (hrest : σ.rest = c :: cs) (hc : '1' ≤ c ∧ c ≤ '9') :
    (reference counting).run σ = (numberReference counting).run σ := by
  have hk : c ≠ 'k' := by
    rintro rfl
    exact absurd hc (by decide)
  have hclose : closing? c = none := by
    unfold closing?
    split <;> first | rfl | exact absurd hc (by decide)
  rw [reference, run_bind, run_rest, hrest]
  dsimp only
  split
  · rename_i heq
    cases heq
  · rename_i heq
    exact (hk (List.cons.inj heq).1).elim
  · rename_i heq
    cases heq
    rw [hclose]
    dsimp only
    rw [if_pos (by simpa using hc)]

/-- If there is no such group, the digits are the code of a character. -/
theorem backslash_of_digit (hrest : σ.rest = c :: cs) (hc : '1' ≤ c ∧ c ≤ '9') :
    (backslash counting).run σ = (numberReference counting >>= fun
      | some r => pure r
      | none => setRest (c :: cs) >>= fun _ => escapedCode >>= fun code =>
          pure (literalUnit σ.options code) : Read Regex).run σ := by
  have hanchor : anchorLetter? c = none := by
    unfold anchorLetter?
    split <;> first | rfl | exact absurd hc (by decide)
  have hclass : classLetter? c = none := by
    unfold classLetter?
    split <;> first | rfl | exact absurd hc (by decide)
  have hproperty : ¬ (c = 'p' ∨ c = 'P') := by
    rintro (rfl | rfl) <;> exact absurd hc (by decide)
  rw [backslash, run_bind, run_options]
  dsimp only
  rw [run_bind, run_peek?, hrest]
  dsimp only [List.getElem?_cons_zero]
  rw [hanchor, hclass]
  dsimp only
  rw [if_neg (by simpa using hproperty), run_bind, run_rest, hrest]
  dsimp only
  rw [run_bind, reference_of_digit counting hrest hc]
  exact (run_bind _ _ σ).symm

omit counting in
/-- The pass that counts groups takes all the digits behind a backslash. -/
theorem run_backslash_of_digit (hrest : σ.rest = c :: cs) (hc : '1' ≤ c ∧ c ≤ '9') :
    ((backslash true).run σ).2 = σ.before (σ.rest.dropWhile isDigit) := by
  rw [backslash_of_digit true hrest hc, run_bind, numberReference, run_bind, ← run_number_snd]
  rcases number.run σ with ⟨fault | n, τ⟩ <;> rfl

omit counting in
/-- The code of a character in octal is made up of digits. -/
theorem gives_octal {σ' : Reader} {n : Nat} (h : octal.Gives σ n σ') :
    ∃ ks, σ.rest = ks ++ σ'.rest ∧ ∀ k ∈ ks, isDigit k := by
  rw [octal, gives_rest_bind] at h
  dsimp only at h
  rw [gives_skip_bind] at h
  obtain ⟨-, rfl⟩ := gives_pure_iff.1 h
  generalize hks : (σ.rest.take 3).takeWhile (fun c => '0' ≤ c && c ≤ '7') = ks
  have hprefix : ks <+: σ.rest := hks ▸ (List.takeWhile_prefix _).trans (List.take_prefix 3 _)
  refine ⟨ks, ?_, fun k hk => ?_⟩
  · obtain ⟨more, hmore⟩ := hprefix
    rw [Reader.before_rest, ← hmore, List.drop_left]
  · have hoctal := List.mem_takeWhile_imp (hks ▸ hk)
    simp only [Bool.and_eq_true, decide_eq_true_eq] at hoctal
    simp only [isDigit, Bool.and_eq_true, decide_eq_true_eq]
    exact ⟨hoctal.1, Char.le_trans hoctal.2 (by decide)⟩

omit counting in
/-- What is read behind a backslash from a digit on are digits. -/
theorem gives_backslash_of_digit {σ' : Reader} {unit : Regex} (hrest : σ.rest = c :: cs)
    (hc : '1' ≤ c ∧ c ≤ '9') (h : (backslash false).Gives σ unit σ') :
    ∃ ks, σ.rest = ks ++ σ'.rest ∧ ∀ k ∈ ks, isDigit k := by
  rw [Gives, backslash_of_digit false hrest hc] at h
  obtain ⟨found, τ, hfound, hnext⟩ := gives_bind_iff.1 h
  rw [numberReference] at hfound
  obtain ⟨n, τ₁, hnumber, hfound⟩ := gives_bind_iff.1 hfound
  obtain rfl := gives_number hnumber
  rw [if_neg (by decide), gives_isNumber_bind] at hfound
  split at hfound
  · rw [gives_options_bind] at hfound
    obtain ⟨rfl, rfl⟩ := gives_pure_iff.1 hfound
    obtain ⟨-, rfl⟩ := gives_pure_iff.1 hnext
    exact ⟨σ.rest.takeWhile isDigit, List.takeWhile_append_dropWhile.symm,
      fun k hk => List.mem_takeWhile_imp hk⟩
  · split at hfound
    · exact (not_gives_throw_bind hfound).elim
    · obtain ⟨rfl, rfl⟩ := gives_pure_iff.1 hfound
      dsimp only at hnext
      rw [gives_setRest_bind] at hnext
      obtain ⟨code, τ, hcode, hlast⟩ := gives_bind_iff.1 hnext
      obtain ⟨-, rfl⟩ := gives_pure_iff.1 hlast
      rw [escapedCode, gives_peek?_bind] at hcode
      dsimp only [Reader.before_rest, List.getElem?_cons_zero] at hcode
      split at hcode
      · rw [hrest]
        exact gives_octal hcode
      · rename_i hoctal
        rw [gives_skip_bind] at hcode
        obtain rfl | rfl := eq_of_not_octal hc hoctal
        · exact (not_gives_throw (show (throw (.unrecognizedEscape '8') : Read Nat).Gives _ _ _
            from hcode)).elim
        · exact (not_gives_throw (show (throw (.unrecognizedEscape '9') : Read Nat).Gives _ _ _
            from hcode)).elim

end

end PackageCycles.Pattern

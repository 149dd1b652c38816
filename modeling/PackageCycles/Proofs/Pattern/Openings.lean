import PackageCycles.Proofs.Pattern.Escapes

/-!
# Prefixes of groups in front of a closing parenthesis

Behind an opening parenthesis stands a prefix: a name or number, letters that change the options, or
none. It is read in the same way with something behind the pattern. Only where the pattern ends in a
name the two readings may differ, and then the reading of the pattern itself fails further on
(`SameOrEnd`).

A reading also follows itself, with nothing behind the text. So the lemmas of this kind tell of a
single reading, too, that it goes on in the text (`Read.Follows.suffix`) and what it leaves as it is
(`Read.Follows.before`).
-/

namespace PackageCycles.Pattern

open Read

/-- The second reading goes on as the first does, or the first one is at the end of its text. -/
def SameOrEnd {α : Type} (S : Reader → Reader → Prop) (t : List Char) (first : α × Reader)
    (second : Except Fault α × Reader) : Prop :=
  first.2.rest = [] ∨ Same S t first second

namespace Read.Fails

theorem unrecognized {α : Type} {cs : List Char} (start : List Char) :
    Fails cs (unrecognized start : Read α) :=
  Fails.rest (Fails.throw _ _)

theorem capturing_nil (start : List Char) (close : Char) (number release : Option Nat) :
    Fails [] (capturing start close number release) := by
  unfold capturing
  dsimp only
  split
  · exact Fails.next_nil (unrecognized start)
  · exact unrecognized start

theorem namedGroupEnd_nil (start : List Char) (close : Char) (mayRelease : Bool)
    (number : Option Nat) : Fails [] (namedGroupEnd start close mayRelease number) := by
  unfold namedGroupEnd
  refine Fails.peek_nil ?_
  simp only [reduceCtorEq, decide_false, Bool.and_false, Bool.false_eq_true, if_false]
  exact capturing_nil start close number none

end Read.Fails

namespace Read.Follows

section
variable {α β γ : Type} {S : Reader → Reader → Prop} {t cs : List Char}
  {Q : β × Reader → Except Fault γ × Reader → Prop}

/-- The first reading cannot go on at the end of its text. -/
theorem bind_or_end {act act' : Read α} {f : α → Read β} {f' : α → Read γ}
    (h : Follows S t (SameOrEnd S t) cs act act')
    (hf : ∀ a cs', cs' <:+ cs → Follows S t Q cs' (f a) (f' a)) (hend : ∀ a, Fails [] (f a)) :
    Follows S t Q cs (act >>= f) (act' >>= f') := by
  intro σ τ b σ'' hS hσ hτ hgives
  obtain ⟨a, σ', hact, hnext⟩ := gives_bind_iff.1 hgives
  obtain ⟨hsuffix, hnil | hsame⟩ := h σ τ a σ' hS hσ hτ hact
  · exact (hend a σ' hnil b σ'' hnext).elim
  · obtain ⟨hsuffix', hlast⟩ :=
      hf a σ'.rest hsuffix σ' (act'.run τ).2 b σ'' hsame.related rfl hsame.rest hnext
    have hbind : (act' >>= f').run τ = (f' a).run (act'.run τ).2 := by
      rw [run_bind, show act'.run τ = (.ok a, (act'.run τ).2) from Prod.ext hsame.result rfl]
    rw [hbind]
    exact ⟨hsuffix'.trans hsuffix, hlast⟩

/-- At the end of the text nothing is to be shown of the second reading. -/
theorem pure_end (a : α) (act' : Read α) :
    Follows S t (SameOrEnd S t) [] (Pure.pure a) act' := by
  rintro σ τ _ _ - hσ - ⟨⟩
  exact ⟨hσ ▸ List.suffix_rfl, .inl hσ⟩

variable (hS : Textless S) (ht : Closes t) (hgroups : SharesGroups S)
include hS ht hgroups

omit hS ht hgroups in
/-- Behind the group that a balancing group releases stands its closing bracket, or the text ends.
-/
theorem releasedNumberEnd (close : Char) (n : Nat) (cs : List Char) :
    Follows S t (SameOrEnd S t) cs
      (peek? 0 >>= fun
        | some d => if d = close then Pure.pure n else MonadExcept.throw Fault.groupName
        | none => Pure.pure n)
      (peek? 0 >>= fun
        | some d => if d = close then Pure.pure n else MonadExcept.throw Fault.groupName
        | none => Pure.pure n) := by
  cases cs with
  | nil => exact peek_nil (pure_end n _)
  | cons d more =>
    refine peek ?_
    dsimp only
    split
    · exact (pure n).imp fun _ _ h => .inr h
    · exact throw _ _

/-- The number or name of a group that is released. -/
theorem releasedNumber (close : Char) (cs : List Char) :
    Follows S t (SameOrEnd S t) cs (releasedNumber close) (releasedNumber close) := by
  unfold Pattern.releasedNumber
  cases cs with
  | nil => exact of_fails (Fails.peek_nil (Fails.throw _ _)) _
  | cons c more =>
    refine peek ?_
    dsimp only
    split
    · refine bind (number hS ht _) fun n cs' _ => isNumber fun σ τ hστ => ?_
      rw [(hgroups σ τ hστ).2]
      split
      · exact releasedNumberEnd close n cs'
      · exact throw_bind _ _ _
    · split
      · refine bind (name hS ht _) fun key cs' _ => numberOf? fun σ τ hστ => ?_
        rw [(hgroups σ τ hστ).2]
        split
        · exact releasedNumberEnd close _ cs'
        · exact throw_bind _ _ _
      · exact throw_bind _ _ _

omit hS ht hgroups in
/-- The sign behind the name of a group is only looked at. -/
theorem checkNameEnd (close : Char) (cs : List Char) :
    Follows S t (SameOrEnd S t) cs (checkNameEnd close) (checkNameEnd close) := by
  unfold Pattern.checkNameEnd
  cases cs with
  | nil => exact peek_nil (pure_end () _)
  | cons d more =>
    refine peek ?_
    dsimp only
    split
    · exact throw _ _
    · exact (pure ()).imp fun _ _ h => .inr h

omit hS ht hgroups in
theorem unrecognized (start : List Char) (act' : Read γ) :
    Follows S t Q cs (unrecognized start) act' :=
  of_fails (Fails.unrecognized start) _

omit ht hgroups in
/-- A group that captures is opened in the same way; the text that a fault would show may differ. -/
theorem capturing (start start' : List Char) (close : Char) (number release : Option Nat)
    (cs : List Char) :
    Follows S t (Same S t) cs (capturing start close number release)
      (capturing start' close number release) := by
  unfold Pattern.capturing
  dsimp only
  split
  · cases cs with
    | nil => exact of_fails (Fails.next_nil (Fails.unrecognized start)) _
    | cons c more =>
      refine next hS ?_
      split
      · exact pure _
      · exact unrecognized start _
  · exact unrecognized start _

/-- What stands behind the name of a group, a group to be released or the closing bracket. -/
theorem namedGroupEnd (start start' : List Char) (close : Char) (mayRelease : Bool)
    (number : Option Nat) (cs : List Char) :
    Follows S t (Same S t) cs (namedGroupEnd start close mayRelease number)
      (namedGroupEnd start' close mayRelease number) := by
  cases cs with
  | nil => exact of_fails (Fails.namedGroupEnd_nil start close mayRelease number) _
  | cons c more =>
    rw [Pattern.namedGroupEnd, Pattern.namedGroupEnd]
    refine peek ?_
    split
    · exact skip hS (bind_or_end (releasedNumber hS ht hgroups close more)
        (fun n cs' _ => capturing hS start start' close number (some n) cs')
        fun n => Fails.capturing_nil start close number (some n))
    · exact capturing hS start start' close number none _

/-- A name or number of a group between brackets is read in the same way. -/
theorem namedGroup (start start' : List Char) (close : Char) (cs : List Char) :
    Follows S t (Same S t) cs (namedGroup start close) (namedGroup start' close) := by
  unfold Pattern.namedGroup
  have hend := namedGroupEnd hS ht hgroups start start' close
  cases cs with
  | nil => exact of_fails (Fails.peek_nil (Fails.unrecognized start)) _
  | cons c more =>
    refine peek ?_
    dsimp only
    split
    · refine bind (number hS ht _) fun n cs' _ => isNumber fun σ τ hστ => ?_
      rw [(hgroups σ τ hστ).2]
      refine bind_or_end (checkNameEnd close cs') (fun _ cs'' _ => ?_) fun _ => ?_
      · split
        · exact throw_bind _ _ _
        · exact hend _ _ cs''
      · split
        · exact Fails.throw_bind _ _
        · exact Fails.namedGroupEnd_nil start close _ _
    · split
      · refine bind (name hS ht _) fun key cs' _ => numberOf? fun σ τ hστ => ?_
        rw [(hgroups σ τ hστ).2]
        exact bind_or_end (checkNameEnd close cs') (fun _ cs'' _ => hend _ _ cs'')
          fun _ => Fails.namedGroupEnd_nil start close _ _
      · split
        · exact hend true none _
        · exact throw _ _

end
end Read.Follows

/-! ## Letters that change the options -/

/-- The readers differ in their texts only. -/
def Twins (σ τ : Reader) : Prop := τ = σ.before τ.rest

theorem textless_twins : Textless Twins := by
  rintro σ τ cs ds h
  rw [Twins] at *
  rw [h]
  rfl

theorem sharesGroups_twins : SharesGroups Twins := by
  rintro σ τ h
  rw [Twins] at h
  rw [h]
  exact ⟨rfl, rfl⟩

/-- What is read is the front of the text. -/
theorem Read.Follows.suffix {α : Type} {act act' : Read α} {σ σ' : Reader} {a : α}
    (h : Follows Twins [] (Same Twins []) σ.rest act act') (hgives : act.Gives σ a σ') :
    σ'.rest <:+ σ.rest :=
  (h σ σ a σ' rfl rfl (List.append_nil _).symm hgives).1

/-- The readers differ in their texts only, from each other and from a third one. -/
def Triplets (σ σ₁ τ₁ : Reader) : Prop := Twins σ₁ τ₁ ∧ σ₁ = σ.before σ₁.rest

theorem textless_triplets (σ : Reader) : Textless (Triplets σ) := by
  rintro σ₁ τ₁ cs ds ⟨htwins, hsame⟩
  refine ⟨textless_twins σ₁ τ₁ cs ds htwins, ?_⟩
  rw [hsame]
  rfl

theorem sharesGroups_triplets (σ : Reader) : SharesGroups (Triplets σ) :=
  fun σ₁ τ₁ h => sharesGroups_twins σ₁ τ₁ h.1

/-- A reading that changes nothing but the text. -/
theorem Read.Follows.before {α : Type} {act act' : Read α} {σ σ' : Reader} {a : α}
    (h : Follows (Triplets σ) [] (Same (Triplets σ) []) σ.rest act act')
    (hgives : act.Gives σ a σ') : σ' = σ.before σ'.rest :=
  (h σ σ a σ' ⟨rfl, rfl⟩ rfl (List.append_nil _).symm hgives).2.related.2

/-- Letters for options end where the pattern does. -/
theorem readOptions_append {t : List Char} (ht : Closes t) (off : Bool) (o : Options)
    (cs : List Char) :
    readOptions off o (cs ++ t) = ((readOptions off o cs).1, (readOptions off o cs).2 ++ t) := by
  induction cs generalizing off o with
  | nil => obtain rfl | ⟨ds, rfl⟩ := ht.eq_nil_or_cons <;> rfl
  | cons c cs ih =>
    rw [List.cons_append]
    unfold readOptions
    split <;> first | exact ih _ _ | rfl

theorem readOptions_suffix (off : Bool) (o : Options) (cs : List Char) :
    (readOptions off o cs).2 <:+ cs := by
  induction cs generalizing off o with
  | nil => exact List.suffix_rfl
  | cons c cs ih =>
    unfold readOptions
    split <;> first | exact (ih _ _).trans (List.suffix_cons _ _) | exact List.suffix_rfl

theorem Read.run_optionLetters (σ : Reader) : optionLetters.run σ =
    (.ok (), { σ.before (readOptions false σ.options σ.rest).2 with
      options := (readOptions false σ.options σ.rest).1 }) := rfl

theorem Read.gives_optionLetters_bind {α : Type} {f : Unit → Read α} {σ σ' : Reader} {a : α} :
    (optionLetters >>= f).Gives σ a σ' ↔
      (f ()).Gives { σ.before (readOptions false σ.options σ.rest).2 with
        options := (readOptions false σ.options σ.rest).1 } a σ' := .rfl

/-- A group without a prefix takes the next number, unless such groups do not capture or it is the
expression of a conditional. -/
theorem Read.run_plainGroup (σ : Reader) : plainGroup.run σ =
    if σ.options.explicitCapture || σ.skipCapture then
      (.ok .plain, { σ with skipCapture := false })
    else (.ok (.capture (some σ.nextNumber) none), { σ with nextNumber := σ.nextNumber + 1 }) := by
  change (if σ.options.explicitCapture || σ.skipCapture then _ else _ : Read GroupKind).run σ = _
  split <;> rfl

namespace Read.Follows

variable {t : List Char} (ht : Closes t)
include ht

/-- Letters for options change them in the same way. -/
theorem optionLetters (cs : List Char) :
    Follows Twins t (Same Twins t) cs optionLetters optionLetters := by
  intro σ τ a σ' hστ hσ hτ hgives
  rw [Gives, run_optionLetters] at hgives
  cases hgives
  rw [Twins] at hστ
  rw [run_optionLetters, hτ, hστ, Reader.before_options, hσ, readOptions_append ht]
  exact ⟨readOptions_suffix _ _ _, rfl, rfl, rfl⟩

omit ht in
/-- Behind the letters a colon opens a group and a parenthesis does not. -/
theorem optionsGroupEnd (start start' cs : List Char) : Follows Twins t (Same Twins t) cs
    (next? >>= fun
      | some ')' => Pure.pure none
      | some ':' => Pure.pure (some GroupKind.plain)
      | _ => Pattern.unrecognized start)
    (next? >>= fun
      | some ')' => Pure.pure none
      | some ':' => Pure.pure (some GroupKind.plain)
      | _ => Pattern.unrecognized start') := by
  cases cs with
  | nil => exact of_fails (Fails.next_nil (Fails.unrecognized start)) _
  | cons c more =>
    refine next textless_twins ?_
    split
    · exact pure _
    · exact pure _
    · exact unrecognized start _

/-- Letters for options, with or without a group behind them, are read in the same way. -/
theorem optionsGroup (start start' : List Char) (inside : GroupKind) (cs : List Char) :
    Follows Twins t (Same Twins t) cs (optionsGroup start inside) (optionsGroup start' inside) := by
  unfold Pattern.optionsGroup
  split
  · exact bind (optionLetters ht cs) fun _ cs' _ => optionsGroupEnd start start' cs'
  · exact optionsGroupEnd start start' cs

omit ht in
theorem plainGroup (cs : List Char) :
    Follows Twins t (Same Twins t) cs plainGroup plainGroup := by
  rintro σ τ kind σ' hστ rfl hτ hgives
  obtain rfl : τ = σ.before (σ.rest ++ t) := Eq.trans hστ (by rw [hτ])
  rw [Gives, run_plainGroup] at hgives
  by_cases hheld : σ.options.explicitCapture || σ.skipCapture
  · rw [if_pos hheld] at hgives
    cases hgives
    rw [run_plainGroup, if_pos (by exact hheld)]
    exact ⟨List.suffix_rfl, rfl, rfl, rfl⟩
  · rw [if_neg hheld] at hgives
    cases hgives
    rw [run_plainGroup, if_neg (by exact hheld)]
    exact ⟨List.suffix_rfl, rfl, rfl, rfl⟩

end Read.Follows

end PackageCycles.Pattern

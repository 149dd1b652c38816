import PackageCycles.Pattern.Scanner

/-!
# Reading on in front of a closing parenthesis

A pattern is read to its end, and its wrapped form goes on there with a closing parenthesis. Two
readings are compared: one of a text, and one of the same text with something behind it that starts
with a closing parenthesis. `Read.Follows` says that whenever the first reading gives a value the
second one reads the same characters. It is closed under the ways in which readings are put
together, so the lemma on a reading goes along its definition. This module has the readings of parts
that do not nest.
-/

namespace PackageCycles.Pattern

/-- The text is empty or starts with a closing parenthesis. -/
def Closes (t : List Char) : Prop := ∀ c ∈ t.head?, c = ')'

theorem closes_nil : Closes [] := fun _ h => nomatch h

/-- There is nothing, or a parenthesis with something behind it. -/
theorem Closes.eq_nil_or_cons {t : List Char} (ht : Closes t) : t = [] ∨ ∃ ds, t = ')' :: ds := by
  cases t with
  | nil => exact .inl rfl
  | cons d ds =>
    obtain rfl : d = ')' := ht d rfl
    exact .inr ⟨ds, rfl⟩

/-- The reader with another text left. -/
def Reader.before (σ : Reader) (cs : List Char) : Reader := { σ with rest := cs }

@[simp] theorem Reader.before_rest (σ : Reader) (cs : List Char) : (σ.before cs).rest = cs := rfl

@[simp] theorem Reader.before_options (σ : Reader) (cs : List Char) :
    (σ.before cs).options = σ.options := rfl

@[simp] theorem Reader.before_groups (σ : Reader) (cs : List Char) :
    (σ.before cs).groups = σ.groups := rfl

@[simp] theorem Reader.before_before (σ : Reader) (cs ds : List Char) :
    (σ.before cs).before ds = σ.before ds := rfl

/-- A relation between readers that does not depend on their texts. -/
def Textless (S : Reader → Reader → Prop) : Prop :=
  ∀ σ τ cs ds, S σ τ → S (σ.before cs) (τ.before ds)

/-! ## Texts behind which a parenthesis closes -/

section
variable {t : List Char} {p : Char → Bool}

/-- What does not take a parenthesis stops where the text ends. -/
theorem takeWhile_append_of_closes (ht : Closes t) (hp : p ')' = false) (cs : List Char) :
    (cs ++ t).takeWhile p = cs.takeWhile p := by
  induction cs with
  | nil =>
    obtain rfl | ⟨ds, rfl⟩ := ht.eq_nil_or_cons
    · rfl
    · simp [hp]
  | cons c cs ih => simp only [List.cons_append, List.takeWhile_cons, ih]

theorem dropWhile_append_of_closes (ht : Closes t) (hp : p ')' = false) (cs : List Char) :
    (cs ++ t).dropWhile p = cs.dropWhile p ++ t := by
  induction cs with
  | nil =>
    obtain rfl | ⟨ds, rfl⟩ := ht.eq_nil_or_cons
    · rfl
    · simp [hp]
  | cons c cs ih =>
    simp only [List.cons_append, List.dropWhile_cons, ih]
    split <;> rfl

theorem Closes.head?_ne (ht : Closes t) {c : Char} (hc : c ≠ ')') : t.head? ≠ some c :=
  fun hhead => hc (ht c hhead)

/-- The start of such a text is one. -/
theorem Closes.take (ht : Closes t) (n : Nat) : Closes (t.take n) := by
  intro c hc
  cases n with
  | zero => cases hc
  | succ n =>
    cases t with
    | nil => cases hc
    | cons d ds => exact ht c hc

end

theorem isWordChar_paren : Unicode.isWordChar ')' = false := by decide

namespace Read

section
variable {α β γ : Type} {σ τ σ' : Reader} {a : α}

/-! ## Runs -/

theorem run_bind (act : Read α) (f : α → Read β) (σ : Reader) :
    (act >>= f).run σ = match act.run σ with
      | (.ok a, σ') => (f a).run σ'
      | (.error fault, σ') => (.error fault, σ') := by
  change (fun p => ExceptT.bindCont f p.1 p.2) (act.run σ) = _
  rcases act.run σ with ⟨a | a, s⟩ <;> rfl

theorem run_pure (a : α) (σ : Reader) : (pure a : Read α).run σ = (.ok a, σ) := rfl

theorem run_throw (fault : Fault) (σ : Reader) :
    (throw fault : Read α).run σ = (.error fault, σ) := rfl

theorem run_rest (σ : Reader) : Read.rest.run σ = (.ok σ.rest, σ) := rfl

theorem run_setRest (cs : List Char) (σ : Reader) :
    (setRest cs).run σ = (.ok (), σ.before cs) := rfl

theorem run_peek? (n : Nat) (σ : Reader) : (peek? n).run σ = (.ok σ.rest[n]?, σ) := rfl

theorem run_skip (n : Nat) (σ : Reader) :
    (skip n).run σ = (.ok (), σ.before (σ.rest.drop n)) := rfl

theorem run_next? (σ : Reader) :
    next?.run σ = (.ok σ.rest.head?, σ.before σ.rest.tail) := by
  rcases σ with ⟨_ | _, _⟩ <;> rfl

theorem run_takeWhile (p : Char → Bool) (σ : Reader) :
    (Read.takeWhile p).run σ =
      (.ok (σ.rest.takeWhile p), σ.before (σ.rest.dropWhile p)) := rfl

theorem run_options (σ : Reader) : options.run σ = (.ok σ.options, σ) := rfl

/-- Where a fault is passed over the reader stays where it was found. -/
theorem run_attempt (act : Read α) (σ : Reader) :
    (attempt act).run σ = (.ok (), (act.run σ).2) := by
  unfold attempt
  simp only [ExceptT.run, tryCatch, tryCatchThe, MonadExceptOf.tryCatch, ExceptT.tryCatch,
    ExceptT.mk, EarlyReturn.runK, bind, ExceptT.bind, StateT.bind, pure, ExceptT.pure]
  rcases hr : act σ with ⟨a | a, s⟩ <;> rfl

end

/-! ## Two readings -/

/-- The operation gives a value and leaves the reader in another state. -/
def Gives {α : Type} (act : Read α) (σ : Reader) (a : α) (σ' : Reader) : Prop :=
  act.run σ = (.ok a, σ')

section
variable {α β : Type} {σ σ' : Reader} {a b : α} {c : β}

theorem gives_pure_iff : (pure a : Read α).Gives σ b σ' ↔ b = a ∧ σ' = σ := by
  rw [Gives, run_pure, Prod.mk.injEq, Except.ok.injEq]
  exact and_congr eq_comm eq_comm

theorem not_gives_throw {fault : Fault} : ¬ (throw fault : Read α).Gives σ b σ' := by
  rintro ⟨⟩

theorem not_gives_throw_bind {fault : Fault} {f : α → Read β} :
    ¬ (throw fault >>= f).Gives σ c σ' := by
  rintro ⟨⟩

/-- Two operations give what the second one gives behind the first. -/
theorem gives_bind_iff {act : Read α} {f : α → Read β} :
    (act >>= f).Gives σ c σ' ↔ ∃ a τ, act.Gives σ a τ ∧ (f a).Gives τ c σ' := by
  rw [Gives, run_bind]
  rcases hact : act.run σ with ⟨fault | a, τ⟩
  · constructor
    · rintro ⟨⟩
    · rintro ⟨a, τ', ha, -⟩
      rw [Gives, hact] at ha
      cases ha
  · constructor
    · exact fun h => ⟨a, τ, hact, h⟩
    · rintro ⟨a', τ', ha, h⟩
      rw [Gives, hact] at ha
      cases ha
      exact h

theorem gives_rest_bind {f : List Char → Read β} :
    (Read.rest >>= f).Gives σ c σ' ↔ (f σ.rest).Gives σ c σ' := .rfl

theorem gives_setRest_bind {cs : List Char} {f : Unit → Read β} :
    (setRest cs >>= f).Gives σ c σ' ↔ (f ()).Gives (σ.before cs) c σ' := .rfl

theorem gives_peek?_bind {n : Nat} {f : Option Char → Read β} :
    (peek? n >>= f).Gives σ c σ' ↔ (f σ.rest[n]?).Gives σ c σ' := .rfl

theorem gives_skip_bind {n : Nat} {f : Unit → Read β} :
    (skip n >>= f).Gives σ c σ' ↔ (f ()).Gives (σ.before (σ.rest.drop n)) c σ' := .rfl

theorem gives_next?_bind {f : Option Char → Read β} :
    (next? >>= f).Gives σ c σ' ↔ (f σ.rest.head?).Gives (σ.before σ.rest.tail) c σ' := by
  rw [Gives, run_bind, run_next?]
  rfl

theorem gives_takeWhile_bind {p : Char → Bool} {f : List Char → Read β} :
    (Read.takeWhile p >>= f).Gives σ c σ' ↔
      (f (σ.rest.takeWhile p)).Gives (σ.before (σ.rest.dropWhile p)) c σ' := .rfl

theorem gives_options_bind {f : Options → Read β} :
    (options >>= f).Gives σ c σ' ↔ (f σ.options).Gives σ c σ' := .rfl

theorem gives_setOptions_bind {o : Options} {f : Unit → Read β} :
    (setOptions o >>= f).Gives σ c σ' ↔ (f ()).Gives { σ with options := o } c σ' := .rfl

theorem gives_isNumber_bind {n : Nat} {f : Bool → Read β} :
    (isNumber n >>= f).Gives σ c σ' ↔ (f (σ.groups.numbers.contains n)).Gives σ c σ' := .rfl

theorem gives_numberOf?_bind {key : List Char} {f : Option Nat → Read β} :
    (numberOf? key >>= f).Gives σ c σ' ↔ (f (σ.groups.names.lookup key)).Gives σ c σ' := .rfl

/-- An operation that may fail is followed from wherever it has got to. -/
theorem gives_attempt_bind {act : Read α} {f : Unit → Read β} :
    (attempt act >>= f).Gives σ c σ' ↔ (f ()).Gives (act.run σ).2 c σ' := by
  rw [Gives, run_bind, run_attempt]
  rfl

end

/-- The reader goes behind the digits, even if the number is too large. -/
theorem run_number_snd (σ : Reader) : (number.run σ).2 = σ.before (σ.rest.dropWhile isDigit) := by
  rw [number, run_bind, run_takeWhile]
  dsimp only
  split <;> rfl

theorem gives_number {σ τ : Reader} {n : Nat} (h : number.Gives σ n τ) :
    τ = σ.before (σ.rest.dropWhile isDigit) := by
  rw [← run_number_snd, h]

/-- From the text on the operation gives nothing. -/
def Fails {α : Type} (cs : List Char) (act : Read α) : Prop :=
  ∀ σ, σ.rest = cs → ∀ a σ', ¬ act.Gives σ a σ'

namespace Fails

section
variable {α β : Type} {cs : List Char}

theorem throw (fault : Fault) (cs : List Char) : Fails cs (throw fault : Read α) := by
  rintro σ - a σ' ⟨⟩

theorem throw_bind (fault : Fault) (f : α → Read β) :
    Fails cs (MonadExcept.throw fault >>= f) := by
  rintro σ - a σ' ⟨⟩

theorem rest {f : List Char → Read β} (h : Fails cs (f cs)) : Fails cs (Read.rest >>= f) := by
  intro σ hσ b σ' hgives
  rw [Gives, run_bind, run_rest, hσ] at hgives
  exact h σ hσ b σ' hgives

theorem peek_nil {f : Option Char → Read β} (h : Fails [] (f none)) :
    Fails [] (peek? 0 >>= f) := by
  intro σ hσ b σ' hgives
  rw [Gives, run_bind, run_peek?, hσ] at hgives
  exact h σ hσ b σ' hgives

theorem next_nil {f : Option Char → Read β} (h : Fails [] (f none)) : Fails [] (next? >>= f) := by
  intro σ hσ b σ' hgives
  rw [Gives, run_bind, run_next?, hσ] at hgives
  exact h _ rfl b σ' hgives

theorem next {c : Char} {f : Option Char → Read β} (h : Fails cs (f (some c))) :
    Fails (c :: cs) (next? >>= f) := by
  intro σ hσ b σ' hgives
  rw [Gives, run_bind, run_next?, hσ] at hgives
  exact h _ rfl b σ' hgives

end

end Fails

/-- The second reading has the result of the first and reads the same characters, and the readers
stay related. -/
structure Same {α : Type} (S : Reader → Reader → Prop) (t : List Char) (first : α × Reader)
    (second : Except Fault α × Reader) : Prop where
  /-- The results. -/
  result : second.1 = .ok first.1
  /-- The texts that are left. -/
  rest : second.2.rest = first.2.rest ++ t
  /-- The readers. -/
  related : S first.2 second.2

/-- The second reading reads the same characters, and has the same result unless it only counts
groups. -/
structure Agrees {α : Type} (S : Reader → Reader → Prop) (t : List Char) (counting : Bool)
    (first : α × Reader) (second : Except Fault α × Reader) : Prop where
  /-- The results. -/
  result : counting = false → second.1 = .ok first.1
  /-- The texts that are left. -/
  rest : second.2.rest = first.2.rest ++ t
  /-- The readers. -/
  related : S first.2 second.2

/-- If the first reading gives a value from the text `cs` on, then with `t` behind that text the
outcome of the second one is related to it by `Q`. -/
def Follows {α β : Type} (S : Reader → Reader → Prop) (t : List Char)
    (Q : α × Reader → Except Fault β × Reader → Prop) (cs : List Char) (act : Read α)
    (act' : Read β) : Prop :=
  ∀ σ τ a σ', S σ τ → σ.rest = cs → τ.rest = cs ++ t → act.Gives σ a σ' →
    σ'.rest <:+ cs ∧ Q (a, σ') (act'.run τ)

namespace Follows

section
variable {α β γ : Type} {S : Reader → Reader → Prop} {t cs more : List Char}
  {Q : β × Reader → Except Fault γ × Reader → Prop}

theorem pure (a : α) : Follows S t (Same S t) cs (pure a) (pure a) := by
  rintro σ τ _ _ hS rfl hτ ⟨⟩
  exact ⟨List.suffix_rfl, rfl, hτ, hS⟩

theorem pure_agrees {counting : Bool} {a a' : α} (h : counting = false → a' = a) :
    Follows S t (Agrees S t counting) cs (Pure.pure a) (Pure.pure a') := by
  rintro σ τ _ _ hS rfl hτ ⟨⟩
  exact ⟨List.suffix_rfl, fun hcounting => congrArg Except.ok (h hcounting), hτ, hS⟩

/-- Where the first reading finds a fault nothing is to be shown. -/
theorem throw (fault : Fault) (act' : Read γ) : Follows S t Q cs (throw fault) act' := by
  rintro σ τ _ _ - - - ⟨⟩

/-- What the first operation gives may be used for the second one. -/
theorem bind_gives {act act' : Read α} {f : α → Read β} {f' : α → Read γ}
    (h : Follows S t (Same S t) cs act act')
    (hf : ∀ σ a σ', σ.rest = cs → σ'.rest <:+ cs → act.Gives σ a σ' →
      Follows S t Q σ'.rest (f a) (f' a)) :
    Follows S t Q cs (act >>= f) (act' >>= f') := by
  intro σ τ b σ'' hS hσ hτ hgives
  obtain ⟨a, σ', hact, hnext⟩ := gives_bind_iff.1 hgives
  obtain ⟨hsuffix, hsame⟩ := h σ τ a σ' hS hσ hτ hact
  obtain ⟨hsuffix', hlast⟩ :=
    hf σ a σ' hσ hsuffix hact σ' (act'.run τ).2 b σ'' hsame.related rfl hsame.rest hnext
  have hbind : (act' >>= f').run τ = (f' a).run (act'.run τ).2 := by
    rw [run_bind, show act'.run τ = (.ok a, (act'.run τ).2) from Prod.ext hsame.result rfl]
  rw [hbind]
  exact ⟨hsuffix'.trans hsuffix, hlast⟩

/-- One reading after another follows. -/
theorem bind {act act' : Read α} {f : α → Read β} {f' : α → Read γ}
    (h : Follows S t (Same S t) cs act act')
    (hf : ∀ a cs', cs' <:+ cs → Follows S t Q cs' (f a) (f' a)) :
    Follows S t Q cs (act >>= f) (act' >>= f') :=
  h.bind_gives fun _ a σ' _ hsuffix _ => hf a σ'.rest hsuffix

/-- A reading that follows closely follows loosely. -/
theorem imp {Q' : β × Reader → Except Fault γ × Reader → Prop} {act : Read β} {act' : Read γ}
    (h : Follows S t Q cs act act') (hQ : ∀ x y, Q x y → Q' x y) : Follows S t Q' cs act act' := by
  intro σ τ b σ' hστ hσ hτ hgives
  obtain ⟨hsuffix, hresult⟩ := h σ τ b σ' hστ hσ hτ hgives
  exact ⟨hsuffix, hQ _ _ hresult⟩

/-- The same reading agrees with itself. -/
theorem agrees {counting : Bool} {act act' : Read α} (h : Follows S t (Same S t) cs act act') :
    Follows S t (Agrees S t counting) cs act act' :=
  h.imp fun _ _ hsame => ⟨fun _ => hsame.result, hsame.rest, hsame.related⟩

theorem same {act act' : Read α} (h : Follows S t (Agrees S t false) cs act act') :
    Follows S t (Same S t) cs act act' :=
  h.imp fun _ _ hagrees => ⟨hagrees.result rfl, hagrees.rest, hagrees.related⟩

/-- The second reading passes over its faults. -/
theorem attempt_bind (counting : Bool) {act act' : Read α} {f : α → Read β} {f' : Unit → Read γ}
    (h : Follows S t (Agrees S t counting) cs act act')
    (hf : ∀ a cs', cs' <:+ cs → Follows S t Q cs' (f a) (f' ())) :
    Follows S t Q cs (act >>= f) (attempt act' >>= f') := by
  intro σ τ b σ'' hS hσ hτ hgives
  obtain ⟨a, σ', hact, hnext⟩ := gives_bind_iff.1 hgives
  obtain ⟨hsuffix, hagrees⟩ := h σ τ a σ' hS hσ hτ hact
  obtain ⟨hsuffix', hlast⟩ :=
    hf a σ'.rest hsuffix σ' (act'.run τ).2 b σ'' hagrees.related rfl hagrees.rest hnext
  rw [run_bind, run_attempt]
  exact ⟨hsuffix'.trans hsuffix, hlast⟩

/-- The first reading goes on in a way that depends on what is left. -/
theorem rest {f : List Char → Read β} {f' : List Char → Read γ}
    (h : Follows S t Q cs (f cs) (f' (cs ++ t))) :
    Follows S t Q cs (Read.rest >>= f) (Read.rest >>= f') := by
  intro σ τ b σ' hS hσ hτ hgives
  rw [run_bind, run_rest]
  rw [Gives, run_bind, run_rest] at hgives
  simp only [hσ, hτ] at hgives ⊢
  exact h σ τ b σ' hS hσ hτ hgives

/-- The readings may go on in ways that depend on the options. -/
theorem options {f : Options → Read β} {f' : Options → Read γ}
    (h : ∀ σ τ, S σ τ → Follows S t Q cs (f σ.options) (f' τ.options)) :
    Follows S t Q cs (Read.options >>= f) (Read.options >>= f') :=
  fun σ τ b σ' hS hσ hτ hgives => h σ τ hS σ τ b σ' hS hσ hτ hgives

/-- They may depend on whether there is a group of the number. -/
theorem isNumber {n : Nat} {f : Bool → Read β} {f' : Bool → Read γ}
    (h : ∀ σ τ, S σ τ → Follows S t Q cs (f (σ.groups.numbers.contains n))
      (f' (τ.groups.numbers.contains n))) :
    Follows S t Q cs (Read.isNumber n >>= f) (Read.isNumber n >>= f') :=
  fun σ τ b σ' hS hσ hτ hgives => h σ τ hS σ τ b σ' hS hσ hτ hgives

/-- They may depend on the group of the name. -/
theorem numberOf? {key : List Char} {f : Option Nat → Read β} {f' : Option Nat → Read γ}
    (h : ∀ σ τ, S σ τ → Follows S t Q cs (f (σ.groups.names.lookup key))
      (f' (τ.groups.names.lookup key))) :
    Follows S t Q cs (Read.numberOf? key >>= f) (Read.numberOf? key >>= f') :=
  fun σ τ b σ' hS hσ hτ hgives => h σ τ hS σ τ b σ' hS hσ hτ hgives

/-- Only the first reading looks for a name. -/
theorem numberOf?_left {key : List Char} {f : Option Nat → Read β} {act' : Read γ}
    (h : ∀ found, Follows S t Q cs (f found) act') :
    Follows S t Q cs (Read.numberOf? key >>= f) act' :=
  fun σ τ b σ' hS hσ hτ hgives => h (σ.groups.names.lookup key) σ τ b σ' hS hσ hτ hgives

/-- A character is looked at, and there is one. -/
theorem peek {c : Char} {f : Option Char → Read β} {f' : Option Char → Read γ}
    (h : Follows S t Q (c :: more) (f (some c)) (f' (some c))) :
    Follows S t Q (c :: more) (peek? 0 >>= f) (peek? 0 >>= f') := by
  intro σ τ b σ' hS hσ hτ hgives
  rw [run_bind, run_peek?]
  rw [Gives, run_bind, run_peek?] at hgives
  simp only [hσ, hτ, List.cons_append, List.getElem?_cons_zero] at hgives ⊢
  exact h σ τ b σ' hS hσ hτ hgives

/-- A character is looked at where the text ends. -/
theorem peek_nil {f : Option Char → Read β} {f' : Option Char → Read γ}
    (h : Follows S t Q [] (f none) (f' t.head?)) :
    Follows S t Q [] (peek? 0 >>= f) (peek? 0 >>= f') := by
  intro σ τ b σ' hS hσ hτ hgives
  rw [run_bind, run_peek?]
  rw [Gives, run_bind, run_peek?] at hgives
  simp only [hσ, hτ, List.nil_append, ← List.head?_eq_getElem?, List.head?_nil] at hgives ⊢
  exact h σ τ b σ' hS hσ hτ hgives

section
variable (hS : Textless S)
include hS

/-- A place is set in both texts. -/
theorem setRest {ds : List Char} {f : Unit → Read β} {f' : Unit → Read γ} (hds : ds <:+ cs)
    (h : Follows S t Q ds (f ()) (f' ())) :
    Follows S t Q cs (Read.setRest ds >>= f) (Read.setRest (ds ++ t) >>= f') := by
  intro σ τ b σ' hστ hσ hτ hgives
  rw [run_bind, run_setRest]
  obtain ⟨hsuffix, hlast⟩ :=
    h (σ.before ds) (τ.before (ds ++ t)) b σ' (hS σ τ ds (ds ++ t) hστ) rfl rfl hgives
  exact ⟨hsuffix.trans hds, hlast⟩

/-- A character is passed over. -/
theorem skip {c : Char} {f : Unit → Read β} {f' : Unit → Read γ}
    (h : Follows S t Q more (f ()) (f' ())) :
    Follows S t Q (c :: more) (Read.skip 1 >>= f) (Read.skip 1 >>= f') := by
  intro σ τ b σ' hστ hσ hτ hgives
  rw [run_bind, run_skip]
  rw [Gives, run_bind, run_skip] at hgives
  simp only [hσ, hτ, List.cons_append, List.drop_one, List.tail_cons] at hgives ⊢
  obtain ⟨hsuffix, hlast⟩ :=
    h (σ.before more) (τ.before (more ++ t)) b σ' (hS σ τ more _ hστ) rfl rfl hgives
  exact ⟨hsuffix.trans (List.suffix_cons c more), hlast⟩

/-- A character is read, and there is one. -/
theorem next {c : Char} {f : Option Char → Read β} {f' : Option Char → Read γ}
    (h : Follows S t Q more (f (some c)) (f' (some c))) :
    Follows S t Q (c :: more) (next? >>= f) (next? >>= f') := by
  intro σ τ b σ' hστ hσ hτ hgives
  rw [run_bind, run_next?]
  rw [Gives, run_bind, run_next?] at hgives
  simp only [hσ, hτ, List.cons_append, List.head?_cons, List.tail_cons] at hgives ⊢
  obtain ⟨hsuffix, hlast⟩ :=
    h (σ.before more) (τ.before (more ++ t)) b σ' (hS σ τ more _ hστ) rfl rfl hgives
  exact ⟨hsuffix.trans (List.suffix_cons c more), hlast⟩

end

end

/-- What is read between braces ends at the closing one. -/
theorem bracedValue_append (t : List Char) (cs : List Char) (value n : Nat) (some? : Bool)
    (ds : List Char) (h : bracedValue value some? cs = (.ok n, ds)) :
    ds <:+ cs ∧ bracedValue value some? (cs ++ t) = (.ok n, ds ++ t) := by
  induction cs generalizing value some? with
  | nil => cases h
  | cons c cs ih =>
    by_cases hbrace : c = '\x7d'
    · subst hbrace
      cases some? with
      | false => cases h
      | true =>
        cases h
        exact ⟨List.suffix_cons _ _, rfl⟩
    · rw [bracedValue.eq_3 _ _ _ _ hbrace] at h
      rw [List.cons_append, bracedValue.eq_3 _ _ _ _ hbrace]
      cases hdigit : hexValue? c with
      | none => simp only [hdigit] at h; cases h
      | some d =>
        simp only [hdigit] at h ⊢
        split at h
        · cases h
        · rename_i hfits
          rw [if_neg hfits]
          obtain ⟨hsuffix, happend⟩ := ih _ _ h
          exact ⟨hsuffix.trans (List.suffix_cons _ _), happend⟩

/-! ## Readings that find a fault -/

section
variable {α β γ : Type} {S : Reader → Reader → Prop} {t cs : List Char}
  {Q : β × Reader → Except Fault γ × Reader → Prop}

/-- Where the first reading gives nothing there is nothing to show. -/
theorem of_fails {act : Read β} (h : Fails cs act) (act' : Read γ) : Follows S t Q cs act act' :=
  fun σ _ a σ' _ hσ _ hgives => (h σ hσ a σ' hgives).elim

/-- Where the first reading finds a fault, whatever was to come, there is nothing to show. -/
theorem throw_bind (fault : Fault) (f : α → Read β) (act' : Read γ) :
    Follows S t Q cs (MonadExcept.throw fault >>= f) act' :=
  of_fails (Fails.throw_bind fault f) act'

theorem next_nil {f : Option Char → Read β} {fault : Fault}
    (hf : f none = MonadExcept.throw fault) (act' : Read γ) :
    Follows S t Q [] (next? >>= f) act' :=
  of_fails (Fails.next_nil (hf ▸ Fails.throw fault [])) act'

end

/-! ## Numbers, names and escape sequences -/

section
variable {S : Reader → Reader → Prop} {t : List Char} (hS : Textless S)
include hS

/-- Characters of the text are passed over. -/
theorem skip_of_le {n : Nat} {cs : List Char} (hn : n ≤ cs.length) :
    Follows S t (Same S t) cs (Read.skip n) (Read.skip n) := by
  intro σ τ a σ' hστ hσ hτ hgives
  rw [Gives, run_skip] at hgives
  cases hgives
  rw [run_skip, hσ, hτ, List.drop_append_of_le_length hn]
  exact ⟨List.drop_suffix n cs, rfl, rfl, hS σ τ _ _ hστ⟩

variable (ht : Closes t)
include ht

/-- Characters of a kind to which the parenthesis does not belong are read. -/
theorem takeWhile {p : Char → Bool} (hp : p ')' = false) (cs : List Char) :
    Follows S t (Same S t) cs (Read.takeWhile p) (Read.takeWhile p) := by
  intro σ τ a σ' hστ hσ hτ hgives
  rw [Gives, run_takeWhile] at hgives
  cases hgives
  rw [run_takeWhile, hσ, hτ, takeWhile_append_of_closes ht hp, dropWhile_append_of_closes ht hp]
  exact ⟨List.dropWhile_suffix p, rfl, rfl, hS σ τ _ _ hστ⟩

/-- A number ends with the text at the latest. -/
theorem number (cs : List Char) : Follows S t (Same S t) cs number number := by
  unfold Pattern.number
  refine bind (takeWhile hS ht (by decide) cs) fun digits cs' _ => ?_
  dsimp only
  split
  · exact throw_bind _ _ _
  · exact pure _

theorem name (cs : List Char) : Follows S t (Same S t) cs name name :=
  takeWhile hS ht isWordChar_paren cs

omit ht in
/-- Hexadecimal digits are read if there are as many as there should be. -/
theorem hexDigits (count : Nat) (cs : List Char) :
    Follows S t (Same S t) cs (hexDigits count) (hexDigits count) := by
  unfold Pattern.hexDigits
  refine rest ?_
  dsimp only
  by_cases hfew : ((cs.take count).filterMap hexValue?).length < count
  · refine of_fails (fun σ _ a σ' hgives => ?_) _
    rw [if_pos hfew] at hgives
    split at hgives <;> simp only [Gives, run_bind, run_skip, run_throw] at hgives <;> cases hgives
  · have hcount : count ≤ cs.length := by
      have hvalues := List.length_filterMap_le hexValue? (cs.take count)
      rw [List.length_take] at hvalues
      omega
    rw [List.take_append_of_le_length hcount, if_neg hfew]
    exact bind (skip_of_le hS hcount) fun _ _ _ => pure _

omit ht in
theorem bracedHex (cs : List Char) : Follows S t (Same S t) cs bracedHex bracedHex := by
  unfold Pattern.bracedHex
  refine rest ?_
  cases hvalue : bracedValue 0 false cs with
  | mk value more =>
    dsimp only
    cases value with
    | error fault =>
      refine of_fails (fun σ _ a σ' hgives => ?_) _
      simp only [Gives, run_bind, run_setRest, run_throw] at hgives
      cases hgives
    | ok value =>
      obtain ⟨hsuffix, happend⟩ := bracedValue_append t cs 0 value false more hvalue
      rw [happend]
      exact setRest hS hsuffix (pure value)

omit hS in
/-- Octal digits end with the text at the latest. -/
theorem octal_append (cs : List Char) :
    (((cs ++ t).take 3).takeWhile fun c => '0' ≤ c && c ≤ '7') =
      (cs.take 3).takeWhile fun c => '0' ≤ c && c ≤ '7' := by
  rw [List.take_append, takeWhile_append_of_closes (ht.take _) (by decide)]

theorem octal (cs : List Char) : Follows S t (Same S t) cs octal octal := by
  unfold Pattern.octal
  refine rest ?_
  dsimp only
  rw [octal_append ht]
  refine bind (skip_of_le hS ?_) fun _ _ _ => pure _
  exact Nat.le_trans (List.takeWhile_prefix _).length_le (List.length_take_le' 3 cs)

omit ht in
theorem control (cs : List Char) : Follows S t (Same S t) cs control control := by
  unfold Pattern.control
  cases cs with
  | nil => exact next_nil rfl _
  | cons c more =>
    refine next hS ?_
    dsimp only
    generalize (if 'a' ≤ c && c ≤ 'z' then c.toUpper else c) = letter
    split
    · exact pure _
    · exact throw _ _

/-- The code of an escaped character is read in the same way. -/
theorem escapedCode (cs : List Char) : Follows S t (Same S t) cs escapedCode escapedCode := by
  unfold Pattern.escapedCode
  cases cs with
  | nil => exact peek_nil (throw _ _)
  | cons c more =>
    refine peek ?_
    dsimp only
    split
    · exact octal hS ht _
    · refine skip hS ?_
      split
      · cases more with
        | nil =>
          refine peek_nil ?_
          simp only [reduceCtorEq, ht.head?_ne (show '\x7b' ≠ ')' by decide), if_false]
          exact hexDigits hS 2 _
        | cons d more =>
          refine peek ?_
          split
          · exact skip hS (bracedHex hS more)
          · exact hexDigits hS 2 _
      · exact hexDigits hS 4 _
      all_goals try exact pure _
      · exact control hS _
      · split
        · exact throw _ _
        · exact pure _

omit hS ht in
theorem propertyNamed (key cs : List Char) : Follows S t (Same S t) cs
    (match Unicode.Property.ofName? (String.ofList key) with
      | some p => (Pure.pure p : Read Unicode.Property)
      | none => MonadExcept.throw (.unknownProperty key))
    (match Unicode.Property.ofName? (String.ofList key) with
      | some p => (Pure.pure p : Read Unicode.Property)
      | none => MonadExcept.throw (.unknownProperty key)) := by
  split
  · exact pure _
  · exact throw _ _

/-- The name of a property of characters is read in the same way. -/
theorem property (cs : List Char) : Follows S t (Same S t) cs property property := by
  unfold Pattern.property
  refine rest ?_
  cases cs with
  | nil => exact throw _ _
  | cons c more =>
    by_cases hbrace : c = '\x7b'
    · subst hbrace
      simp only [List.cons_append]
      by_cases hshort : more.length < 2
      · rw [if_pos hshort]
        exact throw_bind _ _ _
      · rw [if_neg hshort, if_neg (by rw [List.length_append]; omega)]
        refine skip hS (bind (takeWhile hS ht (by decide) more) fun key cs' _ => ?_)
        cases cs' with
        | nil => exact next_nil rfl _
        | cons d cs' =>
          refine next hS ?_
          split
          · exact propertyNamed key cs'
          · exact throw _ _
    · simp only [List.cons_append]
      exact skip hS (propertyNamed [c] more)

end
end Follows

end Read
end PackageCycles.Pattern

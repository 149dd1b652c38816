import Mathlib.Data.List.TakeWhile
import PackageCycles.Proofs.Pattern.Openings

/-!
# What an opening parenthesis leads to

What is read behind an opening parenthesis, or behind the second one of a conditional, depends on
the text in many ways. `Condition` and `Opening` have one constructor for each of them, with what the
text has to be, and a reading gives a value exactly in one of these ways (`condition_of_gives`,
`gives_of_condition`, `opening_of_gives`, `gives_of_opening`). What holds of all groups is shown by
cases on them.
-/

namespace PackageCycles.Pattern

open Read

/-- A reading has one outcome. -/
theorem Read.Gives.eq {α : Type} {act : Read α} {σ τ τ' : Reader} {a b : α}
    (h : act.Gives σ a τ) (h' : act.Gives σ b τ') : b = a ∧ τ' = τ := by
  rw [Gives] at h h'
  rw [h] at h'
  cases h'
  exact ⟨rfl, rfl⟩

/-! ## Conditions -/

section
variable {α β : Type} {σ σ' τ : Reader} {a : α} {kind : GroupKind}

theorem gives_setSkipCapture_bind {skipped : Bool} {f : Unit → Read α} :
    (setSkipCapture skipped >>= f).Gives σ a σ' ↔
      (f ()).Gives { σ with skipCapture := skipped } a σ' := .rfl

theorem gives_takeNumber_bind {f : Nat → Read α} :
    (takeNumber >>= f).Gives σ a σ' ↔
      (f σ.nextNumber).Gives { σ with nextNumber := σ.nextNumber + 1 } a σ' := .rfl

theorem gives_get_bind {f : Reader → Read α} :
    (get >>= f).Gives σ a σ' ↔ (f σ).Gives σ a σ' := .rfl

theorem not_gives_unrecognized {start : List Char} :
    ¬ (unrecognized start : Read α).Gives σ a σ' :=
  Fails.unrecognized start σ rfl a σ'

/-- An expression that is tested is read from its parenthesis on as a group that does not capture.
It is no comment. -/
theorem gives_testGroup {cs ds : List Char}
    (h : (conditional.testGroup cs).Gives (σ.before ds) kind σ') :
    kind = .ifMatches ∧ σ' = { σ with rest := '(' :: cs, skipCapture := true } ∧
      ¬ ['?', '#'] <+: cs := by
  rw [conditional.testGroup, gives_setRest_bind, gives_setSkipCapture_bind] at h
  dsimp only at h
  split at h
  · exact (not_gives_throw_bind h).elim
  · exact (not_gives_throw_bind h).elim
  · split at h
    · exact (not_gives_throw_bind h).elim
    · obtain ⟨rfl, rfl⟩ := gives_pure_iff.1 h
      exact ⟨rfl, rfl, by simp⟩
  · rename_i hcomment _ _
    obtain ⟨rfl, rfl⟩ := gives_pure_iff.1 h
    refine ⟨rfl, rfl, fun ⟨more, hmore⟩ => hcomment more hmore.symm⟩

theorem isWordChar_of_isDigit {c : Char} (h : isDigit c) : Unicode.isWordChar c := by
  simp only [isDigit, Bool.and_eq_true, decide_eq_true_eq] at h
  have hlow : 48 ≤ c.toNat := h.1
  have hhigh : c.toNat ≤ 57 := h.2
  have hdigit : c.isDigit := by
    simp only [Char.isDigit, Bool.and_eq_true, decide_eq_true_eq]
    exact h
  rw [Unicode.isWordChar, if_pos (by omega), Char.isAlphanum, hdigit]
  simp

/-- What is read up to a closing parenthesis is a word that is not empty. -/
theorem exists_key {p : Char → Bool} (hp : ∀ c, p c → Unicode.isWordChar c) {cs more : List Char}
    (hhead : ∃ c ∈ cs.head?, p c) (hclosed : cs.dropWhile p = ')' :: more) :
    ∃ key, cs = key ++ ')' :: more ∧ key ≠ [] ∧ ∀ d ∈ key, Unicode.isWordChar d := by
  obtain ⟨c, hc, hpc⟩ := hhead
  obtain ⟨ds, rfl⟩ := List.head?_eq_some_iff.1 hc
  refine ⟨(c :: ds).takeWhile p, ?_, ?_, fun d hd => hp d (List.mem_takeWhile_imp hd)⟩
  · rw [← hclosed, List.takeWhile_append_dropWhile]
  · rw [List.takeWhile_cons_of_pos hpc]
    exact List.cons_ne_nil _ _

/-- The text starts with the name of the group that has the number. -/
def NamesGroup (σ : Reader) (n : Nat) : Prop :=
  (∃ c ∈ σ.rest.head?, Unicode.isWordChar c) ∧
    σ.groups.names.lookup (σ.rest.takeWhile Unicode.isWordChar) = some n

/-- What the text behind the second parenthesis of a conditional leads to: the kind of the group
that the conditional is, and the reader behind its condition. -/
inductive Condition (σ : Reader) : GroupKind → Reader → Prop
  /-- The number of a group that there is, up to a closing parenthesis. -/
  | number (n : Nat) (more : List Char) (digit : ∃ c ∈ σ.rest.head?, isDigit c)
    (number : number.Gives σ n (σ.before (')' :: more)))
    (known : σ.groups.numbers.contains n = true) : Condition σ (.ifCaptured n) (σ.before more)
  /-- The name of a group that there is, up to a closing parenthesis. -/
  | name (n : Nat) (more : List Char) (noDigit : ¬ ∃ c ∈ σ.rest.head?, isDigit c)
    (names : NamesGroup σ n) (closed : σ.rest.dropWhile Unicode.isWordChar = ')' :: more) :
    Condition σ (.ifCaptured n) (σ.before more)
  /-- Anything else is an expression to be tested. -/
  | test (kind : GroupKind) (σ' : Reader) (noDigit : ¬ ∃ c ∈ σ.rest.head?, isDigit c)
    (unnamed : ∀ n, NamesGroup σ n →
      (σ.rest.dropWhile Unicode.isWordChar).head? ≠ some ')')
    (group : (conditional.testGroup σ.rest).Gives σ kind σ') : Condition σ kind σ'

/-- The expression to be tested is read from the parenthesis in front of it, wherever the reader has
got to. -/
theorem gives_testGroup_before {cs ds : List Char} :
    (conditional.testGroup cs).Gives (σ.before ds) kind σ' ↔
      (conditional.testGroup cs).Gives σ kind σ' := .rfl

/-- A conditional is read in one of the ways. -/
theorem condition_of_gives (h : conditional.Gives σ kind σ') : Condition σ kind σ' := by
  rw [conditional, gives_rest_bind] at h
  split at h
  · rename_i hnil
    have hhead {p : Char → Bool} : ¬ ∃ c ∈ σ.rest.head?, p c := by simp [hnil]
    exact .test kind σ' hhead (fun _ hn => (hhead hn.1).elim) (hnil ▸ h)
  · rename_i c more hcons
    have hhead {p : Char → Bool} : (∃ d ∈ σ.rest.head?, p d) ↔ p c := by simp [hcons]
    split at h
    · rename_i hdigit
      obtain ⟨n, τ, hnumber, hnext⟩ := gives_bind_iff.1 h
      obtain rfl := gives_number hnumber
      rw [gives_next?_bind] at hnext
      dsimp only at hnext
      split at hnext
      · exact (not_gives_throw_bind hnext).elim
      · rename_i hclosed
        obtain ⟨ds, hds⟩ := List.head?_eq_some_iff.1 (Decidable.not_not.1 hclosed)
        rw [Reader.before_rest] at hds
        rw [gives_isNumber_bind] at hnext
        split at hnext
        · rename_i hknown
          obtain ⟨rfl, rfl⟩ := gives_pure_iff.1 hnext
          rw [hds] at hnumber
          have hcondition := Condition.number n ds (hhead.2 hdigit) hnumber hknown
          rwa [Reader.before_rest, Reader.before_before, hds, List.tail_cons]
        · exact (not_gives_throw hnext).elim
    · rename_i hdigit
      replace hdigit := mt hhead.1 hdigit
      split at h
      · rename_i hword
        rw [name, gives_takeWhile_bind, gives_numberOf?_bind] at h
        split at h
        · rename_i n hlookup
          rw [gives_next?_bind, Reader.before_rest, Reader.before_before] at h
          split at h
          · rename_i hclosed
            obtain ⟨ds, hds⟩ := List.head?_eq_some_iff.1 hclosed
            obtain ⟨rfl, rfl⟩ := gives_pure_iff.1 h
            rw [hds]
            exact .name n ds hdigit ⟨hhead.2 hword, hlookup⟩ hds
          · rename_i hclosed
            exact .test kind σ' hdigit (fun _ _ => hclosed) (gives_testGroup_before.1 h)
        · rename_i hlookup
          refine .test kind σ' hdigit (fun n hn => ?_) (gives_testGroup_before.1 h)
          cases hlookup.symm.trans hn.2
      · rename_i hword
        exact .test kind σ' hdigit (fun _ hn => (hword (hhead.1 hn.1)).elim) h

/-- Each of the ways is one in which a conditional is read. -/
theorem gives_of_condition (h : Condition σ kind σ') : conditional.Gives σ kind σ' := by
  rw [conditional, gives_rest_bind]
  cases h with
  | number n more digit number known =>
    obtain ⟨c, hc, hdigit⟩ := digit
    obtain ⟨ds, hds⟩ := List.head?_eq_some_iff.1 hc
    rw [hds]
    dsimp only
    rw [if_pos hdigit]
    refine gives_bind_iff.2 ⟨n, _, number, gives_next?_bind.2 ?_⟩
    rw [if_neg (by simp), gives_isNumber_bind, if_pos (by exact known)]
    rfl
  | name n more noDigit names closed =>
    obtain ⟨⟨c, hc, hword⟩, hlookup⟩ := names
    have hdigit : ¬ isDigit c := fun hdigit => noDigit ⟨c, hc, hdigit⟩
    obtain ⟨ds, hds⟩ := List.head?_eq_some_iff.1 hc
    rw [hds]
    dsimp only
    rw [if_neg hdigit, if_pos hword, name, gives_takeWhile_bind, gives_numberOf?_bind,
      Reader.before_groups, hlookup]
    refine gives_next?_bind.2 ?_
    rw [closed, if_pos (by rfl)]
    rfl
  | test kind σ' noDigit unnamed group =>
    split
    · rename_i hnil
      exact hnil ▸ group
    · rename_i c more hcons
      have hhead : c ∈ σ.rest.head? := by rw [hcons]; rfl
      rw [if_neg fun hdigit => noDigit ⟨c, hhead, hdigit⟩]
      split
      · rename_i hword
        rw [name, gives_takeWhile_bind, gives_numberOf?_bind]
        split
        · rename_i n hlookup
          refine gives_next?_bind.2 ?_
          rw [Reader.before_rest, if_neg (unnamed n ⟨⟨c, hhead, hword⟩, hlookup⟩)]
          exact group
        · exact group
      · exact group

/-- The condition is a word up to a closing parenthesis, or an expression that is no comment. -/
theorem gives_conditional (h : conditional.Gives σ kind σ') :
    (∃ n key, kind = .ifCaptured n ∧ σ.rest = key ++ ')' :: σ'.rest ∧ σ' = σ.before σ'.rest ∧
      key ≠ [] ∧ ∀ c ∈ key, Unicode.isWordChar c) ∨
    kind = .ifMatches ∧ σ' = { σ with rest := '(' :: σ.rest, skipCapture := true } ∧
      ¬ ['?', '#'] <+: σ.rest := by
  cases condition_of_gives h with
  | number n more digit number known =>
    have hclosed : σ.rest.dropWhile isDigit = ')' :: more :=
      (congrArg Reader.rest (gives_number number)).symm
    obtain ⟨key, hkey⟩ := exists_key (fun _ => isWordChar_of_isDigit) digit hclosed
    exact .inl ⟨n, key, rfl, hkey.1, rfl, hkey.2⟩
  | name n more noDigit names closed =>
    obtain ⟨key, hkey⟩ := exists_key (fun _ hc => hc) names.1 closed
    exact .inl ⟨n, key, rfl, hkey.1, rfl, hkey.2⟩
  | test kind σ' noDigit unnamed group => exact .inr (gives_testGroup group)

end

/-! ## Openings -/

/-- The prefix of a lookaround. -/
def lookPrefix (negative backward : Bool) : List Char :=
  '?' :: ((if backward then ['<'] else []) ++ [if negative then '!' else '='])

/-- What the text behind an opening parenthesis leads to inside a group of the given kind: the kind
of the group that it opens, if it opens one, and the reader behind it. -/
inductive Opening (inside : GroupKind) (σ : Reader) : Option GroupKind → Reader → Prop
  /-- A group without a prefix. -/
  | plain (kind : GroupKind) (σ' : Reader) (start : startsPlain σ.rest)
    (group : plainGroup.Gives σ kind σ') : Opening inside σ (some kind) σ'
  /-- A group that does not capture. -/
  | uncaptured (cs : List Char) (text : σ.rest = '?' :: ':' :: cs) :
    Opening inside σ (some .plain) (σ.before cs)
  /-- An atomic group. -/
  | atomic (cs : List Char) (text : σ.rest = '?' :: '>' :: cs) :
    Opening inside σ (some .atomic) (σ.before cs)
  /-- A lookaround. -/
  | look (negative backward : Bool) (cs : List Char)
    (text : σ.rest = lookPrefix negative backward ++ cs) :
    Opening inside σ (some (.look negative))
      { σ.before cs with options := { σ.options with backward := backward } }
  /-- A group with a name or number. -/
  | named (bracket close : Char) (cs : List Char) (kind : GroupKind) (σ' : Reader)
    (pair : closing? bracket = some close) (text : σ.rest = '?' :: bracket :: cs)
    (first : cs.head? ≠ some '=' ∧ cs.head? ≠ some '!')
    (group : (namedGroup σ.rest close).Gives (σ.before cs) kind σ') :
    Opening inside σ (some kind) σ'
  /-- A conditional. -/
  | condition (cs : List Char) (kind : GroupKind) (σ' : Reader)
    (text : σ.rest = '?' :: '(' :: cs) (group : conditional.Gives (σ.before cs) kind σ') :
    Opening inside σ (some kind) σ'
  /-- Letters that change the options. -/
  | letters (c : Char) (cs : List Char) (kind : Option GroupKind) (σ' : Reader)
    (text : σ.rest = '?' :: c :: cs)
    (letter : c ∉ [')', ':', '=', '!', '>', '\'', '<', '('])
    (group : (optionsGroup σ.rest inside).Gives (σ.before (c :: cs)) kind σ') :
    Opening inside σ kind σ'

section
variable {inside : GroupKind} {σ σ' : Reader} {kind : Option GroupKind}

/-- A group that is opened has a kind. -/
theorem gives_map_some {act : Read GroupKind}
    (h : (act >>= fun kind => pure (some kind)).Gives σ kind σ') :
    ∃ k, kind = some k ∧ act.Gives σ k σ' := by
  obtain ⟨k, τ, hact, hpure⟩ := gives_bind_iff.1 h
  obtain ⟨rfl, rfl⟩ := gives_pure_iff.1 hpure
  exact ⟨k, rfl, hact⟩

/-- Behind a question mark the prefix is read. -/
theorem gives_groupOpening_prefixed {c : Char} {cs : List Char} (text : σ.rest = '?' :: c :: cs)
    (hc : c ≠ ')') : (groupOpening inside).Gives σ kind σ' ↔
      (prefixedGroup σ.rest inside).Gives (σ.before (c :: cs)) kind σ' := by
  rw [groupOpening, gives_rest_bind, if_neg (by simp [startsPlain, text, hc]), gives_skip_bind,
    text]
  rfl

/-- The prefix of a group is read in one of the ways, told by its first character and, behind an
angle bracket or quotation mark, by the second. -/
theorem opening_of_prefixed {c : Char} {cs : List Char} (text : σ.rest = '?' :: c :: cs)
    (hc : c ≠ ')') (h : (prefixedGroup σ.rest inside).Gives (σ.before (c :: cs)) kind σ') :
    Opening inside σ kind σ' := by
  rw [prefixedGroup, gives_next?_bind, Reader.before_rest, Reader.before_before, List.head?_cons,
    List.tail_cons] at h
  split at h
  · rename_i heq
    cases heq
  · rename_i heq
    cases heq
    obtain ⟨rfl, rfl⟩ := gives_pure_iff.1 h
    exact .uncaptured cs text
  · rename_i heq
    cases heq
    obtain ⟨k, rfl, hgroup⟩ := gives_map_some h
    cases hgroup
    exact .look false false cs text
  · rename_i heq
    cases heq
    obtain ⟨k, rfl, hgroup⟩ := gives_map_some h
    cases hgroup
    exact .look true false cs text
  · rename_i heq
    cases heq
    obtain ⟨rfl, rfl⟩ := gives_pure_iff.1 h
    exact .atomic cs text
  · rename_i heq
    cases heq
    rw [gives_peek?_bind] at h
    split at h
    · exact (not_gives_unrecognized h).elim
    · exact (not_gives_unrecognized h).elim
    · rename_i hequal hnot
      rw [Reader.before_rest, ← List.head?_eq_getElem?] at hequal hnot
      obtain ⟨k, rfl, hgroup⟩ := gives_map_some h
      exact .named _ _ cs k σ' rfl text ⟨hequal, hnot⟩ hgroup
  · rename_i heq
    cases heq
    rw [gives_peek?_bind, Reader.before_rest, ← List.head?_eq_getElem?] at h
    split at h
    · rename_i hhead
      obtain ⟨ds, rfl⟩ := List.head?_eq_some_iff.1 hhead
      obtain ⟨k, rfl, hgroup⟩ := gives_map_some (gives_skip_bind.1 h)
      cases hgroup
      exact .look false true ds text
    · rename_i hhead
      obtain ⟨ds, rfl⟩ := List.head?_eq_some_iff.1 hhead
      obtain ⟨k, rfl, hgroup⟩ := gives_map_some (gives_skip_bind.1 h)
      cases hgroup
      exact .look true true ds text
    · rename_i hequal hnot
      obtain ⟨k, rfl, hgroup⟩ := gives_map_some h
      exact .named _ _ cs k σ' rfl text ⟨hequal, hnot⟩ hgroup
  · rename_i heq
    cases heq
    obtain ⟨k, rfl, hgroup⟩ := gives_map_some h
    exact .condition cs k σ' text hgroup
  · rename_i hcolon hequal hnot hatomic hquote hangle hopen heq
    cases heq
    rw [gives_setRest_bind, text] at h
    refine .letters c cs kind σ' text ?_ (text ▸ h)
    simp only [List.mem_cons, List.not_mem_nil, or_false, not_or]
    exact ⟨hc, hcolon, hequal, hnot, hatomic, hquote, hangle, hopen⟩

/-- An opening parenthesis leads on in one of the ways. -/
theorem opening_of_gives (h : (groupOpening inside).Gives σ kind σ') :
    Opening inside σ kind σ' := by
  by_cases hplain : startsPlain σ.rest
  · rw [groupOpening, gives_rest_bind, if_pos hplain] at h
    obtain ⟨k, rfl, hgroup⟩ := gives_map_some h
    exact .plain k σ' hplain hgroup
  · rcases hrest : σ.rest with _ | ⟨c, _ | ⟨d, cs⟩⟩
    · simp [startsPlain, hrest] at hplain
    · rw [groupOpening, gives_rest_bind, if_neg hplain, gives_skip_bind, hrest] at h
      exact (not_gives_unrecognized (gives_next?_bind.1 h)).elim
    · obtain ⟨rfl, hparen⟩ : c = '?' ∧ d ≠ ')' := by simpa [startsPlain, hrest] using hplain
      exact opening_of_prefixed hrest hparen ((gives_groupOpening_prefixed hrest hparen).1 h)

/-- Each of the ways is one in which an opening parenthesis leads on. -/
theorem gives_of_opening (h : Opening inside σ kind σ') :
    (groupOpening inside).Gives σ kind σ' := by
  have hsome {act : Read GroupKind} {τ τ' : Reader} {k : GroupKind} (h : act.Gives τ k τ') :
      (act >>= fun kind => pure (some kind)).Gives τ (some k) τ' :=
    gives_bind_iff.2 ⟨k, τ', h, rfl⟩
  cases h with
  | plain kind σ' start group =>
    rw [groupOpening, gives_rest_bind, if_pos start]
    exact hsome group
  | uncaptured cs text =>
    exact (gives_groupOpening_prefixed text (by decide)).2 rfl
  | atomic cs text =>
    exact (gives_groupOpening_prefixed text (by decide)).2 rfl
  | look negative backward cs text =>
    cases negative <;> cases backward <;>
      exact (gives_groupOpening_prefixed text (by decide)).2 rfl
  | named bracket close cs kind σ' pair text first group =>
    unfold closing? at pair
    split at pair <;> cases pair
    -- A name stands between quotation marks or between angle brackets.
    all_goals
      rw [gives_groupOpening_prefixed text (by decide), prefixedGroup, gives_next?_bind]
      change (peek? 0 >>= _).Gives (σ.before cs) _ _
      rw [gives_peek?_bind, Reader.before_rest, ← List.head?_eq_getElem?]
      split
      · exact (first.1 ‹_›).elim
      · exact (first.2 ‹_›).elim
      · exact hsome group
  | condition cs kind σ' text group =>
    exact (gives_groupOpening_prefixed text (by decide)).2 (hsome group)
  | letters c cs kind σ' text letter group =>
    simp only [List.mem_cons, List.not_mem_nil, or_false, not_or] at letter
    obtain ⟨hparen, hcolon, hequal, hnot, hatomic, hquote, hangle, hopen⟩ := letter
    rw [gives_groupOpening_prefixed text hparen, prefixedGroup, gives_next?_bind,
      Reader.before_rest, Reader.before_before, List.head?_cons, List.tail_cons]
    split <;> rename_i heq <;> cases heq <;> try contradiction
    rw [gives_setRest_bind, show σ.rest.drop 1 = c :: cs by rw [text]; rfl]
    exact group

/-- What is read behind an opening parenthesis is the front of the text. The expression of a
conditional is read again, but only from its own parenthesis on. -/
theorem Opening.suffix (h : Opening inside σ kind σ') : σ'.rest <:+ σ.rest := by
  cases h with
  | plain kind σ' start group => exact (Follows.plainGroup _).suffix group
  | uncaptured cs text =>
    rw [text]
    exact ⟨['?', ':'], rfl⟩
  | atomic cs text =>
    rw [text]
    exact ⟨['?', '>'], rfl⟩
  | look negative backward cs text =>
    rw [text]
    exact List.suffix_append _ _
  | named bracket close cs kind σ' pair text first group =>
    have hfollows := Follows.namedGroup textless_twins closes_nil sharesGroups_twins σ.rest σ.rest
      close cs
    rw [text]
    exact (hfollows.suffix group).trans ⟨['?', bracket], rfl⟩
  | condition cs kind σ' text group =>
    rw [text]
    obtain ⟨n, key, -, hkey, -⟩ | ⟨-, rfl, -⟩ := gives_conditional group
    · exact ⟨'?' :: '(' :: key ++ [')'], by simp [← hkey]⟩
    · exact ⟨['?'], rfl⟩
  | letters c cs kind σ' text letter group =>
    rw [text]
    exact ((Follows.optionsGroup closes_nil _ σ.rest inside (c :: cs)).suffix group).trans
      (List.suffix_cons _ _)

end

end PackageCycles.Pattern

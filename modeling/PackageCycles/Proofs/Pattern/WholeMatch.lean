import Mathlib.Logic.Relation
import PackageCycles.Pattern.Matcher
import PackageCycles.Proofs.Pattern.Wrapped

/-!
# Matches of a whole text

An expression matches a whole text if the machine, going back to the alternatives behind each match
that it finds, comes to one that leaves nothing of the text (`Regex.MatchesWhole`). The machine that
has to reach the end of the text as its last task makes the same steps (`step_thenEnd`), so the
anchored expression is found in a text exactly if the expression matches the whole of it
(`Regex.isFoundIn_anchored`), unless the match takes more steps than are allowed.
-/

namespace PackageCycles.Pattern

open Relation

/-! ## The matches from the start of a text -/

/-- The machine makes a step, or it has found a match and takes up the latest alternative. -/
inductive Machine.GoesOn (text : Array Char) (m m' : Machine) : Prop
  | steps (taken : step text 0 m = .running m')
  | retries (found : m.current.tasks = []) (next : m.fail = .running m')

/-- The machine has found a match, and it leaves nothing of the text. -/
def Machine.HasWhole (m : Machine) (text : Array Char) : Prop :=
  m.current.tasks = [] ∧ text.size ≤ m.current.position

/-- Going on the machine finds a match that leaves nothing of the text. -/
def Machine.FindsWhole (m : Machine) (text : Array Char) : Prop :=
  ∃ m', ReflTransGen (GoesOn text) m m' ∧ m'.HasWhole text

/-- One of the ways in which the expression matches from the start of the text on takes it whole. -/
def Regex.MatchesWhole (r : Regex) (text : Array Char) : Prop :=
  (Machine.start r 0).FindsWhole text

/-! ## Tasks behind those of a machine -/

/-- The thread that has to come to the end of the text when it has done its tasks. -/
def Thread.thenEnd (t : Thread) : Thread := { t with tasks := t.tasks ++ [.run (.anchor .textEnd)] }

/-- The machine whose threads have to come to the end of the text. -/
def Machine.thenEnd (m : Machine) : Machine :=
  ⟨m.current.thenEnd, m.alternatives.map Thread.thenEnd⟩

/-- What a step of the machine leads to if its threads have to come to the end of the text. -/
def Outcome.thenEnd : Outcome → Outcome
  | .running m => .running m.thenEnd
  | .matched => .matched
  | .failed => .failed

section
variable {text : Array Char} {start : Nat} {m m' : Machine} {rest : List Task}

theorem thenEnd_tasks (m : Machine) :
    m.thenEnd.current.tasks = m.current.tasks ++ [.run (.anchor .textEnd)] := rfl

theorem thenEnd_position (m : Machine) : m.thenEnd.current.position = m.current.position := rfl

theorem thenEnd_stack (m : Machine) : m.thenEnd.current.stack = m.current.stack := rfl

theorem thenEnd_captures (m : Machine) : m.thenEnd.current.captures = m.current.captures := rfl

theorem length_thenEnd (m : Machine) : m.thenEnd.alternatives.length = m.alternatives.length :=
  List.length_map _

/-- A thread that fails gives way to the latest alternative, whatever its last task was to be. -/
theorem fail_thenEnd (m : Machine) : m.thenEnd.fail = m.fail.thenEnd := by
  obtain ⟨t, alternatives⟩ := m
  cases alternatives <;> rfl

theorem forget_thenEnd (m : Machine) (height : Nat) :
    m.thenEnd.forget height = (m.forget height).thenEnd := by
  simp [Machine.forget, Machine.thenEnd]

/-- Repeating a single character leaves the last task where it is. -/
theorem stepMany_thenEnd (test : Single) (mode : Mode) (bounds : Bounds) (lazy : Bool) :
    stepMany text m.thenEnd (rest ++ [.run (.anchor .textEnd)]) test mode bounds lazy =
      (stepMany text m rest test mode bounds lazy).thenEnd := by
  rw [stepMany, stepMany, thenEnd_position]
  split
  · exact fail_thenEnd m
  · dsimp only
    split
    · exact fail_thenEnd m
    · split
      · split <;> rfl
      · split <;> rfl

/-- A step into an expression leaves the last task where it is. -/
theorem stepRegex_thenEnd (r : Regex) :
    stepRegex text start m.thenEnd (rest ++ [.run (.anchor .textEnd)]) r =
      (stepRegex text start m rest r).thenEnd := by
  cases r with
  | nothing => exact fail_thenEnd m
  | empty => rfl
  | single test mode =>
    rw [stepRegex, stepRegex, thenEnd_position]
    split
    · rfl
    · exact fail_thenEnd m
  | many test mode bounds lazy => exact stepMany_thenEnd test mode bounds lazy
  | anchor a =>
    rw [stepRegex, stepRegex, thenEnd_position]
    split
    · rfl
    · exact fail_thenEnd m
  | seq first second => rfl
  | alt first second => rfl
  | loop body bounds lazy =>
    dsimp only [stepRegex]
    split <;> rfl
  | capture number release body => rfl
  | reference number mode =>
    rw [stepRegex, stepRegex, thenEnd_position, thenEnd_captures]
    split
    · exact fail_thenEnd m
    · split
      · rfl
      · exact fail_thenEnd m
  | look negative body =>
    cases negative with
    | false =>
      rw [stepRegex, stepRegex, length_thenEnd]
      rfl
    | true =>
      rw [stepRegex, stepRegex, length_thenEnd]
      rfl
  | atomic body =>
    rw [stepRegex, stepRegex, length_thenEnd]
    rfl
  | ifCaptured number yes no =>
    rw [stepRegex, stepRegex, thenEnd_captures]
    split <;> rfl
  | ifMatches condition yes no =>
    rw [stepRegex, stepRegex, length_thenEnd]
    rfl

/-- So does another round of a loop. -/
theorem stepAgain_thenEnd (body : Regex) (lazy : Bool) :
    stepAgain m.thenEnd (rest ++ [.run (.anchor .textEnd)]) body lazy =
      (stepAgain m rest body lazy).thenEnd := by
  rw [stepAgain, stepAgain, thenEnd_position, thenEnd_stack]
  split
  · exact fail_thenEnd m
  · split
    · rfl
    · split <;> rfl

/-- And another round of a loop that is counted. -/
theorem stepAgainCounted_thenEnd (body : Regex) (limit : Nat) (lazy : Bool) :
    stepAgainCounted m.thenEnd (rest ++ [.run (.anchor .textEnd)]) body limit lazy =
      (stepAgainCounted m rest body limit lazy).thenEnd := by
  rw [stepAgainCounted, stepAgainCounted, thenEnd_position, thenEnd_stack]
  dsimp only
  split
  · split
    · rfl
    · split
      · rfl
      · split <;> rfl
  · exact fail_thenEnd m

/-- A machine with a task makes the same step if it has to come to the end of the text later. -/
theorem step_thenEnd (htasks : m.current.tasks ≠ []) :
    step text start m.thenEnd = (step text start m).thenEnd := by
  cases hm : m.current.tasks with
  | nil => exact (htasks hm).elim
  | cons task rest =>
    rw [step, step, thenEnd_tasks, hm, List.cons_append]
    cases task with
    | run r => exact stepRegex_thenEnd r
    | again body lazy => exact stepAgain_thenEnd body lazy
    | againCounted body limit lazy => exact stepAgainCounted_thenEnd body limit lazy
    | giveBack heading left => cases left <;> rfl
    | takeMore test mode left =>
      dsimp only
      rw [thenEnd_position]
      split
      · exact fail_thenEnd m
      · cases left <;> rfl
    | capture number release =>
      dsimp only
      rw [thenEnd_stack, thenEnd_captures, thenEnd_position]
      split
      · exact fail_thenEnd m
      · split
        · rfl
        · exact fail_thenEnd m
    | commit height =>
      dsimp only
      rw [forget_thenEnd]
      rfl
    | goBack height =>
      dsimp only
      rw [thenEnd_stack, forget_thenEnd]
      split
      · exact fail_thenEnd m
      · rfl
    | refuse height =>
      dsimp only
      rw [forget_thenEnd]
      exact fail_thenEnd _

end

/-! ## Only a machine without tasks has found a match -/

section
variable {text : Array Char} {start : Nat} {m : Machine} {rest : List Task}

theorem fail_ne_matched (m : Machine) : m.fail ≠ .matched := by
  obtain ⟨t, alternatives⟩ := m
  cases alternatives <;> exact nofun

theorem stepMany_ne_matched (test : Single) (mode : Mode) (bounds : Bounds) (lazy : Bool) :
    stepMany text m rest test mode bounds lazy ≠ .matched := by
  fun_cases stepMany text m rest test mode bounds lazy
  all_goals first | exact fail_ne_matched m | exact nofun

theorem stepRegex_ne_matched (r : Regex) : stepRegex text start m rest r ≠ .matched := by
  fun_cases stepRegex text start m rest r
  all_goals first | exact fail_ne_matched m | exact stepMany_ne_matched _ _ _ _ | exact nofun

theorem stepAgain_ne_matched (body : Regex) (lazy : Bool) :
    stepAgain m rest body lazy ≠ .matched := by
  fun_cases stepAgain m rest body lazy
  all_goals first | exact fail_ne_matched m | exact nofun

theorem stepAgainCounted_ne_matched (body : Regex) (limit : Nat) (lazy : Bool) :
    stepAgainCounted m rest body limit lazy ≠ .matched := by
  fun_cases stepAgainCounted m rest body limit lazy
  all_goals first | exact fail_ne_matched m | exact nofun

/-- A thread that has tasks has found no match. -/
theorem step_ne_matched (htasks : m.current.tasks ≠ []) : step text start m ≠ .matched := by
  fun_cases step text start m
  case case1 hnil => exact (htasks hnil).elim
  case case2 => exact stepRegex_ne_matched _
  case case3 => exact stepAgain_ne_matched _ _
  case case4 => exact stepAgainCounted_ne_matched _ _ _
  all_goals first | exact fail_ne_matched _ | exact nofun

end

/-! ## Runs -/

section
variable {text : Array Char} {m m' m₁ : Machine}

/-- A thread without tasks has found one. -/
theorem step_of_nil {start : Nat} (htasks : m.current.tasks = []) :
    step text start m = .matched := by
  rw [step, htasks]

/-- The machine goes on in one way only. -/
theorem Machine.GoesOn.eq (h : m.GoesOn text m') (h' : m.GoesOn text m₁) : m₁ = m' := by
  cases h with
  | steps taken =>
    cases h' with
    | steps taken' => exact Outcome.running.inj (taken'.symm.trans taken)
    | retries found => cases (step_of_nil found).symm.trans taken
  | retries found next =>
    cases h' with
    | steps taken => cases (step_of_nil found).symm.trans taken
    | retries _ next' => exact Outcome.running.inj (next'.symm.trans next)

/-- If a machine has not found a whole match itself, it finds one if the machine after it does. -/
theorem Machine.findsWhole_iff_of_goesOn (h : m.GoesOn text m') (hm : ¬ m.HasWhole text) :
    m.FindsWhole text ↔ m'.FindsWhole text := by
  constructor
  · rintro ⟨m₁, hreach, hwhole⟩
    rcases hreach.cases_head with rfl | ⟨m₂, hfirst, hreach⟩
    · exact (hm hwhole).elim
    · exact ⟨m₁, h.eq hfirst ▸ hreach, hwhole⟩
  · rintro ⟨m₁, hreach, hwhole⟩
    exact ⟨m₁, .head h hreach, hwhole⟩

/-- A machine that has not found a whole match and does not go on finds none. -/
theorem Machine.not_findsWhole (h : ∀ m', ¬ m.GoesOn text m') (hm : ¬ m.HasWhole text) :
    ¬ m.FindsWhole text := by
  rintro ⟨m₁, hreach, hwhole⟩
  rcases hreach.cases_head with rfl | ⟨m₂, hfirst, -⟩
  · exact hm hwhole
  · exact h m₂ hfirst

/-- With its tasks done the machine compares its position with the end of the text. -/
theorem step_thenEnd_of_nil (htasks : m.current.tasks = []) : step text 0 m.thenEnd =
    if text.size ≤ m.current.position then .running (m.thenEnd.withTasks []) else m.thenEnd.fail := by
  rw [step, thenEnd_tasks, htasks, List.nil_append]
  dsimp only
  rw [stepRegex, Anchor.holds, thenEnd_position]
  simp only [decide_eq_true_eq]

/-- A machine without a match of the whole text goes on as the one does that has to come to the end
of the text. -/
theorem exists_next (hwhole : ¬ m.HasWhole text) : ∃ next : Outcome,
    step text 0 m.thenEnd = next.thenEnd ∧ next ≠ .matched ∧
      ∀ m', m.GoesOn text m' ↔ next = .running m' := by
  by_cases htasks : m.current.tasks = []
  · have hend : ¬ text.size ≤ m.current.position := fun hend => hwhole ⟨htasks, hend⟩
    refine ⟨m.fail, ?_, fail_ne_matched m, fun m' => ⟨?_, .retries htasks⟩⟩
    · rw [step_thenEnd_of_nil htasks, if_neg hend, fail_thenEnd]
    · rintro (taken | ⟨-, next⟩)
      · cases (step_of_nil htasks).symm.trans taken
      · exact next
  · refine ⟨step text 0 m, step_thenEnd htasks, step_ne_matched htasks, fun m' => ⟨?_, .steps⟩⟩
    rintro (taken | ⟨found, -⟩)
    · exact taken
    · exact (htasks found).elim

/-- The machine that has to come to the end of the text finds out whether one of its matches takes
the whole text. -/
theorem runSteps_thenEnd {fuel : Nat} {b : Bool} (h : runSteps text 0 fuel m.thenEnd = some b) :
    b = true ↔ m.FindsWhole text := by
  induction fuel generalizing m with
  | zero => cases h
  | succ fuel ih =>
    rw [runSteps] at h
    by_cases hwhole : m.HasWhole text
    · rw [step_thenEnd_of_nil hwhole.1, if_pos hwhole.2] at h
      cases fuel with
      | zero => cases h
      | succ fuel =>
        obtain rfl : true = b := Option.some.inj h
        exact iff_of_true rfl ⟨m, .refl, hwhole⟩
    · obtain ⟨next, hstep, hmatched, hnext⟩ := exists_next hwhole
      rw [hstep] at h
      cases next with
      | running m' =>
        rw [Machine.findsWhole_iff_of_goesOn ((hnext m').2 rfl) hwhole]
        exact ih h
      | matched => exact (hmatched rfl).elim
      | failed =>
        obtain rfl := Option.some.inj h
        refine iff_of_false (by decide) (Machine.not_findsWhole (fun m' hgoes => ?_) hwhole)
        cases (hnext m').1 hgoes

end

/-! ## The anchored expression -/

section
variable {text : Array Char} {r : Regex}

/-- The expression matches where the given one does, from the start of the text to its end. -/
theorem anchored_eq (hr : r ≠ .empty) :
    r.anchored = .seq (.seq (.anchor .textStart) r) (.anchor .textEnd) := by
  simp [Regex.anchored, Regex.sequence, hr]

/-- From a later position on the anchored expression does not match. -/
theorem matchesAt_anchored_succ (r : Regex) (text : Array Char) (position : Nat) :
    r.anchored.matchesAt text (position + 1) = some false := by
  obtain ⟨fuel, hfuel⟩ : ∃ fuel, maxSteps = fuel + 3 := ⟨19999997, rfl⟩
  rw [Regex.matchesAt, hfuel]
  by_cases hr : r = .empty
  · subst hr
    rfl
  · rw [anchored_eq hr]
    rfl

/-- From the start on it matches if one of the matches of the expression takes the whole text. -/
theorem matchesAt_anchored_zero {b : Bool} (h : r.anchored.matchesAt text 0 = some b) :
    b = true ↔ r.MatchesWhole text := by
  obtain ⟨fuel, hfuel⟩ : ∃ fuel, maxSteps = fuel + 3 := ⟨19999997, rfl⟩
  rw [Regex.matchesAt, hfuel] at h
  by_cases hr : r = .empty
  · subst hr
    have hempty : (Machine.start .empty 0).GoesOn text ⟨⟨[], 0, [], []⟩, []⟩ := .steps rfl
    rw [Regex.MatchesWhole, Machine.findsWhole_iff_of_goesOn hempty fun hm => nomatch hm.1]
    exact runSteps_thenEnd h
  · rw [anchored_eq hr] at h
    exact runSteps_thenEnd (m := Machine.start r 0) h

/-- The anchored expression is found in a text if the expression matches the whole of it. -/
theorem Regex.isFoundIn_anchored {text : List Char}
    (h : r.anchored.matchesAt text.toArray 0 ≠ none) :
    r.anchored.isFoundIn text = true ↔ r.MatchesWhole text.toArray := by
  have hlater (remaining position : Nat) :
      r.anchored.findFrom text.toArray remaining (position + 1) = false := by
    induction remaining generalizing position with
    | zero => rw [findFrom, matchesAt_anchored_succ]; rfl
    | succ remaining ih => rw [findFrom, matchesAt_anchored_succ]; exact ih (position + 1)
  obtain ⟨b, hb⟩ := Option.ne_none_iff_exists'.1 h
  rw [← matchesAt_anchored_zero hb, isFoundIn]
  cases text.length with
  | zero => rw [findFrom, hb]; simp
  | succ remaining =>
    rw [findFrom, hb]
    cases b with
    | true => rfl
    | false => simp [hlater]

end

end PackageCycles.Pattern

import Mathlib.Data.List.Induction
import Mathlib.Data.List.Nodup
import Mathlib.Data.List.TakeWhile
import PackageCycles.Shutdown

/-!
# Tasks run exactly once

A shutdown takes over the tasks that wait and works them off one by one, while a task that runs may
register further ones. `Shutdown.Journal` follows this turn by turn and writes down what occurs, with
a number for each registration, so that tasks which look the same are told apart. A task that would
register itself over and over is written as deep as the calls at hand reach.

`Shutdown.Orderly` lists what may occur after what. It keeps the tickets that the shutdown under way
still has to run apart from those registered since it began and from those already run; each ticket
is in one of these places (`Orderly.countP_eq`), and what is run was registered in front of the
beginning of the shutdown and behind that of the one before (`Orderly.exists_registered`).

A journal is orderly (`Keeps.ofCalls`) and tells what the calls do (`performAll_eq`), from which
`runs_exactly_once` follows.
-/

namespace PackageCycles

namespace Shutdown

/-! ## Calls and what occurs -/

/-- A call on a manager of tasks. -/
inductive Call where
  /-- One more task waits. -/
  | register (task : CleanupTask)
  /-- The tasks that wait are run. -/
  | shutdown

/-- A manager after a call, with the results of the shutdowns, the latest first. -/
def Call.perform : Shutdown × List Result → Call → Shutdown × List Result
  | (s, results), .register task => (s.register task, results)
  | (s, results), .shutdown => (s.run.2, s.run.1 :: results)

/-- A new manager after calls, with the results of the shutdowns, the latest first. -/
def performAll (calls : List Call) : Shutdown × List Result := calls.foldl Call.perform (empty, [])

/-- A registration. -/
structure Ticket where
  /-- How many registrations there were before. -/
  number : Nat
  /-- The task. -/
  task : CleanupTask

/-- What occurs in the course of calls. -/
inductive Occurrence where
  /-- A task is registered, by a call or by a task that runs. -/
  | registered (t : Ticket)
  /-- A shutdown begins. -/
  | begun
  /-- A task is run. -/
  | ran (t : Ticket)
  /-- A shutdown ends. -/
  | ended (result : Result)

namespace Occurrence

/-- A shutdown begins. -/
def isBegun : Occurrence → Bool
  | begun => true
  | _ => false

/-- What is registered. -/
def registered? : Occurrence → Option Ticket
  | registered t => some t
  | _ => none

/-- What is run. -/
def ran? : Occurrence → Option Ticket
  | ran t => some t
  | _ => none

/-- The result with which a shutdown ends. -/
def ended? : Occurrence → Option Result
  | ended result => some result
  | _ => none

/-- The ticket with the number is registered. -/
def isRegistrationOf (n : Nat) (o : Occurrence) : Bool := o.registered?.any (·.number = n)

/-- The ticket with the number is run. -/
def isRunOf (n : Nat) (o : Occurrence) : Bool := o.ran?.any (·.number = n)

end Occurrence

/-- What has occurred so far, and what waits. -/
structure Journal where
  /-- What has occurred, the latest first. -/
  history : List Occurrence
  /-- The tickets that wait for a shutdown, in the order of registration. -/
  waiting : List Ticket
  /-- The number of registrations. -/
  next : Nat

namespace Journal

/-- Nothing has occurred. -/
def empty : Journal := ⟨[], [], 0⟩

/-- A task is registered. -/
def register (j : Journal) (task : CleanupTask) : Journal :=
  ⟨.registered ⟨j.next, task⟩ :: j.history, j.waiting ++ [⟨j.next, task⟩], j.next + 1⟩

/-- A shutdown takes the tickets that wait. -/
def begin (j : Journal) : Journal := ⟨.begun :: j.history, [], j.next⟩

/-- A task is run, and registers others. -/
def runTask (j : Journal) (t : Ticket) : Journal :=
  t.task.registers.foldl register ⟨.ran t :: j.history, j.waiting, j.next⟩

/-- A shutdown ends. -/
def finish (j : Journal) (result : Result) : Journal :=
  ⟨.ended result :: j.history, j.waiting, j.next⟩

/-- A shutdown runs the tickets that it has taken, the latest first. -/
def shutdown (j : Journal) : Journal :=
  (j.waiting.reverse.foldl runTask j.begin).finish (run ⟨j.waiting.map Ticket.task⟩).1

/-- The journal after a call. -/
def call (j : Journal) : Call → Journal
  | .register task => j.register task
  | .shutdown => j.shutdown

/-- The journal of calls on a new manager. -/
def ofCalls (calls : List Call) : Journal := calls.foldl call empty

end Journal

/-! ## Orderly histories -/

/-- The tickets registered since a shutdown last began, the latest first. -/
def registeredSince (history : List Occurrence) : List Ticket :=
  (history.takeWhile (!·.isBegun)).filterMap Occurrence.registered?

/-- The tickets run since a shutdown last began, the latest first. -/
def ranSince (history : List Occurrence) : List Ticket :=
  (history.takeWhile (!·.isBegun)).filterMap Occurrence.ran?

/-- A history in which a shutdown takes the tickets registered since the last one began, and runs
them in turn. With it stand the tickets that the shutdown under way has left to run, if there is
one. -/
inductive Orderly : List Occurrence → Option (List Ticket) → Prop where
  /-- Nothing has occurred. -/
  | nil : Orderly [] none
  /-- At any time a task may be registered. -/
  | registered {history left} (h : Orderly history left) (t : Ticket) :
      Orderly (.registered t :: history) left
  /-- A shutdown may begin if none is under way. -/
  | begun {history} (h : Orderly history none) :
      Orderly (.begun :: history) (some (registeredSince history))
  /-- The next ticket is run. -/
  | ran {history t left} (h : Orderly history (some (t :: left))) :
      Orderly (.ran t :: history) (some left)
  /-- A shutdown ends if no ticket is left. Its result is that of the tasks it has run. -/
  | ended {history} (h : Orderly history (some [])) :
      Orderly (.ended (run ⟨(ranSince history).map Ticket.task⟩).1 :: history) none

section
variable {history later later' earlier earlier' during during' : List Occurrence}
  {o o' : Occurrence} {left : Option (List Ticket)} {rest : List Ticket} {t : Ticket} {n : Nat}
  {result : Result}

/-! ## Since a shutdown last began -/

@[simp] theorem registeredSince_registered :
    registeredSince (.registered t :: history) = t :: registeredSince history := rfl

@[simp] theorem registeredSince_begun : registeredSince (.begun :: history) = [] := rfl

@[simp] theorem registeredSince_ran :
    registeredSince (.ran t :: history) = registeredSince history := rfl

@[simp] theorem registeredSince_ended :
    registeredSince (.ended result :: history) = registeredSince history := rfl

@[simp] theorem ranSince_ran : ranSince (.ran t :: history) = t :: ranSince history := rfl

/-- Where no shutdown begins, the search for the last one goes on. -/
theorem takeWhile_append (h : .begun ∉ during) :
    (during ++ history).takeWhile (!·.isBegun) = during ++ history.takeWhile (!·.isBegun) := by
  refine List.takeWhile_append_of_pos fun o ho => ?_
  cases o with
  | begun => exact absurd ho h
  | registered | ran | ended => rfl

/-- What occurred up to the last beginning of a shutdown. -/
theorem takeWhile_append_begun (h : .begun ∉ during) :
    (during ++ .begun :: earlier).takeWhile (!·.isBegun) = during := by
  rw [takeWhile_append h, List.takeWhile_cons_of_neg (by simp [Occurrence.isBegun]),
    List.append_nil]

/-- A history is cut in one way where a shutdown last began. -/
theorem cut_begun (h : .begun ∉ during) (h' : .begun ∉ during')
    (heq : during ++ .begun :: earlier = during' ++ .begun :: earlier') :
    during = during' ∧ earlier = earlier' := by
  have hduring : during = during' := by
    rw [← takeWhile_append_begun h, heq, takeWhile_append_begun h']
  subst hduring
  exact ⟨rfl, (List.cons_inj_right _).1 (List.append_cancel_left heq)⟩

/-- A ticket was registered since a shutdown last began exactly if none began since it was
registered. -/
theorem mem_registeredSince : t ∈ registeredSince history ↔
    ∃ before earlier, history = before ++ .registered t :: earlier ∧ .begun ∉ before := by
  constructor
  · intro ht
    obtain ⟨o, ho, hregistered⟩ := List.mem_filterMap.1 ht
    obtain rfl : o = .registered t := by
      cases o with
      | registered => rw [Option.some.inj hregistered]
      | begun | ran | ended => cases hregistered
    obtain ⟨before, between, hsince⟩ := List.mem_iff_append.1 ho
    refine ⟨before, between ++ history.dropWhile (!·.isBegun), ?_, fun hbegun => ?_⟩
    · calc history
        _ = history.takeWhile (!·.isBegun) ++ history.dropWhile (!·.isBegun) :=
            List.takeWhile_append_dropWhile.symm
        _ = before ++ .registered t :: (between ++ history.dropWhile (!·.isBegun)) := by
            rw [hsince, List.append_assoc, List.cons_append]
    · have hmem : .begun ∈ history.takeWhile (!·.isBegun) :=
        hsince ▸ List.mem_append_left _ hbegun
      exact absurd (List.mem_takeWhile_imp hmem) (by simp [Occurrence.isBegun])
  · rintro ⟨before, earlier, rfl, hbegun⟩
    rw [registeredSince, takeWhile_append hbegun]
    exact List.mem_filterMap.2 ⟨.registered t, by simp [Occurrence.isBegun], rfl⟩

/-! ## What has to come before -/

namespace Orderly

/-- What an orderly history began with was orderly. -/
theorem of_append : ∀ {later : List Occurrence} {left : Option (List Ticket)},
    Orderly (later ++ history) left → ∃ left', Orderly history left'
  | [], left, h => ⟨left, h⟩
  | o :: later, _, h => by
    cases h with
    | registered h => exact of_append h
    | begun h => exact of_append h
    | ran h => exact of_append h
    | ended h => exact of_append h

/-- The tickets that the shutdown under way has run and those that it has left are, in this order,
those registered before it began and after the last one did, the latest first. -/
theorem exists_begun (h : Orderly history (some rest)) :
    ∃ during earlier, history = during ++ .begun :: earlier ∧ .begun ∉ during ∧
      (during.filterMap Occurrence.ran?).reverse ++ rest = registeredSince earlier := by
  generalize hleft : some rest = left at h
  induction h generalizing rest with
  | nil => cases hleft
  | registered h t ih =>
    obtain ⟨during, earlier, rfl, hbegun, hran⟩ := ih hleft
    exact ⟨.registered t :: during, earlier, rfl, by simpa using hbegun, hran⟩
  | @begun history h =>
    cases hleft
    exact ⟨[], history, rfl, List.not_mem_nil, rfl⟩
  | @ran history t left h ih =>
    cases hleft
    obtain ⟨during, earlier, rfl, hbegun, hran⟩ := ih rfl
    have hcons : (Occurrence.ran t :: during).filterMap Occurrence.ran? =
        t :: during.filterMap Occurrence.ran? := rfl
    refine ⟨.ran t :: during, earlier, rfl, by simpa using hbegun, ?_⟩
    rw [← hran, hcons, List.reverse_cons, List.append_assoc, List.singleton_append]
  | ended => cases hleft

/-- A ticket that is run was registered before the shutdown began, and after the one before. -/
theorem exists_registered (h : Orderly (.ran t :: history) left) :
    ∃ during before earlier,
      history = during ++ .begun :: (before ++ .registered t :: earlier) ∧
        .begun ∉ during ∧ .begun ∉ before := by
  cases h with
  | ran h =>
    obtain ⟨during, earlier, rfl, hduring, hran⟩ := h.exists_begun
    have ht : t ∈ registeredSince earlier := by
      rw [← hran]
      exact List.mem_append_right _ List.mem_cons_self
    obtain ⟨before, earlier, rfl, hbefore⟩ := mem_registeredSince.1 ht
    exact ⟨during, before, earlier, rfl, hduring, hbefore⟩

/-- Every ticket that was registered has been run, is left for the shutdown under way, or has been
registered since the last one began. -/
theorem countP_eq (h : Orderly history left) (n : Nat) :
    history.countP (·.isRunOf n) + (left.getD []).countP (·.number = n) +
      (registeredSince history).countP (·.number = n) = history.countP (·.isRegistrationOf n) := by
  induction h with
  | nil => rfl
  | registered _ _ ih | begun _ ih | ran _ ih | ended _ ih =>
    simp only [List.countP_cons, Occurrence.isRunOf, Occurrence.isRegistrationOf, Occurrence.ran?,
      Occurrence.registered?, Option.any_none, Option.any_some, Bool.false_eq_true, if_false,
      Option.getD_some, Option.getD_none, List.countP_nil, registeredSince_registered,
      registeredSince_begun, registeredSince_ran, registeredSince_ended] at ih ⊢
    omega

end Orderly

/-- A list is cut in one way at what it holds only once. -/
theorem cut_once {P : Occurrence → Bool} (ho : P o) (ho' : P o') :
    ∀ {later later' : List Occurrence}, (later ++ o :: earlier).countP P ≤ 1 →
      later ++ o :: earlier = later' ++ o' :: earlier' →
      later = later' ∧ o = o' ∧ earlier = earlier'
  | [], [], _, heq => by
    obtain ⟨rfl, rfl⟩ := List.cons.inj heq
    exact ⟨rfl, rfl, rfl⟩
  | [], _ :: later', hone, heq => by
    rw [heq, List.cons_append, List.countP_cons, List.countP_append, List.countP_cons, if_pos ho',
      if_pos ((List.cons.inj heq).1 ▸ ho)] at hone
    omega
  | _ :: later, [], hone, heq => by
    rw [List.cons_append, List.countP_cons, List.countP_append, List.countP_cons, if_pos ho,
      if_pos ((List.cons.inj heq).1 ▸ ho')] at hone
    omega
  | _ :: later, _ :: later', hone, heq => by
    rw [List.cons_append, List.countP_cons] at hone
    rw [List.cons_append, List.cons_append, List.cons_eq_cons] at heq
    obtain ⟨rfl, rfl, rfl⟩ := cut_once ho ho' (Nat.le_of_add_right_le hone) heq.2
    exact ⟨by rw [heq.1], rfl, rfl⟩

/-! ## Results -/

/-- The failures of a shutdown are the tasks that fail. -/
theorem failures_run (s : Shutdown) :
    s.run.1.failures = s.tasks.countP fun task => task.error.isSome := by
  have hfailure : ∀ entry : CleanupTask × Nat,
      (failure? entry.2 entry.1).isSome = entry.1.error.isSome := fun entry => by
    rw [failure?, Option.isSome_map]
  show (List.filterMap (fun entry : CleanupTask × Nat => failure? entry.2 entry.1)
    s.tasks.zipIdx.reverse).length = _
  rw [List.length_filterMap_eq_countP, List.countP_reverse]
  calc s.tasks.zipIdx.countP fun entry => (failure? entry.2 entry.1).isSome
    _ = s.tasks.zipIdx.countP ((fun task => task.error.isSome) ∘ Prod.fst) := by
        simp only [hfailure, Function.comp_def]
    _ = (s.tasks.zipIdx.map Prod.fst).countP fun task => task.error.isSome :=
        (List.countP_map ..).symm
    _ = s.tasks.countP fun task => task.error.isSome := by rw [List.zipIdx_map_fst]

/-- A shutdown succeeds unless a task fails. -/
theorem succeeded_run (s : Shutdown) :
    s.run.1.succeeded = false ↔ ∃ task ∈ s.tasks, task.error.isSome := by
  rw [Result.succeeded, failures_run, decide_eq_false_iff_not, ← List.countP_pos_iff]
  exact Nat.pos_iff_ne_zero.symm

/-! ## The journal of calls -/

namespace Journal

/-- The history is orderly, the tickets that wait are those registered since a shutdown last began,
and the registrations are numbered one after the other. -/
structure Keeps (j : Journal) (left : Option (List Ticket)) : Prop where
  /-- The history is orderly, with some tickets left to run. -/
  orderly : Orderly j.history left
  /-- The tickets wait that were registered since a shutdown last began. -/
  waiting_eq : j.waiting.reverse = registeredSince j.history
  /-- The numbers go down to 0 from the latest registration on. -/
  numbers_eq : (j.history.filterMap Occurrence.registered?).map Ticket.number =
    (List.range j.next).reverse

variable {j : Journal}

/-- Registering tasks runs none. -/
theorem ranSince_foldl_register (j : Journal) (tasks : List CleanupTask) :
    ranSince (tasks.foldl register j).history = ranSince j.history := by
  induction tasks generalizing j with
  | nil => rfl
  | cons task tasks ih => exact ih (j.register task)

/-- The tickets that are run one after the other are those run last. -/
theorem ranSince_foldl_runTask (j : Journal) (tickets : List Ticket) :
    ranSince (tickets.foldl runTask j).history = tickets.reverse ++ ranSince j.history := by
  induction tickets generalizing j with
  | nil => rfl
  | cons t tickets ih =>
    rw [List.foldl_cons, ih, runTask, ranSince_foldl_register, ranSince_ran, List.reverse_cons,
      List.append_assoc, List.singleton_append]

/-- What waits after registrations. -/
theorem map_waiting_foldl_register (j : Journal) (tasks : List CleanupTask) :
    (tasks.foldl register j).waiting.map Ticket.task = j.waiting.map Ticket.task ++ tasks := by
  induction tasks generalizing j with
  | nil => exact (List.append_nil _).symm
  | cons task tasks ih =>
    rw [List.foldl_cons, ih, register, List.map_append, List.append_assoc]
    rfl

/-- What waits after tickets have been run is what their tasks have registered. -/
theorem map_waiting_foldl_runTask (j : Journal) (tickets : List Ticket) :
    (tickets.foldl runTask j).waiting.map Ticket.task =
      j.waiting.map Ticket.task ++ tickets.flatMap (·.task.registers) := by
  induction tickets generalizing j with
  | nil => exact (List.append_nil _).symm
  | cons t tickets ih =>
    rw [List.foldl_cons, ih, runTask, map_waiting_foldl_register, List.flatMap_cons,
      List.append_assoc]

/-- No shutdown ends while tickets are run. -/
theorem ended_foldl_runTask (j : Journal) (tickets : List Ticket) :
    (tickets.foldl runTask j).history.filterMap Occurrence.ended? =
      j.history.filterMap Occurrence.ended? := by
  have hregister : ∀ (tasks : List CleanupTask) (j : Journal),
      (tasks.foldl register j).history.filterMap Occurrence.ended? =
        j.history.filterMap Occurrence.ended? := fun tasks => by
    induction tasks with
    | nil => exact fun _ => rfl
    | cons task tasks ih => exact fun j => ih (j.register task)
  induction tickets generalizing j with
  | nil => rfl
  | cons t tickets ih =>
    rw [List.foldl_cons, ih, runTask, hregister]
    rfl

/-- The journal after a call tells the result of the call and what is left to wait. -/
theorem perform_eq (j : Journal) (c : Call) :
    c.perform (⟨j.waiting.map Ticket.task⟩, j.history.filterMap Occurrence.ended?) =
      (⟨(j.call c).waiting.map Ticket.task⟩,
        (j.call c).history.filterMap Occurrence.ended?) := by
  cases c with
  | register task =>
    show ((⟨j.waiting.map Ticket.task ++ [task]⟩ : Shutdown), _) = _
    rw [call, register, List.map_append]
    rfl
  | shutdown =>
    have hwaiting : (j.waiting.reverse.foldl runTask j.begin).waiting.map Ticket.task =
        (j.waiting.map Ticket.task).reverse.flatMap (·.registers) := by
      rw [map_waiting_foldl_runTask, ← List.map_reverse, List.flatMap_map]
      rfl
    have hended := ended_foldl_runTask j.begin j.waiting.reverse
    show _ = ((⟨(j.waiting.reverse.foldl runTask j.begin).waiting.map Ticket.task⟩ : Shutdown),
      (run ⟨j.waiting.map Ticket.task⟩).1 ::
        (j.waiting.reverse.foldl runTask j.begin).history.filterMap Occurrence.ended?)
    rw [hwaiting, hended]
    rfl

/-- The journal tells the results of the calls and what is left to wait. -/
theorem performAll_eq (calls : List Call) :
    performAll calls = (⟨(ofCalls calls).waiting.map Ticket.task⟩,
      (ofCalls calls).history.filterMap Occurrence.ended?) := by
  induction calls using List.reverseRecOn with
  | nil => rfl
  | append_singleton calls c ih =>
    rw [performAll] at ih
    rw [performAll, ofCalls, List.foldl_concat, List.foldl_concat, ih]
    exact perform_eq (ofCalls calls) c

namespace Keeps

theorem empty : Keeps .empty none := ⟨.nil, rfl, rfl⟩

/-- A task that is registered is one more that is waiting. -/
theorem register (h : Keeps j left) (task : CleanupTask) : Keeps (j.register task) left where
  orderly := h.orderly.registered _
  waiting_eq := by
    show (j.waiting ++ [_]).reverse = _ :: registeredSince j.history
    rw [List.reverse_append, h.waiting_eq]
    rfl
  numbers_eq := by
    show j.next :: (j.history.filterMap Occurrence.registered?).map Ticket.number =
      (List.range (j.next + 1)).reverse
    rw [h.numbers_eq, List.range_succ, List.reverse_append]
    rfl

theorem foldl_register (h : Keeps j left) (tasks : List CleanupTask) :
    Keeps (tasks.foldl Journal.register j) left := by
  induction tasks generalizing j with
  | nil => exact h
  | cons task tasks ih => exact ih (h.register task)

/-- The next task runs. -/
theorem runTask (h : Keeps j (some (t :: rest))) : Keeps (j.runTask t) (some rest) := by
  have hran : Keeps ⟨.ran t :: j.history, j.waiting, j.next⟩ (some rest) :=
    ⟨h.orderly.ran, h.waiting_eq, h.numbers_eq⟩
  exact hran.foldl_register t.task.registers

/-- All that are left run. -/
theorem foldl_runTask (h : Keeps j (some rest)) :
    Keeps (rest.foldl Journal.runTask j) (some []) := by
  induction rest generalizing j with
  | nil => exact h
  | cons t rest ih => exact ih h.runTask

/-- A shutdown begins with what is waiting, the latest first. -/
theorem begin (h : Keeps j none) : Keeps j.begin (some j.waiting.reverse) where
  orderly := h.waiting_eq ▸ h.orderly.begun
  waiting_eq := rfl
  numbers_eq := h.numbers_eq

/-- A shutdown leaves nothing to run. -/
theorem shutdown (h : Keeps j none) : Keeps j.shutdown none := by
  have hdone := h.begin.foldl_runTask
  have hran : ranSince (j.waiting.reverse.foldl Journal.runTask j.begin).history = j.waiting := by
    rw [ranSince_foldl_runTask, List.reverse_reverse]
    exact List.append_nil _
  refine ⟨?_, hdone.waiting_eq, hdone.numbers_eq⟩
  have hended := hdone.orderly.ended
  rw [hran] at hended
  exact hended

/-- A call on its own leaves no shutdown under way. -/
theorem call (h : Keeps j none) (c : Call) : Keeps (j.call c) none := by
  cases c with
  | register task => exact h.register task
  | shutdown => exact h.shutdown

/-- After calls no shutdown is under way. -/
theorem ofCalls (calls : List Call) : Keeps (Journal.ofCalls calls) none := by
  induction calls using List.reverseRecOn with
  | nil => exact .empty
  | append_singleton calls c ih =>
    rw [Journal.ofCalls, List.foldl_concat]
    exact ih.call c

/-- No registration has the number of another. -/
theorem countP_isRegistrationOf_le (h : Keeps j left) (n : Nat) :
    j.history.countP (·.isRegistrationOf n) ≤ 1 := by
  have hcount : j.history.countP (·.isRegistrationOf n) =
      ((j.history.filterMap Occurrence.registered?).map Ticket.number).count n := by
    rw [List.count_eq_countP, List.countP_map, List.countP_filterMap]
    refine List.countP_congr fun o _ => ?_
    cases o <;> simp [Occurrence.isRegistrationOf, Occurrence.registered?]
  rw [hcount, h.numbers_eq]
  exact List.nodup_iff_count_le_one.1 (List.nodup_reverse.2 List.nodup_range) n

/-- There is one place at which a ticket with the number is registered. -/
theorem cut_registration (h : Keeps j left) {u : Ticket} (hu : u.number = t.number)
    (ht : j.history = later ++ .registered t :: earlier)
    (hu' : j.history = later' ++ .registered u :: earlier') :
    later = later' ∧ t = u ∧ earlier = earlier' := by
  have hone := h.countP_isRegistrationOf_le t.number
  rw [ht] at hone
  obtain ⟨hlater, heq, hearlier⟩ := cut_once (P := (·.isRegistrationOf t.number))
    (by simp [Occurrence.isRegistrationOf, Occurrence.registered?])
    (by simp [Occurrence.isRegistrationOf, Occurrence.registered?, hu]) hone (ht.symm.trans hu')
  exact ⟨hlater, Occurrence.registered.inj heq, hearlier⟩

/-- A ticket has not been run if no shutdown has begun since it was registered. -/
theorem countP_isRunOf_eq_zero (h : Keeps j none)
    (ht : j.history = later ++ .registered t :: earlier) (hbegun : .begun ∉ later) :
    j.history.countP (·.isRunOf t.number) = 0 := by
  have hwaits : 0 < (registeredSince j.history).countP (·.number = t.number) :=
    List.countP_pos_iff.2 ⟨t, mem_registeredSince.2 ⟨later, earlier, ht, hbegun⟩, by simp⟩
  have hone := h.countP_isRegistrationOf_le t.number
  have hplaces := h.orderly.countP_eq t.number
  omega

/-- A ticket has been run once if a shutdown has begun since it was registered. -/
theorem countP_isRunOf_eq_one (h : Keeps j none)
    (ht : j.history = later ++ .registered t :: earlier) (hbegun : .begun ∈ later) :
    j.history.countP (·.isRunOf t.number) = 1 := by
  have hwaits : (registeredSince j.history).countP (·.number = t.number) = 0 := by
    refine List.countP_eq_zero.2 fun u hu hnumber => ?_
    obtain ⟨before, earlier', hcut, hbefore⟩ := mem_registeredSince.1 hu
    obtain ⟨rfl, -⟩ := h.cut_registration (of_decide_eq_true hnumber) ht hcut
    exact hbefore hbegun
  have hregistered : 0 < j.history.countP (·.isRegistrationOf t.number) :=
    List.countP_pos_iff.2 ⟨.registered t, by simp [ht], by simp [Occurrence.isRegistrationOf,
      Occurrence.registered?]⟩
  have hone := h.countP_isRegistrationOf_le t.number
  have hplaces : j.history.countP (·.isRunOf t.number) + 0 + _ = _ :=
    h.orderly.countP_eq t.number
  omega

/-- A ticket is run by the first shutdown that begins after its registration. -/
theorem exists_run (h : Keeps j none) (ht : j.history = later ++ .registered t :: earlier)
    (hbegun : .begun ∈ later) :
    ∃ after during before, later = after ++ .ran t :: during ++ .begun :: before ∧
      .begun ∉ during ∧ .begun ∉ before := by
  have hrun : 0 < j.history.countP (·.isRunOf t.number) := by
    rw [h.countP_isRunOf_eq_one ht hbegun]
    exact Nat.one_pos
  obtain ⟨o, ho, hnumber⟩ := List.countP_pos_iff.1 hrun
  obtain ⟨u, rfl, hu⟩ : ∃ u, o = .ran u ∧ u.number = t.number := by
    cases o with
    | ran u => exact ⟨u, rfl, of_decide_eq_true hnumber⟩
    | registered | begun | ended => cases hnumber
  obtain ⟨after, older, hafter⟩ := List.mem_iff_append.1 ho
  obtain ⟨left, horderly⟩ := Orderly.of_append (hafter ▸ h.orderly)
  obtain ⟨during, before, earlier', rfl, hduring, hbefore⟩ := horderly.exists_registered
  have hcut : j.history =
      (after ++ .ran u :: during ++ .begun :: before) ++ .registered u :: earlier' := by
    rw [hafter]
    simp
  obtain ⟨rfl, rfl, -⟩ := h.cut_registration hu ht hcut
  exact ⟨after, during, before, rfl, hduring, hbefore⟩

/-- A shutdown runs, the latest first, the tickets registered before it began and after the last one
did. Its result is that of their tasks. -/
theorem ended (h : Keeps j none)
    (hended : j.history = later ++ .ended result :: during ++ .begun :: earlier)
    (hbegun : .begun ∉ during) :
    (during.filterMap Occurrence.ran?).reverse = registeredSince earlier ∧
      result = (run ⟨(during.filterMap Occurrence.ran?).map Ticket.task⟩).1 := by
  have hsince : ranSince (during ++ .begun :: earlier) = during.filterMap Occurrence.ran? := by
    rw [ranSince, takeWhile_append_begun hbegun]
  have hcut : j.history = later ++ (.ended result :: (during ++ .begun :: earlier)) := by
    rw [hended]
    simp
  obtain ⟨left, horderly⟩ := Orderly.of_append (hcut ▸ h.orderly)
  cases horderly with
  | ended hall =>
    obtain ⟨during', earlier', heq, hbegun', hran⟩ := hall.exists_begun
    obtain ⟨rfl, rfl⟩ := cut_begun hbegun hbegun' heq
    rw [List.append_nil] at hran
    exact ⟨hran, by rw [hsince]⟩

/-- Of the tickets registered since a shutdown began, each has a lower number than those in front
of it. -/
theorem pairwise_number (h : Keeps j left) (hearlier : earlier <:+ j.history) :
    (registeredSince earlier).Pairwise fun t u => u.number < t.number := by
  have hsublist : (registeredSince earlier).Sublist
      (j.history.filterMap Occurrence.registered?) :=
    ((List.takeWhile_sublist _).trans hearlier.sublist).filterMap _
  have hnumbers : ((j.history.filterMap Occurrence.registered?).map Ticket.number).Pairwise
      fun m n => n < m := by
    rw [h.numbers_eq, List.pairwise_reverse]
    exact List.pairwise_lt_range
  exact (List.pairwise_map.1 hnumbers).sublist hsublist

end Keeps

end Journal

/-- Whatever the calls, the registrations are numbered in their order. A task is not run if no
shutdown begins after its registration. Otherwise it is run exactly once, by the first shutdown that
begins after it. Each shutdown runs the tasks registered before it began and after the one before,
the latest first, whether they fail or not. It fails exactly if one of them does, and tells how many
do. -/
theorem runs_exactly_once (calls : List Call) :
    let j := Journal.ofCalls calls
    performAll calls =
      (⟨j.waiting.map Ticket.task⟩, j.history.filterMap Occurrence.ended?) ∧
    (j.history.filterMap Occurrence.registered?).map Ticket.number =
      (List.range j.next).reverse ∧
    (∀ later t earlier, j.history = later ++ .registered t :: earlier →
      (.begun ∉ later → j.history.countP (·.isRunOf t.number) = 0) ∧
      (.begun ∈ later → j.history.countP (·.isRunOf t.number) = 1 ∧
        ∃ after during before, later = after ++ .ran t :: during ++ .begun :: before ∧
          .begun ∉ during ∧ .begun ∉ before)) ∧
    (∀ later result during earlier,
      j.history = later ++ .ended result :: during ++ .begun :: earlier → .begun ∉ during →
      let ran := (during.filterMap Occurrence.ran?).reverse
      ran = registeredSince earlier ∧ ran.Pairwise (fun t u => u.number < t.number) ∧
      result.ran = ran.map Ticket.task ∧
      (result.succeeded = false ↔ ∃ t ∈ ran, t.task.error.isSome) ∧
      result.message = ("shutdown completed with " : Text) ++
        Text.ofNat (ran.countP fun t => t.task.error.isSome) ++ " errors") := by
  intro j
  have h : j.Keeps none := .ofCalls calls
  refine ⟨Journal.performAll_eq calls, h.numbers_eq, fun later t earlier ht =>
    ⟨h.countP_isRunOf_eq_zero ht, fun hbegun =>
      ⟨h.countP_isRunOf_eq_one ht hbegun, h.exists_run ht hbegun⟩⟩, ?_⟩
  intro later result during earlier hended hbegun ran
  obtain ⟨hran, rfl⟩ := h.ended hended hbegun
  refine ⟨hran, ?_, ?_, ?_, ?_⟩
  · have hsuffix : earlier <:+ j.history :=
      hended ▸ (List.suffix_cons _ earlier).trans (List.suffix_append _ _)
    have hpairwise := h.pairwise_number hsuffix
    rw [← hran] at hpairwise
    exact hpairwise
  · exact List.map_reverse.symm
  · rw [succeeded_run]
    simp [ran]
  · rw [Result.message, failures_run, List.countP_map, List.countP_reverse]
    rfl

/-- What a task registers while it runs is left for the next shutdown, and a failure does not keep
the other task from being run. -/
example :
    let (s, results) := performAll [.register (.mk "a" none [.mk "c" none []]),
      .register (.mk "b" (some "refused") []), .shutdown, .shutdown]
    results.map (fun r => (r.ran.map CleanupTask.name, r.succeeded)) =
      [([("c" : Text)], true), (["b", "a"], false)] ∧ s.tasks.isEmpty := by
  decide

end

end Shutdown

end PackageCycles

import PackageCycles.Session

/-!
# Which settings are accepted

Settings are tried step by step, and the first step that fails decides. A sequence of steps succeeds
exactly if each of them does (`Success.bind_iff`), so what accepted settings have to fulfil can be
read off the steps: for the rules that they keep (`Settings.validate_eq_ok_iff`), for an analyzer
(`Analyzer.new_eq_ok_iff`) and for a session (`Session.start_eq_ok_iff`).
-/

namespace PackageCycles

namespace Success

section
variable {ε ε' α β : Type} {x : Except ε α} {next : α → Except ε β} {e : ε} {a : α} {b : β}

/-- A sequence of steps succeeds exactly if each of them does. -/
theorem bind_iff : (x >>= next) = .ok b ↔ ∃ a, x = .ok a ∧ next a = .ok b := by
  cases x with
  | error e => exact ⟨nofun, nofun⟩
  | ok a => exact ⟨fun h => ⟨a, rfl, h⟩, fun ⟨_, rfl, h⟩ => h⟩

/-- Another wording of what went wrong changes no success. -/
theorem mapError_iff {wording : ε → ε'} : x.mapError wording = .ok a ↔ x = .ok a := by
  cases x with
  | error e => exact ⟨nofun, nofun⟩
  | ok a => exact ⟨fun | rfl => rfl, fun | rfl => rfl⟩

/-- What is made of the result in the end changes no fault. -/
theorem return_error_iff {made : α → β} : (x >>= fun a => return made a) = .error e ↔
    x = .error e := by
  cases x with
  | error e' => exact ⟨fun | rfl => rfl, fun | rfl => rfl⟩
  | ok a => exact ⟨nofun, nofun⟩

/-- The steps after one that fails are not taken. -/
theorem throw_bind (e : ε) (next : α → Except ε β) : (throw e >>= next) = throw e := rfl

/-- A step that fails under a condition succeeds if the condition does not hold. -/
theorem unless_iff {p : Prop} [Decidable p] :
    (if p then throw e else x) = .ok a ↔ ¬ p ∧ x = .ok a := by
  split
  next hp => exact ⟨nofun, fun h => absurd hp h.1⟩
  next hp => exact (and_iff_right hp).symm

end

end Success

/-- The rules that settings have to keep. -/
theorem Settings.validate_eq_ok_iff {s : Settings} : s.validate = .ok () ↔
    1 ≤ s.maxDepth ∧ (∃ traversal, Traversal.parse s.traversal = .ok traversal) ∧
      s.sourceRoot ≠ [] ∧ s.fileSuffix ≠ [] ∧
      (∃ format, Log.Format.parse s.log.format = .ok format) ∧
      (s.tracing.enabled → s.tracing.endpoint ≠ [] ∧ s.tracing.serviceName ≠ []) := by
  have htracing : (if s.tracing.enabled then
        if s.tracing.endpoint = [] then throw .noEndpoint
        else if s.tracing.serviceName = [] then throw .noServiceName else pure ()
      else pure () : Except Settings.Violation Unit) = .ok () ↔
      (s.tracing.enabled → s.tracing.endpoint ≠ [] ∧ s.tracing.serviceName ≠ []) := by
    cases s.tracing.enabled with
    | false => simp [pure, Except.pure]
    | true => simp [Success.unless_iff, pure, Except.pure]
  simp only [Settings.validate, Success.throw_bind, Success.unless_iff, Success.bind_iff,
    Success.mapError_iff, htracing, Int.not_lt]
  constructor
  · rintro ⟨hdepth, traversal, htraversal, hroot, hsuffix, format, hformat, htracing⟩
    exact ⟨hdepth, ⟨traversal, htraversal⟩, hroot, hsuffix, ⟨format, hformat⟩, htracing⟩
  · rintro ⟨hdepth, ⟨traversal, htraversal⟩, hroot, hsuffix, ⟨format, hformat⟩, htracing⟩
    exact ⟨hdepth, traversal, htraversal, hroot, hsuffix, format, hformat, htracing⟩

theorem Log.Format.parse_text : Log.Format.parse "text" = .ok .text := by
  have hword : Text.lowerWord "text" = "text" := by decide +kernel
  rw [Log.Format.parse, hword]
  rfl

/-- The defaults keep the rules. -/
theorem Settings.validate_default : Settings.default.validate = .ok () :=
  Settings.validate_eq_ok_iff.2
    ⟨by decide, ⟨.shared, rfl⟩, by decide, by decide, ⟨.text, Log.Format.parse_text⟩, nofun⟩

/-- An analyzer needs settings that keep the rules and well-formed patterns. -/
theorem Analyzer.new_eq_ok_iff {s : Settings} {a : Analyzer} : Analyzer.new s = .ok a ↔
    s.validate = .ok () ∧ ∃ exclusion, Exclusion.compile s.excludePatterns = .ok exclusion ∧
      a = ⟨s.projectName, exclusion, s.detector, .ofFiles s.fileSuffix exclusion.excludes⟩ := by
  simp only [Analyzer.new, Success.bind_iff, Success.mapError_iff]
  constructor
  · rintro ⟨⟨⟩, hvalid, exclusion, hcompile, ⟨⟩⟩
    exact ⟨hvalid, exclusion, hcompile, rfl⟩
  · rintro ⟨hvalid, exclusion, hcompile, rfl⟩
    exact ⟨(), hvalid, exclusion, hcompile, rfl⟩

/-- A session needs settings whose log has a form. -/
theorem Session.start_eq_ok_iff {s : Settings} {session : Session} :
    Session.start s = .ok session ↔
      session.settings = s ∧ Log.Format.parse s.log.format = .ok session.format := by
  simp only [Session.start, Success.bind_iff]
  constructor
  · rintro ⟨format, hformat, ⟨⟩⟩
    exact ⟨rfl, hformat⟩
  · rintro ⟨rfl, hformat⟩
    exact ⟨session.format, hformat, rfl⟩

end PackageCycles

import PackageCycles.Proofs.Text.Separator
import PackageCycles.Settings.Basic

/-!
# What a cache id tells

A cache id puts the name of the project, the depth, the patterns, whether cycles are an error and
the traversal between colons. The last two are words without a colon, so an id always tells them
(`Settings.cacheId_eq_iff`). The depth is a decimal number, which tells the integer
(`Text.ofInt_injective`), but it stands between two free texts: the name may hold a colon, and the
patterns may hold what separates them. If they do not, an id tells all five
(`Settings.cacheId_eq_iff_of_delimited`). It says nothing about the source directory and about the
suffix of source files.
-/

namespace PackageCycles

namespace Settings
open Text

section
variable {s t : Settings}

/-! ## The words at the end -/

theorem traversalMode_eq_or (s : Settings) :
    s.traversalMode = .shared ∨ s.traversalMode = .perRoot := by
  rw [traversalMode, Traversal.parse]
  cases Traversal.ofName s.traversal with
  | shared => exact .inl rfl
  | perRoot => exact .inr rfl
  | unnamed name => exact .inl rfl

theorem traversalMode_eq_of_name_eq (h : s.traversalMode.name = t.traversalMode.name) :
    s.traversalMode = t.traversalMode := by
  rcases s.traversalMode_eq_or with hs | hs <;> rcases t.traversalMode_eq_or with ht | ht <;>
    rw [hs, ht] at h ⊢ <;> exact absurd h (by decide)

theorem colon_notMem_traversalMode_name (s : Settings) : byte ':' ∉ s.traversalMode.name := by
  rcases s.traversalMode_eq_or with hs | hs <;> rw [hs] <;> decide

/-- The name of the project, the depth and the patterns as they stand in a cache id. -/
def idSubject (s : Settings) : Text :=
  s.projectName ++ [byte ':'] ++
    (ofInt s.maxDepth ++ [byte ':'] ++ (("[" : Text) ++ join ", " s.excludePatterns ++ "]"))

theorem cacheId_eq (s : Settings) : s.cacheId =
    ("NoCyclicPackageDependencyRule" : Text) ++ [byte ':'] ++ s.idSubject ++ [byte ':'] ++
      ofBool s.failOnError ++ [byte ':'] ++ s.traversalMode.name := by
  have hcolon : (":" : Text) = [byte ':'] := rfl
  simp [cacheId, idSubject, join, List.intercalate_cons_cons, hcolon]

/-- A cache id always tells whether cycles are an error and which traversal is taken. -/
theorem cacheId_eq_iff : s.cacheId = t.cacheId ↔ s.idSubject = t.idSubject ∧
    s.failOnError = t.failOnError ∧ s.traversalMode = t.traversalMode := by
  constructor
  · intro h
    rw [cacheId_eq, cacheId_eq] at h
    obtain ⟨h, htraversal⟩ := cut_last s.colon_notMem_traversalMode_name
      t.colon_notMem_traversalMode_name h
    obtain ⟨h, hfail⟩ := cut_last (colon_notMem_ofBool _) (colon_notMem_ofBool _) h
    exact ⟨List.append_cancel_left h, ofBool_injective hfail,
      traversalMode_eq_of_name_eq htraversal⟩
  · rintro ⟨hsubject, hfail, htraversal⟩
    rw [cacheId_eq, cacheId_eq, hsubject, hfail, htraversal]

/-! ## The free texts -/

/-- The patterns can be told from what they are joined to: none of them holds what separates them,
and they are not the empty pattern alone, which looks like none. -/
def Delimited (patterns : List Text) : Prop :=
  patterns ≠ [[]] ∧ ∀ p ∈ patterns, ¬ (", " : Text) <:+: p
  deriving Decidable

theorem Delimited.eq_nil {patterns : List Text} (h : Delimited patterns)
    (hjoin : join ", " patterns = []) : patterns = [] := by
  match patterns with
  | [] => rfl
  | [p] =>
    have hp : p = [] := by simpa [join] using hjoin
    exact absurd (congrArg (fun p => [p]) hp) h.1
  | p :: q :: rest =>
    rw [join, List.intercalate_cons_cons, List.append_assoc] at hjoin
    exact absurd (List.append_eq_nil_iff.1 (List.append_eq_nil_iff.1 hjoin).2).1 (by decide)

/-- Patterns that can be told are told. -/
theorem Delimited.eq_of_join_eq {patterns patterns' : List Text} (h : Delimited patterns)
    (h' : Delimited patterns') (heq : join ", " patterns = join ", " patterns') :
    patterns = patterns' := by
  have hfree : ∀ {ps}, Delimited ps → ∀ p ∈ ps, Free ", " p :=
    fun hps p hp => (free_pair_iff (by decide)).2 (hps.2 p hp)
  match patterns, patterns' with
  | [], ps => exact (h'.eq_nil heq.symm).symm
  | ps, [] => exact h.eq_nil heq
  | p :: ps, q :: qs =>
    exact join_inj (List.cons_ne_nil p ps) (List.cons_ne_nil q qs) (hfree h) (hfree h') heq

/-- A cache id tells the name, the depth and the patterns as well, if the patterns can be told and
the names are known to be the same or hold no colon. -/
theorem cacheId_eq_iff_of_delimited (hs : Delimited s.excludePatterns)
    (ht : Delimited t.excludePatterns)
    (hname : s.projectName = t.projectName ∨
      byte ':' ∉ s.projectName ∧ byte ':' ∉ t.projectName) :
    s.cacheId = t.cacheId ↔ s.projectName = t.projectName ∧ s.maxDepth = t.maxDepth ∧
      s.excludePatterns = t.excludePatterns ∧ s.failOnError = t.failOnError ∧
      s.traversalMode = t.traversalMode := by
  rw [cacheId_eq_iff]
  constructor
  · rintro ⟨hsubject, hfail, htraversal⟩
    have hnames : s.projectName = t.projectName := by
      rcases hname with hsame | ⟨hcolon, hcolon'⟩
      · exact hsame
      · exact (Free.cut (free_byte_iff.2 hcolon) (free_byte_iff.2 hcolon') hsubject).1
    rw [idSubject, idSubject, hnames] at hsubject
    obtain ⟨hdepth, hpatterns⟩ := Free.cut (free_byte_iff.2 (colon_notMem_ofInt _))
      (free_byte_iff.2 (colon_notMem_ofInt _)) (List.append_cancel_left hsubject)
    have hjoin := List.append_cancel_left (List.append_cancel_right hpatterns)
    exact ⟨hnames, ofInt_injective hdepth, hs.eq_of_join_eq ht hjoin, hfail, htraversal⟩
  · rintro ⟨hnames, hdepth, hpatterns, hfail, htraversal⟩
    rw [idSubject, idSubject, hnames, hdepth, hpatterns]
    exact ⟨rfl, hfail, htraversal⟩

end

end Settings

end PackageCycles

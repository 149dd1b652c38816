import Mathlib.Data.List.Induction
import PackageCycles.Lint.Rule
import PackageCycles.Proofs.Graph.Edges

/-!
# What a registry holds

Assigning a value to a key keeps the keys of an increasing list of pairs in order and replaces what
the key stood for (`Ordered.mem_assign`). So a registry has its rules in strictly increasing order of
their names, and after any history of registrations it holds the latest rule of each name and no
other (`Registry.mem_rules_foldl_register`).
-/

namespace PackageCycles

/-! ## Histories of registrations -/

/-- The rule was registered, and no rule of its name was registered after it. -/
def Rule.IsLatest (rule : Rule) (history : List Rule) : Prop :=
  ∃ before after, history = before ++ rule :: after ∧ ∀ r ∈ after, r.name ≠ rule.name

/-- With one more registration, the latest rule of a name is the one registered or, if it has
another name, the one before. -/
theorem Rule.isLatest_concat {rule r : Rule} {history : List Rule} :
    rule.IsLatest (history ++ [r]) ↔ rule = r ∨ rule.name ≠ r.name ∧ rule.IsLatest history := by
  constructor
  · rintro ⟨before, after, heq, hafter⟩
    rcases List.eq_nil_or_concat after with rfl | ⟨after, last, rfl⟩
    · exact .inl (List.singleton_inj.1 (List.append_inj' heq rfl).2).symm
    · have heq : history ++ [r] = (before ++ rule :: after) ++ [last] := by simpa using heq
      obtain ⟨rfl, hlast⟩ := List.append_inj' heq rfl
      obtain rfl := List.singleton_inj.1 hlast
      exact .inr ⟨(hafter r (by simp)).symm, before, after, rfl,
        fun s hs => hafter s (by simp [hs])⟩
  · rintro (rfl | ⟨hname, before, after, rfl, hafter⟩)
    · exact ⟨history, [], rfl, by simp⟩
    · refine ⟨before, after ++ [r], by simp, fun s hs => ?_⟩
      rcases List.mem_append.1 hs with hs | hs
      · exact hafter s hs
      · exact List.mem_singleton.1 hs ▸ hname.symm

namespace Registry

/-- The entries are in strictly increasing order of their names, each under the name of its rule. -/
structure IsSound (r : Registry) : Prop where
  /-- The names increase strictly. -/
  ordered : Ordered.IsOrdered (r.entries.map Prod.fst)
  /-- An entry has the name of its rule. -/
  named : ∀ name rule, (name, rule) ∈ r.entries → name = rule.name

theorem isSound_empty : empty.IsSound := ⟨.nil, fun _ _ h => nomatch h⟩

theorem IsSound.register {r : Registry} (h : r.IsSound) (rule : Rule) :
    (r.register rule).IsSound := by
  refine ⟨Ordered.isOrdered_keys_assign h.ordered rule.name rule, fun name other hmem => ?_⟩
  rcases (Ordered.mem_assign h.ordered).1 hmem with ⟨rfl, rfl⟩ | ⟨-, hmem⟩
  · rfl
  · exact h.named name other hmem

/-- A sound registry has its rules in strictly increasing order of their names. -/
theorem IsSound.isOrdered_names {r : Registry} (h : r.IsSound) :
    Ordered.IsOrdered (r.rules.map (·.name)) := by
  have hnames : r.rules.map (·.name) = r.entries.map Prod.fst := by
    rw [rules, List.map_map]
    exact List.map_congr_left fun entry hentry => (h.named entry.1 entry.2 hentry).symm
  exact hnames ▸ h.ordered

theorem IsSound.mem_rules {r : Registry} (h : r.IsSound) {rule : Rule} :
    rule ∈ r.rules ↔ (rule.name, rule) ∈ r.entries := by
  rw [rules, List.mem_map]
  constructor
  · rintro ⟨⟨name, rule⟩, hmem, rfl⟩
    exact h.named name rule hmem ▸ hmem
  · exact fun hmem => ⟨_, hmem, rfl⟩

theorem isSound_foldl_register (history : List Rule) : (history.foldl register empty).IsSound := by
  induction history using List.reverseRecOn with
  | nil => exact isSound_empty
  | append_singleton history rule ih =>
    rw [List.foldl_append]
    exact ih.register rule

/-- After a history of registrations, a registry holds the latest rule of each name. -/
theorem mem_rules_foldl_register {history : List Rule} {rule : Rule} :
    rule ∈ (history.foldl register empty).rules ↔ rule.IsLatest history := by
  induction history using List.reverseRecOn with
  | nil =>
    refine ⟨fun h => (List.not_mem_nil h).elim, ?_⟩
    rintro ⟨before, after, heq, -⟩
    simp at heq
  | append_singleton history r ih =>
    have hsound := isSound_foldl_register history
    have hsound' : ((history.foldl register empty).register r).IsSound := hsound.register r
    rw [hsound.mem_rules] at ih
    rw [List.foldl_append, List.foldl_cons, List.foldl_nil, hsound'.mem_rules, register,
      Ordered.mem_assign hsound.ordered, Rule.isLatest_concat, ih]
    constructor
    · rintro (⟨-, rfl⟩ | hold)
      · exact .inl rfl
      · exact .inr hold
    · rintro (rfl | hold)
      · exact .inl ⟨rfl, rfl⟩
      · exact .inr hold

end Registry

end PackageCycles

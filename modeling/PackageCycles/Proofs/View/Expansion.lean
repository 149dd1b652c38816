import PackageCycles.Proofs.Detection.Arrivals
import PackageCycles.View.Basic

/-!
# What is drawn around a focus

The dependencies of a focus are followed depth first with one set of packages that have been drawn,
as a search for cycles follows them with one set of packages that have been touched. So a package is
entered by the first walk that arrives at it, and the walks kept by `Graph.firstArrivals` describe a
drawing as they describe a search (`Selection.Expands`): the packages drawn are the ends of the walks
(`Selection.hasNode_addDependencies`), and the edges drawn are those from the ends of the walks that
have not used up the hops (`Selection.drawnEdges_addDependencies_perm`). No two walks end in the same
package, hence no edge is drawn twice (`Selection.nodup_drawnEdges_addDependencies`).
-/

namespace PackageCycles

namespace Graph

/-- The edges from the package. -/
def outgoing (g : Graph) (p : Package) : List Edge := (g.dependencies p).map (Edge.mk p)

/-- The edges drawn from the end of a walk: all edges from there, if the walk has fewer than `limit`
packages. -/
def drawn (g : Graph) (limit : Nat) (walk : List Package) : List Edge :=
  if walk.length < limit then walk.getLast?.toList.flatMap g.outgoing else []

section
variable {g : Graph} {limit : Nat} {walk : List Package} {p : Package} {e : Edge}

/-- The outgoing edges of a package are the edges from it. -/
theorem mem_outgoing : e ∈ g.outgoing p ↔ e.source = p ∧ g.hasEdge p e.target := by
  rw [outgoing, List.mem_map]
  constructor
  · rintro ⟨q, hq, rfl⟩
    exact ⟨rfl, hasEdge_iff_mem_dependencies.2 hq⟩
  · rintro ⟨rfl, hedge⟩
    exact ⟨e.target, hasEdge_iff_mem_dependencies.1 hedge, rfl⟩

theorem drawn_of_lt (hlast : walk.getLast? = some p) (hlt : walk.length < limit) :
    g.drawn limit walk = g.outgoing p := by
  rw [drawn, if_pos hlt, hlast, Option.toList_some, List.flatMap_singleton]

theorem drawn_of_not_lt (hlt : ¬ walk.length < limit) : g.drawn limit walk = [] := by
  rw [drawn, if_neg hlt]

/-- A walk with hops to spare draws the edges that go out from its end. -/
theorem mem_drawn : e ∈ g.drawn limit walk ↔
    walk.length < limit ∧ walk.getLast? = some e.source ∧ g.hasEdge e.source e.target := by
  by_cases hlt : walk.length < limit
  · cases hlast : walk.getLast? with
    | none => simp [drawn, hlast]
    | some p =>
      rw [drawn_of_lt hlast hlt, mem_outgoing, Option.some.injEq]
      constructor
      · rintro ⟨rfl, hedge⟩
        exact ⟨hlt, rfl, hedge⟩
      · rintro ⟨-, rfl, hedge⟩
        exact ⟨rfl, hedge⟩
  · simp [drawn_of_not_lt hlt, hlt]

/-- The walks of a tree end in different packages, so no edge is drawn from two of them. -/
theorem Arrived.nodup_drawn {kept : List (List Package)} (h : Arrived g kept) (limit : Nat) :
    (kept.flatMap (g.drawn limit)).Nodup := by
  rw [List.nodup_flatMap]
  refine ⟨fun walk _ => ?_, (List.pairwise_map.1 h.ends).imp fun {v w} hvw e he he' => ?_⟩
  · by_cases hlt : walk.length < limit
    · cases hlast : walk.getLast? with
      | none => simp [drawn, hlast]
      | some p =>
        rw [drawn_of_lt hlast hlt]
        refine (g.isOrdered_dependencies p).nodup.map fun q r hqr => ?_
        cases hqr
        rfl
    · rw [drawn_of_not_lt hlt]
      exact .nil
  · exact hvw ((mem_drawn.1 he).2.1.trans (mem_drawn.1 he').2.1.symm)

end

end Graph

namespace Selection

open PackageCycles.Graph (walks firstArrivals ArrivesFirst)

/-- The edges drawn, without their parts. -/
def drawnEdges (s : Selection) : List Edge := s.edges.map Prod.fst

/-- The package is drawn; if it was not drawn before, its own dependencies are followed. -/
def enter (g : Graph) (hops : Nat) (s : Selection) (p : Package) : Selection :=
  if s.hasNode p then s else (s.addNode p .dependency).addDependencies g hops .transitive p

/-- The packages drawn are the ends of the walks kept. -/
def Tracks (kept : List (List Package)) (s : Selection) : Prop :=
  ∀ q, s.hasNode q ↔ ∃ w ∈ kept, w.getLast? = some q

/-- From `s` with the walks `kept` the drawing gets to `s'` with the walks `kept'`, each new one of
which satisfies `P`. It gains the edges `added` and those from the ends of the new walks. -/
structure Expands (g : Graph) (limit : Nat) (P : List Package → Prop) (added : List Edge)
    (kept : List (List Package)) (s : Selection) (kept' : List (List Package)) (s' : Selection) :
    Prop where
  /-- The packages drawn are the ends of the walks kept. -/
  tracks : Tracks kept' s'
  /-- No walk is dropped. -/
  subset : kept ⊆ kept'
  /-- The new walks are such as `P` says. -/
  mem_or : ∀ w ∈ kept', w ∈ kept ∨ P w
  /-- A new edge leads to a package that is drawn. -/
  target_mem : ∀ e ∈ s'.drawnEdges, e ∈ s.drawnEdges ∨ s'.hasNode e.target
  /-- Each edge is drawn as often as it is added or leads from the end of a new walk. -/
  edges_count : ∀ e, s'.drawnEdges.count e + (kept.flatMap (g.drawn limit)).count e =
    s.drawnEdges.count e + added.count e + (kept'.flatMap (g.drawn limit)).count e

section
variable {g : Graph} {limit hops : Nat} {P Q : List Package → Prop} {added added' : List Edge}
  {kept kept₁ kept₂ : List (List Package)} {s s₁ s₂ : Selection} {path : List Package}
  {role : EdgeRole} {p q : Package} {e : Edge}

@[simp] theorem hasNode_addEdge : (s.addEdge e role).hasNode q = s.hasNode q := rfl

@[simp] theorem drawnEdges_addNode {nodeRole : NodeRole} :
    (s.addNode p nodeRole).drawnEdges = s.drawnEdges := rfl

@[simp] theorem drawnEdges_addEdge : (s.addEdge e role).drawnEdges = s.drawnEdges ++ [e] := by
  rw [drawnEdges, drawnEdges, addEdge, List.map_append, List.map_singleton]

theorem hasNode_addNode {nodeRole : NodeRole} :
    (s.addNode p nodeRole).hasNode q ↔ s.hasNode q ∨ p = q := by
  simp [hasNode, addNode]

theorem addDependencies_zero : s.addDependencies g 0 role p = s := by
  rw [addDependencies]

/-- With a hop to spare each dependency is entered and the edge to it is drawn. -/
theorem addDependencies_succ : s.addDependencies g (hops + 1) role p =
    (g.dependencies p).foldl (fun s q => (enter g hops s q).addEdge ⟨p, q⟩ role) s := by
  rw [addDependencies]
  rfl

/-! ## Stretches of an expansion -/

/-- Nothing happens. -/
theorem Tracks.expands_self (h : Tracks kept s) : Expands g limit P [] kept s kept s where
  tracks := h
  subset := List.Subset.refl _
  mem_or w hw := .inl hw
  target_mem e he := .inl he
  edges_count e := by rw [List.count_nil, Nat.add_zero]

/-- What was drawn stays drawn while walks are only added. -/
theorem Tracks.hasNode_mono (h : Tracks kept s) (h₁ : Tracks kept₁ s₁) (hsubset : kept ⊆ kept₁)
    (hq : s.hasNode q) : s₁.hasNode q := by
  obtain ⟨w, hw, hlast⟩ := (h q).1 hq
  exact (h₁ q).2 ⟨w, hsubset hw, hlast⟩

/-- One stretch of an expansion after another. -/
theorem Expands.trans (h₁ : Expands g limit P added kept s kept₁ s₁)
    (h₂ : Expands g limit Q added' kept₁ s₁ kept₂ s₂) :
    Expands g limit (fun w => P w ∨ Q w) (added ++ added') kept s kept₂ s₂ where
  tracks := h₂.tracks
  subset := List.Subset.trans h₁.subset h₂.subset
  mem_or w hw := by
    rcases h₂.mem_or w hw with hw | hw
    · exact (h₁.mem_or w hw).imp_right .inl
    · exact .inr (.inr hw)
  target_mem e he := by
    rcases h₂.target_mem e he with he | he
    · exact (h₁.target_mem e he).imp_right (h₁.tracks.hasNode_mono h₂.tracks h₂.subset)
    · exact .inr he
  edges_count e := by
    have he₁ := h₁.edges_count e
    have he₂ := h₂.edges_count e
    rw [List.count_append]
    omega

/-- The same with a weaker condition on the new walks. -/
theorem Expands.imp (h : Expands g limit P added kept s kept₁ s₁) (hP : ∀ w, P w → Q w) :
    Expands g limit Q added kept s kept₁ s₁ where
  tracks := h.tracks
  subset := h.subset
  mem_or w hw := (h.mem_or w hw).imp_right (hP w)
  target_mem := h.target_mem
  edges_count := h.edges_count

/-- An edge is added to a package that is drawn. -/
theorem Expands.addEdge (h : Expands g limit P added kept s kept₁ s₁) (role : EdgeRole)
    (he : s₁.hasNode e.target) :
    Expands g limit P (added ++ [e]) kept s kept₁ (s₁.addEdge e role) where
  tracks := h.tracks
  subset := h.subset
  mem_or := h.mem_or
  target_mem e' he' := by
    rw [drawnEdges_addEdge] at he'
    rcases List.mem_append.1 he' with he' | he'
    · exact h.target_mem e' he'
    · rw [List.mem_singleton.1 he']
      exact .inr he
  edges_count e' := by
    have hcount := h.edges_count e'
    rw [drawnEdges_addEdge, List.count_append, List.count_append]
    omega

/-! ## Entering packages -/

/-- A package that is drawn is not arrived at first. -/
theorem Tracks.not_arrivesFirst (h : Tracks kept s) (hp : s.hasNode p) :
    ¬ ArrivesFirst kept (path ++ [p]) := by
  rintro ⟨-, hend⟩
  obtain ⟨w, hw, hlast⟩ := (h p).1 hp
  exact hend w hw (by rw [hlast, List.getLast?_concat])

/-- A package that is not drawn is arrived at first, if what is gone on from was kept. -/
theorem Tracks.arrivesFirst (h : Tracks kept s) (hp : ¬ s.hasNode p) (hpath : path ∈ kept) :
    ArrivesFirst kept (path ++ [p]) := by
  refine ⟨.inr (by rwa [List.dropLast_concat]), fun w hw heq => ?_⟩
  rw [List.getLast?_concat] at heq
  exact hp ((h p).2 ⟨w, hw, heq⟩)

/-- Drawing a package and keeping the walk to it. -/
theorem Tracks.addNode (h : Tracks kept s) :
    Tracks ((path ++ [p]) :: kept) (s.addNode p .dependency) := by
  intro q
  rw [hasNode_addNode, h q, List.exists_mem_cons_iff, List.getLast?_concat, Option.some.injEq]
  exact or_comm

/-- Entering a package follows the walks that go on from the path with it, if following the
dependencies of that package does. -/
theorem enter_expands
    (hadd : ∀ {kept : List (List Package)} {s : Selection}, Tracks kept s → path ++ [q] ∈ kept →
      (∀ r, ∀ w ∈ kept, ¬ path ++ [q] ++ [r] <+: w) →
      Expands g limit (fun w => ∃ r ∈ g.dependencies q, path ++ [q] ++ [r] <+: w)
        (g.drawn limit (path ++ [q])) kept s
        (firstArrivals kept ((g.dependencies q).flatMap (g.walks hops (path ++ [q]))))
        (s.addDependencies g hops .transitive q))
    (h : Tracks kept s) (hpath : path ∈ kept) (hnew : ∀ w ∈ kept, ¬ path ++ [q] <+: w) :
    (enter g hops s q).hasNode q ∧
      Expands g limit (fun w => path ++ [q] <+: w) [] kept s
        (firstArrivals kept (g.walks (hops + 1) path q)) (enter g hops s q) := by
  rw [enter]
  split
  next hq =>
    rw [Graph.firstArrivals_eq_self hnew (by simp) (h.not_arrivesFirst hq)
      fun _ hw => Graph.prefix_of_mem_walks hw]
    exact ⟨hq, h.expands_self⟩
  next hq =>
    rw [walks, firstArrivals, if_pos (h.arrivesFirst hq hpath)]
    have hexpands := hadd (s := s.addNode q .dependency) h.addNode List.mem_cons_self
      fun r w hw hprefix => by
        rcases List.mem_cons.1 hw with rfl | hw
        · simpa using hprefix.length_le
        · exact hnew w hw ((List.prefix_append _ _).trans hprefix)
    have hkept := hexpands.subset List.mem_cons_self
    refine ⟨(hexpands.tracks q).2 ⟨_, hkept, List.getLast?_concat⟩, hexpands.tracks,
      List.Subset.trans (List.subset_cons_self _ _) hexpands.subset, fun w hw => ?_,
      hexpands.target_mem, fun e => ?_⟩
    · rcases hexpands.mem_or w hw with hw | ⟨r, -, hprefix⟩
      · rcases List.mem_cons.1 hw with rfl | hw
        · exact .inr (List.prefix_refl _)
        · exact .inl hw
      · exact .inr ((List.prefix_append _ _).trans hprefix)
    · -- The edges from the package are those from the end of the walk to it.
      have hcount := hexpands.edges_count e
      rw [List.flatMap_cons, List.count_append, drawnEdges_addNode] at hcount
      rw [List.count_nil]
      omega

/-- The expansion follows the walks that go on from the path, one dependency of its end after the
other, if it does so for each of them. -/
theorem foldl_enter_expands (hops : Nat)
    (henter : ∀ {kept : List (List Package)} {s : Selection} {q : Package}, Tracks kept s →
      path ∈ kept → (∀ w ∈ kept, ¬ path ++ [q] <+: w) →
      (enter g hops s q).hasNode q ∧
        Expands g limit (fun w => path ++ [q] <+: w) [] kept s
          (firstArrivals kept (g.walks (hops + 1) path q)) (enter g hops s q)) :
    ∀ (rest : List Package) (kept : List (List Package)) (s : Selection), rest.Nodup →
      Tracks kept s → path ∈ kept → (∀ q ∈ rest, ∀ w ∈ kept, ¬ path ++ [q] <+: w) →
      Expands g limit (fun w => ∃ q ∈ rest, path ++ [q] <+: w) (rest.map (Edge.mk p)) kept s
        (firstArrivals kept (rest.flatMap (g.walks (hops + 1) path)))
        (rest.foldl (fun s q => (enter g hops s q).addEdge ⟨p, q⟩ role) s)
  | [], _, _, _, h, _, _ => h.expands_self
  | r :: rest, kept, s, hnodup, h, hpath, hnew => by
    obtain ⟨hr, hnodup⟩ := List.nodup_cons.1 hnodup
    obtain ⟨hdrawn, hexpands⟩ := henter h hpath (hnew r List.mem_cons_self)
    have h₁ := hexpands.addEdge (e := ⟨p, r⟩) role hdrawn
    have h₂ := foldl_enter_expands hops henter rest _ _ hnodup h₁.tracks (h₁.subset hpath)
      fun q hq w hw hprefix => by
        rcases h₁.mem_or w hw with hw | hw
        · exact hnew q (List.mem_cons_of_mem _ hq) w hw hprefix
        · exact hr (Findings.eq_of_prefix_concat hw hprefix ▸ hq)
    rw [List.flatMap_cons, Graph.firstArrivals_append]
    exact (h₁.trans h₂).imp fun w hw => (List.exists_mem_cons_iff _ r rest).2 hw

/-- Following the dependencies of the end of a kept walk follows the walks that go on from it. -/
theorem addDependencies_expands : ∀ (hops : Nat) {path : List Package} {kept : List (List Package)}
    {s : Selection} {role : EdgeRole} {p : Package}, path.getLast? = some p →
    path.length + hops = limit → Tracks kept s → path ∈ kept →
    (∀ q, ∀ w ∈ kept, ¬ path ++ [q] <+: w) →
    Expands g limit (fun w => ∃ q ∈ g.dependencies p, path ++ [q] <+: w) (g.drawn limit path) kept s
      (firstArrivals kept ((g.dependencies p).flatMap (g.walks hops path)))
      (s.addDependencies g hops role p)
  | 0, path, kept, s, role, p, _, hlen, h, _, _ => by
    have hnone : (g.dependencies p).flatMap (g.walks 0 path) = [] :=
      List.flatMap_eq_nil_iff.2 fun q _ => rfl
    rw [hnone, addDependencies_zero, Graph.drawn_of_not_lt (by omega)]
    exact h.expands_self
  | hops + 1, path, kept, s, role, p, hlast, hlen, h, hpath, hnew => by
    rw [addDependencies_succ, Graph.drawn_of_lt hlast (by omega), Graph.outgoing]
    refine foldl_enter_expands hops (fun {kept s q} h hpath hnew => ?_) (g.dependencies p) kept s
      (g.isOrdered_dependencies p).nodup h hpath fun q _ => hnew q
    refine enter_expands (fun {kept s} h hpath hnew => ?_) h hpath hnew
    exact addDependencies_expands hops List.getLast?_concat (by simp; omega) h hpath hnew

end

/-! ## The dependencies of a focus -/

/-- The drawing of the focus alone. -/
def focused (focus : Package) : Selection := ⟨[(focus, .current)], []⟩

section
variable {g : Graph} {hops : Nat} {focus q : Package} {e : Edge}

theorem hasNode_focused : (focused focus).hasNode q ↔ focus = q := by
  simp [hasNode, focused]

/-- The walks that go on from the focus arrive after the one to the focus itself. -/
theorem arrivals_focus (g : Graph) (hops : Nat) (focus : Package) :
    g.arrivals (hops + 1) [focus] =
      firstArrivals [[focus]] ((g.dependencies focus).flatMap (g.walks hops [focus])) := by
  have hnone : ∀ w ∈ ([] : List (List Package)), w.getLast? ≠ ([focus] : List Package).getLast? :=
    fun w hw => absurd hw List.not_mem_nil
  rw [Graph.arrivals_singleton, walks, firstArrivals, if_pos ⟨.inl rfl, hnone⟩]
  rfl

/-- Around a focus, the walks are followed by which a search from it arrives at packages. -/
theorem focused_expands (g : Graph) (hops : Nat) (focus : Package) :
    Expands g (hops + 1) (fun w => ∃ q ∈ g.dependencies focus, [focus] ++ [q] <+: w)
      (g.drawn (hops + 1) [focus]) [[focus]] (focused focus) (g.arrivals (hops + 1) [focus])
      ((focused focus).addDependencies g hops .direct focus) := by
  have hstart : Tracks [[focus]] (focused focus) := fun q => by
    rw [hasNode_focused]
    simp
  rw [arrivals_focus]
  refine addDependencies_expands hops rfl (Nat.add_comm 1 hops) hstart List.mem_cons_self
    fun q w hw hprefix => ?_
  rw [List.mem_singleton.1 hw] at hprefix
  simpa using hprefix.length_le

/-- The packages drawn are the ends of the walks by which a search from the focus arrives at
packages. -/
theorem hasNode_addDependencies :
    ((focused focus).addDependencies g hops .direct focus).hasNode q ↔
      ∃ w ∈ g.arrivals (hops + 1) [focus], w.getLast? = some q :=
  (focused_expands g hops focus).tracks q

/-- The edges drawn are those from the ends of the walks that have not used up the hops. -/
theorem drawnEdges_addDependencies_perm (g : Graph) (hops : Nat) (focus : Package) :
    ((focused focus).addDependencies g hops .direct focus).drawnEdges.Perm
      ((g.arrivals (hops + 1) [focus]).flatMap (g.drawn (hops + 1))) := by
  refine List.perm_iff_count.2 fun e => ?_
  have hcount := (focused_expands g hops focus).edges_count e
  have hnone : (focused focus).drawnEdges.count e = 0 := rfl
  rw [List.flatMap_singleton] at hcount
  omega

/-- No edge to a dependency is drawn twice. -/
theorem nodup_drawnEdges_addDependencies (g : Graph) (hops : Nat) (focus : Package) :
    ((focused focus).addDependencies g hops .direct focus).drawnEdges.Nodup :=
  (drawnEdges_addDependencies_perm g hops focus).nodup_iff.2
    ((g.arrived_arrivals (hops + 1) [focus]).nodup_drawn (hops + 1))

/-- An edge is drawn if it leads from the end of a walk that has not used up the hops. -/
theorem mem_drawnEdges_addDependencies :
    e ∈ ((focused focus).addDependencies g hops .direct focus).drawnEdges ↔
      (∃ w ∈ g.arrivals (hops + 1) [focus], w.length ≤ hops ∧ w.getLast? = some e.source) ∧
        g.hasEdge e.source e.target := by
  rw [(drawnEdges_addDependencies_perm g hops focus).mem_iff, List.mem_flatMap]
  simp only [Graph.mem_drawn, Nat.lt_succ_iff]
  constructor
  · rintro ⟨w, hw, hlen, hlast, hedge⟩
    exact ⟨⟨w, hw, hlen, hlast⟩, hedge⟩
  · rintro ⟨⟨w, hw, hlen, hlast⟩, hedge⟩
    exact ⟨w, hw, hlen, hlast, hedge⟩

/-- A walk that has not used up the hops has walks to all dependencies of its end beside it. -/
theorem exists_arrival_of_hasEdge {w : List Package} {p : Package}
    (hw : w ∈ g.arrivals (hops + 1) [focus]) (hlast : w.getLast? = some p) (hlen : w.length ≤ hops)
    (hedge : g.hasEdge p q) : ∃ v ∈ g.arrivals (hops + 1) [focus], v.getLast? = some q := by
  have hdrawn := (mem_drawnEdges_addDependencies (e := ⟨p, q⟩)).2 ⟨⟨w, hw, hlen, hlast⟩, hedge⟩
  rcases (focused_expands g hops focus).target_mem _ hdrawn with hold | hq
  · exact nomatch hold
  · exact hasNode_addDependencies.1 hq

end

end Selection

namespace View

/-- What is drawn of the focus and its dependencies. -/
def below (v : View) (g : Graph) : Selection :=
  if v.direction.showsDependencies then
    (Selection.focused v.focus).addDependencies g (v.hops g) .direct v.focus
  else .focused v.focus

/-- With a package in focus, its dependents are drawn after its dependencies. -/
theorem select_of_focus {v : View} (hfocus : v.focus ≠ "") (g : Graph) :
    v.select g =
      if v.direction.showsDependents then (v.below g).addDependents g v.focus else v.below g := by
  rw [select, if_neg hfocus]
  rfl

end View

end PackageCycles

import PackageCycles.Command.Options
import PackageCycles.Proofs.Settings.Layers
import Mathlib.Data.List.Induction

/-!
# How a command finds its settings

The arguments of a command give flags with values (`FlagSet.assignments`), and without an error they
set the options to what the flags say, one after the other (`FlagSet.sets_of_parse`). The shared
options come out the same for every command that has them (`CommonOptions.ofAssignments`). So the
flags are a layer of settings too (`Settings.Layer.ofFlags`), above that of the environment and that
of the settings file (`Settings.AreLayered`, `CommonOptions.areLayered_of_resolve`).
-/

namespace PackageCycles

namespace FlagSet

section
variable {σ : Type} {f : FlagSet σ} {start next finish : Given σ} {flag : Flag σ}
  {arguments : List Text} {name value : Text}

/-! ## The flags that arguments give -/

/-- The flags that arguments give, in order, each with its value. -/
def assignments (f : FlagSet σ) : List Text → List (Text × Text)
  | [] => []
  | argument :: rest =>
    match Argument.ofText argument with
    | .flag name value =>
      match value, ((f.find? name).map (·.kind.isBool)).getD false with
      | some value, _ => (name, value) :: f.assignments rest
      | none, true => (name, "true") :: f.assignments rest
      | none, false =>
        match rest with
        | [] => []
        | value :: rest => (name, value) :: f.assignments rest
    | _ => []

/-- A flag is set if its value can be read, and its name is noted. -/
theorem assign_eq_ok_iff : assign start flag value = (next, none) ↔
    (flag.kind.set value start.options).2 = none ∧
      next = ⟨(flag.kind.set value start.options).1, start.names ++ [flag.name]⟩ := by
  unfold assign
  rcases flag.kind.set value start.options with ⟨options, _ | fault⟩
  · simp [eq_comm]
  · simp

/-- Setting flags to values one after the other succeeds. -/
inductive Sets (f : FlagSet σ) : Given σ → List (Text × Text) → Given σ → Prop
  | nil {start : Given σ} : Sets f start [] start
  | cons {name value : Text} {flag : Flag σ} {start next finish : Given σ}
    {rest : List (Text × Text)} (hflag : f.find? name = some flag)
    (hassign : assign start flag value = (next, none)) (hrest : Sets f next rest finish) :
    Sets f start ((name, value) :: rest) finish

/-- Arguments without an error set the flags that they give. -/
theorem sets_of_parse (h : f.parse start arguments = (finish, none)) :
    f.Sets start (f.assignments arguments) finish := by
  fun_induction parse f start arguments with
  | case1 => cases h; exact .nil
  | case2 _ _ _ hargument | case3 _ _ _ hargument =>
    cases h
    simp only [assignments, hargument]
    exact .nil
  | case4 | case5 | case10 => cases h
  | case6 _ _ _ _ _ hflag _ _ hassign hargument ih =>
    simp only [assignments, hargument]
    exact .cons hflag hassign (ih h)
  | case8 _ _ _ _ _ hflag hbool _ hassign hargument ih =>
    simp only [assignments, hargument, hflag, Option.map_some, Option.getD_some, hbool]
    exact .cons hflag hassign (ih h)
  | case11 _ _ _ _ hflag hbool _ _ _ hassign hargument ih =>
    simp only [assignments, hargument, hflag, Option.map_some, Option.getD_some, hbool]
    exact .cons hflag hassign (ih h)
  | case7 _ _ _ _ _ _ _ _ hfails | case9 _ _ _ _ _ _ _ _ hfails | case12 _ _ _ _ _ _ _ _ _ hfails =>
    exact (hfails finish h).elim

end

end FlagSet

namespace CommonOptions

/-! ## The shared options -/

/-- The options after a flag is set to a value. A flag that is not shared leaves them alone. -/
def after (o : CommonOptions) (assignment : Text × Text) : CommonOptions :=
  match rulesFlags.find? assignment.1 with
  | some flag => (flag.kind.set assignment.2 o).1
  | none => o

/-- The value fits the flag, if it is a shared one. -/
def Accepts (assignment : Text × Text) : Prop :=
  ∀ flag, rulesFlags.find? assignment.1 = some flag → ∀ o, (flag.kind.set assignment.2 o).2 = none

/-- A command sets the shared options by the shared flags, and by no others. -/
structure AreSharedBy {σ : Type} (f : FlagSet σ) (common : σ → CommonOptions) : Prop where
  /-- A flag sets the shared options as a shared flag with its name does, if there is one. -/
  after : ∀ {name flag}, f.find? name = some flag → ∀ value o,
    common (flag.kind.set value o).1 = (common o).after (name, value)
  /-- It takes a value only if that one does. -/
  accepts : ∀ {name flag}, f.find? name = some flag → ∀ value o,
    (flag.kind.set value o).2 = none → Accepts (name, value)

section
variable {σ : Type} {within : (CommonOptions → CommonOptions) → σ → σ} {common : σ → CommonOptions}
  {f : FlagSet σ} {more : List (Flag σ)} {name value : Text}

/-- What a flag sets in a record of options that has the shared ones in it. -/
def liftKind (within : (CommonOptions → CommonOptions) → σ → σ) :
    FlagKind CommonOptions → FlagKind σ
  | .text default set => .text default fun t => within (set t)
  | .int default set => .int default fun n => within (set n)
  | .bool default set => .bool default fun b => within (set b)
  | .duration default set => .duration default fun d => within (set d)
  | .texts add => .texts fun t => within (add t)

/-- A flag that commands share changes only what they have in common. -/
theorem common_set_liftKind (hwithin : ∀ g o, common (within g o) = g (common o))
    (kind : FlagKind CommonOptions) (o : σ) :
    common ((liftKind within kind).set value o).1 = (kind.set value (common o)).1 := by
  cases kind <;> exact hwithin _ _

/-- Whether a value fits does not depend on the options. -/
theorem fault_set_liftKind (kind : FlagKind CommonOptions) (o : σ) (o' : CommonOptions) :
    ((liftKind within kind).set value o).2 = (kind.set value o').2 := by
  cases kind <;> rfl

/-- The flags that commands share are found among all flags of a command. -/
theorem find?_flags (command : Text) :
    (⟨command, flags within ++ more⟩ : FlagSet σ).find? name =
      ((rulesFlags.find? name).map fun flag =>
        ⟨flag.name, flag.usage, liftKind within flag.kind⟩).or
        (more.find? (·.name = name)) := by
  have hflags : flags within =
      (flags id).map fun flag => ⟨flag.name, flag.usage, liftKind within flag.kind⟩ := rfl
  rw [FlagSet.find?, List.find?_append, hflags, List.find?_map]
  rfl

/-- The shared options are shared by a command whose other flags leave them alone. -/
theorem areSharedBy (hwithin : ∀ g o, common (within g o) = g (common o))
    (hmore : ∀ flag ∈ more, ∀ value o, common (flag.kind.set value o).1 = common o)
    (command : Text) : AreSharedBy ⟨command, flags within ++ more⟩ common where
  after {name flag} hflag value o := by
    rw [find?_flags] at hflag
    unfold CommonOptions.after
    cases hfind : rulesFlags.find? name with
    | none =>
      rw [hfind] at hflag
      exact hmore flag (List.mem_of_find?_eq_some hflag) value o
    | some shared =>
      rw [hfind] at hflag
      cases hflag
      exact common_set_liftKind hwithin shared.kind o
  accepts {name flag} hflag value o hfault shared hfind o' := by
    rw [find?_flags, hfind] at hflag
    cases hflag
    exact (fault_set_liftKind shared.kind o o').symm.trans hfault

/-- The shared options after flags are set one after the other. -/
theorem common_of_sets (hf : AreSharedBy f common) {start finish : Given σ}
    {assignments : List (Text × Text)} (h : f.Sets start assignments finish) :
    common finish.options = assignments.foldl CommonOptions.after (common start.options) ∧
      finish.names = start.names ++ assignments.map (·.1) ∧ ∀ a ∈ assignments, Accepts a := by
  induction h with
  | nil => exact ⟨rfl, (List.append_nil _).symm, fun _ ha => nomatch ha⟩
  | @cons name value flag start next finish rest hflag hassign _ ih =>
    obtain ⟨hfault, rfl⟩ := FlagSet.assign_eq_ok_iff.1 hassign
    obtain ⟨hcommon, hnames, haccepts⟩ := ih
    have hname : flag.name = name := by simpa using List.find?_some hflag
    refine ⟨?_, ?_, List.forall_mem_cons.2 ⟨hf.accepts hflag value _ hfault, haccepts⟩⟩
    · rw [hcommon, hf.after hflag]
      rfl
    · rw [hnames, hname, List.append_assoc]
      rfl

end

/-! ## What the flags say -/

/-- The value that a flag is given last. -/
def last? (assignments : List (Text × Text)) (name : Text) : Option Text :=
  assignments.reverse.lookup name

/-- The values that a flag is given, in order. -/
def all (assignments : List (Text × Text)) (name : Text) : List Text :=
  (assignments.filter (·.1 = name)).map (·.2)

/-- The integer that a flag is given last. -/
def lastInt? (assignments : List (Text × Text)) (name : Text) : Option Int :=
  (last? assignments name).bind fun value => (Integer.parseLiteral value).toOption

/-- The truth value that a flag is given last. -/
def lastBool? (assignments : List (Text × Text)) (name : Text) : Option Bool :=
  (last? assignments name).bind truth?

/-- The shared options that flags say. -/
def ofAssignments (assignments : List (Text × Text)) : CommonOptions where
  directory := (last? assignments "dir").getD "."
  settingsFile := (last? assignments "config").getD []
  maxDepth := (lastInt? assignments "max-depth").getD 0
  excludes := all assignments "exclude"
  failOnError := (lastBool? assignments "fail-on-error").getD true
  traversal := (last? assignments "traversal").getD []
  verbose := (lastBool? assignments "verbose").getD false

section
variable {assignments : List (Text × Text)} {name other value : Text}

theorem last?_concat : last? (assignments ++ [(name, value)]) other =
    if other = name then some value else last? assignments other := by
  rw [last?, List.reverse_append, List.reverse_singleton, List.singleton_append, List.lookup_cons,
    last?]
  by_cases h : other = name
  · simp [h]
  · rw [beq_false_of_ne h, if_neg h]

theorem all_concat : all (assignments ++ [(name, value)]) other =
    all assignments other ++ if name = other then [value] else [] := by
  by_cases h : name = other <;> simp [all, h]

/-- An integer that fits is the one that is set. -/
theorem Accepts.exists_int (h : Accepts ("max-depth", value)) :
    ∃ n, Integer.parseLiteral value = .ok n ∧ Integer.nearest value = n := by
  have hfault := h _ rfl default
  simp only [FlagKind.set] at hfault
  cases hparse : Integer.parseLiteral value with
  | ok n => exact ⟨n, rfl, by simp only [Integer.nearest, hparse]⟩
  | error fault =>
    rw [hparse] at hfault
    cases fault <;> cases hfault

/-- A truth value that fits is one. -/
theorem Accepts.exists_truth (h : Accepts ("fail-on-error", value)) :
    ∃ b, truth? value = some b := by
  have hfault := h _ rfl default
  simp only [FlagKind.set] at hfault
  split at hfault
  next hsome => exact Option.isSome_iff_exists.1 hsome
  next => cases hfault

/-- One more flag that is set is the last one. -/
theorem ofAssignments_concat (h : Accepts (name, value)) :
    ofAssignments (assignments ++ [(name, value)]) =
      (ofAssignments assignments).after (name, value) := by
  cases hfind : rulesFlags.find? name with
  | none =>
    have hne : ∀ flag ∈ rulesFlags.flags, flag.name ≠ name := by
      simpa [FlagSet.find?, List.find?_eq_none] using hfind
    simp only [rulesFlags, flags, List.forall_mem_cons] at hne
    obtain ⟨hdir, hconfig, hdepth, hexclude, hfail, htraversal, hverbose, -⟩ := hne
    simp only [after, hfind, ofAssignments, lastInt?, lastBool?, last?_concat, all_concat,
      if_neg hdir, if_neg hconfig, if_neg hdepth, if_neg (Ne.symm hexclude), if_neg hfail,
      if_neg htraversal, if_neg hverbose, List.append_nil]
  | some flag =>
    have hmem := List.mem_of_find?_eq_some hfind
    have hname : flag.name = name := by simpa using List.find?_some hfind
    subst hname
    simp only [rulesFlags, flags, List.mem_cons, List.not_mem_nil, or_false] at hmem
    simp only [after, hfind]
    -- A value that does not fit is set too, and then not to what a flag that is absent leaves.
    rcases hmem with rfl | rfl | rfl | rfl | rfl | rfl | rfl <;>
      simp +decide only [ofAssignments, lastInt?, lastBool?, last?_concat, all_concat, FlagKind.set,
        if_true, if_false, Option.getD_some, Option.bind_some, List.append_nil, id]
    case some.inr.inr.inl =>
      obtain ⟨n, hparse, hnearest⟩ := h.exists_int
      rw [hparse, hnearest]
      rfl
    case some.inr.inr.inr.inr.inl =>
      obtain ⟨b, hb⟩ := h.exists_truth
      rw [hb]
      rfl

/-- Flags that are set one after the other say the options. -/
theorem foldl_after (h : ∀ a ∈ assignments, Accepts a) :
    assignments.foldl CommonOptions.after default = ofAssignments assignments := by
  induction assignments using List.reverseRecOn with
  | nil => rfl
  | append_singleton assignments a ih =>
    obtain ⟨hassignments, ha⟩ := List.forall_mem_append.1 h
    rw [List.foldl_append, ih hassignments, List.foldl_cons, List.foldl_nil,
      ofAssignments_concat (List.forall_mem_singleton.1 ha)]

end

end CommonOptions

/-! ## The layer of the flags -/

namespace Settings

/-- What flags provide. The level of the log is provided by the flag for more to be logged. -/
def Layer.ofFlags (assignments : List (Text × Text)) : Layer :=
  { Layer.empty with
    maxDepth := CommonOptions.lastInt? assignments "max-depth"
    excludePatterns := (CommonOptions.last? assignments "exclude").map fun _ =>
      CommonOptions.all assignments "exclude"
    failOnError := CommonOptions.lastBool? assignments "fail-on-error"
    traversal := CommonOptions.last? assignments "traversal"
    logLevel :=
      if CommonOptions.lastBool? assignments "verbose" = some true then some "debug" else none }

/-- The settings file that is read: the one asked for, or the first that exists in the directory. -/
def path? (t : FileTree) (directory settingsFile : Text) : Option Text :=
  if settingsFile = [] then (fileNames.map (Path.join directory)).find? (t.exists? ·)
  else some settingsFile

/-- Settings come from layers: each from the first of the flags, the environment and the settings
file that provides it, and from the defaults if none does. -/
def AreLayered (t : FileTree) (env : Environment) (assignments : List (Text × Text))
    (s : Settings) : Prop :=
  ∃ file, Layer.IsOfFile t
      (path? t ((CommonOptions.last? assignments "dir").getD ".")
        ((CommonOptions.last? assignments "config").getD [])) file ∧
    s = ((Layer.ofFlags assignments).orElse ((Layer.ofVariables env).orElse file)).applyTo .default

end Settings

namespace CommonOptions

section
variable {assignments : List (Text × Text)} {name value : Text} {s : Settings} {t : FileTree}
  {env : Environment} {o : CommonOptions}

theorem contains_eq_isSome :
    (assignments.map (·.1)).contains name = (last? assignments name).isSome := by
  rw [Bool.eq_iff_iff, List.contains_iff_mem, ← not_iff_not, Bool.not_eq_true,
    Option.isSome_eq_false_iff, Option.isNone_iff_eq_none]
  simp only [last?, List.lookup_eq_none_iff, List.mem_reverse, bne_iff_ne, List.mem_map, not_exists,
    not_and, ne_comm]

theorem mem_of_last?_eq_some (h : last? assignments name = some value) :
    (name, value) ∈ assignments := by
  obtain ⟨_, _, hsplit, -⟩ := List.lookup_eq_some_iff.1 h
  exact List.mem_reverse.1 (hsplit ▸ List.mem_append_right _ List.mem_cons_self)

/-- The depth is provided if its flag is given. -/
theorem isSome_lastInt? (h : ∀ a ∈ assignments, Accepts a) :
    (lastInt? assignments "max-depth").isSome = (last? assignments "max-depth").isSome := by
  unfold lastInt?
  cases hlast : last? assignments "max-depth" with
  | none => rfl
  | some value =>
    obtain ⟨n, hparse, -⟩ := (h _ (mem_of_last?_eq_some hlast)).exists_int
    rw [Option.bind_some, hparse]
    rfl

/-- Whether cycles make a check fail is provided if the flag for it is given. -/
theorem isSome_lastBool? (h : ∀ a ∈ assignments, Accepts a) :
    (lastBool? assignments "fail-on-error").isSome =
      (last? assignments "fail-on-error").isSome := by
  unfold lastBool?
  cases hlast : last? assignments "fail-on-error" with
  | none => rfl
  | some value =>
    obtain ⟨b, hb⟩ := (h _ (mem_of_last?_eq_some hlast)).exists_truth
    rw [Option.bind_some, hb]
    rfl

theorem ite_isSome_getD {α : Type} (x : Option α) (d a : α) :
    (if x.isSome then x.getD d else a) = x.getD a := by
  cases x <;> rfl

/-- What the options override is what the flags provide. -/
theorem override_ofAssignments (h : ∀ a ∈ assignments, Accepts a) :
    (ofAssignments assignments).override (assignments.map (·.1)) s =
      (Settings.Layer.ofFlags assignments).applyTo s := by
  have hdepth := ite_isSome_getD (lastInt? assignments "max-depth") 0 s.maxDepth
  have hexcludes : (if (last? assignments "exclude").isSome then all assignments "exclude"
      else s.excludePatterns) = ((last? assignments "exclude").map fun _ =>
        all assignments "exclude").getD s.excludePatterns := by
    cases last? assignments "exclude" <;> rfl
  have hfail := ite_isSome_getD (lastBool? assignments "fail-on-error") true s.failOnError
  have htraversal := ite_isSome_getD (last? assignments "traversal") [] s.traversal
  have hlevel : (if (lastBool? assignments "verbose").getD false then ("debug" : Text)
      else s.log.level) = (if lastBool? assignments "verbose" = some true then some ("debug" : Text)
        else none).getD s.log.level := by
    rcases lastBool? assignments "verbose" with _ | _ | _ <;> rfl
  rw [isSome_lastInt? h, ← contains_eq_isSome] at hdepth
  rw [← contains_eq_isSome] at hexcludes htraversal
  rw [isSome_lastBool? h, ← contains_eq_isSome] at hfail
  exact (Settings.mk.injEq ..).mpr ⟨rfl, rfl, rfl, hdepth, hexcludes, hfail, htraversal,
    (LogSettings.mk.injEq ..).mpr ⟨hlevel, rfl⟩, rfl, rfl⟩

/-- The settings of a file are laid over the defaults. -/
theorem fromFile_eq_ok_iff : o.fromFile t = .ok s ↔
    ∃ l, Settings.Layer.IsOfFile t (Settings.path? t o.directory o.settingsFile) l ∧
      s = l.applyTo .default := by
  unfold fromFile Settings.path?
  split
  · exact Settings.loadFromDirectory_eq_ok_iff
  · exact Settings.load_eq_ok_iff

/-- Settings are found out as those of the layers, if a file that is there can be read and the depth
in the environment is an integer. -/
theorem resolve_eq_ok_iff (h : ∀ a ∈ assignments, Accepts a) :
    (ofAssignments assignments).resolve (assignments.map (·.1)) t env = .ok s ↔
      (∀ value, env.nonempty? "PKGCYCLE_MAX_DEPTH" = some value →
        ∃ n, Integer.parse 10 value = .ok n) ∧ Settings.AreLayered t env assignments s := by
  simp only [resolve, Success.bind_iff, Success.mapError_iff, fromFile_eq_ok_iff,
    Settings.withVariables_eq_ok_iff, override_ofAssignments h, Settings.AreLayered,
    Settings.Layer.orElse_applyTo]
  constructor
  · rintro ⟨_, ⟨file, hfile, rfl⟩, _, ⟨hdepth, rfl⟩, ⟨⟩⟩
    exact ⟨hdepth, file, hfile, rfl⟩
  · rintro ⟨hdepth, file, hfile, rfl⟩
    exact ⟨_, ⟨file, hfile, rfl⟩, _, ⟨hdepth, rfl⟩, rfl⟩

end

section
variable {σ : Type} {f : FlagSet σ} {common : σ → CommonOptions} {initial : σ} {given : Given σ}
  {arguments : List Text} {t : FileTree} {env : Environment} {s : Settings}

/-- A command that has the shared options finds out the settings of the layers. -/
theorem AreSharedBy.areLayered (hf : AreSharedBy f common) (hinitial : common initial = default)
    (hparse : f.parse ⟨initial, []⟩ arguments = (given, none))
    (hresolve : (common given.options).resolve given.names t env = .ok s) :
    Settings.AreLayered t env (f.assignments arguments) s := by
  obtain ⟨hcommon, hnames, haccepts⟩ := common_of_sets hf (FlagSet.sets_of_parse hparse)
  rw [hinitial, foldl_after haccepts] at hcommon
  rw [List.nil_append] at hnames
  rw [hcommon, hnames, resolve_eq_ok_iff haccepts] at hresolve
  exact hresolve.2

/-- The commands have the shared flags. -/
theorem areSharedBy_check : AreSharedBy CheckOptions.flags (·.common) := by
  refine areSharedBy (fun _ _ => rfl) ?_ "check"
  simp only [List.forall_mem_cons]
  exact ⟨fun _ _ => rfl, fun _ _ => rfl, fun _ h => nomatch h⟩

theorem areSharedBy_graph : AreSharedBy GraphOptions.flags (·.common) := by
  refine areSharedBy (fun _ _ => rfl) ?_ "graph"
  simp only [List.forall_mem_cons]
  exact ⟨fun _ _ => rfl, fun _ _ => rfl, fun _ _ => rfl, fun _ _ => rfl, fun _ _ => rfl,
    fun _ h => nomatch h⟩

theorem areSharedBy_watch : AreSharedBy WatchOptions.flags (·.common) := by
  refine areSharedBy (fun _ _ => rfl) ?_ "watch"
  simp only [List.forall_mem_cons]
  exact ⟨fun _ _ => rfl, fun _ h => nomatch h⟩

/-- The settings that the check, the drawing of the graph and the watch find out are those of the
layers: of the flags that the arguments give, of the environment, of the settings file and, where
none of them provides a setting, of the defaults. -/
theorem areLayered_of_resolve (t : FileTree) (env : Environment) (arguments : List Text)
    (s : Settings) :
    (∀ given, CheckOptions.flags.parse ⟨.default, []⟩ arguments = (given, none) →
      given.options.common.resolve given.names t env = .ok s →
        Settings.AreLayered t env (CheckOptions.flags.assignments arguments) s) ∧
    (∀ given, GraphOptions.flags.parse ⟨.default, []⟩ arguments = (given, none) →
      given.options.common.resolve given.names t env = .ok s →
        Settings.AreLayered t env (GraphOptions.flags.assignments arguments) s) ∧
    (∀ given, WatchOptions.flags.parse ⟨.default, []⟩ arguments = (given, none) →
      given.options.common.resolve given.names t env = .ok s →
        Settings.AreLayered t env (WatchOptions.flags.assignments arguments) s) :=
  ⟨fun _ => areSharedBy_check.areLayered rfl, fun _ => areSharedBy_graph.areLayered rfl,
    fun _ => areSharedBy_watch.areLayered rfl⟩

end

/-- A directory with a settings file. -/
def layeredTree : FileTree where
  root := .directory
    [("pkgcycle.yaml",
      .file "maxDepth: 5\ntraversal: per-root\nlog:\n  format: json\n" 0 true)] .full
  workingDirectory := []

/-- Variables for two of the settings. -/
def layeredVariables : Environment :=
  ⟨[("PKGCYCLE_MAX_DEPTH", "7"), ("PKGCYCLE_PROJECT_NAME", "shop")]⟩

/-- Arguments for three of the settings, one of which they say twice. -/
def layeredArguments : List Text := ["-exclude", "a.**", "-max-depth=3", "-exclude=b", "-verbose"]

/-- The shared options of these arguments. -/
def layeredOptions : CommonOptions :=
  { default with maxDepth := 3, excludes := ["a.**", "b"], verbose := true }

/-- The names of the flags that the arguments give. -/
def layeredNames : List Text := ["exclude", "max-depth", "exclude", "verbose"]

/-- The settings of these layers: the depth is that of the flag although every layer has one, and
the settings that no layer has are the defaults. -/
def layeredSettings : Settings :=
  { Settings.default with
    projectName := "shop"
    maxDepth := 3
    excludePatterns := ["a.**", "b"]
    traversal := "per-root"
    log := ⟨"debug", "json"⟩ }

/-- All of the commands read the same shared options off the arguments, and find out the settings of
the layers from them. -/
theorem areLayered_of_resolve_layeredTree :
    layeredOptions.resolve layeredNames layeredTree layeredVariables = .ok layeredSettings ∧
    (CheckOptions.flags.parse ⟨.default, []⟩ layeredArguments =
        (⟨{ CheckOptions.default with common := layeredOptions }, layeredNames⟩, none) ∧
      Settings.AreLayered layeredTree layeredVariables
        (CheckOptions.flags.assignments layeredArguments) layeredSettings) ∧
    (GraphOptions.flags.parse ⟨.default, []⟩ layeredArguments =
        (⟨{ GraphOptions.default with common := layeredOptions }, layeredNames⟩, none) ∧
      Settings.AreLayered layeredTree layeredVariables
        (GraphOptions.flags.assignments layeredArguments) layeredSettings) ∧
    (WatchOptions.flags.parse ⟨.default, []⟩ layeredArguments =
        (⟨{ WatchOptions.default with common := layeredOptions }, layeredNames⟩, none) ∧
      Settings.AreLayered layeredTree layeredVariables
        (WatchOptions.flags.assignments layeredArguments) layeredSettings) := by
  have hresolve : layeredOptions.resolve layeredNames layeredTree layeredVariables =
      .ok layeredSettings := by decide +kernel
  obtain ⟨hcheck, hgraph, hwatch⟩ :=
    areLayered_of_resolve layeredTree layeredVariables layeredArguments layeredSettings
  exact ⟨hresolve, ⟨rfl, hcheck _ rfl hresolve⟩, ⟨rfl, hgraph _ rfl hresolve⟩,
    ⟨rfl, hwatch _ rfl hresolve⟩⟩

end CommonOptions

end PackageCycles

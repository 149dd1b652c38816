import Mathlib.Data.List.Forall2
import Mathlib.Data.Option.Basic
import PackageCycles.Yaml.Record

/-!
# Records that are filled alike

What a document sets in a record depends on the names and kinds of the fields, and not on what the
record holds. So two records with fields of the same names and kinds are filled alike: a relation
between records that is kept whenever two such fields are set to the same value is kept when the
records are filled. This is all that is relied on of a reader of documents (`Yaml.LawfulReader`),
and `Yaml.fill` is the reader that runs. Every operation on a record that is being filled has such a
lemma, and the lemmas follow the operations.
-/

namespace PackageCycles.Yaml

section
variable {σ τ α β : Type} {R : σ → τ → Prop}

mutual

/-- Fields of the same kind keep the relation when they are set to the same value. -/
inductive Field.Related (R : σ → τ → Prop) : Field σ → Field τ → Prop
  | text {set : Text → σ → σ} {set' : Text → τ → τ}
    (h : ∀ t r r', R r r' → R (set t r) (set' t r')) : Field.Related R (.text set) (.text set')
  | int {set : Int → σ → σ} {set' : Int → τ → τ}
    (h : ∀ n r r', R r r' → R (set n r) (set' n r')) : Field.Related R (.int set) (.int set')
  | bool {set : Bool → σ → σ} {set' : Bool → τ → τ}
    (h : ∀ b r r', R r r' → R (set b r) (set' b r')) : Field.Related R (.bool set) (.bool set')
  | texts {set : List Text → σ → σ} {set' : List Text → τ → τ}
    (h : ∀ ts r r', R r r' → R (set ts r) (set' ts r')) : Field.Related R (.texts set) (.texts set')
  | record {type : Text} {fields : List (Text × Field σ)} {fields' : List (Text × Field τ)}
    (h : FieldsRelated R fields fields') : Field.Related R (.record type fields) (.record type fields')

/-- Fields have the same names and are related one by one. -/
inductive FieldsRelated (R : σ → τ → Prop) :
    List (Text × Field σ) → List (Text × Field τ) → Prop
  | nil : FieldsRelated R [] []
  | cons {name : Text} {field : Field σ} {field' : Field τ} {fields : List (Text × Field σ)}
    {fields' : List (Text × Field τ)} (h : Field.Related R field field')
    (hrest : FieldsRelated R fields fields') :
    FieldsRelated R ((name, field) :: fields) ((name, field') :: fields')

end

/-- What is relied on of a reader of documents: which fields it sets, and to what, depends on the
document alone. Records are filled alike from the same text, or from both for the same reason none
comes out. -/
class LawfulReader (read : ∀ {σ : Type}, Field σ → σ → Text → Except ReadError σ) : Prop where
  /-- Records that are related stay so. -/
  related {σ τ : Type} {R : σ → τ → Prop} {field : Field σ} {field' : Field τ}
    (h : Field.Related R field field') {record : σ} {record' : τ} (hrecord : R record record')
    (content : Text) :
    (∃ e, read field record content = .error e ∧ read field' record' content = .error e) ∨
      ∃ r r', read field record content = .ok r ∧ read field' record' content = .ok r' ∧ R r r'

/-- Under one name there are related fields or none. -/
theorem FieldsRelated.lookup {fields : List (Text × Field σ)} {fields' : List (Text × Field τ)}
    (h : FieldsRelated R fields fields') (name : Text) :
    Option.Rel (Field.Related R) (fields.lookup name) (fields'.lookup name) := by
  induction fields generalizing fields' with
  | nil =>
    cases h
    exact .none
  | cons entry rest ih =>
    cases h with
    | @cons other field field' _ _ hfield hrest =>
      simp only [List.lookup_cons]
      cases name == other with
      | true => exact .some hfield
      | false => exact ih hrest

/-- Two records have been filled alike. -/
structure Filling.Related (R : σ → τ → Prop) (f : Filling σ) (f' : Filling τ) : Prop where
  /-- The records are related. -/
  record : R f.record f'.record
  /-- The same did not fit. -/
  misfits : f.misfits = f'.misfits
  /-- As many nodes have been looked at. -/
  visits : f.visits = f'.visits
  /-- As many of them through an alias. -/
  aliasVisits : f.aliasVisits = f'.aliasVisits

/-- Two operations fill records alike and have the same outcome. -/
def Fill.Related (R : σ → τ → Prop) (m : Fill σ α) (m' : Fill τ α) : Prop :=
  ∀ f f', Filling.Related R f f' →
    Option.Rel (fun x x' => x.1 = x'.1 ∧ Filling.Related R x.2 x'.2) (m f) (m' f')

namespace Fill

/-! ## Operations -/

theorem Related.pure (a : α) : Related R (pure a) (pure a) := fun _ _ h => .some ⟨rfl, h⟩

/-- Operations that fill alike may follow one another. -/
theorem Related.bind {m : Fill σ α} {m' : Fill τ α} {k : α → Fill σ β} {k' : α → Fill τ β}
    (h : Related R m m') (hk : ∀ a, Related R (k a) (k' a)) : Related R (m >>= k) (m' >>= k') := by
  intro f f' hf
  have hm := h f f' hf
  change Option.Rel _ ((m f).bind fun x => k x.1 x.2) ((m' f').bind fun x => k' x.1 x.2)
  generalize m f = x, m' f' = x' at hm
  cases hm with
  | none => exact .none
  | @some x x' hx =>
    obtain ⟨a, g⟩ := x
    obtain ⟨a', g'⟩ := x'
    obtain ⟨rfl, hg⟩ := hx
    exact hk a g g' hg

theorem Related.fault : Related R (fault : Fill σ α) fault := fun _ _ _ => .none

/-- The same misfit is noted. -/
theorem Related.note (m : Misfit) : Related R (note m) (note m) := by
  intro f f' h
  exact .some ⟨rfl, h.record, congrArg (· ++ [m]) h.misfits, h.visits, h.aliasVisits⟩

/-- Changes that keep the records related fill alike. -/
theorem Related.change {set : σ → σ} {set' : τ → τ} (hset : ∀ r r', R r r' → R (set r) (set' r')) :
    Related R (change set) (change set') := by
  intro f f' h
  exact .some ⟨rfl, hset _ _ h.record, h.misfits, h.visits, h.aliasVisits⟩

/-- The same misfits are noted. -/
theorem Related.forM_note (misfits : List Misfit) :
    Related R (misfits.forM Fill.note) (misfits.forM Fill.note) := by
  induction misfits with
  | nil => exact .pure _
  | cons m rest ih => exact .bind (.note m) fun _ => ih

/-- Operations for the items of a list that fill alike do so one after another. -/
theorem Related.filterMapM {f : β → Fill σ (Option α)} {f' : β → Fill τ (Option α)}
    (h : ∀ b, Related R (f b) (f' b)) (items : List β) :
    Related R (items.filterMapM f) (items.filterMapM f') := by
  induction items with
  | nil => exact .pure _
  | cons item rest ih =>
    rw [List.filterMapM_cons, List.filterMapM_cons]
    refine .bind (h item) fun a => ?_
    cases a with
    | none => exact ih
    | some a => exact .bind ih fun _ => .pure _

/-- A node is looked at unless aliases make up too much of the document by then. -/
theorem visit_eq (followed : List Nat) (f : Filling σ) :
    visit followed f =
      if isExcessive (f.visits + 1) (if followed.isEmpty then f.aliasVisits else f.aliasVisits + 1)
      then none
      else some ((), { f with
        visits := f.visits + 1
        aliasVisits := if followed.isEmpty then f.aliasVisits else f.aliasVisits + 1 }) := by
  by_cases h : isExcessive (f.visits + 1)
      (if followed.isEmpty then f.aliasVisits else f.aliasVisits + 1)
  · rw [if_pos h]
    change (if _ then fault else pure () : Fill σ Unit) _ = _
    rw [if_pos h]
    rfl
  · rw [if_neg h]
    change (if _ then fault else pure () : Fill σ Unit) _ = _
    rw [if_neg h]
    rfl

/-- Whether a node may be looked at depends on how many have been, and not on the record. -/
theorem Related.visit (followed : List Nat) :
    Related R (Fill.visit followed) (Fill.visit followed) := by
  intro f f' h
  rw [visit_eq, visit_eq, ← h.visits, ← h.aliasVisits]
  generalize (if followed.isEmpty then f.aliasVisits else f.aliasVisits + 1) = aliasVisits
  split
  next => exact .none
  next => exact .some ⟨rfl, h.record, h.misfits, rfl, rfl⟩

/-! ## Looking at nodes -/

/-- The value of a scalar does not depend on the record. -/
theorem Related.scalarValue (tag text : Text) :
    Related R (Yaml.scalarValue tag text) (Yaml.scalarValue tag text) := by
  unfold Yaml.scalarValue
  cases resolveTagged tag text with
  | none => exact .fault
  | some value =>
    dsimp only
    split
    next =>
      cases Text.Base64.decode? text with
      | none => exact .bind .fault fun _ => .pure _
      | some bytes => exact .pure _
    next => exact .pure _

/-- Nor does the node that an alias stands for. -/
theorem Related.follow (d : Document) (followed : List Nat) (number anchor : Nat) :
    Related R (Yaml.follow d followed number anchor) (Yaml.follow d followed number anchor) := by
  unfold Yaml.follow
  cases d.anchored.lookup anchor with
  | none =>
    dsimp only
    split
    next => exact .bind .fault fun _ => .fault
    next => exact .fault
  | some target =>
    dsimp only
    split
    next => exact .bind .fault fun _ => .pure _
    next => exact .pure _

/-- Nor does the node that is reached by following aliases. -/
theorem Related.reach (d : Document) (followed : List Nat) (node : Node) :
    Related R (Yaml.reach d followed node) (Yaml.reach d followed node) := by
  unfold Yaml.reach
  refine .bind (.visit followed) fun _ => ?_
  cases node with
  | scalar => exact .pure _
  | sequence => exact .pure _
  | mapping => exact .pure _
  | «alias» line name number anchor =>
    exact .bind (.follow d followed number anchor) fun reached =>
      .bind (.visit reached.2) fun _ => .pure _

/-- The text of a node does not depend on the record. -/
theorem Related.textOf (d : Document) (followed : List Nat) (node : Node) :
    Related R (Yaml.textOf d followed node) (Yaml.textOf d followed node) := by
  unfold Yaml.textOf
  refine .bind (.reach d followed node) fun reached => ?_
  obtain ⟨reached, followed⟩ := reached
  cases reached with
  | scalar line tag text =>
    refine .bind (.scalarValue tag text) fun value => ?_
    obtain ⟨value, shown⟩ := value
    cases value <;> exact .pure _
  | sequence => exact .bind (.note _) fun _ => .pure _
  | mapping line tag entries =>
    dsimp only
    split
    next => exact .bind (.note _) fun _ => .pure _
    next => exact .bind (.forM_note _) fun _ => .pure _
  | «alias» => exact .bind (.note _) fun _ => .pure _

/-- Nor does the name of an entry. -/
theorem Related.ownName (d : Document) (followed : List Nat) (key : Node) :
    Related R (Yaml.ownName d followed key) (Yaml.ownName d followed key) := by
  unfold Yaml.ownName
  refine .bind (.reach d followed key) fun reached => ?_
  obtain ⟨reached, followed⟩ := reached
  cases reached with
  | scalar line tag text =>
    refine .bind (.scalarValue tag text) fun value => ?_
    obtain ⟨value, shown⟩ := value
    cases value <;> exact .pure _
  | sequence => exact .pure _
  | mapping => exact .pure _
  | «alias» => exact .pure _

/-! ## Filling -/

/-- A field of either kind takes up the same scalars. -/
theorem Related.fillScalar {field : Field σ} {field' : Field τ} (h : Field.Related R field field')
    (line : Nat) (tag text : Text) :
    Related R (Yaml.fillScalar field line tag text) (Yaml.fillScalar field' line tag text) := by
  unfold Yaml.fillScalar
  refine .bind (.scalarValue tag text) fun value => ?_
  obtain ⟨value, shown⟩ := value
  cases h with
  | text hset =>
    cases value with
    | null => exact .pure _
    | bool | int | float | timestamp | text => exact .change (hset shown)
  | int hset =>
    cases value with
    | null => exact .pure _
    | int n =>
      dsimp only
      split
      next => exact .change (hset n)
      next => exact .note _
    | float x =>
      dsimp only
      cases truncate? x with
      | none => exact .note _
      | some n => exact .change (hset n)
    | bool | timestamp | text => exact .note _
  | bool hset =>
    cases value with
    | null => exact .pure _
    | bool b => exact .change (hset b)
    | text =>
      dsimp only
      cases looseBool? shown with
      | none => exact .note _
      | some b => exact .change (hset b)
    | int | float | timestamp => exact .note _
  | texts hset =>
    cases value with
    | null => exact .change (hset [])
    | bool | int | float | timestamp | text => exact .note _
  | record _ =>
    cases value with
    | null => exact .pure _
    | bool | int | float | timestamp | text => exact .note _

end Fill

open Fill

mutual

theorem related_fillField (d : Document) : ∀ (fuel : Nat) {field : Field σ} {field' : Field τ},
    Field.Related R field field' → ∀ (followed : List Nat) (node : Node),
      Related R (fillField d field fuel followed node) (fillField d field' fuel followed node)
  | 0, _, _, _, _, _ => .fault
  | fuel + 1, field, field', h, followed, node => by
    unfold fillField
    refine .bind (.reach d followed node) fun reached => ?_
    obtain ⟨reached, followed⟩ := reached
    cases reached with
    | scalar line tag text => exact .fillScalar h line tag text
    | «alias» => exact .fault
    | sequence line tag items =>
      cases h with
      | texts hset =>
        exact .bind (.filterMapM (fun item => .textOf d followed item) items) fun texts =>
          .change (hset texts)
      | text | int | bool | record => exact .note _
    | mapping line tag entries =>
      dsimp only
      split
      next => exact .forM_note _
      next =>
        cases h with
        | record h =>
          exact .bind (related_fillRecord d fuel h _ none followed entries) fun _ => .pure _
        | text | int | bool | texts => exact .note _

theorem related_fillRecord (d : Document) :
    ∀ (fuel : Nat) {fields : List (Text × Field σ)} {fields' : List (Text × Field τ)},
      FieldsRelated R fields fields' → ∀ (type : Text) (taken : Option (List Text))
        (followed : List Nat) (entries : List (Node × Node)),
        Related R (fillRecord d type fields taken fuel followed entries)
          (fillRecord d type fields' taken fuel followed entries)
  | 0, _, _, _, _, _, _, _ => .fault
  | fuel + 1, fields, fields', h, type, taken, followed, entries => by
    unfold fillRecord
    refine .bind (related_fillEntries d fuel h type followed taken [] entries) fun taken' => ?_
    cases (entries.filter fun (key, _) => isMerge key).getLast? with
    | none => exact .pure _
    | some entry =>
      obtain ⟨_, source⟩ := entry
      cases taken' with
      | some names =>
        refine .bind (.pure names) fun start => ?_
        exact .bind (related_fillMerged d fuel h type start followed _) fun _ => .pure _
      | none =>
        refine .bind (.filterMapM (fun entry => .ownName d followed entry.1) entries) fun start => ?_
        exact .bind (related_fillMerged d fuel h type start followed _) fun _ => .pure _

theorem related_fillEntries (d : Document) :
    ∀ (fuel : Nat) {fields : List (Text × Field σ)} {fields' : List (Text × Field τ)},
      FieldsRelated R fields fields' → ∀ (type : Text) (followed : List Nat)
        (taken : Option (List Text)) (done : List Text) (entries : List (Node × Node)),
        Related R (fillEntries d type fields fuel followed taken done entries)
          (fillEntries d type fields' fuel followed taken done entries)
  | 0, _, _, _, _, _, _, _, _ => .fault
  | _ + 1, _, _, _, _, _, _, _, [] => .pure _
  | fuel + 1, fields, fields', h, type, followed, taken, done, (key, value) :: rest => by
    have ih := related_fillEntries d fuel h type followed
    unfold fillEntries
    split
    next => exact ih _ _ _
    next =>
      refine .bind (.textOf d followed key) fun name? => ?_
      cases name? with
      | none => exact ih _ _ _
      | some name =>
        dsimp only
        split
        next => exact ih _ _ _
        next =>
          have hname := h.lookup name
          generalize fields.lookup name = found, fields'.lookup name = found' at hname
          cases hname with
          | none => exact ih _ _ _
          | @some field field' hfield =>
            dsimp only
            split
            next => exact .bind (.note _) fun _ => ih _ _ _
            next => exact .bind (related_fillField d fuel hfield followed value) fun _ => ih _ _ _

theorem related_fillMerged (d : Document) :
    ∀ (fuel : Nat) {fields : List (Text × Field σ)} {fields' : List (Text × Field τ)},
      FieldsRelated R fields fields' → ∀ (type : Text) (taken : List Text) (followed : List Nat)
        (sources : List Node),
        Related R (fillMerged d type fields taken fuel followed sources)
          (fillMerged d type fields' taken fuel followed sources)
  | 0, _, _, _, _, _, _, _ => .fault
  | _ + 1, _, _, _, _, _, _, [] => .pure _
  | fuel + 1, fields, fields', h, type, taken, followed, source :: rest => by
    have ih := related_fillMerged d fuel h type
    unfold fillMerged
    refine .bind (.reach d followed source) fun reached => ?_
    obtain ⟨reached, within⟩ := reached
    cases reached with
    | scalar => exact .fault
    | sequence => exact .fault
    | «alias» => exact .fault
    | mapping line tag entries =>
      dsimp only
      split
      next => exact .bind (.forM_note _) fun _ => .bind (.pure _) fun _ => ih _ _ _
      next =>
        exact .bind (related_fillRecord d fuel h type _ within entries) fun _ =>
          .bind (.pure _) fun _ => ih _ _ _

end

/-- What is filled in depends on the document alone. -/
theorem fill_related {field : Field σ} {field' : Field τ} (h : Field.Related R field field')
    {record : σ} {record' : τ} (hrecord : R record record') (content : Text) :
    (∃ e, fill field record content = .error e ∧ fill field' record' content = .error e) ∨
      ∃ r r', fill field record content = .ok r ∧ fill field' record' content = .ok r' ∧ R r r' := by
  unfold fill
  cases parse content with
  | none => exact .inl ⟨_, rfl, rfl⟩
  | some document =>
    cases document with
    | none => exact .inr ⟨_, _, rfl, rfl, hrecord⟩
    | some d =>
      have hfill := related_fillField d (3 * (d.aliases + 1) * (d.size + 1) + 3) h [] d.root
        ⟨record, [], 1, 0⟩ ⟨record', [], 1, 0⟩ ⟨hrecord, rfl, rfl, rfl⟩
      dsimp only [StateT.run]
      generalize fillField d field _ [] d.root ⟨record, [], 1, 0⟩ = x,
        fillField d field' _ [] d.root ⟨record', [], 1, 0⟩ = x' at hfill
      cases hfill with
      | none => exact .inl ⟨_, rfl, rfl⟩
      | @some y y' hy =>
        obtain ⟨_, filling⟩ := y
        obtain ⟨_, filling'⟩ := y'
        obtain ⟨-, hfilling⟩ := hy
        dsimp only
        rw [← hfilling.misfits]
        split
        next => exact .inr ⟨_, _, rfl, rfl, hfilling.record⟩
        next => exact .inl ⟨_, rfl, rfl⟩

instance : LawfulReader fill := ⟨fill_related⟩

end

end PackageCycles.Yaml

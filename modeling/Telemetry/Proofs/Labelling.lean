import Telemetry.Metric.Basic
import Telemetry.Proofs.Showing

/-! What resolving labels leaves on the elements of a metric, and what of it the exporter sees. All
elements share their labels but for the index label of an array. Every computed value is remembered
beside the metric, so that releasing gives back the very values that were resolved. -/
namespace Telemetry

structure Computed where
  source : LabelSource
  key : String
  value : String

namespace Computed

def resolved (c : Computed) : Event := .resolved c.key c.value

def released (c : Computed) : List Event :=
  if c.source.releases then [.released c.key c.value] else []

end Computed

def ownerKeys : List String := [domainKey, zoneKey, blockKey]

/-- A label could not be had: a source has failed, or the format of an index label. -/
def Fault.unlabelled : Fault → Bool
  | .overflow _ | .source _ => true
  | _ => false

/-- The text at index `i` is what the format makes of it, and without one the index itself. -/
def IndexLabel.Reads (label : IndexLabel) (i : Nat) (text : String) : Prop :=
  match label.format with
  | some format => format i = .ok text
  | none => text = toString i

theorem IndexLabel.value_eq_ok_iff {label : IndexLabel} {i : Nat} {text : String} :
    label.value i = .ok text ↔ label.Reads i text := by
  unfold value Reads
  cases label.format with
  | some format => rfl
  | none =>
    rw [Except.ok.injEq]
    exact eq_comm

namespace Metric

variable {spec : MetricSpec} {scope : Scope} {turn : Nat}

/-- The labels that only the element at `i` has: in an array, its index label. -/
def Indexed (spec : MetricSpec) (i : Nat) (own : List Label) : Prop :=
  if spec.flags.array then
    ∃ text, spec.indexLabel.Reads i text ∧
      own = [⟨spec.indexLabel.key, text, spec.indexLabel.internal⟩]
  else own = []

theorem indexed_of_indexLabels {i : Nat} {own : List Label} (h : indexLabels spec i = .ok own) :
    Indexed spec i own := by
  unfold indexLabels at h
  unfold Indexed
  split_ifs at h ⊢
  · obtain ⟨text, value, label⟩ := map_ok h
    exact ⟨text, IndexLabel.value_eq_ok_iff.mp value, label.symm⟩
  · exact (Except.ok.inj h).symm

def labelsAt (spec : MetricSpec) (scope : Scope) (values : List String) (i : Nat) :
    Except Overflow (List Label) :=
  (indexLabels spec i).map (sharedLabels spec scope values ++ ·)

/-- What sources compute for declared labels, in order, until one fails. -/
def computing (turn : Nat) (scope : Scope) : List LabelSpec → List Computed
  | [] => []
  | label :: rest =>
    match label.value with
    | .fixed _ => computing turn scope rest
    | .computed source =>
      match source.resolve turn label.key scope with
      | .error _ => []
      | .ok value => ⟨source, label.key, value⟩ :: computing turn scope rest

def computations (turn : Nat) (scope : Scope) (spec : MetricSpec) : List Computed :=
  computing turn scope spec.labels

def heldAt (spec : MetricSpec) (entry : Nat × String) : Option Computed :=
  match spec.labels[entry.1]? with
  | some label =>
    match label.value with
    | .computed source => some ⟨source, label.key, entry.2⟩
    | .fixed _ => none
  | none => none

/-- The computed values that the metric has. -/
def held (m : Metric) : List Computed := m.computed.filterMap (heldAt m.spec)

def Fits (labels : List LabelSpec) (values : List String) : Prop :=
  List.Forall₂ (fun label value => ∀ text, label.value = .fixed text → value = text) labels values

/-- The metric carries the labels of a scope, and these values for the declared ones. -/
structure Labelled (scope : Scope) (values : List String) (m : Metric) : Prop where
  fits : Fits m.spec.labels values
  elements : ∀ i e, m.elements[i]? = some e → labelsAt m.spec scope values i = .ok e.labels
  computed : m.computed = computedValues m.spec values

theorem released_held (m : Metric) :
    m.computed.flatMap (releaseLabel m.spec) = m.held.flatMap Computed.released := by
  have each (entry : Nat × String) :
      releaseLabel m.spec entry = (heldAt m.spec entry).toList.flatMap Computed.released := by
    simp only [releaseLabel, heldAt]
    cases m.spec.labels[entry.1]? with
    | none => rfl
    | some label =>
      obtain ⟨key, value, internal⟩ := label
      cases value with
      | fixed text => rfl
      | computed source => exact (List.append_nil _).symm
  rw [held, List.filterMap_eq_flatMap_toList, List.flatMap_assoc]
  exact List.flatMap_congr fun entry _ => each entry

theorem resolveDeclared_events (turn : Nat) (scope : Scope) (labels : List LabelSpec) :
    (resolveDeclared turn scope labels).2
      = (computing turn scope labels).map Computed.resolved := by
  induction labels with
  | nil => rfl
  | cons label rest ih =>
    obtain ⟨key, value, internal⟩ := label
    cases value with
    | fixed text => exact ih
    | computed source =>
      simp only [resolveDeclared, resolveLabel, computing]
      cases source.resolve turn key scope with
      | error message => rfl
      | ok value => exact congrArg (Event.resolved key value :: ·) ih

/-- The values of all declared labels, with those of `labels`, that stand from the place `k` on. -/
theorem resolveDeclared_ok {labels : List LabelSpec} {values : List String} {k : Nat}
    (placed : ∀ i, spec.labels[k + i]? = labels[i]?)
    (done : (resolveDeclared turn scope labels).1 = .ok values) :
    Fits labels values ∧
      ((((labels.zip values).zipIdx k).filter fun x => isComputed x.1.1).map
        fun x => (x.2, x.1.2)).filterMap (heldAt spec) = computing turn scope labels := by
  induction labels generalizing k values with
  | nil =>
    cases done
    exact ⟨.nil, rfl⟩
  | cons label rest ih =>
    have here : spec.labels[k]? = some label := by simpa using placed 0
    have later : ∀ i, spec.labels[k + 1 + i]? = rest[i]? := fun i => by
      rw [show k + 1 + i = k + (i + 1) by omega]
      exact placed (i + 1)
    obtain ⟨key, value, internal⟩ := label
    cases value with
    | fixed text =>
      obtain ⟨others, tail, rfl⟩ := map_ok done
      obtain ⟨fits, same⟩ := ih later tail
      refine ⟨.cons (fun other fixed => by cases fixed; rfl) fits, ?_⟩
      simpa [isComputed, computing] using same
    | computed source =>
      simp only [resolveDeclared, resolveLabel] at done
      cases answer : source.resolve turn key scope with
      | error message =>
        rw [answer] at done
        cases done
      | ok value =>
        rw [answer] at done
        obtain ⟨others, tail, rfl⟩ := map_ok done
        obtain ⟨fits, same⟩ := ih later tail
        refine ⟨.cons (fun other fixed => by cases fixed) fits, ?_⟩
        have own : heldAt spec (k, value) = some ⟨source, key, value⟩ := by
          simp only [heldAt, here]
        simp only [computing, answer]
        rw [← same]
        exact List.filterMap_cons_some own

theorem resolveLabels_events (m : Metric) (turn : Nat) (scope : Scope) :
    (m.resolveLabels turn scope).2 = (computations turn scope m.spec).map Computed.resolved := by
  rw [computations, ← resolveDeclared_events]
  unfold resolveLabels
  split
  all_goals
    rename_i here
    rw [here]

theorem labelElements_ok {shared : List Label} {k : Nat} {es ds : List Element}
    (labelled : labelElements spec shared k es = .ok ds) :
    ds.map (fun e => { e with labels := [] }) = es.map (fun e => { e with labels := [] }) ∧
      ∀ i d, ds[i]? = some d → (indexLabels spec (k + i)).map (shared ++ ·) = .ok d.labels := by
  induction es generalizing k ds with
  | nil =>
    cases labelled
    exact ⟨rfl, fun i d found => by cases found⟩
  | cons e rest ih =>
    obtain ⟨labels, own, labelled⟩ := bind_ok labelled
    obtain ⟨others, tail, labelled⟩ := bind_ok labelled
    cases labelled
    have later := ih tail
    constructor
    · rw [List.map_cons, List.map_cons, later.1]
    · intro i d found
      cases i with
      | zero =>
        cases found
        rw [Nat.add_zero, own]
        rfl
      | succ i =>
        rw [show k + (i + 1) = k + 1 + i by omega]
        exact later.2 i d found

theorem resolveLabels_ok {m n : Metric} (done : (m.resolveLabels turn scope).1 = .ok n) :
    ∃ values, Fits m.spec.labels values ∧
      (computedValues m.spec values).filterMap (heldAt m.spec) = computations turn scope m.spec ∧
      n.spec = m.spec ∧ n.computed = m.computed ++ computedValues m.spec values ∧
      n.elements.map (fun e => { e with labels := [] })
        = m.elements.map (fun e => { e with labels := [] }) ∧
      ∀ i e, n.elements[i]? = some e → labelsAt m.spec scope values i = .ok e.labels := by
  unfold resolveLabels at done
  split at done
  · cases done
  · rename_i values events here
    obtain ⟨elements, labelled, rfl⟩ := map_ok done
    obtain ⟨same, labels⟩ := labelElements_ok (mapError_ok labelled)
    have resolved := congrArg Prod.fst here
    have placed (i : Nat) : m.spec.labels[0 + i]? = m.spec.labels[i]? := by rw [Nat.zero_add]
    obtain ⟨fits, held⟩ := resolveDeclared_ok placed resolved
    refine ⟨values, fits, held, rfl, rfl, same, fun i e found => ?_⟩
    have own := labels i e found
    rw [Nat.zero_add] at own
    exact own

theorem resolveLabels_error {m : Metric} {f : Fault}
    (failed : (m.resolveLabels turn scope).1 = .error f) : f.unlabelled = true := by
  unfold resolveLabels at failed
  split at failed
  · cases failed
    rfl
  · obtain ⟨o, -, rfl⟩ := mapError_error (map_error failed)
    rfl

/-! ### Exported labels -/

def publicLabels (spec : MetricSpec) (values : List String) : List Label :=
  ((spec.labels.zip values).map fun (label, value) =>
    (⟨label.key, value, label.internal⟩ : Label)).filter (!·.internal)

def ownCount (spec : MetricSpec) : Nat :=
  if spec.flags.array && !spec.indexLabel.internal then 1 else 0

theorem publicLabels_keys {values : List String} (fits : Fits spec.labels values) :
    (publicLabels spec values).map (·.key) = (spec.labels.filter (!·.internal)).map (·.key) := by
  have labels : (spec.labels.zip values).map (·.1) = spec.labels :=
    List.map_fst_zip (Nat.le_of_eq fits.length_eq)
  conv => rhs; rw [← labels]
  simp only [publicLabels, List.filter_map, List.map_map]
  rfl

/-- The exported labels of the element at `i`, of which `own` are not shared. -/
structure Exports (spec : MetricSpec) (scope : Scope) (values : List String) (i : Nat)
    (labels own : List Label) : Prop where
  count : own.length = ownCount spec
  exported : Label.exported labels = Label.owners scope ++ (publicLabels spec values ++ own)
  keys : (publicLabels spec values ++ own).map (·.key) = spec.exportedKeys
  index : spec.flags.array = true → spec.indexLabel.internal = false →
    ∃ text, spec.indexLabel.Reads i text ∧ own = [⟨spec.indexLabel.key, text, false⟩]

theorem exports_labelsAt {values : List String} (fits : Fits spec.labels values) {i : Nat}
    {labels : List Label} (h : labelsAt spec scope values i = .ok labels) :
    ∃ own, Exports spec scope values i labels own := by
  have keys := publicLabels_keys fits
  simp only [labelsAt, indexLabels, sharedLabels] at h
  have owners : (Label.owners scope).filter (!·.internal) = Label.owners scope := rfl
  cases array : spec.flags.array with
  | false =>
    simp only [array, Bool.false_eq_true, if_false] at h
    cases h
    refine ⟨[], by simp [ownCount, array], ?_, ?_, by simp [array]⟩
    · simp [Label.exported, publicLabels, owners]
    · simp [MetricSpec.exportedKeys, keys, array]
  | true =>
    simp only [array, if_true] at h
    cases formatted : spec.indexLabel.value i with
    | error overflow =>
      rw [formatted] at h
      cases h
    | ok text =>
      rw [formatted] at h
      cases h
      refine ⟨[⟨spec.indexLabel.key, text, spec.indexLabel.internal⟩].filter (!·.internal),
        ?_, ?_, ?_, ?_⟩
      · cases hidden : spec.indexLabel.internal <;> simp [ownCount, array, hidden]
      · simp only [Label.exported, List.filter_append, owners, List.append_assoc]
        rfl
      · rw [List.map_append, keys, MetricSpec.exportedKeys]
        cases spec.indexLabel.internal <;> simp [array]
      · intro _ visible
        exact ⟨text, IndexLabel.value_eq_ok_iff.mp formatted, by simp [visible]⟩

namespace Exports

variable {values : List String} {i : Nat} {own : List Label} {e : Element}

theorem exposed (h : Exports spec scope values i e.labels own) :
    e.exposed = (Label.owners scope).map (·.value)
      ++ ((publicLabels spec values).map (·.value) ++ own.map (·.value)) := by
  rw [Element.exposed, h.exported, List.map_append, List.map_append]

theorem tuple_filtered (h : Exports spec scope values i e.labels own) :
    e.tuple = ((publicLabels spec values ++ own).filter (·.key ∉ ownerKeys)).map (·.value) := by
  have none : (Label.owners scope).filter (·.key ∉ ownerKeys) = [] := rfl
  rw [Element.tuple, Label.variableValues, h.exported]
  change ((Label.owners scope ++ _).filter (·.key ∉ ownerKeys)).map _ = _
  rw [List.filter_append, none, List.nil_append]

/-- With as many values as keys, no exported key is an owner's. -/
theorem apart (h : Exports spec scope values i e.labels own)
    (sized : e.tuple.length = spec.exportedKeys.length) :
    ∀ l ∈ publicLabels spec values ++ own, l.key ∉ ownerKeys := by
  rw [h.tuple_filtered, ← h.keys, List.length_map, List.length_map] at sized
  intro l member
  simpa using List.length_filter_eq_length_iff.mp sized l member

theorem tuple (h : Exports spec scope values i e.labels own)
    (sized : e.tuple.length = spec.exportedKeys.length) :
    e.tuple = (publicLabels spec values).map (·.value) ++ own.map (·.value) := by
  have whole : (publicLabels spec values ++ own).filter (·.key ∉ ownerKeys)
      = publicLabels spec values ++ own :=
    List.filter_eq_self.mpr fun l member => decide_eq_true (h.apart sized l member)
  rw [h.tuple_filtered, whole, List.map_append]

theorem exposed_eq_iff {j : Nat} {other : List Label} {a b : Element}
    (left : Exports spec scope values i a.labels own)
    (right : Exports spec scope values j b.labels other) :
    a.exposed = b.exposed ↔ own.map (·.value) = other.map (·.value) := by
  rw [left.exposed, right.exposed, List.append_cancel_left_eq, List.append_cancel_left_eq]

end Exports

end Metric

end Telemetry

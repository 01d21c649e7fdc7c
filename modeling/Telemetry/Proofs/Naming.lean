import Mathlib
import Telemetry.Proofs.Converting
import Telemetry.Proofs.Describing
import Telemetry.Proofs.Flattening
import Telemetry.Proofs.Grouping
import Telemetry.Report.Basic

/-! Which elements a report is about, and the names it shows them under. A name is chosen when no
other row has it at its own level; nothing is said of the other levels. So two elements may share a
line's name only across levels, and only where a dot inside a block name or an alias reads like the
end of one. -/
namespace Telemetry

def MetricFilter.Takes (f : MetricFilter) (m : Metric) (e : Element) : Prop :=
  (f.types = [] ∨ m.spec.type ∈ f.types) ∧ (f.nonZero = true → e.value ≠ 0)

instance (f : MetricFilter) (m : Metric) (e : Element) : Decidable (f.Takes m e) :=
  inferInstanceAs (Decidable (_ ∧ _))

namespace Report

/-! ### Entries -/

/-- An element on a walk, with its number within its metric. -/
structure Entry where
  visit : Visit
  element : Element
  index : Nat

def Entry.row (options : Options) (x : Entry) : Row := Report.row options x.visit x.element x.index

def entries (filter : MetricFilter) (visits : List Visit) : List Entry :=
  visits.flatMap fun v =>
    (v.metric.elements.zipIdx.filter fun x => filter.Takes v.metric x.1).map fun x => ⟨v, x.1, x.2⟩

theorem selected_eq (filter : MetricFilter) (m : Metric) :
    filter.selected m = m.elements.zipIdx.filter fun x => filter.Takes m x.1 := by
  have kept : filter.keepsType m.spec.type = true ↔
      filter.types = [] ∨ m.spec.type ∈ filter.types := by
    simp [MetricFilter.keepsType]
  unfold MetricFilter.selected
  split
  · rename_i metric
    have type := kept.mp (Bool.and_eq_true_iff.mp metric).1
    refine List.filter_congr fun x _ => ?_
    rw [Bool.eq_iff_iff]
    simp [MetricFilter.keepsElement, MetricFilter.Takes, type, Decidable.imp_iff_not_or]
  · rename_i metric
    refine (List.filter_eq_nil_iff.mpr fun x member taken => metric ?_).symm
    obtain ⟨type, nonzero⟩ := of_decide_eq_true taken
    refine Bool.and_eq_true_iff.mpr ⟨kept.mpr type, ?_⟩
    cases zeros : filter.nonZero with
    | false => rfl
    | true =>
      have inside : x.1 ∈ m.elements := List.fst_mem_of_mem_zipIdx member
      exact List.any_eq_true.mpr ⟨x.1, inside, bne_iff_ne.mpr (nonzero zeros)⟩

theorem entries_cons (filter : MetricFilter) (v : Visit) (rest : List Visit) :
    entries filter (v :: rest) = entries filter [v] ++ entries filter rest := by
  simp [entries]

theorem rowsOf_eq (filter : MetricFilter) (options : Options) (v : Visit) :
    rowsOf filter options v = (entries filter [v]).map (Entry.row options) := by
  simp [rowsOf, entries, selected_eq, Entry.row, Function.comp_def]

end Report

namespace Domain

variable {δ : Type}

def reported (filter : MetricFilter) (d : Domain δ) : List Report.Entry :=
  Report.entries filter (d.zones.flatMap (Zone.visits d.name))

theorem ofFn_reported (filter : MetricFilter) (options : Report.Options) (d : Domain δ) :
    (List.ofFn fun k => ((d.reported filter).get k).row options) =
      (d.reported filter).map (·.row options) := by
  conv => rhs; rw [← List.ofFn_get (d.reported filter), List.map_ofFn]
  rfl

theorem reportRows_eq (filter : MetricFilter) (options : Report.Options) (d : Domain δ)
    (s : Shared) : d.reportRows filter options s =
      (d.answering s ((d.reported filter).map (·.row options))).outcome := by
  let collect (v : Visit) (rows : List Report.Row) : Option Empty × List Report.Row :=
    (none, rows ++ Report.rowsOf filter options v)
  have walked (visits : List Visit) (rows : List Report.Row) : walk collect visits rows =
      (none, rows ++ (Report.entries filter visits).map (·.row options)) := by
    induction visits generalizing rows with
    | nil => simp [walk, Report.entries]
    | cons v rest ih =>
      have first : collect v rows = (none, rows ++ Report.rowsOf filter options v) := rfl
      simp only [walk, first, ih]
      rw [Report.rowsOf_eq, List.append_assoc, ← List.map_append, ← Report.entries_cons]
  have answer := d.reading_answering s fun d =>
    walk collect (d.zones.flatMap (Zone.visits d.name)) []
  rw [reportRows, show d.forEachMetric collect [] s = _ from answer, answering, answering, walked]
  cases d.treePoisoned <;> rfl

end Domain

namespace Report

/-! ### Levels -/

inductive Level where
  | short
  | partialName
  | long
deriving DecidableEq

def Row.named (r : Row) : Level → String
  | .short => r.short
  | .partialName => r.partialName
  | .long => r.long

def Level.owners : Level → Nat
  | .short => 0
  | .partialName => 1
  | .long => 2

theorem Level.owners_injective {a b : Level} (same : a.owners = b.owners) : a = b := by
  revert same
  cases a <;> cases b <;> decide

variable {n : Nat}

def Alone (name : Fin n → String) (k : Fin n) : Prop := ∀ j, name j = name k → j = k

instance (name : Fin n → String) (k : Fin n) : Decidable (Alone name k) :=
  inferInstanceAs (Decidable (∀ _, _))

theorem count_eq_one_iff (name : Fin n → String) (k : Fin n) :
    (List.ofFn name).count (name k) = 1 ↔ Alone name k := by
  have here : k ∈ (List.finRange n).filter (name · = name k) := by simp
  have count : (List.ofFn name).count (name k) =
      ((List.finRange n).filter (name · = name k)).length := by
    rw [List.ofFn_eq_map, List.count, List.countP_map, List.countP_eq_length_filter]
    congr 1
  rw [count]
  constructor
  · intro one j same
    obtain ⟨i, only⟩ := List.length_eq_one_iff.mp one
    have there : j ∈ (List.finRange n).filter (name · = name k) := by simp [same]
    rw [only, List.mem_singleton] at here there
    rw [here, there]
  · intro alone
    have same : ((List.finRange n).filter (name · = name k)).Perm [k] := by
      refine (List.perm_ext_iff_of_nodup ((List.nodup_finRange n).filter _) (by simp)).mpr ?_
      intro j
      constructor
      · intro member
        exact List.mem_singleton.mpr (alone j (of_decide_eq_true (List.mem_filter.mp member).2))
      · intro member
        exact List.mem_singleton.mp member ▸ here
    exact same.length_eq

/-- The level a row is shown at: the first at which it is alone, or the last. -/
def level (options : Options) (row : Fin n → Row) (k : Fin n) : Level :=
  if options.longNames then .long
  else if Alone (fun j => (row j).short) k then .short
  else if Alone (fun j => (row j).partialName) k then .partialName
  else .long

theorem displayName_eq (options : Options) (row : Fin n → Row) (k : Fin n) :
    displayName options (List.ofFn row) (row k) = (row k).named (level options row k) := by
  have short := count_eq_one_iff (fun j => (row j).short) k
  have partialName := count_eq_one_iff (fun j => (row j).partialName) k
  simp only [displayName, level, List.map_ofFn, Function.comp_def, short, partialName]
  split
  · rfl
  · split
    · rfl
    · split <;> rfl

def Entry.names (options : Options) (x : Entry) : Row :=
  let short := shortName options x.visit.metric.spec x.element x.index
  let partialName := x.visit.block ++ "." ++ short
  ⟨short, partialName, x.visit.zone ++ "." ++ partialName, "", "", []⟩

theorem displayName_names (options : Options) (xs : List Entry) (x : Entry) :
    displayName options (xs.map (·.row options)) (x.row options) =
      displayName options (xs.map (·.names options)) (x.names options) := by
  simp only [displayName, List.map_map, Function.comp_def]
  rfl

theorem alone_of_level_short {options : Options} {row : Fin n → Row} {k : Fin n}
    (shown : level options row k = .short) : Alone (fun j => (row j).short) k := by
  unfold level at shown
  split at shown
  · cases shown
  · split at shown
    · assumption
    · split at shown <;> cases shown

theorem alone_of_level_partialName {options : Options} {row : Fin n → Row} {k : Fin n}
    (shown : level options row k = .partialName) : Alone (fun j => (row j).partialName) k := by
  unfold level at shown
  split at shown
  · cases shown
  · split at shown
    · cases shown
    · split at shown
      · assumption
      · cases shown

/-! ### Dots -/

def dots (text : String) : Nat := text.toList.count '.'

theorem mem_of_dots {text : String} (some : 0 < dots text) : '.' ∈ text.toList :=
  List.count_pos_iff.mp some

theorem dots_joined (owner name : String) :
    dots (owner ++ "." ++ name) = dots owner + 1 + dots name := by
  simp [dots, String.toList_append, List.count_append]
  omega

theorem dots_partialName (options : Options) (x : Entry) :
    dots (x.row options).partialName = dots x.visit.block + 1 + dots (x.row options).short :=
  dots_joined ..

theorem dots_long (options : Options) (x : Entry) :
    dots (x.row options).long = dots x.visit.zone + 1 + dots (x.row options).partialName :=
  dots_joined ..

/-- The element is called by an alias that has a dot. -/
def DottedAlias (options : Options) (e : Element) : Prop :=
  ∃ name, alias? options e = some name ∧ '.' ∈ name.toList

theorem metricName_undotted {name : String} (valid : Series.isMetricName name = true) :
    '.' ∉ name.toList := by
  unfold Series.isMetricName Series.isIdentifier at valid
  split at valid
  · cases valid
  · rename_i c rest text
    obtain ⟨first, others⟩ := Bool.and_eq_true_iff.mp valid
    rw [text]
    intro member
    rcases List.mem_cons.mp member with rfl | member
    · cases first
    · cases List.all_eq_true.mp others _ member

theorem dottedAlias_of_short {options : Options} {x : Entry}
    (valid : Series.isMetricName x.visit.metric.spec.name = true)
    (dotted : 0 < dots (x.row options).short) : DottedAlias options x.element := by
  have undotted := metricName_undotted valid
  have member := mem_of_dots dotted
  simp only [Entry.row, row, shortName] at member
  split at member
  · rename_i name used
    exact ⟨name, used, member⟩
  · split at member
    · have indexed : '.' ∈ (x.visit.metric.spec.name ++ "[" ++ toString x.index ++ "]").toList :=
        member
      have digit : '.' ∈ Nat.toDigits 10 x.index := by
        simpa [String.toList_append, undotted] using indexed
      cases Nat.isDigit_of_mem_toDigits (by decide) (by decide) digit
    · exact absurd member undotted

def shownAt (options : Options) (x : Fin n → Entry) (k : Fin n) : Level :=
  level options (fun i => (x i).row options) k

/-- The first of two rows is shown by a name that has a dot of its own, and looks like a name of the
longer kind that the second is shown by. -/
inductive Mistaken (options : Options) (x : Fin n → Entry) (j k : Fin n) : Prop
  | short (here : shownAt options x j = .short) (there : shownAt options x k ≠ .short)
      (dotted : DottedAlias options (x j).element)
  | partialName (here : shownAt options x j = .partialName) (there : shownAt options x k = .long)
      (dotted : '.' ∈ (x j).visit.block.toList ∨ DottedAlias options (x j).element)

section Identity

variable {options : Options} {x : Fin n → Entry}

/-- Within a level no two elements are shown alike, except for a long name that they share. -/
theorem long_eq_of_level_eq {j k : Fin n} (level : shownAt options x j = shownAt options x k)
    (same : ((x j).row options).named (shownAt options x j) =
      ((x k).row options).named (shownAt options x k)) :
    ((x j).row options).long = ((x k).row options).long := by
  rw [level] at same
  cases shown : shownAt options x k with
  | short =>
    rw [shown] at same
    rw [alone_of_level_short shown j same]
  | partialName =>
    rw [shown] at same
    rw [alone_of_level_partialName shown j same]
  | long =>
    rw [shown] at same
    exact same

/-- A name with more owners in front has more dots, so the other has one of its own. -/
theorem mistaken_of_fewer_owners {j k : Fin n}
    (valid : Series.isMetricName (x j).visit.metric.spec.name = true)
    (fewer : (shownAt options x j).owners < (shownAt options x k).owners)
    (same : ((x j).row options).named (shownAt options x j) =
      ((x k).row options).named (shownAt options x k)) : Mistaken options x j k := by
  have count := congrArg dots same
  have first := dots_partialName options (x j)
  have second := dots_partialName options (x k)
  have long := dots_long options (x k)
  cases here : shownAt options x j with
  | short =>
    refine .short here (fun there => ?_) (dottedAlias_of_short valid ?_)
    · rw [here, there] at fewer
      exact Nat.lt_irrefl _ fewer
    · cases there : shownAt options x k <;> simp only [here, there, Row.named, Level.owners] at * <;>
        omega
  | partialName =>
    cases there : shownAt options x k with
    | short => simp [here, there, Level.owners] at fewer
    | partialName => simp [here, there, Level.owners] at fewer
    | long =>
      simp only [here, there, Row.named] at count
      refine .partialName here there ?_
      by_cases block : 0 < dots (x j).visit.block
      · exact .inl (mem_of_dots block)
      · exact .inr (dottedAlias_of_short valid (by omega))
  | long => cases there : shownAt options x k <;> simp [here, there, Level.owners] at fewer

theorem long_eq_or_mistaken
    (valid : ∀ k, Series.isMetricName (x k).visit.metric.spec.name = true) {j k : Fin n}
    (same : ((x j).row options).named (shownAt options x j) =
      ((x k).row options).named (shownAt options x k)) :
    ((x j).row options).long = ((x k).row options).long ∨ Mistaken options x j k ∨
      Mistaken options x k j := by
  rcases Nat.lt_trichotomy (shownAt options x j).owners (shownAt options x k).owners with
    fewer | level | more
  · exact .inr (.inl (mistaken_of_fewer_owners (valid j) fewer same))
  · exact .inl (long_eq_of_level_eq (Level.owners_injective level) same)
  · exact .inr (.inr (mistaken_of_fewer_owners (valid k) more same.symm))

end Identity

end Report

/-! ### Reachable domains -/

section Reachable

variable {δ : Type}

theorem Report.mem_entries {filter : MetricFilter} {visits : List Visit} {x : Report.Entry}
    (member : x ∈ Report.entries filter visits) : x.visit ∈ visits := by
  obtain ⟨v, inside, own⟩ := List.mem_flatMap.mp member
  obtain ⟨y, -, rfl⟩ := List.mem_map.mp own
  exact inside

variable [Driver δ] {count : Nat} {steps : List (Surroundings × Action δ)}

theorem Site.metricName_valid {d : Domain δ} {filter : MetricFilter} {x : Report.Entry}
    (holder : d ∈ ((Site.empty count).run steps).holders) (member : x ∈ d.reported filter) :
    Series.isMetricName x.visit.metric.spec.name = true := by
  have coherent : ((Site.empty count).run steps).Coherent count := Site.run_coherent count steps
  obtain ⟨z, inside, visited⟩ := List.mem_flatMap.mp (Report.mem_entries member)
  obtain ⟨b, own, visited⟩ := List.mem_flatMap.mp visited
  obtain ⟨m, metric, same⟩ := List.mem_map.mp visited
  obtain ⟨i, -, shows⟩ := forall₂_mem
    (coherent.mirror.shown _ (Site.mem_mounts holder inside own)).vectors m metric
  obtain ⟨v, -, described, -⟩ := shows.vector
  rw [← same]
  exact (Collector.describe_isOk_iff.mp ⟨_, described⟩).1

/-- **Names of a report identify elements**, except across levels. In every domain that can be
reached, two rows shown under one name have the same long name, unless one of them is shown by a
shorter kind of name than the other, and a dot in its alias or its block makes it look like the
other's. -/
theorem shown_names_identify (count : Nat) (steps : List (Surroundings × Action δ)) :
    let s : Site δ := (Site.empty count).run steps
    ∀ i d, s.domain? i = some d → ∀ filter options,
      let x := (d.reported filter).get
      let row := fun k => (x k).row options
      let shown := fun k => Report.displayName options (List.ofFn row) (row k)
      d.reportRows filter options s.shared = (d.answering s.shared (List.ofFn row)).outcome ∧
      ∀ j k, shown j = shown k → (row j).long = (row k).long ∨ Report.Mistaken options x j k ∨
        Report.Mistaken options x k j := by
  intro s i d found filter options x row shown
  have rows := d.ofFn_reported filter options
  refine ⟨by rw [d.reportRows_eq, ← rows], fun j k same => ?_⟩
  have named := same
  simp only [shown, Report.displayName_eq] at named
  have holder : d ∈ s.holders := Site.mem_holders.mpr (.inl ⟨i, found⟩)
  exact Report.long_eq_or_mistaken (fun k => Site.metricName_valid holder (List.get_mem ..)) named

end Reachable

def namesakes : List (Surroundings × Action StockDriver) :=
  let zone (name block : String) : ZoneSpec StockDriver :=
    ⟨name, [⟨block, none, [MetricSpec.simple "x" .gauge (.whole 0 4)], 0, none⟩]⟩
  [(.plain [] 0, .create 0 ⟨"d", 0, false⟩), (.plain [] 0, .alloc 0 (zone "y" "z.b")),
    (.plain [] 0, .alloc 0 (zone "z" "b")), (.plain [] 0, .alloc 0 (zone "w" "b"))]

/-- Two elements are shown under one name and have different long names. -/
theorem namesakes_shown_alike :
    let s : Site StockDriver := (Site.empty 1).run namesakes
    let options : Report.Options := ⟨false, false, false, false⟩
    s.holders.flatMap (fun d =>
        let rows := (d.reported .all).map (·.row options)
        rows.map fun r => (Report.displayName options rows r, r.long)) =
      [("z.b.x", "y.z.b.x"), ("z.b.x", "z.b.x"), ("w.b.x", "w.b.x")] := by
  intro s options
  have names (d : Domain StockDriver) :
      ((d.reported .all).map (·.row options)).map (fun r =>
        (Report.displayName options ((d.reported .all).map (·.row options)) r, r.long)) =
      (d.reported .all).map fun x => (Report.displayName options
        ((d.reported .all).map (·.names options)) (x.names options), (x.names options).long) := by
    rw [List.map_map]
    refine List.map_congr_left fun x _ => Prod.ext ?_ rfl
    exact Report.displayName_names options _ x
  simp only [names]
  cbv

end Telemetry

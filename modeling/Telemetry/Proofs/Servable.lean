import Telemetry.Proofs.Admission
import Telemetry.Proofs.Replayed
import Telemetry.Proofs.Sheets

/-! Which datasets can be served. Every heading makes a valid name, so it is up to the registry
alone whether the zone of a dataset can be attached. One that holds the exporter's own metrics and
nothing else takes the columns if their names are different from each other and from the exporter's,
unless it mistakes some of them: it knows a series by a word that stands for its name and its
owners, and a collector by the sum of these words. -/
namespace Telemetry

open Series (Descriptor Registry)
open Replay (Engine)
open Replay.Engine (create metricSpec)

/-! ### Names -/

theorem guardStart_named {letters : List Char}
    (each : ∀ c ∈ letters, Series.isLetter c = true ∨ Series.isDecimalDigit c = true) :
    Series.isMetricName (String.ofList (guardStart letters)) = true := by
  have behind (rest : List Char)
      (each : ∀ c ∈ rest, Series.isLetter c = true ∨ Series.isDecimalDigit c = true) :
      (rest.all fun c => Series.isLetter c || c == ':' || Series.isDecimalDigit c) = true := by
    refine List.all_eq_true.mpr fun c member => ?_
    rcases each c member with letter | digit
    · simp [letter]
    · simp [digit]
  rw [Series.isMetricName, Series.isIdentifier, String.toList_ofList]
  cases letters with
  | nil => rfl
  | cons c rest =>
    obtain ⟨first, later⟩ := List.forall_mem_cons.mp each
    rw [guardStart]
    by_cases digit : Reader.isDigit c = true
    · rw [if_pos digit]
      exact behind (c :: rest) each
    · rw [if_neg digit]
      have letter : Series.isLetter c = true := first.resolve_right digit
      simp only [letter, Bool.true_or, Bool.true_and]
      exact behind rest later

theorem metricName_named (heading : String) : Series.isMetricName (metricName heading) = true := by
  refine guardStart_named fun c member => ?_
  obtain ⟨x, -, rfl⟩ := List.mem_map.mp member
  by_cases kept : isAsciiAlphanumeric x = true
  · rw [if_pos kept]
    simp only [isAsciiAlphanumeric, Bool.or_eq_true] at kept
    simp only [Series.isLetter, Series.isDecimalDigit, Bool.or_eq_true]
    tauto
  · rw [if_neg kept]
    exact .inl rfl

/-! ### The exporter's own metrics -/

structure Shared.Holds (registry : Nat) (vs : List Series.Vector) (s : Shared) : Prop where
  present : registry < s.registries.length
  identities : (s.registry registry).identities = vs.map (·.descriptor.identity)
  entries : (s.registry registry).entries.map (·.identity) = vs.map (·.descriptor.identity)
  dimensions : (s.registry registry).dimensions =
    vs.map fun v => (v.descriptor.name, v.descriptor.dimensions)

namespace Shared.Holds

variable {registry : Nat} {vs : List Series.Vector} {s : Shared}

theorem dimensions? (h : s.Holds registry vs) (name : String) :
    (s.registry registry).dimensions? name =
      ((vs.find? (·.descriptor.name = name)).map (·.descriptor.dimensions)) := by
  rw [Registry.dimensions?, h.dimensions, List.find?_map, Option.map_map]
  rfl

theorem registerOne (h : s.Holds registry vs) {v : Series.Vector}
    (unnamed : v.descriptor.name ∉ vs.map (·.descriptor.name))
    (unused : v.descriptor.identity ∉ vs.map (·.descriptor.identity)) :
    ∃ ref t, SelfMetrics.registerOne registry v s = (.ok ref, t) ∧
      t.Holds registry (vs ++ [v]) := by
  have unknown : (s.registry registry).dimensions? v.descriptor.name = none := by
    rw [h.dimensions?, Option.map_eq_none_iff, List.find?_eq_none]
    intro w member
    rw [decide_eq_true_iff]
    exact fun same => unnamed (same ▸ List.mem_map_of_mem member)
  have noted : (s.registry registry).noting v.descriptor =
      { s.registry registry with dimensions := (s.registry registry).dimensions ++
          [(v.descriptor.name, v.descriptor.dimensions)] } := by
    rw [Registry.noting, unknown]
    rfl
  have walked : (s.registry registry).enroll [] [v.descriptor] =
      (.ok (), (s.registry registry).noting v.descriptor) := by
    rw [Registry.enroll_cons, unknown, h.identities, if_neg (by simpa using unused)]
    rfl
  have fresh :
      ¬ ((s.registry registry).noting v.descriptor).holds v.descriptor.identity = true := by
    rw [Registry.holds, (Registry.noting_same _ _).1]
    intro held
    obtain ⟨e, member, same⟩ := List.any_eq_true.mp held
    rw [← h.entries] at unused
    exact unused (List.mem_map.mpr ⟨e, member, of_decide_eq_true same⟩)
  have sum : ([v.descriptor].map (·.identity)).sum = v.descriptor.identity := UInt64.add_zero _
  have here (q : Registry) := Shared.registry_setRegistry
    { s with store := (s.store.add v).2 } registry registry q h.present
  simp only [SelfMetrics.registerOne, Registry.register_eq, walked, sum, if_neg fresh]
  refine ⟨_, _, rfl, ?_, ?_, ?_, ?_⟩
  · rw [Shared.setRegistry, List.length_set]
    exact h.present
  all_goals rw [here, if_pos rfl, noted, List.map_append]
  · rw [h.identities]
    rfl
  · rw [List.map_append, h.entries]
    rfl
  · rw [h.dimensions]
    rfl

theorem registerAll {ws : List Series.Vector} (h : s.Holds registry vs)
    (names : ((vs ++ ws).map (·.descriptor.name)).Nodup)
    (identities : ((vs ++ ws).map (·.descriptor.identity)).Nodup) :
    ∃ refs t, SelfMetrics.registerAll registry ws s = (.ok refs, t) ∧
      refs.length = ws.length ∧ t.Holds registry (vs ++ ws) := by
  induction ws generalizing vs s with
  | nil => exact ⟨[], s, rfl, rfl, (List.append_nil vs).symm ▸ h⟩
  | cons v rest ih =>
    have apart {β : Type} (f : Series.Vector → β) (unique : ((vs ++ v :: rest).map f).Nodup) :
        f v ∉ vs.map f := by
      rw [List.map_append, List.nodup_append'] at unique
      exact fun member => unique.2.2 member List.mem_cons_self
    obtain ⟨ref, u, first, one⟩ := h.registerOne (apart _ names) (apart _ identities)
    rw [List.append_cons] at names identities
    obtain ⟨refs, t, later, length, all⟩ := ih one names identities
    refine ⟨ref :: refs, t, ?_, congrArg Nat.succ length, List.append_cons vs v rest ▸ all⟩
    simp only [SelfMetrics.registerAll, first, later]

end Shared.Holds

namespace SelfMetrics

def names : List String := vectors.map (·.descriptor.name)

def words : List Fingerprint := vectors.map (·.descriptor.identity)

/-- A registry that holds the exporter's own metrics and nothing else. -/
abbrev Alone (registry : Nat) (s : Shared) : Prop := s.Holds registry vectors

theorem register_alone {registry : Nat} {s : Shared} (present : registry < s.registries.length)
    (empty : s.registry registry = .empty) :
    ∃ m t, register registry s = (.ok m, t) ∧ Alone registry t := by
  have start : s.Holds registry [] := ⟨present, by rw [empty]; rfl, by rw [empty]; rfl,
    by rw [empty]; rfl⟩
  obtain ⟨refs, t, all, length, alone⟩ :
      ∃ refs t, registerAll registry vectors s = (.ok refs, t) ∧
        refs.length = vectors.length ∧ t.Holds registry vectors :=
    start.registerAll (by decide) (by decide +kernel)
  match refs, length with
  | [a, b, c, d, e], _ => exact ⟨⟨a, b, c, d, e⟩, t, by rw [register, all], alone⟩

end SelfMetrics

/-! ### Columns -/

namespace Column

variable {domain zone block : String}

def descriptor (domain zone block : String) (c : Column) : Descriptor :=
  ⟨c.name, c.name, ownerLabels domain zone block, []⟩

theorem descriptor_dimensions (c : Column) : (c.descriptor domain zone block).dimensions =
    .ofTexts [c.name, blockKey, domainKey, zoneKey] := by
  have sorted : [blockKey, domainKey, zoneKey].mergeSort (· ≤ ·) =
      [blockKey, domainKey, zoneKey] := List.mergeSort_of_pairwise (by decide)
  simp only [descriptor, Descriptor.dimensions, Descriptor.markedNames, ownerLabels_keys,
    List.map_nil, List.append_nil, sorted]

theorem dimensions_foreign (c : Column) : ∀ v ∈ SelfMetrics.vectors, v.descriptor.name = c.name →
    (c.descriptor domain zone block).dimensions ≠ v.descriptor.dimensions := by
  have bare : ∀ v ∈ SelfMetrics.vectors,
      v.descriptor.constants = [] ∧ v.descriptor.labelNames = [] := by decide
  have apart : ∀ v ∈ SelfMetrics.vectors,
      Fingerprint.ofTexts [v.descriptor.name, blockKey, domainKey, zoneKey] ≠
        .ofTexts [v.descriptor.help] := by decide +kernel
  intro v member same
  have own : v.descriptor.dimensions = .ofTexts [v.descriptor.help] := by
    simp [Descriptor.dimensions, Descriptor.markedNames, bare v member]
  rw [descriptor_dimensions, ← same, own]
  exact apart v member

/-- A registry of the exporter agrees with a column that none of its metrics shares the name of. -/
theorem agrees_iff {registry : Nat} {s : Shared} (alone : SelfMetrics.Alone registry s)
    (c : Column) : (s.registry registry).Agrees (c.descriptor domain zone block) ↔
      c.name ∉ SelfMetrics.names := by
  unfold Registry.Agrees
  rw [alone.dimensions?]
  constructor
  · intro agrees own
    obtain ⟨v, member, same⟩ := List.mem_map.mp own
    cases found : SelfMetrics.vectors.find?
        (·.descriptor.name = (c.descriptor domain zone block).name) with
    | none => exact List.find?_eq_none.mp found v member (decide_eq_true same)
    | some w =>
      have named := List.find?_some found
      rw [decide_eq_true_iff] at named
      exact c.dimensions_foreign w (List.mem_of_find?_eq_some found) named
        (agrees _ (by rw [found]; rfl))
  · intro foreign x known
    obtain ⟨w, found, -⟩ := Option.map_eq_some_iff.mp known
    have named := List.find?_some found
    rw [decide_eq_true_iff] at named
    exact absurd (List.mem_map.mpr ⟨w, List.mem_of_find?_eq_some found, named⟩) foreign

end Column

theorem identityOf_eq (domain zone block name : String) :
    identityOf domain zone block name = .ofTexts [name, block, domain, zone] := by
  rw [identityOf, ownerLabels_eq]
  rfl

namespace Dataset

/-- The names of the columns differ from each other and from those of the exporter's metrics. -/
structure Distinct (d : Dataset) : Prop where
  columns : (d.columns.map (·.name)).Nodup
  own : ∀ c ∈ d.columns, c.name ∉ SelfMetrics.names

/-- A registry of the exporter does not mistake the columns for each other, nor any of them or all
of them together for a metric of the exporter. -/
structure Unmistaken (domain zone block : String) (d : Dataset) : Prop where
  columns : ∀ c ∈ d.columns, ∀ e ∈ d.columns,
    identityOf domain zone block c.name = identityOf domain zone block e.name → c.name = e.name
  own : ∀ c ∈ d.columns, identityOf domain zone block c.name ∉ SelfMetrics.words
  together : d.columns ≠ [] →
    (d.columns.map fun c => identityOf domain zone block c.name).sum ∉ SelfMetrics.words

variable {domain zone block : String} {d : Dataset}

theorem compatible_iff :
    (d.columns.map (Column.descriptor domain zone block)).Pairwise Registry.Compatible ↔
      (d.columns.map (·.name)).Nodup ∧ ∀ c ∈ d.columns, ∀ e ∈ d.columns,
        identityOf domain zone block c.name = identityOf domain zone block e.name →
          c.name = e.name := by
  -- Two columns of one name have the same dimensions, so it is the words alone that count.
  have same (c e : Column) : Registry.Compatible (c.descriptor domain zone block)
      (e.descriptor domain zone block) ↔
        identityOf domain zone block c.name ≠ identityOf domain zone block e.name := by
    refine ⟨fun h => h.identity, fun apart => ⟨apart, fun named => ?_⟩⟩
    have alike : c.name = e.name := named
    rw [e.descriptor_dimensions, c.descriptor_dimensions, alike]
  have words : (d.columns.map (Column.descriptor domain zone block)).Pairwise Registry.Compatible ↔
      ((d.columns.map (·.name)).map (identityOf domain zone block)).Nodup := by
    rw [List.Nodup, List.pairwise_map, List.pairwise_map, List.pairwise_map]
    simp only [same]
  rw [words]
  constructor
  · intro unique
    have names := List.Nodup.of_map _ unique
    refine ⟨names, fun c here e there alike => ?_⟩
    exact List.inj_on_of_nodup_map unique (List.mem_map_of_mem here) (List.mem_map_of_mem there)
      alike
  · rintro ⟨names, apart⟩
    refine (List.nodup_map_iff_inj_on names).mpr fun x here y there alike => ?_
    obtain ⟨c, inside, rfl⟩ := List.mem_map.mp here
    obtain ⟨e, other, rfl⟩ := List.mem_map.mp there
    exact apart c inside e other alike

theorem admissible_iff {registry : Nat} {s : Shared} (alone : SelfMetrics.Alone registry s)
    (some : d.columns ≠ []) :
    (s.registry registry).Admissible (d.columns.map (Column.descriptor domain zone block)) ↔
      d.Distinct ∧ d.Unmistaken domain zone block := by
  have sum : ((d.columns.map (Column.descriptor domain zone block)).map (·.identity)).sum =
      (d.columns.map fun c => identityOf domain zone block c.name).sum := by
    rw [List.map_map]
    rfl
  constructor
  · intro h
    obtain ⟨names, apart⟩ := compatible_iff.mp h.apart
    refine ⟨⟨names, fun c member => ?_⟩, apart, fun c member => ?_, fun _ => ?_⟩
    · exact (c.agrees_iff alone).mp (h.agrees _ (List.mem_map_of_mem member))
    · have unused := h.unused _ (List.mem_map_of_mem member)
      rw [alone.identities] at unused
      exact unused
    · have fresh := h.fresh
      rw [alone.entries, sum] at fresh
      exact fresh
  · rintro ⟨distinct, unmistaken⟩
    refine ⟨fun x member => ?_, fun x member => ?_,
      compatible_iff.mpr ⟨distinct.columns, unmistaken.columns⟩, ?_⟩
    · obtain ⟨c, inside, rfl⟩ := List.mem_map.mp member
      rw [alone.identities]
      exact unmistaken.own c inside
    · obtain ⟨c, inside, rfl⟩ := List.mem_map.mp member
      exact (c.agrees_iff alone).mpr (distinct.own c inside)
    · rw [alone.entries, sum]
      exact unmistaken.together some

theorem Accepted.named {bytes : List UInt8} (accepted : d.Accepted bytes) :
    ∀ c ∈ d.columns, Series.isMetricName c.name = true := by
  obtain ⟨t, spelled⟩ := Sheet.exists_spelled accepted.read
  have columns := (Sheet.dataset?_ok (spelled.ofBytes?.symm.trans accepted.read)).1
  rw [columns]
  intro c member
  obtain ⟨heading, -, rfl⟩ := List.mem_map.mp member
  exact metricName_named heading

end Dataset

/-! ### Zones -/

namespace Replay.Engine

variable {e : Engine}

theorem blockSpec_ordinary (named : ∀ c ∈ e.dataset.columns, Series.isMetricName c.name = true) :
    e.blockSpec.Ordinary := by
  have own (m : MetricSpec) (member : m ∈ e.blockSpec.metrics) :
      ∃ c ∈ e.dataset.columns, ∃ i, m = metricSpec c i := by
    obtain ⟨⟨c, i⟩, inside, rfl⟩ := List.mem_map.mp member
    exact ⟨c, List.fst_mem_of_mem_zipIdx inside, i, rfl⟩
  constructor
  · intro m member
    obtain ⟨c, inside, i, rfl⟩ := own m member
    exact ⟨named c inside, List.forall_mem_nil _, .nil⟩
  · intro m member
    obtain ⟨c, inside, i, rfl⟩ := own m member
    rfl
  · intro m member
    obtain ⟨c, inside, i, rfl⟩ := own m member
    exact List.forall_mem_nil _

theorem blockSpec_descriptors (e : Engine) (domain zone : String) :
    e.blockSpec.metrics.map (·.descriptor domain zone e.blockSpec.name) =
      e.dataset.columns.map (Column.descriptor domain zone e.settings.block) := by
  have columns : e.dataset.columns.zipIdx.map Prod.fst = e.dataset.columns :=
    List.zipIdx_map_fst 0 _
  rw [blockSpec, List.map_map, ← columns, List.map_map, columns]
  rfl

/-- Whether the zone of a dataset can be attached where the exporter's own metrics are alone. -/
theorem allocZone_isOk_iff {env : Surroundings} {domain : Domain StockDriver} {s : Shared}
    (named : ∀ c ∈ e.dataset.columns, Series.isMetricName c.name = true)
    (sound : domain.treePoisoned = false) (alone : SelfMetrics.Alone domain.registry s) :
    let done := domain.allocZone env e.zoneSpec s
    ((∃ handle, done.outcome = .ok handle) ↔ e.dataset.Distinct ∧
      e.dataset.Unmistaken domain.name e.settings.zone e.settings.block) ∧
    ((∃ handle, done.outcome = .ok handle) ∨
      ∃ refusal, done.outcome = .error (.refused refusal)) := by
  intro done
  obtain ⟨taken, ends⟩ : ((∃ handle, done.outcome = .ok handle) ↔ _) ∧ _ :=
    Domain.allocZone_single e.settings.zone (blockSpec_ordinary named) sound s
  refine ⟨taken.trans ?_, ends⟩
  rw [blockSpec_descriptors]
  by_cases none : e.dataset.columns = []
  · have bare : e.blockSpec.metrics = [] := by rw [blockSpec, none]; rfl
    refine iff_of_true (.inl bare) ⟨⟨?_, ?_⟩, ⟨?_, ?_, fun some => absurd none some⟩⟩
    all_goals rw [none]
    · exact .nil
    all_goals exact List.forall_mem_nil _
  · have some : e.blockSpec.metrics ≠ [] := by simpa [blockSpec] using none
    rw [← Dataset.admissible_iff alone none]
    exact or_iff_right some

end Replay.Engine

end Telemetry

import Telemetry.Proofs.Mirror
import Telemetry.Proofs.Passing

/-! A pass keeps the mirror. Each metric writes the converted values of its elements, in order, to
the children of its own vector, so the vector shows the elements again once the metric is done.
Between two metrics, and after a fault at any of them, every vector shows its metric as it is. -/
namespace Telemetry

open Series (Store refresh)

theorem Register.overlay_length (new old : List α) : (overlay new old).length = old.length := by
  simp [overlay]
  omega

namespace Element

theorem apply_labels (spec : MetricSpec) (current mask : UInt64) (clear : Bool) (e : Element) :
    (e.apply spec current mask clear).labels = e.labels := by
  unfold apply
  cases spec.type <;> rfl

theorem apply_series (spec : MetricSpec) (current mask : UInt64) (clear : Bool) (e : Element) :
    (e.apply spec current mask clear).series = e.series := by
  unfold apply
  cases spec.type <;> rfl

end Element

/-- What applied samples leave alone on the elements, and what they do to the elements' vector. -/
structure Applied (i : Nat) (es ds : List Element) (s t : Shared) : Prop where
  labels : ds.map (·.labels) = es.map (·.labels)
  bound : ∀ d ∈ ds, d.series = some ⟨i, d.key⟩
  registries : t.registries = s.registries
  store : t.store = s.store.modify i fun v => { v with children := ds.foldl refresh v.children }

namespace Block

variable {δ : Type} [Driver δ] {spec : MetricSpec} {env : Surroundings} {clear : Bool}
  {mask : UInt64} {name : String} {window : Option Nat}

theorem publish_applied (spec : MetricSpec) (mask : UInt64) (clear : Bool) {e : Element} {i : Nat}
    (bound : e.series = some ⟨i, e.key⟩) (current : UInt64) (s : PassState δ) :
    Applied i [e] [(publish spec (e.apply spec current mask clear) s).1] s.shared
      (publish spec (e.apply spec current mask clear) s).2.shared := by
  have labels := Element.apply_labels spec current mask clear e
  have series := Element.apply_series spec current mask clear e
  generalize e.apply spec current mask clear = d at labels series
  have key : d.key = e.key := by rw [Element.key, Element.key, Element.tuple, Element.tuple, labels]
  have here : d.series = some ⟨i, d.key⟩ := by rw [series, bound, key]
  refine ⟨?_, ?_, ?_, ?_⟩
  · exact congrArg (· :: []) labels
  · intro f member
    rw [List.mem_singleton] at member
    rw [member]
    exact here
  · simp only [publish, here]
    rfl
  · simp only [publish, here]
    rfl

theorem applied_cons {i : Nat} {e d : Element} {es ds : List Element} {s t u : Shared}
    (head : Applied i [e] [d] s t) (tail : Applied i es ds t u) :
    Applied i (e :: es) (d :: ds) s u := by
  have labels : d.labels = e.labels := by simpa using head.labels
  refine ⟨?_, ?_, tail.registries.trans head.registries, ?_⟩
  · rw [List.map_cons, List.map_cons, labels, tail.labels]
  · intro f member
    rcases List.mem_cons.mp member with rfl | member
    · exact head.bound f List.mem_cons_self
    · exact tail.bound f member
  · rw [tail.store, head.store, Store.modify_modify]
    rfl

theorem applySamples_applied {es : List Element} {values : List UInt64} {i : Nat}
    (bound : ∀ e ∈ es, e.series = some ⟨i, e.key⟩) (sized : values.length = es.length)
    (s : PassState δ) :
    Applied i es (applySamples spec mask clear es values s).1 s.shared
      (applySamples spec mask clear es values s).2.shared := by
  induction es generalizing values s with
  | nil =>
    refine ⟨rfl, fun d member => (by cases member), rfl, ?_⟩
    have same : s.shared.store.vectors.modify i (fun v => v) = s.shared.store.vectors :=
      List.modify_id _ _
    simp only [applySamples, List.foldl_nil, Store.modify, same]
  | cons e es ih =>
    cases values with
    | nil => cases sized
    | cons current values =>
      have head := publish_applied spec mask clear (bound e List.mem_cons_self) current s
      exact applied_cons head (ih (fun d hd => bound d (List.mem_cons_of_mem _ hd))
        (Nat.succ.inj sized) _)

omit [Driver δ] in
theorem readSamples_ok {count : Nat} {values : List UInt64}
    (read : readSamples env name window spec count = .ok (values, mask)) :
    ∃ w, window.bind (env.windows[·]?) = some w ∧ spec.field.valueMask = .ok mask ∧
      List.Forall₂ (fun k x => readElement w name spec k = .ok x) (List.range count) values := by
  obtain ⟨samples, direct, read⟩ := bind_ok read
  obtain ⟨word, bits, same⟩ := bind_ok read
  cases same
  unfold readDirect at direct
  split at direct
  · cases direct
  · rename_i w found
    exact ⟨w, found, mapError_ok bits, mapM_forall₂ direct⟩

theorem readMetric_length {m : Metric} {values : List UInt64} {s t : PassState δ}
    (read : readMetric env name window m s = (.ok (values, mask), t)) :
    values.length = m.elements.length := by
  simp only [readMetric] at read
  split at read
  · cases read
    simp [Register.overlay]
    omega
  · simp only [Prod.mk.injEq] at read
    obtain ⟨w, -, -, each⟩ := readSamples_ok read.1
    rw [← each.length_eq, List.length_range]

theorem readMetric_agrees (env : Surroundings) (name : String) (window : Option Nat) (m : Metric)
    (s : PassState δ) :
    s.shared.Agrees (readMetric env name window m s).2.shared := by
  simp only [readMetric]
  split <;> exact .hooks _ _

end Block

theorem Applied.after {i : Nat} {es ds : List Element} {s t u : Shared} (quiet : s.Agrees t)
    (applied : Applied i es ds t u) : Applied i es ds s u :=
  ⟨applied.labels, applied.bound, applied.registries.trans quiet.1, quiet.2 ▸ applied.store⟩

theorem Shows.applied {domain zone block : String} {i : Nat} {m : Metric} {ds : List Element}
    {s t : Shared} (h : Shows domain zone block s.store i m)
    (applied : Applied i m.elements ds s t) :
    Shows domain zone block t.store i { m with elements := ds } := by
  obtain ⟨values, old⟩ := h.labelled
  have labelled : Metric.Labelled ⟨domain, zone, block, m.name⟩ values
      { m with elements := ds } := by
    refine ⟨old.fits, ?_, old.computed⟩
    intro k d found
    have labels := congrArg (·[k]?) applied.labels
    cases there : m.elements[k]? with
    | none => simp [List.getElem?_map, found, there] at labels
    | some e =>
      simp only [List.getElem?_map, found, there, Option.map_some, Option.some.injEq] at labels
      rw [labels]
      exact old.elements k e there
  obtain ⟨v, found, described, gauge, sized, children⟩ := h.vector
  have sizes : ∀ d ∈ ds, d.tuple.length = v.descriptor.labelNames.length := by
    intro d member
    obtain ⟨e, there, same⟩ := Element.exists_alike applied.labels d member
    rw [← same]
    exact sized e there
  refine ⟨⟨values, labelled⟩, applied.bound, { v with children := ds.foldl refresh v.children }, ?_,
    described, gauge, sizes, children ▸ Series.foldl_refresh_shown applied.labels⟩
  rw [applied.store, Store.get?_modify, if_pos rfl, found]
  rfl

namespace Block

variable {δ : Type} [Driver δ] {env : Surroundings} {clear : Bool} {name : String}
  {window : Option Nat}

theorem sampleMetric_error {m : Metric} {s t : PassState δ} {f : Fault}
    (failed : sampleMetric env name window clear m s = (.error f, t)) :
    s.shared.Agrees t.shared := by
  have quiet := readMetric_agrees env name window m s
  unfold sampleMetric at failed
  split at failed
  · rename_i read
    cases failed
    rw [read] at quiet
    exact quiet
  · cases failed

theorem sampleMetric_ok {m n : Metric} {s t : PassState δ} {i : Nat}
    (bound : ∀ e ∈ m.elements, e.series = some ⟨i, e.key⟩)
    (done : sampleMetric env name window clear m s = (.ok n, t)) :
    ∃ ds, n = { m with elements := ds } ∧ Applied i m.elements ds s.shared t.shared := by
  have quiet := readMetric_agrees env name window m s
  unfold sampleMetric at done
  split at done
  · cases done
  · rename_i read
    rw [read] at quiet
    cases done
    exact ⟨_, rfl, (applySamples_applied bound (readMetric_length read) _).after quiet⟩

def latched (clear : Bool) (b : Block δ) (s : Shared) : PassState δ :=
  let zeros := List.replicate b.scratchSize 0
  let reply := Driver.ask b.driver (Driver.latch zeros) []
  let kind := if clear then "clear" else "sampling"
  let shared := s.log .trace s!"{kind} pass over block {b.name}"
  ⟨reply.driver, Register.overlay reply.result zeros, shared.hooks reply.lines⟩

theorem latched_agrees (clear : Bool) (b : Block δ) (s : Shared) :
    s.Agrees (b.latched clear s).shared :=
  (Shared.Agrees.log s _ _).trans (.hooks _ _)

theorem pass_eq (b : Block δ) (s : Shared) :
    b.pass env clear s =
      match sweep (sampleMetric env b.name b.window clear) b.metrics (b.latched clear s) with
      | (some f, metrics, s) => (some f, { b with metrics, driver := s.driver }, s.shared)
      | (none, metrics, s) =>
        let released := Driver.ask s.driver (Driver.release s.scratch) []
        (none, { b with metrics, driver := released.driver, lastUpdate := some env.now },
          s.shared.hooks released.lines) := rfl

end Block

namespace Mirror

variable {δ : Type} {count : Nat} {rest : List (Mount δ)} {x : Mount δ} {guests : List Guest}
  {s : Shared} {before after : List Metric} {m : Metric}

theorem applied (h : Mirror count
      ({ x with block := { x.block with metrics := before ++ m :: after } } :: rest) guests s) :
    ∃ i, (∀ e ∈ m.elements, e.series = some ⟨i, e.key⟩) ∧
      ∀ ds t, Applied i m.elements ds s t →
        Mirror count ({ x with block :=
          { x.block with metrics := before ++ { m with elements := ds } :: after } } :: rest)
          guests t := by
  have here := h.shown _ List.mem_cons_self
  obtain ⟨us, i, ws, split, left, shows, right⟩ := forall₂_middle here.vectors
  have own := h.own_nodup
  rw [split] at own
  obtain ⟨-, tail, apart⟩ := List.nodup_append'.mp own
  refine ⟨i, shows.bound, ?_⟩
  intro ds t applied
  have altered : Store.Alters [i] s.store t.store :=
    applied.store ▸ Store.Alters.modify (List.mem_singleton_self i) _ fun children =>
      ds.foldl refresh children
  refine h.alter applied.registries (altered.mono ?_) ?_ ?_
  · intro j inside
    rw [List.mem_singleton.mp inside, split]
    exact List.mem_append_right _ List.mem_cons_self
  · simp [Mount.exhibits, Mount.vectors, Block.vectors, Mount.identities, Block.identities,
      Metric.name]
  · refine ⟨us ++ i :: ws, by rw [← split]; exact here.collector, ?_⟩
    refine List.rel_append (Shows.congr_all left ?_)
      (.cons (shows.applied applied) (Shows.congr_all right ?_))
    · intro j inside
      refine altered.others j fun same => apart inside ?_
      exact List.mem_singleton.mp same ▸ List.mem_cons_self
    · intro j inside
      refine altered.others j fun same => (List.nodup_cons.mp tail).1 ?_
      exact List.mem_singleton.mp same ▸ inside

variable [Driver δ] {env : Surroundings} {clear : Bool}

/-- A pass over a block keeps the mirror, also one that a fault cuts short. -/
theorem pass (h : Mirror count (x :: rest) guests s) :
    Mirror count ({ x with block := (x.block.pass env clear s).2.1 } :: rest) guests
      (x.block.pass env clear s).2.2 := by
  let P (metrics : List Metric) (state : PassState δ) : Prop :=
    Mirror count ({ x with block := { x.block with metrics } } :: rest) guests state.shared
  have start : P x.block.metrics (x.block.latched clear s) := h.agrees (Block.latched_agrees _ _ _)
  have swept := sweep_in_place (Block.sampleMetric env x.block.name x.block.window clear) P
    ?_ ?_ [] x.block.metrics _ start
  · rw [Block.pass_eq]
    change P (sweep _ x.block.metrics _).2.1 _ at swept
    split
    · rename_i whole
      rw [whole] at swept
      exact reblock swept rfl rfl rfl
    · rename_i whole
      rw [whole] at swept
      exact agrees (reblock swept rfl rfl rfl) (.hooks _ _)
  · intro before m after state f state' held failed
    exact Mirror.agrees held (Block.sampleMetric_error failed)
  · intro before m after state n state' held done
    obtain ⟨i, bound, moves⟩ := Mirror.applied held
    obtain ⟨ds, rfl, applied⟩ := Block.sampleMetric_ok bound done
    exact moves ds _ applied

end Mirror

end Telemetry

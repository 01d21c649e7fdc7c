import Telemetry.Proofs.Overheard

/-! Where a pass fails. Reading a metric is over before any of its elements changes, so the metrics
before the fault are done, as a pass over them alone leaves them, and the others and their series are
as they were. Over sound memory a fault is always a direct read of a metric that cannot be read. -/
namespace Telemetry

open Series (Ref Store)

/-! ### What a pass publishes -/

def Element.write? (e : Element) : Option (Ref × Binary64) := e.series.map (·, e.converted)

def Metric.writes (m : Metric) : List (Ref × Binary64) := m.elements.filterMap Element.write?

def Series.Store.writeAll (s : Store) (writes : List (Ref × Binary64)) : Store :=
  writes.foldl (fun s w => s.set w.1 w.2) s

theorem Series.Store.value?_writeAll {s : Store} {writes : List (Ref × Binary64)} {ref : Ref}
    (other : ref ∉ writes.map (·.1)) : (s.writeAll writes).value? ref = s.value? ref := by
  induction writes generalizing s with
  | nil => rfl
  | cons w rest ih =>
    obtain ⟨apart, later⟩ := not_or.mp (mt List.mem_cons.mpr other)
    have first : (s.set w.1 w.2).value? ref = s.value? ref := by
      simp only [Store.value?_set, if_neg apart]
    exact (ih later).trans first

namespace Block

variable {δ : Type} [Driver δ] {env : Surroundings} {name : String} {window : Option Nat}
  {clear : Bool}

theorem publish_store (spec : MetricSpec) (e : Element) (s : PassState δ) :
    (publish spec e s).2.shared.store =
      s.shared.store.writeAll (publish spec e s).1.write?.toList := by
  cases series : e.series <;> simp only [publish, Element.write?, series] <;> rfl

theorem applySamples_store (spec : MetricSpec) (mask : UInt64) {es : List Element}
    {values : List UInt64} (sized : values.length = es.length) (s : PassState δ) :
    (applySamples spec mask clear es values s).2.shared.store = s.shared.store.writeAll
      ((applySamples spec mask clear es values s).1.filterMap Element.write?) := by
  induction es generalizing values s with
  | nil => rfl
  | cons e es ih =>
    cases values with
    | nil => cases sized
    | cons x values =>
      have first := publish_store spec (e.apply spec x mask clear) s
      have rest := ih (Nat.succ.inj sized) (publish spec (e.apply spec x mask clear) s).2
      simp only [applySamples, rest, first, List.filterMap_cons]
      cases (publish spec (e.apply spec x mask clear) s).1.write? <;> rfl

theorem sampleMetric_store {m n : Metric} {s t : PassState δ}
    (done : sampleMetric env name window clear m s = (.ok n, t)) :
    t.shared.store = s.shared.store.writeAll n.writes := by
  have quiet := readMetric_agrees env name window m s
  unfold sampleMetric at done
  split at done
  · cases done
  · rename_i read
    cases done
    have sized := readMetric_length read
    rw [read] at quiet
    rw [applySamples_store _ _ sized, quiet.2]
    rfl

theorem sweep_store {ms ns : List Metric} {s t : PassState δ}
    (done : sweep (sampleMetric env name window clear) ms s = (none, ns, t)) :
    t.shared.store = s.shared.store.writeAll (ns.flatMap Metric.writes) := by
  induction ms generalizing s ns with
  | nil =>
    cases done
    rfl
  | cons m rest ih =>
    cases here : sampleMetric env name window clear m s with | mk result u =>
    simp only [sweep, here] at done
    cases result with
    | error f => cases done
    | ok n =>
      cases later : sweep (sampleMetric env name window clear) rest u with | mk fault others =>
      simp only [later] at done
      cases done
      rw [ih later, sampleMetric_store here, List.flatMap_cons]
      exact List.foldl_append.symm

/-! ### The metric at which it fails -/

def arrivals (env : Surroundings) (clear : Bool) (b : Block δ) (s : Shared) :
    List (PassState δ) :=
  Telemetry.arrivals (sampleMetric env b.name b.window clear) b.metrics (b.latched clear s)

/-- The read hook of a metric declines in this pass, and the metric cannot be read directly. -/
def BadRead (env : Surroundings) (clear : Bool) (b : Block δ) (s : Shared) (i : Nat) : Prop :=
  ∃ m t, b.metrics[i]? = some m ∧ (b.arrivals env clear s)[i]? = some t ∧
    (readReply m t).result.supplied = false ∧ Unreadable env b.window m.spec m.elements.length

/-- What is left by a pass that has come to this metric and no further. -/
structure StoppedAt (env : Surroundings) (clear : Bool) (b : Block δ) (s : Shared) (i : Nat)
    (c : Block δ) (u : Shared) : Prop where
  /-- The metrics before are done, as by a pass that has no others. -/
  before : ∃ d v, ({ b with metrics := b.metrics.take i } : Block δ).pass env clear s =
    (none, d, v) ∧ c.metrics.take i = d.metrics ∧ u.store = v.store
  /-- Their converted values are published, in order, and nothing else is. -/
  published : u.store = s.store.writeAll ((c.metrics.take i).flatMap Metric.writes)
  /-- The metric and those after it are as they were. -/
  after : c.metrics.drop i = b.metrics.drop i
  /-- So is everything but the metrics and the driver, the time of the last pass too. -/
  rest : c = { b with metrics := c.metrics, driver := c.driver }
  /-- The vectors of an attached block show its metrics; those of the metric and of the ones after
  it are as they were. -/
  shown : ∀ count x others guests, x.block = b → Mirror count (x :: others) guests s →
    Mount.Shown { x with block := c } u.store ∧
      ∀ m ∈ b.metrics.drop i, ∀ e ∈ m.elements, ∀ ref, e.series = some ref →
        u.store.value? ref = s.store.value? ref

variable {b c : Block δ} {s u : Shared} {f : Fault}

omit [Driver δ] in
theorem vectors_apart {count : Nat} {x : Mount δ} {others : List (Mount δ)} {guests : List Guest}
    (h : Mirror count (x :: others) guests s) {before after : List Metric}
    (split : x.block.metrics = before ++ after) {m n : Metric} (earlier : m ∈ before)
    (later : n ∈ after) {d e : Element} (own : d ∈ m.elements) (other : e ∈ n.elements)
    {ref ref' : Ref} (first : d.series = some ref) (second : e.series = some ref') :
    ref.vector ≠ ref'.vector := by
  have shows := (h.shown x List.mem_cons_self).vectors
  have unique := h.own_nodup
  rw [split] at shows
  rw [← List.take_append_drop before.length x.vectors] at unique
  obtain ⟨i, left, here⟩ := forall₂_mem (List.forall₂_take_append _ _ _ shows) m earlier
  obtain ⟨j, right, there⟩ := forall₂_mem (List.forall₂_drop_append _ _ _ shows) n later
  cases first.symm.trans (here.bound d own)
  cases second.symm.trans (there.bound e other)
  intro (same : i = j)
  exact (List.nodup_append'.mp unique).2.2 left (same ▸ right)

/-- A pass that fails has come to the metric at which it fails, with the ones before it done. -/
theorem pass_stopped (stopped : b.pass env clear s = (some f, c, u)) :
    ∃ i m t t', b.metrics[i]? = some m ∧ (b.arrivals env clear s)[i]? = some t ∧
      sampleMetric env b.name b.window clear m t = (.error f, t') ∧
      (∀ j < i, ∀ n v, b.metrics[j]? = some n → (b.arrivals env clear s)[j]? = some v →
        ∃ o w, sampleMetric env b.name b.window clear n v = (.ok o, w)) ∧
      b.StoppedAt env clear s i c u := by
  have mirrored {count : Nat} {x : Mount δ} {others : List (Mount δ)} {guests : List Guest}
      (same : x.block = b) (h : Mirror count (x :: others) guests s) :
      Mirror count ({ x with block := c } :: others) guests u := by
    have after : Mirror count ({ x with block := (x.block.pass env clear s).2.1 } :: others) guests
        (x.block.pass env clear s).2.2 := Mirror.pass h
    rwa [same, stopped] at after
  rw [pass_eq] at stopped
  cases swept : sweep (sampleMetric env b.name b.window clear) b.metrics (b.latched clear s) with
  | mk fault rest =>
  obtain ⟨ns, state⟩ := rest
  rw [swept] at stopped
  cases fault with
  | none => cases stopped
  | some g =>
    cases stopped
    obtain ⟨before, m, after, ds, t, split, left, through, failed⟩ := sweep_stopped swept
    obtain ⟨turns, count⟩ := arrivals_append through (m :: after)
    rw [← split] at turns
    have length : ds.length = before.length :=
      (sweep_forall₂ (fun _ => True) (fun _ _ => True) (fun _ _ _ _ _ _ => ⟨trivial, trivial⟩)
        trivial through).2.length_eq.symm
    have taken : b.metrics.take before.length = before := by rw [split, List.take_left]
    have dropped : b.metrics.drop before.length = m :: after := by rw [split, List.drop_left]
    have done : ns.take before.length = ds := by rw [left, ← length, List.take_left]
    have kept : ns.drop before.length = m :: after := by rw [left, ← length, List.drop_left]
    have store : state.shared.store = t.shared.store := (sampleMetric_error failed).2
    have published : state.shared.store = s.store.writeAll (ds.flatMap Metric.writes) := by
      rw [store, sweep_store through, (latched_agrees clear b s).2]
    refine ⟨before.length, m, t, state, ?_, ?_, failed, ?_, ?_⟩
    · simp [split]
    · simp [arrivals, turns, count, Telemetry.arrivals]
    · intro j below n v there here
      rw [split, List.getElem?_append_left below] at there
      rw [arrivals, turns, List.getElem?_append_left (by omega)] at here
      obtain ⟨o, w, sampled, -⟩ := arrivals_done through there here
      exact ⟨o, w, sampled⟩
    · constructor
      case before =>
        rw [taken]
        have alone : ({ b with metrics := before } : Block δ).pass env clear s = _ := pass_eq _ s
        have same : sweep (sampleMetric env b.name b.window clear) before
            (({ b with metrics := before } : Block δ).latched clear s) = (none, ds, t) := through
        rw [same] at alone
        exact ⟨_, _, alone, done, store⟩
      case published => rw [done, published]
      case after => rw [kept, dropped]
      case rest => rfl
      case shown =>
        intro number x others guests same mirror
        have now := mirrored same mirror
        refine ⟨now.shown _ List.mem_cons_self, ?_⟩
        intro n later e other ref bound
        rw [dropped] at later
        rw [published]
        refine Store.value?_writeAll fun listed => ?_
        obtain ⟨w, written, named⟩ := List.mem_map.mp listed
        obtain ⟨o, earlier, written⟩ := List.mem_flatMap.mp written
        obtain ⟨d, own, shows⟩ := List.mem_filterMap.mp written
        obtain ⟨ref', first, rfl⟩ := Option.map_eq_some_iff.mp shows
        exact vectors_apart now left earlier later own other first bound (congrArg (·.vector) named)

theorem pass_sampled (done : b.pass env clear s = (none, c, u)) {i : Nat} {m : Metric}
    {t : PassState δ} (there : b.metrics[i]? = some m) (here : (b.arrivals env clear s)[i]? = some t) :
    ∃ n v, sampleMetric env b.name b.window clear m t = (.ok n, v) ∧ c.metrics[i]? = some n := by
  rw [pass_eq] at done
  cases swept : sweep (sampleMetric env b.name b.window clear) b.metrics (b.latched clear s) with
  | mk fault rest =>
  rw [swept] at done
  cases fault with
  | some f => cases done
  | none =>
    cases done
    exact arrivals_done swept there here

def Filled (b : Block δ) : Prop := ∀ m ∈ b.metrics, m.elements ≠ []

omit [Driver δ] in
theorem alloc_filled {spec : BlockSpec δ} (made : alloc spec = .ok b) : b.Filled := by
  obtain ⟨metrics, each, rfl⟩ := alloc_ok made
  intro m member
  obtain ⟨ms, -, allocated⟩ := forall₂_mem each m member
  have elements := Metric.alloc_ok allocated
  unfold Metric.alloc at allocated
  split at allocated
  · cases allocated
  · rename_i some
    rw [elements]
    intro empty
    have none : ms.elementCount = 0 := by simpa using empty
    unfold MetricSpec.elementCount at none
    split at none <;> simp_all

theorem pass_filled {fault : Option Fault} (h : b.Filled)
    (done : b.pass env clear s = (fault, c, u)) : c.Filled := by
  intro n member empty
  obtain ⟨m, there, -, length⟩ := pass_member done member
  rw [empty] at length
  exact h m there (List.length_eq_zero_iff.mp length)

end Block

/-- **A pass fails exactly on bad direct reads**, and it is exact where it fails. Over a window of
sound memory, or none, and with all registers within the address space, a pass fails if and only if a
read hook declines for a metric that has no window, a size that no register has, or a last element
that ends beyond the window. It fails at the first such metric: the metrics before are sampled and
published; that metric, the ones after it, their series and the time of the last pass stay as they
were; and the release hook is not called. -/
theorem pass_fails_on_bad_reads {δ : Type} [Driver δ] (env : Surroundings) (clear : Bool)
    (b : Block δ) (s : Shared) (sound : env.SoundMemory b.window) (filled : b.Filled)
    (within : ∀ m ∈ b.metrics,
      m.spec.field.offset.toNat + m.spec.field.size.toNat * m.elements.length < 2 ^ 64) :
    ((∃ f c u, b.pass env clear s = (some f, c, u)) ↔ ∃ i, b.BadRead env clear s i) ∧
    ∀ f c u, b.pass env clear s = (some f, c, u) →
      ∃ i, b.BadRead env clear s i ∧ (∀ j < i, ¬ b.BadRead env clear s j) ∧
        b.StoppedAt env clear s i c u ∧
        ∃ r, b.recorded.pass env clear s = (some f, r, u) ∧ r.unrecorded = c ∧
          Recorded.Unreleased r.driver := by
  have fails {i : Nat} {m : Metric} {t : PassState δ} (there : b.metrics[i]? = some m) :
      (∃ f t', Block.sampleMetric env b.name b.window clear m t = (.error f, t')) ↔
        (Block.readReply m t).result.supplied = false ∧
          Unreadable env b.window m.spec m.elements.length :=
    Block.sampleMetric_fails sound (filled m (List.mem_of_getElem? there))
      (within m (List.mem_of_getElem? there))
  have first {f : Fault} {c : Block δ} {u : Shared} (stopped : b.pass env clear s = (some f, c, u)) :
      ∃ i, b.BadRead env clear s i ∧ (∀ j < i, ¬ b.BadRead env clear s j) ∧
        b.StoppedAt env clear s i c u := by
    obtain ⟨i, m, t, t', there, here, failed, earlier, left⟩ := Block.pass_stopped stopped
    obtain ⟨declined, bad⟩ := (fails there).mp ⟨f, t', failed⟩
    refine ⟨i, ⟨m, t, there, here, declined, bad⟩, ?_, left⟩
    rintro j below ⟨n, v, there, here, declined, bad⟩
    obtain ⟨o, w, done⟩ := earlier j below n v there here
    obtain ⟨g, w', failed⟩ := (fails there).mpr ⟨declined, bad⟩
    cases done.symm.trans failed
  constructor
  · constructor
    · rintro ⟨f, c, u, stopped⟩
      obtain ⟨i, bad, -⟩ := first stopped
      exact ⟨i, bad⟩
    · rintro ⟨i, m, t, there, here, declined, bad⟩
      obtain ⟨g, v, failed⟩ := (fails there).mpr ⟨declined, bad⟩
      cases whole : b.pass env clear s with | mk fault rest =>
      cases fault with
      | some f => exact ⟨f, rest.1, rest.2, rfl⟩
      | none =>
        obtain ⟨n, w, done, -⟩ := Block.pass_sampled whole there here
        cases done.symm.trans failed
  · intro f c u stopped
    obtain ⟨i, bad, earlier, left⟩ := first stopped
    have heard : b.recorded.unrecorded.pass env clear s = _ := Block.pass_unrecorded _ s
    rw [b.unrecorded_recorded, stopped] at heard
    cases recorded : b.recorded.pass env clear s with | mk fault rest =>
    rw [recorded] at heard
    cases heard
    refine ⟨i, bad, earlier, left, rest.1, rfl, rfl, Block.pass_unreleased ?_ recorded⟩
    intro r there
    obtain ⟨d, -, rfl⟩ := Option.map_eq_some_iff.mp there
    exact fun given listed => by cases listed

def eightBytes : Surroundings := .plain [⟨.memory, [1, 2, 3, 4, 5, 6, 7, 8], false⟩] 9

def overrunBlock : Block StockDriver where
  name := "b"
  window := some 0
  metrics :=
    [⟨.simple "x" .gauge (.whole 3 1), [.ofInit 0], []⟩,
      ⟨{ MetricSpec.simple "lane" .gauge (.whole 6 1) with
          flags := ⟨true, false, false⟩, nelements := 3 }, List.replicate 3 (.ofInit 0), []⟩,
      ⟨.simple "y" .gauge (.whole 0 1), [.ofInit 0], []⟩]
  scratchSize := 1
  driver := some .lifecycle
  lastUpdate := none
  collector := none

/-- Two of the three lanes were read before the pass failed, and none of them has changed. -/
theorem pass_fails_on_bad_reads_overrun :
    let s := Shared.ofRegistries 0
    let done := overrunBlock.pass eightBytes false s
    done.1 = some (.window (.readOutside 1 8 8)) ∧
      done.2.1.values.map (·.raw) = [4, 0, 0, 0, 0] ∧ done.2.1.lastUpdate = none ∧
      ∃ i, overrunBlock.BadRead eightBytes false s i ∧
        overrunBlock.StoppedAt eightBytes false s i done.2.1 done.2.2 := by
  intro s done
  have failed : done.1 = some (.window (.readOutside 1 8 8)) := by decide +kernel
  have sound : eightBytes.SoundMemory overrunBlock.window := by
    intro w found
    cases found
    exact ⟨rfl, rfl⟩
  have filled : overrunBlock.Filled := by simp [Block.Filled, overrunBlock]
  have within : ∀ m ∈ overrunBlock.metrics,
      m.spec.field.offset.toNat + m.spec.field.size.toNat * m.elements.length < 2 ^ 64 := by
    decide
  obtain ⟨i, bad, -, left, -⟩ :=
    (pass_fails_on_bad_reads eightBytes false overrunBlock s sound filled within).2 _ _ _
      (Prod.ext failed rfl)
  exact ⟨failed, by decide +kernel, by decide +kernel, i, bad, left⟩

end Telemetry

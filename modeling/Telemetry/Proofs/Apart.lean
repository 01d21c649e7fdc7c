import Telemetry.Proofs.Stopping

/-! What a metric takes in a pass. Its samples are told by its own read hook and its own registers, in
the state in which the pass comes to it; and for a driver that treats each metric by itself the
samples of foreign metrics make no difference to that state. -/
namespace Telemetry

open Register (overlay)

/-! ### What a metric takes -/

namespace Register

theorem Field.widthMask_toNat (field : Field) :
    field.widthMask.toNat = 2 ^ (if field.width = 0 then 64 else min field.width.toNat 64) - 1 := by
  unfold widthMask
  split
  · rfl
  · exact lowBits_toNat_min _

end Register

/-- The samples that a metric takes and their mask: what the read hook leaves on zeros if it supplies
them, else what the registers hold. The mask covers the declared width, or the whole register, which
for a driver is a word. -/
inductive Finds {δ : Type} [Driver δ] (env : Surroundings) (name : String) (window : Option Nat)
    (m : Metric) (s : PassState δ) : List UInt64 → UInt64 → Prop
  | supplied {mask : UInt64} (accepts : (Block.readReply m s).result.supplied = true)
      (bits : mask.toNat =
        2 ^ (if m.spec.field.width = 0 then 64 else min m.spec.field.width.toNat 64) - 1) :
      Finds env name window m s
        (overlay (Block.readReply m s).result.values (List.replicate m.elements.length 0)) mask
  | direct {values : List UInt64} {mask : UInt64}
      (declines : (Block.readReply m s).result.supplied = false)
      (each : ∀ k < m.elements.length, ∃ x, values[k]? = some x ∧
        Block.decoded env name window m.spec k = .ok x)
      (bits : m.elements ≠ [] → mask.toNat = 2 ^ (if m.spec.field.width = 0 then
        8 * m.spec.field.size.toNat else min m.spec.field.width.toNat 64) - 1) :
      Finds env name window m s values mask

namespace Block

variable {env : Surroundings} {name : String} {window : Option Nat} {clear : Bool}

theorem readElement_supported {w : Register.Window} {spec : MetricSpec} {k : Nat} {x : UInt64}
    (read : readElement w name spec k = .ok x) : spec.field.size ∈ Register.supportedSizes := by
  simp only [readElement] at read
  split at read
  · cases read
  · obtain ⟨offset, -, read⟩ := bind_ok read
    obtain ⟨bytes, -, read⟩ := bind_ok read
    have decoded := Register.decoding_computes_field bytes spec.field.size spec.field.shift
      spec.field.width spec.field.invert
    exact (decoded.2.2.1.mp ⟨x, mapError_ok read⟩).2

theorem decoded_supported {spec : MetricSpec} {k : Nat} {x : UInt64}
    (read : decoded env name window spec k = .ok x) :
    spec.field.size ∈ Register.supportedSizes := by
  unfold decoded at read
  split at read
  · cases read
  · exact readElement_supported read

variable {δ : Type} [Driver δ] {m n : Metric} {s t : PassState δ}

theorem readMetric_finds {values : List UInt64} {mask : UInt64}
    (read : (readMetric env name window m s).1 = .ok (values, mask)) :
    Finds env name window m s values mask := by
  rw [readMetric_eq] at read
  cases supplied : (readReply m s).result.supplied with
  | true =>
    rw [supplied] at read
    cases read
    exact .supplied supplied m.spec.field.widthMask_toNat
  | false =>
    rw [supplied] at read
    obtain ⟨word, each⟩ := readSamples_decoded read
    refine .direct supplied each fun filled => ?_
    obtain ⟨x, -, first⟩ := each 0 (List.length_pos_iff.mpr filled)
    obtain ⟨mask', word', bits⟩ := Register.Field.valueMask_toNat (decoded_supported first)
    cases word.symm.trans word'
    exact bits

theorem sampleMetric_finds (done : sampleMetric env name window clear m s = (.ok n, t)) :
    ∃ values mask, Finds env name window m s values mask ∧ values.length = m.elements.length ∧
      ∀ (k : Nat) (e : Element), m.elements[k]? = some e →
        ∃ x d, values[k]? = some x ∧ n.elements[k]? = some d ∧
          d.value = (e.apply m.spec x mask clear).value ∧
          d.last = (e.apply m.spec x mask clear).last := by
  cases read : readMetric env name window m s with | mk result u =>
  simp only [sampleMetric, read] at done
  cases result with
  | error f => cases done
  | ok reading =>
    cases done
    have sized := readMetric_length read
    refine ⟨reading.1, reading.2, readMetric_finds (congrArg Prod.fst read), sized, ?_⟩
    intro k e there
    have below := (List.getElem?_eq_some_iff.mp there).1
    have sampled := List.getElem?_eq_getElem (sized ▸ below : k < reading.1.length)
    obtain ⟨d, found, value, last⟩ := applySamples_getElem u there sampled
    exact ⟨_, d, sampled, found, value, last⟩

/-- What a pass makes of a metric to which it comes. -/
theorem pass_at {b : Block δ} {u : Shared} {i : Nat} (there : b.metrics[i]? = some m)
    (here : (b.arrivals env clear u)[i]? = some t) :
    (b.pass env clear u).2.1.metrics[i]? =
      some (match (sampleMetric env b.name b.window clear m t).1 with
        | .ok n => n
        | .error _ => m) := by
  obtain ⟨ds, through, length⟩ := sweep_come here
  have whole := sweep_append through (m :: b.metrics.drop (i + 1))
  rw [← (split_at there).1] at whole
  have metrics : (b.pass env clear u).2.1.metrics =
      (sweep (sampleMetric env b.name b.window clear) b.metrics (b.latched clear u)).2.1 := by
    rw [pass_eq]
    split <;> rename_i swept <;> rw [swept]
  rw [metrics, whole, List.getElem?_append_right (Nat.le_of_eq length), length, Nat.sub_self, sweep]
  cases sampleMetric env b.name b.window clear m t with | mk result v =>
  cases result <;> rfl

end Block

/-! ### Drivers that treat each metric by itself -/

/-- States of a driver that are alike for the metrics of a specification. In such states the hooks
answer alike for those, whatever is in scratch, and lead to such states again; calls for foreign
metrics change nothing. -/
structure Driver.Separates {δ : Type} [Driver δ] (spec : MetricSpec) (foreign : MetricSpec → Prop)
    (alike : Option δ → Option δ → Prop) : Prop where
  symm : ∀ {d e}, alike d e → alike e d
  latch : ∀ {d e}, alike d e → ∀ scratch scratch',
    alike (ask d (latch scratch) []).driver (ask e (latch scratch') []).driver
  release : ∀ {d e}, alike d e → ∀ scratch scratch',
    alike (ask d (release scratch) []).driver (ask e (release scratch') []).driver
  read : ∀ {d e}, alike d e → ∀ values scratch scratch',
    let first := ask d (read spec values scratch) ⟨false, [], []⟩
    let second := ask e (read spec values scratch') ⟨false, [], []⟩
    second.result.supplied = first.result.supplied ∧
      second.result.values = first.result.values ∧ alike first.driver second.driver
  convert : ∀ {d e}, alike d e → ∀ raw scratch scratch',
    let first := ask d (convert spec raw scratch) (.ofWord raw)
    let second := ask e (convert spec raw scratch') (.ofWord raw)
    second.result = first.result ∧ alike first.driver second.driver
  readOther : ∀ {d e}, alike d e → ∀ other, foreign other → ∀ values scratch,
    alike (ask d (Driver.read other values scratch) ⟨false, [], []⟩).driver e
  convertOther : ∀ {d e}, alike d e → ∀ other, foreign other → ∀ raw scratch,
    alike (ask d (Driver.convert other raw scratch) (.ofWord raw)).driver e

def Element.figures (e : Element) : UInt64 × UInt64 × Binary64 := (e.value, e.last, e.converted)

def Metric.figures (m : Metric) : List (UInt64 × UInt64 × Binary64) := m.elements.map Element.figures

theorem Element.apply_figures {d e : Element} (same : d.figures = e.figures) (spec : MetricSpec)
    (current mask : UInt64) (clear : Bool) :
    (d.apply spec current mask clear).value = (e.apply spec current mask clear).value ∧
      (d.apply spec current mask clear).last = (e.apply spec current mask clear).last := by
  obtain ⟨value, last, -⟩ : d.value = e.value ∧ d.last = e.last ∧ d.converted = e.converted := by
    simpa [figures] using same
  unfold apply
  cases spec.type <;> simp [value, last]

namespace Block

variable {δ : Type} [Driver δ] {env : Surroundings} {name : String} {window : Option Nat}
  {clear : Bool} {m n : Metric} {s t : PassState δ} {spec : MetricSpec}
  {foreign : MetricSpec → Prop} {alike : Option δ → Option δ → Prop}

theorem publish_own (sep : Driver.Separates spec foreign alike) (near : alike s.driver t.driver)
    {d e : Element} (value : d.value = e.value) (last : d.last = e.last) :
    (publish spec d t).1.figures = (publish spec e s).1.figures ∧
      alike (publish spec e s).2.driver (publish spec d t).2.driver := by
  obtain ⟨converted, moved⟩ := sep.convert near e.value s.scratch t.scratch
  simp only [publish, Element.figures, value, last, converted, true_and]
  exact moved

theorem applySamples_own (sep : Driver.Separates spec foreign alike) (mask : UInt64)
    {es ds : List Element} (values : List UInt64) (near : alike s.driver t.driver)
    (same : ds.map Element.figures = es.map Element.figures) :
    let first := applySamples spec mask clear es values s
    let second := applySamples spec mask clear ds values t
    second.1.map Element.figures = first.1.map Element.figures ∧
      alike first.2.driver second.2.driver := by
  induction es generalizing ds values s t with
  | nil =>
    cases ds with
    | nil => exact ⟨rfl, near⟩
    | cons d ds => cases same
  | cons e es ih =>
    cases ds with
    | nil => cases same
    | cons d ds =>
      obtain ⟨head, tail⟩ := List.cons.inj same
      cases values with
      | nil => exact ⟨same, near⟩
      | cons x values =>
        obtain ⟨value, last⟩ := Element.apply_figures head spec x mask clear
        obtain ⟨figures, moved⟩ := publish_own sep near value last
        obtain ⟨rest, later⟩ := ih values moved tail
        exact ⟨congrArg₂ List.cons figures rest, later⟩

theorem readMetric_own (sep : Driver.Separates spec foreign alike) (near : alike s.driver t.driver)
    (own : m.spec = spec) (own' : n.spec = spec)
    (sized : n.elements.length = m.elements.length) :
    (readMetric env name window n t).1 = (readMetric env name window m s).1 ∧
      alike (readMetric env name window m s).2.driver
        (readMetric env name window n t).2.driver := by
  obtain ⟨supplied, values, moved⟩ :=
    sep.read near (List.replicate m.elements.length 0) s.scratch t.scratch
  have reply : (readReply n t).result.supplied = (readReply m s).result.supplied ∧
      (readReply n t).result.values = (readReply m s).result.values := by
    rw [readReply, readReply, own, own', sized]
    exact ⟨supplied, values⟩
  simp only [readMetric_eq, reply, own, own', sized, true_and]
  rw [asked, asked, readReply, readReply, own, own', sized]
  exact moved

theorem sampleMetric_own (sep : Driver.Separates spec foreign alike)
    (near : alike s.driver t.driver) (own : m.spec = spec) (own' : n.spec = spec)
    (same : n.figures = m.figures) :
    alike (sampleMetric env name window clear m s).2.driver
        (sampleMetric env name window clear n t).2.driver ∧
      ((∃ f, (sampleMetric env name window clear m s).1 = .error f ∧
          (sampleMetric env name window clear n t).1 = .error f) ∨
        ∃ m' n', (sampleMetric env name window clear m s).1 = .ok m' ∧
          (sampleMetric env name window clear n t).1 = .ok n' ∧ n'.figures = m'.figures ∧
          m'.spec = spec ∧ n'.spec = spec) := by
  have sized : n.elements.length = m.elements.length := by
    simpa [Metric.figures] using congrArg List.length same
  obtain ⟨read, moved⟩ : (readMetric env name window n t).1 = (readMetric env name window m s).1 ∧ _ :=
    readMetric_own sep near own own' sized
  simp only [sampleMetric]
  cases first : readMetric env name window m s with | mk result u =>
  cases second : readMetric env name window n t with | mk result' v =>
  rw [first, second] at read moved
  cases read
  cases result with
  | error f => exact ⟨moved, .inl ⟨f, rfl, rfl⟩⟩
  | ok reading =>
    obtain ⟨figures, later⟩ := applySamples_own sep reading.2 reading.1 moved same
    simp only [own, own']
    exact ⟨later, .inr ⟨_, _, rfl, rfl, figures, rfl, rfl⟩⟩

theorem sampleMetric_foreign (sep : Driver.Separates spec foreign alike) {d : Option δ}
    (near : alike s.driver d) (other : foreign m.spec) :
    alike (sampleMetric env name window clear m s).2.driver d := by
  have applied (mask : UInt64) {es : List Element} {values : List UInt64} {u : PassState δ}
      (near : alike u.driver d) :
      alike (applySamples m.spec mask clear es values u).2.driver d := by
    induction es generalizing values u with
    | nil => exact near
    | cons e es ih =>
      cases values with
      | nil => exact near
      | cons x values => exact ih (sep.convertOther near m.spec other _ u.scratch)
  have read : alike (asked m s).driver d := sep.readOther near m.spec other _ s.scratch
  simp only [sampleMetric, readMetric_eq]
  split <;> rename_i met <;> obtain ⟨-, rfl⟩ := Prod.mk.inj met
  · exact read
  · exact applied _ read

variable (env name window clear) in
theorem sweep_foreign (sep : Driver.Separates spec foreign alike) {d : Option δ} {ms : List Metric}
    (near : alike s.driver d) (others : ∀ m ∈ ms, foreign m.spec) :
    alike (sweep (sampleMetric env name window clear) ms s).2.2.driver d := by
  induction ms generalizing s with
  | nil => exact near
  | cons m rest ih =>
    have first : alike (sampleMetric env name window clear m s).2.driver d :=
      sampleMetric_foreign sep near (others m List.mem_cons_self)
    unfold sweep
    split
    · rename_i met
      rw [met] at first
      exact first
    · rename_i met
      rw [met] at first
      exact ih first fun m member => others m (List.mem_cons_of_mem _ member)

end Block

end Telemetry

import Telemetry.Proofs.Interleaving
import Telemetry.Proofs.Replayed
import Telemetry.Proofs.Stopping

/-! A domain that serves a replay. Its only zone has the block of the replay, every metric of which
reads a register of its own inside the window; so no pass over it faults, whatever is written there,
and no operation that means this zone fails. -/
namespace Telemetry

open Register (Window)
open Replay (Engine)
open Replay.Engine (metricSpec windowSize)

/-! ### Operations without a fault -/

/-- The operation means the zone behind this handle, if it means a single one. -/
def Operation.Means (operation : Operation) (handle : ZoneHandle) : Prop :=
  match operation with
  | .updateZone other _ | .enable other | .disable other => other = handle
  | .update _ | .start | .stop | .sample => True

namespace Domain

variable {δ α : Type} {d : Domain δ} {s : Shared} {handle : ZoneHandle}

theorem locked_ok {step : Domain δ → Shared → Done δ α} {a : α} (sound : d.treePoisoned = false)
    (done : (step d s).outcome = .ok a) : d.locked s step = step d s := by
  simp only [locked, sound, Bool.false_eq_true, if_false, done]

theorem stop_ok (tree : d.treePoisoned = false) (slot : d.slotPoisoned = false) :
    (d.stop s).outcome = .ok () ∧ (d.stop s).domain.slotPoisoned = false := by
  obtain ⟨poisoned, -⟩ | ⟨-, cleared⟩ := clearRunning_cases d s
  · cases tree.symm.trans poisoned
  · unfold stop holdingSlot
    simp only [slot, cleared, Bool.false_eq_true, if_false]
    cases d.running <;> exact ⟨rfl, rfl⟩

variable [Driver δ] {env : Surroundings}

theorem update_ok {clear : Bool} {zones : List (Zone δ)} {t : Shared}
    (sound : d.treePoisoned = false)
    (whole : passOver (Zone.pass env clear) d.zones s = (none, zones, t)) :
    d.update env clear s = ⟨.ok (), { d with zones }, t⟩ := by
  have done : d.passZones env clear s = ⟨.ok (), { d with zones }, t⟩ := by
    simp only [passZones, whole]
    rfl
  rw [update, locked_ok sound (congrArg (·.outcome) done), done]

theorem changeZone_ok {treatment : Treatment} {i : Nat} {z w : Zone δ} {t : Shared}
    (sound : d.treePoisoned = false) (home : handle.domain = d.id)
    (placed : d.position handle = some i) (there : d.zones[i]? = some z)
    (whole : treatment.run env z s = (none, w, t)) :
    d.changeZone handle s (treatment.run env) =
      ⟨.ok (), { d with zones := d.zones.set i w }, t⟩ := by
  simp only [changeZone, onZone, home, ne_eq, not_true_eq_false, if_false, sound,
    Bool.false_eq_true, placed, there, Option.bind_some, Option.map_some, locked, whole]
  rfl

theorem start_ok (tree : d.treePoisoned = false) (slot : d.slotPoisoned = false)
    (given : env.threadError = none)
    (whole : (passOver (Zone.pass env true) d.zones s).1 = none) :
    (d.start env s).outcome = .ok () ∧ (d.start env s).domain.slotPoisoned = false := by
  unfold start holdingSlot
  obtain ⟨poisoned, -⟩ | ⟨-, -, marked⟩ | ⟨-, -, -, marked⟩ |
      ⟨fault, zones, t, -, -, -, done, marked⟩ := markRunning_cases env d s
  · cases tree.symm.trans poisoned
  · simp [slot, marked]
  · simp [slot, marked, given]
  · rw [done] at whole
    cases whole
    simp [slot, marked, given, ended, Except.map]

theorem changeZone_slot (env : Surroundings) (handle : ZoneHandle) (treatment : Treatment)
    (d : Domain δ) (s : Shared) :
    (d.changeZone handle s (treatment.run env)).domain.slotPoisoned = d.slotPoisoned := by
  simp only [changeZone, onZone, locked]
  repeat' split
  all_goals rfl

end Domain

namespace Operation

variable {δ : Type} [Driver δ] {d : Domain δ} {s : Shared} {env : Surroundings}
  {handle : ZoneHandle}

/-- Where no effect can fault, an operation that means an attached zone does not fail. -/
theorem run_ok (operation : Operation) (tree : d.treePoisoned = false)
    (slot : d.slotPoisoned = false) (given : env.threadError = none)
    (smooth : ∀ effect : Effect, (effect.run env d.zones s).1 = none)
    (home : handle.domain = d.id) {i : Nat} {z : Zone δ} (placed : d.position handle = some i)
    (there : d.zones[i]? = some z) (means : operation.Means handle) :
    (operation.run env d s).outcome = .ok () := by
  have passed (clear : Bool) : (d.update env clear s).outcome = .ok () := by
    have whole := smooth (.everywhere clear)
    rw [Effect.run] at whole
    rw [Domain.update_ok tree (Prod.ext whole rfl)]
  have changed (treatment : Treatment) :
      (d.changeZone handle s (treatment.run env)).outcome = .ok () := by
    have whole := smooth (.one handle treatment)
    have here : d.zones.findIdx? (·.handle == some handle) = some i := placed
    simp only [Effect.run, here, there, Option.bind_some, Option.map_some] at whole
    rw [Domain.changeZone_ok tree home placed there (Prod.ext whole rfl)]
  cases operation with
  | update clear => exact passed clear
  | updateZone other clear =>
    cases means
    exact changed (.pass clear)
  | enable other =>
    cases means
    exact changed (.enable d.clearOnStart)
  | disable other =>
    cases means
    exact changed .disable
  | start => exact (Domain.start_ok tree slot given (smooth (.everywhere true))).1
  | stop => exact (Domain.stop_ok tree slot).1
  | sample =>
    simp only [run, Domain.samplerPass]
    split
    · exact passed false
    · rfl

theorem run_slot (operation : Operation) (tree : d.treePoisoned = false)
    (slot : d.slotPoisoned = false) (given : env.threadError = none)
    (smooth : ∀ effect : Effect, (effect.run env d.zones s).1 = none) :
    (operation.run env d s).domain.slotPoisoned = false := by
  have passed (clear : Bool) : (d.update env clear s).domain.slotPoisoned = false := by
    have whole := smooth (.everywhere clear)
    rw [Effect.run] at whole
    rw [Domain.update_ok tree (Prod.ext whole rfl)]
    exact slot
  cases operation with
  | update clear => exact passed clear
  | updateZone other clear => exact (d.changeZone_slot env other (.pass clear) s).trans slot
  | enable other => exact (d.changeZone_slot env other (.enable d.clearOnStart) s).trans slot
  | disable other => exact (d.changeZone_slot env other .disable s).trans slot
  | start => exact (Domain.start_ok tree slot given (smooth (.everywhere true))).2
  | stop => exact (Domain.stop_ok tree slot).2
  | sample =>
    simp only [run, Domain.samplerPass]
    split
    · exact passed false
    · exact slot

end Operation

/-! ### The block of a replay -/

structure Block.Exposes (e : Engine) (b : Block StockDriver) : Prop where
  name : b.name = e.settings.block
  window : b.window = some e.window
  driver : b.driver = some .fixedPoint
  metrics : b.metrics.map (fun m => (m.spec, m.elements.length)) = e.blockSpec.metrics.map (·, 1)

theorem Replay.Engine.readSamples_word {env : Surroundings} {window i : Nat} {words : List UInt64}
    {word : UInt64} (held : env.windows[window]? = some (.ofWords words))
    (fits : words.length * Replay.registerSize < 2 ^ 64) (there : words[i]? = some word)
    (column : Column) (name : String) :
    Block.readSamples env name (some window) (metricSpec column i) 1 =
      .ok ([word], UInt64.ofNat (2 ^ 64 - 1)) := by
  have decoded := decoded_word held fits there column name
  simp only [Block.decoded, Option.bind_some, held] at decoded
  simp only [Block.readSamples, Block.readDirect, Option.bind_some, held, List.range_one,
    List.mapM_cons, List.mapM_nil, decoded, metricSpec_mask]
  rfl

theorem Block.sampleMetric_reads {env : Surroundings} {name : String} {window : Option Nat}
    {m : Metric} {reading : List UInt64 × UInt64} (clear : Bool) (s : PassState StockDriver)
    (read : readSamples env name window m.spec m.elements.length = .ok reading) :
    ∃ n t, sampleMetric env name window clear m s = (.ok n, t) := by
  simp only [sampleMetric, readMetric_eq, read]
  cases (readReply m s).result.supplied <;> exact ⟨_, _, rfl⟩

namespace Block.Exposes

variable {e : Engine} {b c : Block StockDriver} {env : Surroundings} {clear : Bool}
  {words : List UInt64} {s t : Shared} {i : Nat}

theorem alloc (made : Block.alloc e.blockSpec = .ok b) : b.Exposes e := by
  obtain ⟨metrics, each, rfl⟩ := Block.alloc_ok made
  refine ⟨rfl, rfl, rfl, ?_⟩
  rw [Engine.blockSpec, List.map_map]
  refine (forall₂_map_eq ((List.forall₂_map_left_iff.mp each).imp fun x m made => ?_)).symm
  rw [Metric.alloc_ok made]
  rfl

theorem carried (h : b.Exposes e) (carried : b.Carried c) : c.Exposes e := by
  have sizes (x : Block StockDriver) : x.metrics.map (fun m => (m.spec, m.elements.length)) =
      (x.metrics.map Metric.plain).map fun m => (m.spec, m.elements.length) := by
    rw [List.map_map]
    exact List.map_congr_left fun m _ => Prod.ext rfl (List.length_map _).symm
  have metrics : c.metrics.map Metric.plain = b.metrics.map Metric.plain :=
    congrArg (·.metrics) carried.content
  refine ⟨carried.name.trans h.name, (congrArg (·.window) carried.content).trans h.window,
    StockDriver.fixedPoint_leads (h.driver ▸ carried.driver), ?_⟩
  rw [sizes, metrics, ← sizes, h.metrics]

theorem passed (h : b.Exposes e) (done : b.pass env clear s = (none, c, t)) : c.Exposes e := by
  have passed := pass_passed done
  exact ⟨passed.name.trans h.name, passed.window.trans h.window,
    StockDriver.fixedPoint_leads (h.driver ▸ passed.driver), (pass_sizes done).2.trans h.metrics⟩

theorem getElem?_metrics (h : b.Exposes e) (i : Nat) :
    (b.metrics[i]?).map (fun m => (m.spec, m.elements.length)) =
      (e.dataset.columns[i]?).map fun column => (metricSpec column i, 1) := by
  rw [← List.getElem?_map, h.metrics, List.getElem?_map, e.getElem?_specs, Option.map_map]
  rfl

theorem at_metric (h : b.Exposes e) {m : Metric} (there : b.metrics[i]? = some m) :
    ∃ column, e.dataset.columns[i]? = some column ∧ m.spec = metricSpec column i ∧
      m.elements.length = 1 := by
  have own := h.getElem?_metrics i
  rw [there, Option.map_some, eq_comm] at own
  obtain ⟨column, inside, same⟩ := Option.map_eq_some_iff.mp own
  obtain ⟨spec, one⟩ := Prod.mk.inj same
  exact ⟨column, inside, spec.symm, one.symm⟩

theorem pass_ok (h : b.Exposes e) (held : env.windows[e.window]? = some (.ofWords words))
    (sized : words.length = e.dataset.columns.length)
    (fits : windowSize e.dataset < 2 ^ 64) (clear : Bool) (s : Shared) :
    ∃ c t, b.pass env clear s = (none, c, t) := by
  cases whole : b.pass env clear s with | mk fault rest =>
  obtain ⟨c, t⟩ := rest
  cases fault with
  | none => exact ⟨c, t, rfl⟩
  | some f =>
    -- It would stop at a metric, but the register of each can be read.
    obtain ⟨i, m, u, v, there, -, failed, -⟩ := pass_stopped whole
    obtain ⟨column, inside, spec, one⟩ := h.at_metric there
    have below : i < words.length := sized ▸ (List.getElem?_eq_some_iff.mp inside).1
    have read := Engine.readSamples_word held (sized ▸ fits) (List.getElem?_eq_getElem below)
      column b.name
    rw [← h.window, ← spec, ← one] at read
    obtain ⟨n, t, done⟩ := Block.sampleMetric_reads clear u read
    cases failed.symm.trans done

end Block.Exposes

/-! ### Its zone -/

structure Element.Samples (type : MetricType) (word : UInt64) (clear : Bool) (x y : Element) :
    Prop where
  gauge : type = .gauge → y.value = if clear then 0 else word
  counter : type = .counter →
    y.last = word ∧ y.value = if clear then 0 else x.value + (word - x.last)

theorem Replay.Engine.apply_samples {x y : Element} {column : Column} {i : Nat} {word : UInt64}
    {clear : Bool}
    (value : y.value =
      (x.apply (metricSpec column i) word (UInt64.ofNat (2 ^ 64 - 1)) clear).value)
    (last : y.last = (x.apply (metricSpec column i) word (UInt64.ofNat (2 ^ 64 - 1)) clear).last) :
    x.Samples column.type word clear y := by
  constructor
  · intro gauge
    have type : (metricSpec column i).type = .gauge := gauge
    rw [value]
    simp only [Element.apply, type]
    cases clear <;> rfl
  · intro counter
    have type : (metricSpec column i).type = .counter := counter
    rw [value, last]
    simp only [Element.apply, type]
    refine ⟨rfl, ?_⟩
    cases clear with
    | true => rfl
    | false => exact congrArg (x.value + ·) (masked_whole _)

def Zone.Exposes (e : Engine) (z : Zone StockDriver) : Prop := ∃ b, z.blocks = [b] ∧ b.Exposes e

namespace Zone.Exposes

variable {e : Engine} {z w : Zone StockDriver} {env : Surroundings} {clear : Bool}
  {words : List UInt64} {s t : Shared} {i : Nat} {column : Column}

theorem at_column (h : z.Exposes e) (there : e.dataset.columns[i]? = some column) :
    ∃ x, Element.At e.blockSpec (metricSpec column i) 0 i 0 z x := by
  obtain ⟨b, only, exposes⟩ := h
  have own := exposes.getElem?_metrics i
  rw [there, Option.map_some] at own
  obtain ⟨m, inside, same⟩ := Option.map_eq_some_iff.mp own
  obtain ⟨spec, one⟩ := Prod.mk.inj same
  obtain ⟨x, single⟩ := List.length_eq_one_iff.mp one
  exact ⟨x, b, m, by rw [only]; rfl, inside, by rw [single]; rfl, exposes.name, exposes.window,
    exposes.driver ▸ .refl, spec⟩

theorem carried (h : z.Exposes e) (blocks : List.Forall₂ Block.Carried z.blocks w.blocks) :
    w.Exposes e := by
  obtain ⟨b, only, exposes⟩ := h
  rw [only] at blocks
  obtain ⟨c, rest, carried, none, whole⟩ := List.forall₂_cons_left_iff.mp blocks
  rw [List.forall₂_nil_left_iff.mp none] at whole
  exact ⟨c, whole, exposes.carried carried⟩

theorem pass_ok (h : z.Exposes e) (held : env.windows[e.window]? = some (.ofWords words))
    (sized : words.length = e.dataset.columns.length) (fits : windowSize e.dataset < 2 ^ 64)
    (clear : Bool) (s : Shared) :
    ∃ w t, z.pass env clear s = (none, w, t) ∧ w.Exposes e ∧ w.handle = z.handle := by
  obtain ⟨b, only, exposes⟩ := h
  cases on : z.enabled with
  | false => exact ⟨z, s, by rw [pass, on]; rfl, ⟨b, only, exposes⟩, rfl⟩
  | true =>
    obtain ⟨c, t, done⟩ := exposes.pass_ok held sized fits clear s
    refine ⟨{ z with blocks := [c] }, t, ?_, ⟨c, rfl, exposes.passed done⟩, rfl⟩
    simp only [pass, on, if_true, only, passOver, done]

theorem samples (h : z.Exposes e) (on : z.enabled = true)
    (done : z.pass env clear s = (none, w, t))
    (held : env.windows[e.window]? = some (.ofWords words))
    (fits : words.length * Replay.registerSize < 2 ^ 64)
    (there : e.dataset.columns[i]? = some column) {word : UInt64}
    (written : words[i]? = some word) :
    ∃ x y, Element.At e.blockSpec (metricSpec column i) 0 i 0 z x ∧
      Element.At e.blockSpec (metricSpec column i) 0 i 0 w y ∧
      x.Samples column.type word clear y := by
  obtain ⟨x, before⟩ := h.at_column there
  obtain ⟨mask, read, y, all, decoded, after, value, last⟩ :=
    before.passed (StockDriver.fixedPoint_declines _) (pass_passed on done).2
  cases decoded.symm.trans (Engine.decoded_word held fits written column e.settings.block)
  cases (Engine.metricSpec_mask column i).symm.trans all
  exact ⟨x, y, before, after, Engine.apply_samples value last⟩

theorem treatment_ok (h : z.Exposes e) (held : env.windows[e.window]? = some (.ofWords words))
    (sized : words.length = e.dataset.columns.length) (fits : windowSize e.dataset < 2 ^ 64)
    (treatment : Treatment) (s : Shared) :
    ∃ w t, treatment.run env z s = (none, w, t) ∧ w.Exposes e ∧ w.handle = z.handle := by
  cases treatment with
  | pass clear => exact h.pass_ok held sized fits clear s
  | disable => exact ⟨z.disable, s, rfl, h, rfl⟩
  | enable clear =>
    simp only [Treatment.run, Zone.enable]
    split
    · have enabled : ({ z with enabled := true } : Zone StockDriver).Exposes e := h
      exact enabled.pass_ok held sized fits true s
    · exact ⟨_, s, rfl, h, rfl⟩

theorem effect_ok (h : z.Exposes e) (held : env.windows[e.window]? = some (.ofWords words))
    (sized : words.length = e.dataset.columns.length) (fits : windowSize e.dataset < 2 ^ 64)
    (effect : Effect) (s : Shared) :
    ∃ w t, effect.run env [z] s = (none, [w], t) ∧ w.Exposes e ∧ w.handle = z.handle := by
  cases effect with
  | nothing => exact ⟨z, s, rfl, h, rfl⟩
  | everywhere clear =>
    obtain ⟨w, t, done, exposes, handle⟩ := h.pass_ok held sized fits clear s
    exact ⟨w, t, by simp only [Effect.run, passOver, done], exposes, handle⟩
  | one other treatment =>
    obtain ⟨w, t, done, exposes, handle⟩ := h.treatment_ok held sized fits treatment s
    cases here : z.handle == some other with
    | true =>
      refine ⟨w, t, ?_, exposes, handle⟩
      simp [Effect.run, List.findIdx?_cons, here, done]
    | false =>
      refine ⟨z, s, ?_, h, rfl⟩
      simp [Effect.run, List.findIdx?_cons, here]

end Zone.Exposes

end Telemetry

import Telemetry.Proofs.Apart
import Telemetry.Proofs.Buffered

/-! Metrics of a block do not leak into each other. Two blocks that have a metric in common, and a
driver that treats each metric by itself, make the same of it whatever their other metrics are, in
any number of passes; and the read buffer that the metrics of a block share is no way around that. -/
namespace Telemetry

namespace Block

variable {δ : Type} [Driver δ] {env : Surroundings} {name : String} {window : Option Nat}
  {clear : Bool} {m n : Metric} {s t : PassState δ} {spec : MetricSpec}
  {foreign : MetricSpec → Prop} {alike : Option δ → Option δ → Prop}

/-- Two blocks have the same metric, at these places, and are otherwise made of foreign ones. -/
structure Counterparts (spec : MetricSpec) (foreign : MetricSpec → Prop)
    (alike : Option δ → Option δ → Prop) (i j : Nat) (b c : Block δ) : Prop where
  name : c.name = b.name
  window : c.window = b.window
  driver : alike b.driver c.driver
  same : ∃ m n, b.metrics[i]? = some m ∧ c.metrics[j]? = some n ∧ m.spec = spec ∧ n.spec = spec ∧
    n.figures = m.figures
  left : ∀ k m, b.metrics[k]? = some m → k ≠ i → foreign m.spec
  right : ∀ k n, c.metrics[k]? = some n → k ≠ j → foreign n.spec

inductive Passes : List Pass → Block δ → Block δ → Prop
  | nil {b : Block δ} : Passes [] b b
  | cons {p : Pass} {ps : List Pass} {b c d : Block δ} {s t : Shared} :
      b.pass p.env p.clear s = (none, c, t) → Passes ps c d → Passes (p :: ps) b d

variable {b c b' c' : Block δ} {i j : Nat} {x y x' y' : Shared}

omit [Driver δ] in
theorem others_split {ms : List Metric} {k : Nat}
    (others : ∀ l m, ms[l]? = some m → l ≠ k → foreign m.spec) :
    (∀ m ∈ ms.take k, foreign m.spec) ∧ ∀ m ∈ ms.drop (k + 1), foreign m.spec := by
  constructor
  · intro m member
    obtain ⟨l, there⟩ := List.mem_iff_getElem?.mp member
    rw [List.getElem?_take] at there
    split at there
    · exact others l m there (by omega)
    · cases there
  · intro m member
    obtain ⟨l, there⟩ := List.mem_iff_getElem?.mp member
    rw [List.getElem?_drop] at there
    exact others _ m there (by omega)

theorem Counterparts.near (sep : Driver.Separates spec foreign alike)
    (h : Counterparts spec foreign alike i j b c)
    (here : (b.arrivals env clear x)[i]? = some s) (there : (c.arrivals env clear y)[j]? = some t) :
    alike s.driver t.driver := by
  obtain ⟨ds, through, -⟩ := sweep_come here
  obtain ⟨es, through', -⟩ := sweep_come there
  have start : alike (b.latched clear x).driver (c.latched clear y).driver :=
    sep.latch h.driver _ _
  have left := sweep_foreign env b.name b.window clear sep start (others_split h.left).1
  rw [through] at left
  have right := sweep_foreign env c.name c.window clear sep (sep.symm left)
    (others_split h.right).1
  rw [through'] at right
  exact sep.symm right

theorem Counterparts.figures (sep : Driver.Separates spec foreign alike)
    (h : Counterparts spec foreign alike i j b c)
    (here : (b.arrivals env clear x)[i]? = some s) (there : (c.arrivals env clear y)[j]? = some t) :
    ∃ m n, (b.pass env clear x).2.1.metrics[i]? = some m ∧
      (c.pass env clear y).2.1.metrics[j]? = some n ∧ m.spec = spec ∧ n.spec = spec ∧
      n.figures = m.figures := by
  obtain ⟨m, n, first, second, own, own', same⟩ := h.same
  have near := h.near sep here there
  have made := pass_at first here
  have made' := pass_at second there
  rw [h.name, h.window] at made'
  obtain ⟨-, ⟨f, failed, failed'⟩ | ⟨m', n', done, done', figures, kept, kept'⟩⟩ :=
    sampleMetric_own sep near own own' same
  · rw [failed] at made
    rw [failed'] at made'
    exact ⟨m, n, made, made', own, own', same⟩
  · rw [done] at made
    rw [done'] at made'
    exact ⟨m', n', made, made', kept, kept', figures⟩

theorem pass_comes (done : b.pass env clear x = (none, b', x')) (there : b.metrics[i]? = some m) :
    ∃ u, (b.arrivals env clear x)[i]? = some u := by
  rw [pass_eq] at done
  cases swept : sweep (sampleMetric env b.name b.window clear) b.metrics (b.latched clear x) with
  | mk fault rest =>
  rw [swept] at done
  cases fault with
  | some f => cases done
  | none =>
    have count := (arrivals_append swept []).2
    have inside := (List.getElem?_eq_some_iff.mp there).1
    exact ⟨_, List.getElem?_eq_getElem (by rw [arrivals, count]; exact inside)⟩

theorem pass_leaves (done : b.pass env clear x = (none, b', x')) (there : b.metrics[i]? = some m)
    (here : (b.arrivals env clear x)[i]? = some s) :
    ∃ n v w ns, sampleMetric env b.name b.window clear m s = (.ok n, v) ∧
      sweep (sampleMetric env b.name b.window clear) (b.metrics.drop (i + 1)) v = (none, ns, w) ∧
      b'.driver = (Driver.ask w.driver (Driver.release w.scratch) []).driver := by
  obtain ⟨n, v, sampled, -⟩ := pass_sampled done there here
  obtain ⟨ds, through, -⟩ := sweep_come here
  have whole := sweep_append through (m :: b.metrics.drop (i + 1))
  rw [← (split_at there).1] at whole
  simp only [sweep, sampled] at whole
  cases rest : sweep (sampleMetric env b.name b.window clear) (b.metrics.drop (i + 1)) v with
  | mk fault others =>
  obtain ⟨ns, w⟩ := others
  simp only [rest] at whole
  rw [pass_eq, show sweep _ b.metrics (b.latched clear x) = _ from whole] at done
  cases fault with
  | some f => cases done
  | none =>
    cases done
    exact ⟨n, v, w, ns, sampled, rest, rfl⟩

theorem pass_keeps (done : b.pass env clear x = (none, b', x')) :
    b'.name = b.name ∧ b'.window = b.window ∧
      ∀ (k : Nat) (n : Metric), b'.metrics[k]? = some n →
        ∃ m, b.metrics[k]? = some m ∧ m.spec = n.spec := by
  have passed := pass_passed done
  refine ⟨passed.name, passed.window, ?_⟩
  intro k n there
  have specs := congrArg (·[k]?) (pass_specs done).2
  simp only [List.getElem?_map, there, Option.map_some] at specs
  obtain ⟨m, found, same⟩ := Option.map_eq_some_iff.mp specs.symm
  exact ⟨m, found, same⟩

/-- Passes that do not fail keep two blocks counterparts. -/
theorem Counterparts.pass (sep : Driver.Separates spec foreign alike)
    (h : Counterparts spec foreign alike i j b c)
    (done : b.pass env clear x = (none, b', x')) (done' : c.pass env clear y = (none, c', y')) :
    Counterparts spec foreign alike i j b' c' := by
  obtain ⟨m, n, first, second, own, own', same⟩ := h.same
  obtain ⟨s, here⟩ := pass_comes done first
  obtain ⟨t, there⟩ := pass_comes done' second
  have figures := h.figures sep here there
  rw [done, done'] at figures
  have near := h.near sep here there
  obtain ⟨name, window, left⟩ := pass_keeps done
  obtain ⟨name', window', right⟩ := pass_keeps done'
  obtain ⟨o, v, w, ns, sampled, rest, driver⟩ := pass_leaves done first here
  obtain ⟨o', v', w', ns', sampled', rest', driver'⟩ := pass_leaves done' second there
  rw [h.name, h.window] at sampled' rest'
  have moved : alike v.driver v'.driver := by
    have both : alike (sampleMetric env b.name b.window clear m s).2.driver _ :=
      (sampleMetric_own sep near own own' same).1
    rwa [sampled, sampled'] at both
  have passed : alike w.driver v'.driver := by
    have both := sweep_foreign env b.name b.window clear sep moved (others_split h.left).2
    rwa [rest] at both
  have ended : alike w'.driver w.driver := by
    have both := sweep_foreign env b.name b.window clear sep (sep.symm passed)
      (others_split h.right).2
    rwa [rest'] at both
  constructor
  case name => rw [name, name', h.name]
  case window => rw [window, window', h.window]
  case driver =>
    rw [driver, driver']
    exact sep.release (sep.symm ended) _ _
  case same => exact figures
  case left =>
    intro k a found apart
    obtain ⟨a', found', spec⟩ := left k a found
    exact spec ▸ h.left k a' found' apart
  case right =>
    intro k a found apart
    obtain ⟨a', found', spec⟩ := right k a found
    exact spec ▸ h.right k a' found' apart

theorem Counterparts.passes (sep : Driver.Separates spec foreign alike) {ps : List Pass}
    (h : Counterparts spec foreign alike i j b c) (first : Passes ps b b')
    (second : Passes ps c c') : Counterparts spec foreign alike i j b' c' := by
  induction first generalizing c with
  | nil =>
    cases second
    exact h
  | cons done _ ih =>
    cases second with
    | cons done' rest => exact ih (h.pass sep done done') rest

end Block

/-- **Metrics of a block do not leak into each other.** The read buffer that they share has room for
each of them, and whatever it holds, a pass through it is a pass in which each has zeros of its own. A
metric that is sampled takes what its read hook leaves on zeros or, if that declines, what its own
registers decode to, element by element, with the mask that goes with it. So under a driver that
treats each metric by itself, passes over two blocks that have a metric in common make the same of it
where they come to it, whatever their other metrics are. -/
theorem metrics_stay_apart {δ : Type} [Driver δ] :
    (∀ b : Block δ, b.HasRoom (Block.readBuffer b.metrics)) ∧
    (∀ env clear (b : Block δ) raw s, b.HasRoom raw →
      ∃ raw', b.passBuffered env clear raw s =
          ((b.pass env clear s).1, (b.pass env clear s).2.1, raw', (b.pass env clear s).2.2) ∧
        raw'.length = raw.length ∧ (b.pass env clear s).2.1.HasRoom raw') ∧
    (∀ env clear (b : Block δ) s (i : Nat) m t n v, b.metrics[i]? = some m →
      (b.arrivals env clear s)[i]? = some t →
      Block.sampleMetric env b.name b.window clear m t = (.ok n, v) →
      (b.pass env clear s).2.1.metrics[i]? = some n ∧
        ∃ values mask, Finds env b.name b.window m t values mask ∧
          values.length = m.elements.length ∧
          ∀ (k : Nat) (e : Element), m.elements[k]? = some e →
            ∃ x d, values[k]? = some x ∧ n.elements[k]? = some d ∧
              d.value = (e.apply m.spec x mask clear).value ∧
              d.last = (e.apply m.spec x mask clear).last) ∧
    ∀ spec foreign (alike : Option δ → Option δ → Prop), Driver.Separates spec foreign alike →
      ∀ (i j : Nat) (b c : Block δ), Block.Counterparts spec foreign alike i j b c →
        (∀ ps b' c', Block.Passes ps b b' → Block.Passes ps c c' →
          Block.Counterparts spec foreign alike i j b' c') ∧
        ∀ env clear x y s t, (b.arrivals env clear x)[i]? = some s →
          (c.arrivals env clear y)[j]? = some t →
          ∃ m n, (b.pass env clear x).2.1.metrics[i]? = some m ∧
            (c.pass env clear y).2.1.metrics[j]? = some n ∧ m.spec = spec ∧ n.spec = spec ∧
            n.figures = m.figures := by
  refine ⟨Block.readBuffer_hasRoom, ?_, ?_, ?_⟩
  · intro env clear b raw s room
    exact Block.passBuffered_eq env clear room s
  · intro env clear b s i m t n v there here sampled
    have made := Block.pass_at there here
    rw [sampled] at made
    exact ⟨made, Block.sampleMetric_finds sampled⟩
  · intro spec foreign alike sep i j b c h
    refine ⟨fun ps b' c' first second => h.passes sep first second, ?_⟩
    intro env clear x y s t here there
    exact h.figures sep here there

/-! ### Scripts -/

/-- A script that does not look at scratch for the metrics of a name. -/
structure Script.Blind (script : Script) (metric : String) : Prop where
  reads : ∀ rule, script.rule? metric = some rule → rule ≠ .latched
  converts : script.conversion ≠ .offsetByScratch

def Script.AsOften (script : Script) (metric : String) (d e : Option StockDriver) : Prop :=
  ∃ p q : Performance, d = some (.scripted p) ∧ e = some (.scripted q) ∧ p.script = script ∧
    q.script = script ∧ q.reads.count metric = p.reads.count metric

theorem Script.Blind.samples {script : Script} {spec : MetricSpec} (h : script.Blind spec.name)
    (earlier : Nat) (values : List UInt64) (scratch scratch' : List UInt8) :
    script.samples earlier spec values scratch' = script.samples earlier spec values scratch := by
  unfold Script.samples
  cases found : script.rule? spec.name with
  | none => rfl
  | some rule =>
    cases rule with
    | latched => exact absurd rfl (h.reads _ found)
    | _ => rfl

theorem Script.Blind.apply {script : Script} {metric : String} (h : script.Blind metric)
    (spec : MetricSpec) (raw : UInt64) (scratch scratch' : List UInt8) :
    script.conversion.apply spec raw scratch' = script.conversion.apply spec raw scratch := by
  cases found : script.conversion with
  | offsetByScratch => exact absurd found h.converts
  | _ => rfl

theorem Script.Blind.separates {script : Script} {spec : MetricSpec} (h : script.Blind spec.name) :
    Driver.Separates spec (·.name ≠ spec.name) (script.AsOften spec.name) := by
  constructor
  case symm =>
    rintro d e ⟨p, q, rfl, rfl, first, second, count⟩
    exact ⟨q, p, rfl, rfl, second, first, count.symm⟩
  case latch | release =>
    rintro d e ⟨p, q, rfl, rfl, first, second, count⟩ scratch scratch'
    exact ⟨p, q, rfl, rfl, first, second, count⟩
  case read =>
    rintro d e ⟨p, q, rfl, rfl, rfl, second, count⟩ values scratch scratch'
    have same : q.script.samples (q.reads.count spec.name) spec values
        (q.script.countRead scratch') = p.script.samples (p.reads.count spec.name) spec values
          (p.script.countRead scratch) := by
      rw [second, count]
      exact h.samples _ values _ _
    refine ⟨congrArg (·.1) same, congrArg (·.2) same, ?_⟩
    refine ⟨_, _, rfl, rfl, rfl, second, ?_⟩
    change (spec.name :: q.reads).count spec.name = (spec.name :: p.reads).count spec.name
    simp [count]
  case convert =>
    rintro d e ⟨p, q, rfl, rfl, rfl, second, count⟩ raw scratch scratch'
    refine ⟨?_, p, q, rfl, rfl, rfl, second, count⟩
    change q.script.conversion.apply spec raw scratch' = p.script.conversion.apply spec raw scratch
    rw [second]
    exact h.apply spec raw scratch scratch'
  case readOther =>
    rintro d e ⟨p, q, rfl, rfl, first, second, count⟩ other apart values scratch
    refine ⟨_, q, rfl, rfl, first, second, ?_⟩
    change q.reads.count spec.name = (other.name :: p.reads).count spec.name
    rw [count, List.count_cons_of_ne apart]
  case convertOther =>
    rintro d e ⟨p, q, rfl, rfl, first, second, count⟩ other apart raw scratch
    exact ⟨p, q, rfl, rfl, first, second, count⟩

def ownCounter : Metric :=
  ⟨.simple "own" .counter (.whole 0 1), [.ofInit 0], []⟩

def wideLanes : Metric :=
  ⟨{ MetricSpec.simple "wide" .gauge (.whole 0 1) with
      flags := ⟨true, false, false⟩, nelements := 3 }, List.replicate 3 (.ofInit 0), []⟩

def twiceRead : Script :=
  ⟨[], [], false, [("own", .rows [some [5], some [9]]), ("wide", .declined [7, 7, 7])], .value⟩

def blockOf (metrics : List Metric) : Block StockDriver where
  name := "b"
  window := some 0
  metrics := metrics
  scratchSize := 1
  driver := some (.scripted ⟨twiceRead, []⟩)
  lastUpdate := none
  collector := none

/-- The counter is the same by itself as behind the lanes, and the words in the read buffer are
nobody's. -/
theorem metrics_stay_apart_crowded :
    let s := Shared.ofRegistries 0
    let env := eightBytes
    let passes (b : Block StockDriver) := (((b.pass env false s).2.1).pass env false s).2.1
    let crowded := blockOf [wideLanes, ownCounter]
    let alone := blockOf [ownCounter]
    (passes crowded).values.map (·.raw) = [1, 2, 3, 9] ∧
      Block.Counterparts ownCounter.spec (·.name ≠ "own") (twiceRead.AsOften "own") 1 0
        (passes crowded) (passes alone) ∧
      (crowded.passBuffered env false [90, 91, 92] s).2.1.values =
        (crowded.pass env false s).2.1.values ∧
      ∃ values mask, Finds env "b" (some 0) wideLanes (crowded.latched false s) values mask := by
  intro s env passes crowded alone
  obtain ⟨-, buffered, finds, apart⟩ := metrics_stay_apart (δ := StockDriver)
  have blind : twiceRead.Blind ownCounter.spec.name := by
    refine ⟨fun rule found => ?_, nofun⟩
    cases found
    nofun
  have common : Block.Counterparts ownCounter.spec (·.name ≠ ownCounter.spec.name)
      (twiceRead.AsOften ownCounter.spec.name) 1 0 crowded alone := by
    constructor
    case name | window => rfl
    case driver => exact ⟨_, _, rfl, rfl, rfl, rfl, rfl⟩
    case same => exact ⟨ownCounter, ownCounter, rfl, rfl, rfl, rfl, rfl⟩
    case left =>
      rintro (_ | _ | k) m there other
      · cases there
        decide
      · exact absurd rfl other
      · cases there
    case right =>
      rintro (_ | k) m there other
      · exact absurd rfl other
      · cases there
  have twice (b : Block StockDriver) (first : (b.pass env false s).1 = none)
      (second : ((b.pass env false s).2.1.pass env false s).1 = none) :
      Block.Passes [⟨env, false⟩, ⟨env, false⟩] b (passes b) :=
    .cons (Prod.ext first rfl) (.cons (Prod.ext second rfl) .nil)
  refine ⟨by decide +kernel, ?_, ?_, ?_⟩
  · exact (apart _ _ _ blind.separates 1 0 crowded alone common).1 _ _ _
      (twice crowded (by decide +kernel) (by decide +kernel))
      (twice alone (by decide +kernel) (by decide +kernel))
  · have room : crowded.HasRoom [90, 91, 92] := by simp [Block.HasRoom, crowded, blockOf,
      wideLanes, ownCounter]
    obtain ⟨raw, same, -⟩ := buffered env false crowded [90, 91, 92] s room
    rw [same]
  · obtain ⟨-, values, mask, found, -⟩ := finds env false crowded s 0 wideLanes
      (crowded.latched false s) _ _ rfl rfl rfl
    exact ⟨values, mask, found⟩

end Telemetry

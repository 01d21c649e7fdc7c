import Telemetry.Block.Stock
import Telemetry.Proofs.Following

/-! Counters follow their registers. Whatever is done with a zone, a counter that is read directly
shows how far the true count has come since the last clear pass over the zone: no pass loses or
doubles anything, nor does a detachment. -/
namespace Telemetry

variable {δ : Type} [Driver δ]

/-- The element at a place among the blocks, metrics and elements of a zone that was made with these
specifications. -/
def Element.At (bs : BlockSpec δ) (ms : MetricSpec) (bi mi k : Nat) (z : Zone δ) (e : Element) :
    Prop :=
  ∃ b m, z.blocks[bi]? = some b ∧ b.metrics[mi]? = some m ∧ m.elements[k]? = some e ∧
    b.name = bs.name ∧ b.window = bs.window ∧ Driver.Leads bs.driver b.driver ∧ m.spec = ms

namespace Element.At

variable {spec : ZoneSpec δ} {bs : BlockSpec δ} {ms : MetricSpec} {bi mi k : Nat} {z w : Zone δ}
  {e : Element}

theorem alloc (made : Zone.alloc spec = .ok z) (block : spec.blocks[bi]? = some bs)
    (metric : bs.metrics[mi]? = some ms) (element : k < ms.elementCount) :
    At bs ms bi mi k z (.ofInit ms.init) := by
  obtain ⟨blocks, each, rfl⟩ := Zone.alloc_ok made
  obtain ⟨b, there, made⟩ := forall₂_getElem? each block
  obtain ⟨metrics, all, rfl⟩ := Block.alloc_ok made
  obtain ⟨m, placed, metric⟩ := forall₂_getElem? all metric
  cases Metric.alloc_ok metric
  exact ⟨_, _, there, placed, List.getElem?_replicate_of_lt element, rfl, rfl, .refl, rfl⟩

theorem carried (h : At bs ms bi mi k z e) (blocks : List.Forall₂ Block.Carried z.blocks w.blocks) :
    ∃ d, At bs ms bi mi k w d ∧ d.value = e.value ∧ d.last = e.last := by
  obtain ⟨b, m, there, placed, inside, name, window, led, spec⟩ := h
  obtain ⟨c, here, carried⟩ := forall₂_getElem? blocks there
  have metrics : c.metrics.map Metric.plain = b.metrics.map Metric.plain :=
    congrArg (·.metrics) carried.content
  have metric := congrArg (·[mi]?) metrics
  simp only [List.getElem?_map, placed, Option.map_some] at metric
  obtain ⟨n, found, plain⟩ := Option.map_eq_some_iff.mp metric
  have elements := congrArg (·.elements[k]?) plain
  simp only [Metric.plain, List.getElem?_map, inside, Option.map_some] at elements
  obtain ⟨d, kept, same⟩ := Option.map_eq_some_iff.mp elements
  refine ⟨d, ⟨c, n, here, found, kept, ?_, ?_, ?_, ?_⟩, ?_, ?_⟩
  · exact (congrArg (·.name) carried.content).trans name
  · exact (congrArg (·.window) carried.content).trans window
  · exact led.trans carried.driver
  · exact (congrArg (·.spec) plain).trans spec
  · exact congrArg (·.value) same
  · exact congrArg (·.last) same

theorem passed (h : At bs ms bi mi k z e) (direct : Driver.Declines ms bs.driver) {p : Pass}
    (blocks : List.Forall₂ (Block.Passed p) z.blocks w.blocks) :
    ∃ mask x d, ms.field.valueMask = .ok mask ∧
      Block.decoded p.env bs.name bs.window ms k = .ok x ∧ At bs ms bi mi k w d ∧
      d.value = (e.apply ms x mask p.clear).value ∧ d.last = (e.apply ms x mask p.clear).last := by
  obtain ⟨b, m, there, placed, inside, name, window, led, spec⟩ := h
  obtain ⟨c, here, passed⟩ := forall₂_getElem? blocks there
  obtain ⟨n, found, same, takes⟩ := forall₂_getElem? passed.metrics placed
  subst spec
  obtain ⟨mask, word, each⟩ := (takes (direct.leads led)).taken
  obtain ⟨x, d, read, kept, value, last⟩ := each k e inside
  refine ⟨mask, x, d, word, ?_, ⟨c, n, here, found, kept, ?_, ?_, ?_, same⟩, value, last⟩
  · rw [← name, ← window]
    exact read
  · exact passed.name.trans name
  · exact passed.window.trans window
  · exact led.trans passed.driver

theorem counted (h : At bs ms bi mi k z e) (started : e.value = ms.init ∧ e.last = 0)
    (counter : ms.type = .counter) (accumulates : ms.flags.clearOnRead = false)
    (field : ms.field.Inside) (direct : Driver.Declines ms bs.driver) {c : Nat → Nat}
    (zero : c 0 = 0) (grows : Monotone c) {ps : List Pass} (lives : z.Lives ps w)
    (small : ∀ n < ps.length, 1 ≤ n → c (n + 1) < c n + 2 ^ ms.field.bits)
    (follows : ∀ n p x, ps[n]? = some p →
      Block.decoded p.env bs.name bs.window ms k = .ok x →
        x.toNat = c (n + 1) % 2 ^ ms.field.bits) :
    ∃ d, At bs ms bi mi k w d ∧ Counted ms c (ps.map (·.clear)) d.value d.last := by
  induction lives with
  | start => exact ⟨e, h, by rw [started.1, started.2]; exact .start zero⟩
  | moved _ blocks ih =>
    obtain ⟨d, there, counted⟩ := ih small follows
    obtain ⟨f, here, value, last⟩ := there.carried blocks
    exact ⟨f, here, by rw [value, last]; exact counted⟩
  | @passed qs _ _ p _ blocks ih =>
    have length : (qs ++ [p]).length = qs.length + 1 := by simp
    obtain ⟨d, there, counted⟩ := ih
      (fun n below => small n (by rw [length]; exact Nat.lt_succ_of_lt below))
      (fun n q x found => by
        have below := (List.getElem?_eq_some_iff.mp found).1
        exact follows n q x (by rw [List.getElem?_append_left below]; exact found))
    obtain ⟨mask, x, f, word, read, here, value, last⟩ := there.passed direct blocks
    obtain ⟨other, same, masked⟩ := field.valueMask
    rw [word] at same
    cases same
    have sampled := follows qs.length p x (by simp) read
    have clears : (qs.map (·.clear)).length = qs.length := List.length_map _
    refine ⟨f, here, ?_⟩
    rw [value, last, List.map_append]
    refine counted.step counter accumulates field masked grows zero ?_ ?_ p.clear
    · rw [clears]
      exact small qs.length (by rw [length]; exact Nat.lt_succ_self _)
    · rw [clears]
      exact sampled

end Element.At

namespace Site

/-- The specification of the zone that an action allocates, and where the zone is then. -/
def birth (s : Site δ) (env : Surroundings) (action : Action δ) : Option (ZoneSpec δ × Place) :=
  match action, (s.perform env action).1 with
  | .make spec, .ok _ => some (spec, .loose s.loose.length)
  | .alloc i spec, .ok (some handle) => some (spec, .attached i handle)
  | _, _ => none

theorem birth_alloc {s : Site δ} {env : Surroundings} {i : Nat} {spec : ZoneSpec δ}
    {handle : ZoneHandle} (done : (s.perform env (.alloc i spec)).1 = .ok (some handle)) :
    s.birth env (.alloc i spec) = some (spec, .attached i handle) := by
  simp only [birth, done]

theorem Coherent.born_turns {s : Site δ} {count : Nat} {env : Surroundings} {action : Action δ}
    {spec : ZoneSpec δ} {place : Place} (h : s.Coherent count) (numbered : s.Numbered)
    (born : s.birth env action = some (spec, place)) :
    ∃ z k w, Zone.alloc spec = .ok z ∧ (s.perform env action).2.zone? place = some w ∧
      z.Turns (.loose k) [] place w := by
  cases action with
  | make other =>
    cases made : Zone.alloc other with
    | error f =>
      simp only [birth, perform, made] at born
      cases born
    | ok z =>
      simp only [birth, perform, made] at born ⊢
      cases born
      exact ⟨z, _, z, made, by simp [zone?, loose?], .rests⟩
  | alloc i other =>
    cases found : s.domain? i with
    | none =>
      simp only [birth, perform, found] at born
      cases born
    | some d =>
      obtain ⟨rest, mirror, home, -, -⟩ := h.facing found
      cases made : Zone.alloc other with
      | error f =>
        simp only [birth, perform, found, Domain.allocZone, made] at born
        cases born
      | ok z =>
        simp only [birth, perform, found, Domain.allocZone, made] at born ⊢
        cases outcome : (d.attachZone env z s.shared).outcome with
        | error e =>
          rw [outcome] at born
          cases born
        | ok handle =>
          rw [outcome] at born
          cases born
          obtain ⟨w, here, joined⟩ := Domain.attachZone_here (numbered i d found)
            (Zone.alloc_bare made) (mirror.counted.symm ▸ home) outcome
          refine ⟨z, 0, w, made, ?_, .joins joined⟩
          rw [zone?, settle_here found, Option.bind_some, here]
  | _ => cases born

theorem Coherent.born {s : Site δ} {count : Nat} {env : Surroundings} {action : Action δ}
    {spec : ZoneSpec δ} {place : Place} (h : s.Coherent count) (numbered : s.Numbered)
    (born : s.birth env action = some (spec, place)) :
    ∃ z w, Zone.alloc spec = .ok z ∧ (s.perform env action).2.zone? place = some w ∧
      z.Lives [] w := by
  obtain ⟨z, k, w, made, here, turns⟩ := h.born_turns numbered born
  exact ⟨z, w, made, here, turns.lives⟩

end Site

/-- **A counter follows its register.** In any run, take a zone from where it was allocated to
where it is in the end, within reach; `c` is the true count at each pass over it, and the passes
find it in the register modulo a power of two. The count may come as far as it likes before the
first pass if a clear pass has put the value back since. -/
theorem counter_follows_register (count : Nat) (before after : List (Surroundings × Action δ))
    (env : Surroundings) (action : Action δ) (spec : ZoneSpec δ) (place last : Place)
    (ps : List Pass) (z : Zone δ) (bs : BlockSpec δ) (ms : MetricSpec) (bi mi k : Nat)
    (c : Nat → Nat)
    (born : ((Site.empty count).run before).birth env action = some (spec, place))
    (followed : (((Site.empty count).run before).perform env action).2.follow after place =
      some (last, ps))
    (there : ((Site.empty count).run (before ++ (env, action) :: after)).zone? last = some z)
    (block : spec.blocks[bi]? = some bs) (metric : bs.metrics[mi]? = some ms)
    (element : k < ms.elementCount) (counter : ms.type = .counter)
    (accumulates : ms.flags.clearOnRead = false) (field : ms.field.Inside)
    (direct : Driver.Declines ms bs.driver) (zero : c 0 = 0) (grows : Monotone c)
    (small : ∀ n < ps.length, 1 ≤ n ∨ ms.lastReset (ps.map (·.clear)) = 0 →
      c (n + 1) < c n + 2 ^ ms.field.bits)
    (follows : ∀ n p x, ps[n]? = some p →
      Block.decoded p.env bs.name bs.window ms k = .ok x →
        x.toNat = c (n + 1) % 2 ^ ms.field.bits) :
    ∃ b m e, z.blocks[bi]? = some b ∧ b.metrics[mi]? = some m ∧ m.elements[k]? = some e ∧
      e.value.toNat =
        (ms.init.toNat + (c ps.length - c (ms.lastReset (ps.map (·.clear))))) % 2 ^ 64 := by
  have coherent := Site.run_coherent (δ := δ) count before
  have numbered := Site.run_numbered (δ := δ) count before
  obtain ⟨first, w, made, here, started⟩ := coherent.born numbered born
  rw [Site.run_append] at there
  have kept : (((Site.empty count).run before).perform env action).2.Coherent count :=
    (Site.perform_coherent action coherent).1
  have lives := kept.follow_lives (coherent.perform_numbered numbered action) here followed there
  have whole : first.Lives ps z := started.trans lives
  have start := Element.At.alloc made block metric element
  obtain ⟨e, ⟨b, m, inside, placed, found, -⟩, counted⟩ := start.counted ⟨rfl, rfl⟩ counter
    accumulates field direct zero grows whole
      (fun n below later => small n below (.inl later)) follows
  refine ⟨b, m, e, inside, placed, found, ?_⟩
  have length : (ps.map (·.clear)).length = ps.length := List.length_map _
  have value := counted.value
  rw [length] at value
  refine value fun some none => ?_
  have bound := small 0 some (.inr none)
  rwa [zero, Nat.zero_add, Nat.zero_add] at bound

def counterZone : ZoneSpec StockDriver :=
  ⟨"z", [⟨"b", some 0, [.simple "x" .counter (.whole 0 1)], 0, none⟩]⟩

def showing (byte : UInt8) : Surroundings := .plain [⟨.memory, [byte], false⟩] 0

def beforeCounting : List (Surroundings × Action StockDriver) :=
  [(showing 0, .create 0 ⟨"d", 0, false⟩)]

def counting : List (Surroundings × Action StockDriver) :=
  [(showing 0, .attach 0 0), (showing 100, .operate 0 (.update false)),
    (showing 200, .operate 0 (.update true)), (showing 44, .operate 0 (.update false))]

def countedPasses : List Pass := [⟨showing 100, false⟩, ⟨showing 200, true⟩, ⟨showing 44, false⟩]

/-- The register has wrapped, and the counter shows what came after the clear pass. -/
theorem counter_follows_register_wrapped :
    ∃ z b m e, ((Site.empty 1).run (beforeCounting ++ (showing 0, .make counterZone) ::
        counting)).zone? (.attached 0 ⟨1, 1⟩) = some z ∧ z.blocks[0]? = some b ∧
      b.metrics[0]? = some m ∧ m.elements[0]? = some e ∧ e.value.toNat = 100 := by
  have followed : (((Site.empty 1).run beforeCounting).perform (showing 0)
      (.make counterZone)).2.follow counting (.loose 0) =
        some (.attached 0 ⟨1, 1⟩, countedPasses) := rfl
  have follows (n : Nat) (p : Pass) (x : UInt64) (found : countedPasses[n]? = some p)
      (read : Block.decoded p.env "b" (some 0) (.simple "x" .counter (.whole 0 1)) 0 = .ok x) :
      x.toNat = 100 * (n + 1) % 2 ^ 8 := by
    match n with
    | 0 | 1 | 2 =>
      cases found
      cases read
      rfl
  obtain ⟨b, m, e, block, metric, element, value⟩ :=
    counter_follows_register 1 beforeCounting counting (showing 0) (.make counterZone) counterZone
      (.loose 0) (.attached 0 ⟨1, 1⟩) countedPasses _ _ _ 0 0 0 (fun n => 100 * n) rfl followed rfl
      rfl rfl (by decide) rfl rfl ⟨by decide, .inl rfl⟩ (Driver.declines_none _) rfl
      (fun _ _ below => Nat.mul_le_mul_left 100 below)
      (fun n _ _ => by
        change 100 * (n + 1) < 100 * n + 2 ^ 8
        omega) follows
  exact ⟨_, b, m, e, rfl, block, metric, element, value⟩

def countingLate : List (Surroundings × Action StockDriver) :=
  [(showing 0, .attach 0 0), (showing 44, .operate 0 (.update false))]

/-- What the register went through before the first pass is lost, although the count grows by less
than the register holds between any two passes. -/
theorem first_growth_lost :
    let c : Nat → Nat := fun n => 300 * n
    let born := ((Site.empty 1).run beforeCounting).perform (showing 0) (.make counterZone)
    ∃ (ps : List Pass) (z : Zone StockDriver) (b : Block StockDriver) (m : Metric) (e : Element),
      born.2.follow countingLate (.loose 0) = some (.attached 0 ⟨1, 1⟩, ps) ∧
      c 0 = 0 ∧ Monotone c ∧ (∀ n < ps.length, 1 ≤ n → c (n + 1) < c n + 2 ^ 8) ∧
      (∀ n p x, ps[n]? = some p → Block.decoded p.env "b" (some 0)
        (.simple "x" .counter (.whole 0 1)) 0 = .ok x → x.toNat = c (n + 1) % 2 ^ 8) ∧
      (born.2.run countingLate).zone? (.attached 0 ⟨1, 1⟩) = some z ∧ z.blocks[0]? = some b ∧
      b.metrics[0]? = some m ∧ m.elements[0]? = some e ∧
      e.value.toNat = 44 ∧ c ps.length % 2 ^ 64 = 300 := by
  refine ⟨[⟨showing 44, false⟩], _, _, _, _, rfl, rfl,
    fun _ _ below => Nat.mul_le_mul_left 300 below, ?_, ?_, rfl, rfl, rfl, rfl, rfl, rfl⟩
  · intro n below later
    exact absurd below (Nat.not_lt_of_le later)
  · intro n p x found read
    match n with
    | 0 =>
      cases found
      cases read
      rfl

end Telemetry

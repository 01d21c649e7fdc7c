import Telemetry.Proofs.Converting
import Telemetry.Proofs.Staging

/-! What the domain makes of a replay. A pass reads the register of a counter as the replay left it;
the differences of these readings add up, modulo the word, to what the register has gained since the
last clear pass, however the passes fall between the rows and the loops. -/
namespace Telemetry

open Register (Window)
open Replay (Engine registerSize)

namespace Sight

def latest (word : Sight → UInt64) (seen : List Sight) : UInt64 := (seen.getLast?.map word).getD 0

theorem latest_snoc (word : Sight → UInt64) (seen : List Sight) (v : Sight) :
    latest word (seen ++ [v]) = word v := by
  rw [latest, List.getLast?_concat]
  rfl

def clears (seen : List Sight) : List Sight := seen.filter (·.pass.clear)

/-- What has been gained since the last clear pass. -/
def gained (word : Sight → UInt64) (seen : List Sight) : UInt64 :=
  latest word seen - latest word (clears seen)

theorem gained_nil (word : Sight → UInt64) : gained word [] = 0 := UInt64.sub_self _

theorem gained_snoc (word : Sight → UInt64) (seen : List Sight) (v : Sight) :
    gained word (seen ++ [v]) =
      if v.pass.clear then 0 else gained word seen + (word v - latest word seen) := by
  unfold gained
  rw [latest_snoc, clears, List.filter_append]
  cases clear : v.pass.clear with
  | true =>
    rw [List.filter_cons_of_pos (by exact clear), List.filter_nil, latest_snoc, if_pos rfl,
      UInt64.sub_self]
  | false =>
    rw [List.filter_cons_of_neg (by simp [clear]), List.filter_nil, List.append_nil,
      if_neg Bool.false_ne_true, clears]
    grind

end Sight

/-- A counter that holds what its register has gained. -/
structure Element.Follows (word : Sight → UInt64) (seen : List Sight) (e : Element) : Prop where
  last : e.last = Sight.latest word seen
  value : e.value = Sight.gained word seen

theorem Block.readElement_ok {w : Window} {spec : MetricSpec} {k : Nat} {offset x : UInt64}
    {bytes : List UInt8} (block : String) (narrow : ¬ 8 < spec.field.size)
    (placed : spec.field.elementOffset (UInt64.ofNat k) = .ok offset)
    (read : w.read offset spec.field.size.toNat = .ok bytes)
    (decoded : spec.field.decode bytes = .ok x) : readElement w block spec k = .ok x := by
  simp [readElement, narrow, placed, read, decoded, Except.mapError, bind, Except.bind]

namespace Replay.Engine

variable {first : Engine} {i : Nat} {column : Column}

theorem metricSpec_mask (column : Column) (i : Nat) :
    (metricSpec column i).field.valueMask = .ok (UInt64.ofNat (2 ^ 64 - 1)) := rfl

theorem masked_whole (x : UInt64) : x &&& UInt64.ofNat (2 ^ 64 - 1) = x := by
  apply UInt64.toNat_inj.mp
  rw [UInt64.toNat_and, UInt64.toNat_ofNat_of_lt' (by decide), Nat.and_two_pow_sub_one_eq_mod]
  exact Nat.mod_eq_of_lt x.toNat_lt

theorem apply_follows {word : Sight → UInt64} {seen : List Sight} {e : Element}
    (h : e.Follows word seen) (counter : column.type = .counter) (v : Sight) :
    (e.apply (metricSpec column i) (word v) (UInt64.ofNat (2 ^ 64 - 1)) v.pass.clear).Follows word
      (seen ++ [v]) := by
  have type : (metricSpec column i).type = .counter := counter
  constructor
  · rw [Sight.latest_snoc]
    simp only [Element.apply, type]
    rfl
  · rw [Sight.gained_snoc, ← h.value, ← h.last]
    simp only [Element.apply, type]
    cases v.pass.clear with
    | true => rfl
    | false => exact congrArg (e.value + ·) (masked_whole _)

theorem decoded_word {env : Surroundings} {window : Nat} {words : List UInt64} {word : UInt64}
    (held : env.windows[window]? = some (.ofWords words))
    (fits : words.length * registerSize < 2 ^ 64) (there : words[i]? = some word)
    (column : Column) (block : String) :
    Block.decoded env block (some window) (metricSpec column i) 0 = .ok word := by
  have reach : Window.Reach words i := ⟨(List.getElem?_eq_some_iff.mp there).1, fits⟩
  have offset : (metricSpec column i).field.elementOffset (UInt64.ofNat 0)
      = .ok (UInt64.ofNat (i * registerSize)) := by
    have start := reach.offset
    have fits := (UInt64.ofNat (i * registerSize)).toNat_lt
    simp only [Register.Field.elementOffset, metricSpec, Register.Field.whole]
    change (do
      let offset ← Overflow.sum.unlessFits 64 ((UInt64.ofNat (i * registerSize)).toNat + 0)
      .ok (UInt64.ofNat offset)) = _
    rw [Overflow.unlessFits, Nat.add_zero, if_pos fits, start]
    rfl
  have size : ¬ 8 < (metricSpec column i).field.size :=
    show ¬ 8 < UInt64.ofNat registerSize by decide
  have decoded := Register.Field.decode_whole (UInt64.ofNat (i * registerSize)) word
  have element := Block.readElement_ok block size offset (Window.read_word reach there) decoded
  simpa only [Block.decoded, Option.bind_some, held] using element

theorem decoded_register {v : Sight} (seen : Theatre.Seen first v)
    (fits : windowSize first.dataset < 2 ^ 64) (there : first.dataset.columns[i]? = some column)
    (block : String) :
    Block.decoded v.pass.env block (some first.window) (metricSpec column i) 0 =
      .ok (first.dataset.register v.loops v.position i column) := by
  refine decoded_word seen.window ?_ ?_ column block
  · rw [first.dataset.registers_length]
    exact fits
  · rw [first.dataset.getElem?_registers, there]
    rfl

def blockSpec (e : Engine) : BlockSpec StockDriver :=
  ⟨e.settings.block, some e.window, e.dataset.columns.zipIdx.map fun x => metricSpec x.1 x.2, 0,
    some .fixedPoint⟩

theorem getElem?_specs (e : Engine) (i : Nat) :
    e.blockSpec.metrics[i]? = (e.dataset.columns[i]?).map (metricSpec · i) := by
  simp only [blockSpec, List.getElem?_map, List.getElem?_zipIdx, Option.map_map, Nat.zero_add]
  rfl

def word (first : Engine) (i : Nat) (column : Column) (v : Sight) : UInt64 :=
  first.dataset.register v.loops v.position i column

end Replay.Engine

namespace Element.At

variable {first : Engine} {i : Nat} {column : Column} {z w : Zone StockDriver} {e : Element}
  {ps : List Pass}

/-- A counter of a replay holds what its register has gained, whatever becomes of the zone. -/
theorem follows (h : At first.blockSpec (Engine.metricSpec column i) 0 i 0 z e)
    (started : e.Follows (first.word i column) [])
    (fits : Engine.windowSize first.dataset < 2 ^ 64)
    (there : first.dataset.columns[i]? = some column) (counter : column.type = .counter)
    (lives : z.Lives ps w) {seen : List Sight} (passes : seen.map (·.pass) = ps)
    (saw : ∀ v ∈ seen, Theatre.Seen first v) :
    ∃ d, At first.blockSpec (Engine.metricSpec column i) 0 i 0 w d ∧
      d.Follows (first.word i column) seen := by
  induction lives generalizing seen with
  | start =>
    rw [List.map_eq_nil_iff.mp passes]
    exact ⟨e, h, started⟩
  | moved _ blocks ih =>
    obtain ⟨d, inside, follows⟩ := ih passes saw
    obtain ⟨f, here, value, last⟩ := inside.carried blocks
    exact ⟨f, here, last.trans follows.last, value.trans follows.value⟩
  | passed p _ blocks ih =>
    obtain ⟨others, vs, rfl, before, last⟩ := List.map_eq_append_iff.mp passes
    obtain ⟨v, rfl, rfl⟩ := List.map_eq_singleton_iff.mp last
    obtain ⟨earlier, here⟩ := List.forall_mem_append.mp saw
    obtain ⟨d, inside, follows⟩ := ih before earlier
    obtain ⟨mask, x, f, all, read, after, value, last⟩ :=
      inside.passed (StockDriver.fixedPoint_declines _) blocks
    have sampled := Engine.decoded_register (here v (List.mem_singleton_self v)) fits there
      first.settings.block
    cases read.symm.trans sampled
    cases (Engine.metricSpec_mask column i).symm.trans all
    have next := Engine.apply_follows (i := i) follows counter v
    exact ⟨f, after, last.trans next.last, value.trans next.value⟩

end Element.At

/-- A state of a replay with its window in closed form, and what is written to it. -/
structure Theatre.Replays (d : Dataset) (window : Nat) (s : Theatre) : Prop where
  position : s.engine.position ≤ d.rows.length
  registers : s.windows[window]? = some (.ofWords (d.registers s.loops s.engine.position))
  elsewhere : ∀ j, j ≠ window → (s.step .turn).windows[j]? = s.windows[j]?
  cells : ∀ row ∈ d.rows, row.cells.length = d.columns.length
  writes : ∀ row ∈ d.rows, ∀ i word,
    (Engine.rowWords d.columns s.engine.base row.cells)[i]? = some (some word) →
    i < d.columns.length ∧ ∀ words : List UInt64, words.length = d.columns.length →
      (Window.ofWords words).write (UInt64.ofNat (i * registerSize))
        (Register.bytesOf registerSize word) = (.ok (), .ofWords (words.set i word))

theorem Theatre.Sound.replays {count : Nat} {first : Engine} {s : Theatre} (h : s.Sound count first)
    (table : first.dataset.Tabular) (fits : Engine.windowSize first.dataset < 2 ^ 64) :
    s.Replays first.dataset first.window := by
  have holds := h.holds
  refine ⟨h.kept.dataset ▸ holds.position, ?_, ?_, table.cells, ?_⟩
  · rw [← h.kept.window, ← h.kept.dataset]
    exact holds.window
  · intro j other
    exact (s.engine.turn_turns s.scene).elsewhere (h.kept.window ▸ other)
  · intro row member i word there
    rw [holds.base, h.kept.dataset, first.dataset.getElem?_rowWords table member] at there
    obtain ⟨column, inside, -⟩ := Option.map_eq_some_iff.mp there
    have below := (List.getElem?_eq_some_iff.mp inside).1
    exact ⟨below, fun words sized => Window.write_word ⟨sized ▸ below, sized ▸ fits⟩ word⟩

structure Dataset.Loops (d : Dataset) (i : Nat) (column : Column) : Prop where
  type : column.type = .counter ∨ column.type = .gauge
  counter : column.type = .counter → ∀ k p,
    (d.registers k p)[i]? = some (UInt64.ofNat (k * d.total i + d.part p i))
  forward : column.type = .counter → ∀ k p,
    (d.registers (k + 1) p)[i]? =
      (d.registers k d.rows.length)[i]?.map (· + UInt64.ofNat (d.part p i))
  gauge : column.type = .gauge → ∀ k p,
    (d.registers k p)[i]? = some (((Engine.lastCell? (d.written k p) i).map
      fun cell => (cell.mul (.ofWord Replay.gaugeScale)).roundToSignedWord).getD 0)

theorem Dataset.Tabular.loops {d : Dataset} (table : d.Tabular) {i : Nat} {column : Column}
    (there : d.columns[i]? = some column) : d.Loops i column := by
  have register (k p : Nat) : (d.registers k p)[i]? = some (d.register k p i column) := by
    rw [d.getElem?_registers, there]
    rfl
  refine ⟨table.types column (List.mem_of_getElem? there), ?_, ?_, ?_⟩
  · intro counter k p
    rw [register, Dataset.register_counter counter]
  · intro counter k p
    rw [register, register, Dataset.register_counter counter, Dataset.register_counter counter,
      d.part_whole, Option.map_some, ← UInt64.ofNat_add, Nat.succ_mul]
  · intro gauge k p
    rw [register, Dataset.register_gauge gauge]
    rfl

theorem Theatre.Sound.follows {count : Nat} {first : Engine} {s : Theatre} (h : s.Sound count first)
    (table : first.dataset.Tabular) (fits : Engine.windowSize first.dataset < 2 ^ 64) {now : Nat}
    {action : Action StockDriver} {later : List Cue} {place last : Place} {seen : List Sight}
    {z : Zone StockDriver} {i : Nat} {column : Column}
    (born : s.site.birth (s.env now) action = some (first.zoneSpec, place))
    (followed : (s.step (.act now action)).follow later place = some (last, seen))
    (reached : ((s.step (.act now action)).run later).site.zone? last = some z)
    (there : first.dataset.columns[i]? = some column) (counter : column.type = .counter) :
    ∃ e, Element.At first.blockSpec (Engine.metricSpec column i) 0 i 0 z e ∧
      e.Follows (first.word i column) seen := by
  obtain ⟨y, w, made, here, started⟩ := h.coherent.born h.numbered born
  obtain ⟨lives, saw⟩ := (h.step table fits (.act now action)).follow_lives table fits here followed
    reached
  have start : Element.At first.blockSpec (Engine.metricSpec column i) 0 i 0 y (.ofInit 0) :=
    Element.At.alloc made rfl (by rw [Engine.getElem?_specs, there]; rfl) Nat.one_pos
  exact start.follows ⟨rfl, (Sight.gained_nil _).symm⟩ fits there counter (started.trans lives)
    rfl saw

def halfEmpty : List UInt8 := "timestamp_ms,c_total\n0,5\n1,\n".toUTF8.toList

def halfEmptyData : Dataset :=
  ⟨[⟨"c_total", .counter⟩], [⟨0, [some (.ofNat 5)]⟩, ⟨1, [none]⟩]⟩

theorem halfEmpty_accepted : halfEmptyData.Accepted halfEmpty :=
  ⟨toOption_some (by decide +kernel), by decide⟩

def loopingSettings : Replay.Settings := ⟨.ofNat 1, true, 1, "replay", "dataset"⟩

def beforeReplay : List (Surroundings × Action StockDriver) :=
  (.plain [] 0, .create 0 ⟨"d", 0, false⟩) ::
    SelfMetrics.vectors.map fun v => (.plain [] 0, .enlist 1 v)

open SelfMetrics (only) in
def ownMetrics : SelfMetrics := ⟨only 0, only 1, only 2, only 3, only 4⟩

def openingReplay : Theatre :=
  .opening [] ((Site.empty 2).run beforeReplay) halfEmptyData loopingSettings (some ownMetrics)

def allocReplay : Cue := .act 0 (.alloc 0 openingReplay.engine.zoneSpec)

theorem ownMetrics_listed : ∀ m, some ownMetrics = some m →
    m.Listed ((Site.empty 2).run beforeReplay).guests := by
  rintro m ⟨⟩
  unfold SelfMetrics.Listed
  decide +kernel

theorem openingReplay_birth :
    openingReplay.site.birth (openingReplay.env 0) (.alloc 0 openingReplay.engine.zoneSpec) =
      some (openingReplay.engine.zoneSpec, .attached 0 ⟨1, 1⟩) :=
  Site.birth_alloc (toOption_some (by decide +kernel))

def replaying : List Cue :=
  [.wake 0, .turn, .act 0 (.operate 0 (.update false)), .turn, .act 0 (.operate 0 (.update true)),
    .turn, .turn, .act 0 (.operate 0 (.update false))]

end Telemetry

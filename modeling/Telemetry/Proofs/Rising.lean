import Telemetry.Proofs.Replayed
import Telemetry.Proofs.Rounding

/-! Counters that rise are exported as they rise. If no cell of a column is less than one before it,
the count of the column never goes back, from row to row and from loop to loop; and what is exported
of it is the word of its raw value, read as a signed number. So it rises with the count as far as
the lower half of the words goes, and shows negative numbers in the upper half. -/
namespace Telemetry

open Register (Window)
open Replay (Engine)

namespace Dataset

def present (rows : List DataRow) (i : Nat) : List Binary64 :=
  rows.filterMap fun row => (row.cells[i]?).join

/-- The cells of a column are finite, and none is less than one before it. -/
structure Rising (d : Dataset) (i : Nat) : Prop where
  finite : ∀ cell ∈ present d.rows i, ∃ a, cell.value? = some a
  order : (present d.rows i).Pairwise fun x y =>
    ∀ a b, x.value? = some a → y.value? = some b → a ≤ b

/-- What a counter has come to after so many loops and rows. -/
def counted (d : Dataset) (i k p : Nat) : Nat := k * d.total i + d.part p i

variable {d : Dataset} {i p : Nat}

theorem lastWord_present (rows : List DataRow) (i : Nat) :
    lastWord rows i = (((present rows i).getLast?).map Binary64.toWord).getD 0 := by
  rw [lastWord, present, List.getLast?_filterMap]
  rfl

theorem part_succ (rising : d.Rising i) (p : Nat) : d.part p i ≤ d.part (p + 1) i := by
  cases there : d.rows[p]? with
  | none =>
    rw [part, part, List.take_add_one, there, Option.toList_none, List.append_nil]
  | some row =>
    have split : present d.rows i =
        present (d.rows.take p) i ++ present [row] i ++ present (d.rows.drop (p + 1)) i := by
      rw [present, present, present, present, ← List.filterMap_append, ← List.filterMap_append,
        ← take_next there, List.take_append_drop]
    rw [part, part, take_next there, lastWord_snoc]
    cases cell : (row.cells[i]?).join with
    | none => exact Nat.le_refl _
    | some y =>
      have own : present [row] i = [y] := by simp [present, cell]
      rw [own] at split
      -- the last cell before the row is one of those that the new one follows
      rw [lastWord_present]
      cases before : (present (d.rows.take p) i).getLast? with
      | none => exact Nat.zero_le _
      | some x =>
        have inside := List.mem_of_getLast? before
        have order := rising.order
        rw [split] at order
        have follows := (List.pairwise_append.mp (List.pairwise_append.mp order).1).2.2 x inside y
          (List.mem_singleton_self y)
        obtain ⟨a, first⟩ := rising.finite x (by simp [split, inside])
        obtain ⟨b, second⟩ := rising.finite y (by simp [split])
        exact Binary64.toWord_mono first second (follows a b first second)

end Dataset

namespace Replay.Engine

variable {e f : Engine} {s t : Scene} {k i : Nat}

theorem Turns.counted (turns : e.Turns s f t) (whole : e.position ≤ e.dataset.rows.length)
    (rising : e.dataset.Rising i) :
    e.dataset.counted i k e.position ≤
      e.dataset.counted i (if e.restarts then k + 1 else k) f.position := by
  rcases turns.advances with ⟨same, stays⟩ | ⟨next, stays⟩ | ⟨first, again⟩
  · rw [same, stays]
    exact Nat.le_refl _
  · rw [next, stays]
    exact Nat.add_le_add_left (Dataset.part_succ rising _) _
  · obtain ⟨-, -, behind, -⟩ := restarts_iff.mp again
    have last := Nat.le_antisymm whole (List.getElem?_eq_none_iff.mp behind)
    rw [first, again, last, Dataset.counted, Dataset.counted, Dataset.part_whole, if_pos rfl,
      Nat.succ_mul]
    exact Nat.le_add_right _ _

end Replay.Engine

/-! ### Along a run -/

namespace Sight

/-- What a counter had come to at the last of these passes, 0 if there was none. -/
def counted (d : Dataset) (i : Nat) (seen : List Sight) : Nat :=
  (seen.getLast?.map fun v => d.counted i v.loops v.position).getD 0

theorem clears_nil {seen : List Sight} (none : ∀ v ∈ seen, v.pass.clear = false) :
    clears seen = [] :=
  List.filter_eq_nil_iff.mpr fun v member => by simp [none v member]

end Sight

namespace Theatre

variable {count : Nat} {first : Engine} {s : Theatre} {i : Nat}

def counted (s : Theatre) (i : Nat) : Nat := s.engine.dataset.counted i s.loops s.engine.position

theorem Sound.counted_step (h : s.Sound count first) (rising : first.dataset.Rising i)
    (cue : Cue) : s.counted i ≤ (s.step cue).counted i := by
  cases cue with
  | wake now =>
    simp only [Theatre.step, Replay.awaken]
    split <;> exact Nat.le_refl _
  | turn =>
    have turns := s.engine.turn_turns s.scene
    have rows : (s.engine.turn s.scene).1.dataset = s.engine.dataset := turns.kept.dataset
    have grows := turns.counted (k := s.loops) h.holds.position (h.kept.dataset.symm ▸ rising)
    change _ ≤ (s.engine.turn s.scene).1.dataset.counted i _ _
    rw [rows]
    exact grows
  | device window contents =>
    simp only [Theatre.step]
    split <;> exact Nat.le_refl _
  | halt | act now action => exact Nat.le_refl _

theorem Sound.counted_run (h : s.Sound count first) (table : first.dataset.Tabular)
    (fits : Engine.windowSize first.dataset < 2 ^ 64) (rising : first.dataset.Rising i)
    (cues : List Cue) : s.counted i ≤ (s.run cues).counted i := by
  induction cues generalizing s with
  | nil => exact Nat.le_refl _
  | cons cue rest ih =>
    exact (h.counted_step rising cue).trans (ih (h.step table fits cue))

theorem Sound.counted_sights (h : s.Sound count first) (table : first.dataset.Tabular)
    (fits : Engine.windowSize first.dataset < 2 ^ 64) (rising : first.dataset.Rising i)
    {cues : List Cue} {place last : Place} {seen : List Sight}
    (followed : s.follow cues place = some (last, seen)) : ∀ v ∈ seen,
      s.counted i ≤ first.dataset.counted i v.loops v.position ∧
        first.dataset.counted i v.loops v.position ≤ (s.run cues).counted i := by
  induction cues generalizing s place seen with
  | nil =>
    cases followed
    exact fun v member => by cases member
  | cons cue rest ih =>
    obtain ⟨place', taken, later⟩ := Option.bind_eq_some_iff.mp followed
    obtain ⟨⟨_, others⟩, whole, same⟩ := Option.map_eq_some_iff.mp later
    cases same
    have after := h.step table fits cue
    intro v member
    rcases List.mem_append.mp member with here | there
    · have now : first.dataset.counted i v.loops v.position = s.counted i := by
        rw [counted, h.kept.dataset]
        cases cue with
        | act now action =>
          obtain ⟨p, -, rfl⟩ := List.mem_map.mp here
          rfl
        | _ => cases here
      rw [now]
      exact ⟨Nat.le_refl _, h.counted_run table fits rising (cue :: rest)⟩
    · obtain ⟨low, high⟩ := ih after whole v there
      exact ⟨(h.counted_step rising cue).trans low, high⟩

theorem follow_append {cues later : List Cue} {place between last : Place} {seen more : List Sight}
    (first : s.follow cues place = some (between, seen))
    (second : (s.run cues).follow later between = some (last, more)) :
    s.follow (cues ++ later) place = some (last, seen ++ more) := by
  induction cues generalizing s place seen with
  | nil =>
    cases first
    exact second
  | cons cue rest ih =>
    obtain ⟨place', taken, others⟩ := Option.bind_eq_some_iff.mp first
    obtain ⟨⟨_, own⟩, whole, same⟩ := Option.map_eq_some_iff.mp others
    cases same
    simp only [List.cons_append, follow, taken, Option.bind_some, ih whole second, Option.map_some,
      List.append_assoc]

theorem Sound.counted_mono (h : s.Sound count first) (table : first.dataset.Tabular)
    (fits : Engine.windowSize first.dataset < 2 ^ 64) (rising : first.dataset.Rising i)
    {cues later : List Cue} {place between last : Place} {seen more : List Sight}
    (followed : s.follow cues place = some (between, seen))
    (further : (s.run cues).follow later between = some (last, more)) :
    Sight.counted first.dataset i seen ≤ Sight.counted first.dataset i (seen ++ more) := by
  cases end_ : more.getLast? with
  | none => rw [List.getLast?_eq_none_iff.mp end_, List.append_nil]
  | some w =>
    have behind : Sight.counted first.dataset i (seen ++ more)
        = first.dataset.counted i w.loops w.position := by
      rw [Sight.counted, List.getLast?_append, end_]
      rfl
    rw [behind]
    cases start : seen.getLast? with
    | none =>
      rw [Sight.counted, start]
      exact Nat.zero_le _
    | some v =>
      rw [Sight.counted, start]
      have before := (h.counted_sights table fits rising followed v (List.mem_of_getLast? start)).2
      have after := ((h.run table fits cues).counted_sights table fits rising further w
        (List.mem_of_getLast? end_)).1
      exact before.trans after

theorem Sound.run_everywhere {P : Bool → Zone StockDriver → Prop} (h : s.Sound count first)
    (lasting : Zone.Lasting (fun _ => True) P) (table : first.dataset.Tabular)
    (fits : Engine.windowSize first.dataset < 2 ^ 64) (all : s.site.Everywhere P)
    (cues : List Cue) : (s.run cues).site.Everywhere P := by
  induction cues generalizing s with
  | nil => exact all
  | cons cue rest ih =>
    refine ih (h.step table fits cue) ?_
    cases cue with
    | act now action => exact h.coherent.perform_everywhere lasting all fun _ _ => trivial
    | device window contents => exact s.step_device_site window contents ▸ all
    | wake | turn | halt => exact ⟨all.held, all.loose⟩

end Theatre

/-! ### What is exported -/

def Zone.Sized {δ : Type} (z : Zone δ) : Prop :=
  ∀ b ∈ z.blocks, ∀ m ∈ b.metrics, m.elements.length = m.spec.elementCount

namespace Zone

variable {δ : Type} [Driver δ]

theorem Carried.sized {z w : Zone δ} (carried : z.Carried w) (sized : z.Sized) : w.Sized := by
  intro c inside n member
  obtain ⟨b, there, same⟩ := forall₂_mem carried.blocks c inside
  have metrics : c.metrics.map Metric.plain = b.metrics.map Metric.plain :=
    congrArg (·.metrics) same.content
  have plain : n.plain ∈ b.metrics.map Metric.plain := metrics ▸ List.mem_map_of_mem member
  obtain ⟨m, own, alike⟩ := List.mem_map.mp plain
  have spec : m.spec = n.spec := congrArg (·.spec) alike
  have length : m.elements.length = n.elements.length := by
    simpa [Metric.plain] using congrArg (·.elements.length) alike
  rw [← spec, ← length]
  exact sized b there m own

theorem sized_lasting (made : ZoneSpec δ → Prop) : Lasting made fun _ z => z.Sized where
  allocated := by
    intro spec z _ done b inside m member
    obtain ⟨blocks, each, rfl⟩ := Zone.alloc_ok done
    obtain ⟨bs, -, made⟩ := forall₂_mem each b inside
    obtain ⟨metrics, all, rfl⟩ := Block.alloc_ok made
    obtain ⟨ms, -, metric⟩ := forall₂_mem all m member
    rw [Metric.alloc_ok metric]
    exact List.length_replicate
  poisoned := fun h => h
  attached := fun sized attaches => attaches.carried.sized sized
  left := fun {z} sized => z.left_carried.sized sized
  treated := by
    intro env treatment sound z w s t fault sized done c inside n member
    obtain ⟨-, -, blocks⟩ := Treatment.run_each done
    obtain ⟨b, there, rfl | ⟨clear, u, f, v, passed, -⟩⟩ := forall₂_mem blocks c inside
    · exact sized c there n member
    · have sizes := (Block.pass_sizes passed).2
      have own : (n.spec, n.elements.length) ∈ b.metrics.map fun m => (m.spec, m.elements.length) :=
        sizes ▸ List.mem_map_of_mem (f := fun m => (m.spec, m.elements.length)) member
      obtain ⟨m, known, same⟩ := List.mem_map.mp own
      obtain ⟨spec, length⟩ := Prod.mk.inj same
      rw [← spec, ← length]
      exact sized b there m known

def Exports (store : Series.Store) (i : Nat) (z : Zone δ) (x : Binary64) : Prop :=
  ∃ b m e ref, z.blocks[0]? = some b ∧ b.metrics[i]? = some m ∧ m.elements[0]? = some e ∧
    e.series = some ref ∧ store.value? ref = some x

end Zone

namespace Replay.Engine

variable {first : Engine} {column : Column} {i : Nat}

theorem fixedPoint_counter (counter : column.type = .counter) (raw : UInt64) :
    fixedPoint (metricSpec column i) raw = (Binary64.ofSignedWord raw).div (.ofNat 1) := by
  simp only [fixedPoint, metricSpec, counter]
  rfl

theorem fixedPoint_zero : (Binary64.ofSignedWord 0).div (.ofNat 1) = .ofWord 0 := by
  decide +kernel

theorem exports {s : Site StockDriver} {count j : Nat} {handle : ZoneHandle} {e : Element}
    {z : Zone StockDriver} (coherent : s.Coherent count)
    (converted : s.Everywhere (Zone.Converted fun _ => True))
    (sizes : s.Everywhere fun _ z => z.Sized)
    (reached : s.zone? (.attached j handle) = some z)
    (placed : Element.At first.blockSpec (metricSpec column i) 0 i 0 z e)
    (counter : column.type = .counter) :
    z.Exports s.shared.store i ((Binary64.ofSignedWord e.value).div (.ofNat 1)) := by
  obtain ⟨b, m, block, metric, element, -, -, led, spec⟩ := placed
  obtain ⟨d, found, inside⟩ := Option.bind_eq_some_iff.mp reached
  obtain ⟨n, there⟩ := placed_of_find? (Domain.zone?_some.mp inside).2
  have own : z ∈ d.zones := List.mem_of_getElem? there.2
  have holder : d ∈ s.holders := Site.mem_holders.mpr (.inl ⟨j, found⟩)
  have inner := List.mem_of_getElem? block
  have member := List.mem_of_getElem? metric
  have only : m.elements = [e] := by
    have one : m.elements.length = 1 := by
      rw [sizes.held d holder z own b inner m member, spec]
      rfl
    obtain ⟨x, same⟩ := List.length_eq_one_iff.mp one
    rw [same] at element ⊢
    cases element
    rfl
  have hooked : e.converted = (Binary64.ofSignedWord e.value).div (.ofNat 1) := by
    obtain ⟨zs, -, -, blocks⟩ := converted.held d holder z own
    obtain ⟨bs, -, made⟩ := forall₂_mem blocks b inner
    have driver := StockDriver.fixedPoint_led made.driver (StockDriver.fixedPoint_leads led)
    rcases made.elements m member e (List.mem_of_getElem? element) with known | ⟨-, initial⟩
    · rw [known fixedPoint (driver ▸ StockDriver.fixedPoint_converts), spec,
        fixedPoint_counter counter]
    · have value : e.value = 0 := by rw [initial.value, spec]; rfl
      have cast : e.converted = .ofWord 0 := by rw [initial.converted, spec]; rfl
      rw [value, cast, fixedPoint_zero]
  obtain ⟨k, -, shows⟩ := forall₂_mem
    (coherent.mirror.shown _ (Site.mem_mounts holder own inner)).vectors m member
  have reads := shows.reads (List.mem_of_getElem? element)
  obtain ⟨ref, bound, shown⟩ := reads.exported ⟨[], [], only, List.forall_mem_nil _⟩
  exact ⟨b, m, e, ref, block, metric, element, bound, hooked ▸ shown⟩

end Replay.Engine

/-- What has become of a counter that was never cleared, in a state in which it is attached. -/
theorem Theatre.Sound.exported {count : Nat} {first : Engine} {s : Theatre}
    (h : s.Sound count first) (table : first.dataset.Tabular)
    (fits : Engine.windowSize first.dataset < 2 ^ 64)
    (converted : s.site.Everywhere (Zone.Converted fun _ => True))
    (sizes : s.site.Everywhere fun _ z => z.Sized) {now j : Nat} {action : Action StockDriver}
    {later : List Cue} {place : Place} {handle : ZoneHandle} {seen : List Sight}
    {z : Zone StockDriver} {i : Nat} {column : Column}
    (born : s.site.birth (s.env now) action = some (first.zoneSpec, place))
    (followed : (s.step (.act now action)).follow later place = some (.attached j handle, seen))
    (reached : ((s.step (.act now action)).run later).site.zone? (.attached j handle) = some z)
    (there : first.dataset.columns[i]? = some column) (counter : column.type = .counter)
    (unclear : ∀ v ∈ seen, v.pass.clear = false) :
    z.Exports ((s.step (.act now action)).run later).site.shared.store i
      ((Binary64.ofSignedWord (.ofNat (Sight.counted first.dataset i seen))).div (.ofNat 1)) := by
  have ends (cues : List Cue) : (s.run cues).Sound count first := h.run table fits cues
  have state : (s.step (.act now action)).run later = s.run (.act now action :: later) := rfl
  obtain ⟨e, placed, follows⟩ := h.follows table fits born followed reached there counter
  have value : e.value = .ofNat (Sight.counted first.dataset i seen) := by
    rw [follows.value, Sight.gained, Sight.clears_nil unclear]
    change Sight.latest _ seen - 0 = _
    rw [UInt64.sub_zero, Sight.latest, Sight.counted]
    cases seen.getLast? with
    | none => rfl
    | some v => exact Dataset.register_counter counter
  rw [← value]
  rw [state] at reached ⊢
  exact Engine.exports (ends _).coherent
    (h.run_everywhere (Zone.converted_lasting _) table fits converted _)
    (h.run_everywhere (Zone.sized_lasting _) table fits sizes _) reached placed counter

/-- **Counters of a replay are exported as signed words.** Take a column whose cells never go back,
and follow its counter from the allocation through any two states in which it is attached, with no
clear pass on the way. The count at the last pass does not go back; as long as it is less than a
word can hold, the exported value is that of the count, read in two's complement. So the value is
not negative exactly as long as the count keeps to the lower half of the words, and does not go back
either as long as the count keeps to one half. -/
theorem replayed_counter_exported (count : Nat) (before : List (Surroundings × Action StockDriver))
    (windows : List Window) (bytes : List UInt8) (d : Dataset) (settings : Replay.Settings)
    (metrics : Option SelfMetrics) (accepted : d.Accepted bytes)
    (listed : ∀ m, metrics = some m → m.Listed ((Site.empty count).run before).guests)
    (i : Nat) (column : Column) (there : d.columns[i]? = some column)
    (counter : column.type = .counter) (rising : d.Rising i) :
    let opening := Theatre.opening windows ((Site.empty count).run before) d settings metrics
    ∀ earlier now action mid later place j handle j' handle' seen more z w,
      let s := opening.run earlier
      let middle := (s.step (.act now action)).run mid
      let final := middle.run later
      s.site.birth (s.env now) action = some (opening.engine.zoneSpec, place) →
      (s.step (.act now action)).follow mid place = some (.attached j handle, seen) →
      middle.follow later (.attached j handle) = some (.attached j' handle', more) →
      middle.site.zone? (.attached j handle) = some z →
      final.site.zone? (.attached j' handle') = some w →
      (∀ v ∈ seen ++ more, v.pass.clear = false) →
      Sight.counted d i (seen ++ more) < 2 ^ 64 →
      ∃ x y a b, z.Exports middle.site.shared.store i x ∧ w.Exports final.site.shared.store i y ∧
        x.value? = some a ∧ y.value? = some b ∧
        Sight.counted d i seen ≤ Sight.counted d i (seen ++ more) ∧
        y.value? = (Binary64.ofSignedWord (.ofNat (Sight.counted d i (seen ++ more)))).value? ∧
        (0 ≤ b ↔ Sight.counted d i (seen ++ more) < 2 ^ 63) ∧
        (Sight.counted d i (seen ++ more) < 2 ^ 63 ∨ 2 ^ 63 ≤ Sight.counted d i seen → a ≤ b) := by
  intro opening earlier now action mid later place j handle j' handle' seen more z w s middle final
    born followed further reached again unclear small
  have table := Dataset.ofBytes?_tabular accepted.read
  have start : opening.Sound count opening.engine :=
    Theatre.opening_sound (Site.run_coherent count before) (Site.run_numbered count before) listed
      table windows settings
  have sound : s.Sound count opening.engine := start.run table accepted.fits earlier
  have converted : s.site.Everywhere (Zone.Converted fun _ => True) :=
    start.run_everywhere (Zone.converted_lasting _) table accepted.fits
      (Site.run_everywhere (Zone.converted_lasting _) count before fun _ _ _ _ => trivial) earlier
  have sizes : s.site.Everywhere fun _ z => z.Sized :=
    start.run_everywhere (Zone.sized_lasting _) table accepted.fits
      (Site.run_everywhere (Zone.sized_lasting _) count before fun _ _ _ _ => trivial) earlier
  have whole : final = (s.step (.act now action)).run (mid ++ later) := List.foldl_append.symm
  have shown := sound.exported table accepted.fits converted sizes born followed reached there
    counter fun v member => unclear v (List.mem_append_left _ member)
  have shown' := sound.exported table accepted.fits converted sizes born
    (Theatre.follow_append followed further) (whole ▸ again) there counter unclear
  have grows : Sight.counted d i seen ≤ Sight.counted d i (seen ++ more) :=
    (sound.step table accepted.fits (.act now action)).counted_mono table accepted.fits rising
      followed further
  have word {n : Nat} (below : n < 2 ^ 64) : (UInt64.ofNat n).toNat = n :=
    UInt64.toNat_ofNat_of_lt' below
  have first := word (grows.trans_lt small)
  have last := word small
  have known (w : UInt64) := (Binary64.value_div_one _).trans (Binary64.value_ofSignedWord w)
  refine ⟨_, _, Binary64.reading (.ofNat (Sight.counted d i seen)),
    Binary64.reading (.ofNat (Sight.counted d i (seen ++ more))), shown, whole ▸ shown',
    known _, known _, grows, Binary64.value_div_one _, ?_, ?_⟩
  · rw [Binary64.reading_nonneg_iff, last]
  · intro half
    apply Binary64.reading_mono
    · rwa [first, last]
    · rwa [first, last]

theorem Dataset.Rising.single {d : Dataset} {i : Nat} {cell : Binary64} {a : ℚ}
    (only : present d.rows i = [cell]) (finite : cell.value? = some a) : d.Rising i := by
  constructor
  · rw [only]
    intro x member
    cases List.mem_singleton.mp member
    exact ⟨a, finite⟩
  · rw [only]
    exact List.pairwise_singleton _ _

theorem halfEmpty_rising : halfEmptyData.Rising 0 := by
  have only : Dataset.present halfEmptyData.rows 0 = [.ofNat 5] := by decide +kernel
  exact .single only (Binary64.value_ofNat (by decide))

def firstPass : List Cue := [.wake 0, .turn, .act 0 (.operate 0 (.update false))]

def nextPass : List Cue := [.turn, .turn, .turn, .act 0 (.operate 0 (.update false))]

theorem replayed_counter_exported_looped :
    let born := openingReplay.step allocReplay
    ∃ (seen more : List Sight) (z w : Zone StockDriver) (x y : Binary64) (a b : ℚ),
      born.follow firstPass (.attached 0 ⟨1, 1⟩) = some (.attached 0 ⟨1, 1⟩, seen) ∧
      (born.run firstPass).follow nextPass (.attached 0 ⟨1, 1⟩) =
        some (.attached 0 ⟨1, 1⟩, more) ∧
      Sight.counted halfEmptyData 0 seen = 5 ∧ Sight.counted halfEmptyData 0 (seen ++ more) = 10 ∧
      z.Exports (born.run firstPass).site.shared.store 0 x ∧
      w.Exports ((born.run firstPass).run nextPass).site.shared.store 0 y ∧
      x.value? = some a ∧ y.value? = some b ∧ 0 ≤ b ∧ a ≤ b := by
  intro born
  obtain ⟨z, reached⟩ : ∃ z, (born.run firstPass).site.zone? (.attached 0 ⟨1, 1⟩) = some z :=
    Option.isSome_iff_exists.mp (by decide +kernel)
  obtain ⟨w, again⟩ : ∃ w, ((born.run firstPass).run nextPass).site.zone?
      (.attached 0 ⟨1, 1⟩) = some w := Option.isSome_iff_exists.mp (by decide +kernel)
  obtain ⟨x, y, a, b, shown, shown', known, known', -, -, sign, order⟩ :=
    replayed_counter_exported 2 beforeReplay [] halfEmpty halfEmptyData loopingSettings
      (some ownMetrics) halfEmpty_accepted ownMetrics_listed 0 ⟨"c_total", .counter⟩ rfl rfl
      halfEmpty_rising [] 0 (.alloc 0 openingReplay.engine.zoneSpec) firstPass nextPass
      (.attached 0 ⟨1, 1⟩) 0 ⟨1, 1⟩ 0 ⟨1, 1⟩ _ _ z w openingReplay_birth rfl rfl reached again
      (by decide +kernel) (by decide +kernel)
  refine ⟨_, _, z, w, x, y, a, b, rfl, rfl, ?_, ?_, shown, shown', known, known', ?_, ?_⟩
  · decide +kernel
  · decide +kernel
  · exact sign.mpr (by decide +kernel)
  · exact order (.inl (by decide +kernel))

def large : List UInt8 := "timestamp_ms,c_total\n0,9223372036854775808\n".toUTF8.toList

def largeData : Dataset := ⟨[⟨"c_total", .counter⟩], [⟨0, [some (.ofNat (2 ^ 63))]⟩]⟩

/-- A count of two to the sixty-third is exported as a negative number. -/
theorem replayed_counter_negative :
    let s := (Theatre.opening [] ((Site.empty 2).run beforeReplay) largeData loopingSettings
      (some ownMetrics)).run
        [.act 0 (.alloc 0 ⟨"replay", [⟨"dataset", some 0,
          [Engine.metricSpec ⟨"c_total", .counter⟩ 0], 0, some .fixedPoint⟩]⟩),
          .wake 0, .turn, .act 0 (.operate 0 (.update false))]
    largeData.Accepted large ∧ largeData.Rising 0 ∧ s.counted 0 = 2 ^ 63 ∧
      ∃ x a, s.site.shared.store.value? ⟨5, .ofJoined []⟩ = some x ∧ x.value? = some a ∧ a < 0 := by
  intro s
  have only : Dataset.present largeData.rows 0 = [.ofNat (2 ^ 63)] := by decide +kernel
  have finite : (Binary64.ofNat (2 ^ 63)).value? = _ :=
    Binary64.value_nearest false Nat.one_pos (Binary64.rounded_word_fits (by decide))
  have shown : s.site.shared.store.value? ⟨5, .ofJoined []⟩ =
      some (.ofSignedWord (.ofNat (2 ^ 63))) := by decide +kernel
  refine ⟨⟨toOption_some (by decide +kernel), by decide⟩, .single only finite, ?_, _, _, shown,
    Binary64.value_ofSignedWord _, ?_⟩
  · decide +kernel
  · exact not_le.mp fun sign => absurd ((Binary64.reading_nonneg_iff _).mp sign) (by decide)

end Telemetry

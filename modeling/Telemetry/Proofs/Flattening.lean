import Telemetry.Proofs.Handles
import Telemetry.Proofs.Protocol

/-! All readers agree. Whether values are counted, copied into a buffer of any size, taken as a
snapshot or visited one metric at a time, it is always the same sequence, cut off where the reader
stops: that of the domain's zones in the order of their attachment, block by block, metric by metric
and element by element. -/
namespace Telemetry

variable {δ : Type}

/-! ### Buffers -/

/-- What a reader with a buffer gets of a sequence: as many values as there are or as fit, and the
rest of the buffer as it was. -/
def copied (values out : List MetricValue) : List MetricValue × List MetricValue :=
  (values.take (min out.length values.length), out.drop (min out.length values.length))

theorem copied_nil (values : List MetricValue) : copied values [] = ([], []) := by
  simp [copied]

theorem copied_append (xs ys out : List MetricValue) :
    copied (xs ++ ys) out =
      ((copied xs out).1 ++ (copied ys (copied xs out).2).1, (copied ys (copied xs out).2).2) := by
  rcases Nat.le_total out.length xs.length with full | room
  · have both : out.length ≤ (xs ++ ys).length := by
      rw [List.length_append]
      omega
    simp only [copied, Nat.min_eq_left full, Nat.min_eq_left both, List.drop_length,
      List.length_nil, Nat.zero_min, List.take_zero, List.drop_nil, List.append_nil,
      List.take_append_of_le_length full]
  · have cut : min out.length (xs ++ ys).length =
        xs.length + min (out.length - xs.length) ys.length := by
      rw [List.length_append]
      omega
    simp only [copied, Nat.min_eq_right room, cut, List.length_drop, List.take_length,
      List.take_length_add_append, List.drop_drop]

theorem Block.fill_eq (b : Block δ) (out : List MetricValue) :
    b.fill out = copied b.values out := by
  simp only [fill, copied, List.length_take, Prod.mk.injEq, and_true]
  exact List.take_eq_take_iff.mpr (by omega)

theorem Zone.fillBlocks_eq (blocks : List (Block δ)) (out : List MetricValue) :
    fillBlocks blocks out = copied (blocks.flatMap Block.values) out := by
  induction blocks generalizing out with
  | nil => simp [fillBlocks, copied]
  | cons b rest ih =>
    rw [List.flatMap_cons, copied_append]
    simp only [fillBlocks, b.fill_eq]
    split
    · rename_i full
      rw [List.isEmpty_iff.mp full, copied_nil, List.append_nil, ← List.isEmpty_iff.mp full]
    · rw [ih]

theorem Zone.fill_eq (z : Zone δ) (out : List MetricValue) : z.fill out = copied z.values out :=
  fillBlocks_eq z.blocks out

theorem Domain.fillZones_eq (zones : List (Zone δ)) (out : List MetricValue) :
    fillZones zones out = copied (zones.flatMap Zone.values) out := by
  induction zones generalizing out with
  | nil => simp [fillZones, copied]
  | cons z rest ih =>
    simp only [fillZones, z.fill_eq]
    split
    · rename_i full
      rw [List.isEmpty_iff.mp full, copied_nil]
    · rw [ih, List.flatMap_cons, copied_append]

/-! ### Walks -/

theorem Zone.visited_values (domain : String) (z : Zone δ) :
    (z.visits domain).flatMap (·.metric.values) = z.values := by
  simp only [visits, values, List.flatMap_assoc, List.flatMap_map]
  rfl

def noting {σ ε : Type} (callback : Visit → σ → Option ε × σ) (v : Visit)
    (state : List Visit × σ) : Option ε × List Visit × σ :=
  let (error, s) := callback v state.2
  (error, state.1 ++ [v], s)

/-- How a walk ends: after all visits, or with the error of the first callback that fails. -/
structure Walked {σ ε : Type} (visits : List Visit) (callback : Visit → σ → Option ε × σ)
    (start : σ) (made : List Visit) (error : Option ε) (last : σ) : Prop where
  whole : error = none → made = visits
  failed : ∀ e, error = some e → ∃ j v t, visits[j]? = some v ∧ made = visits.take (j + 1) ∧
    walk callback (visits.take j) start = (none, t) ∧ callback v t = (some e, last)

theorem walk_walked {σ ε : Type} (callback : Visit → σ → Option ε × σ) (visits before : List Visit)
    (start : σ) :
    ∃ made error last, Walked visits callback start made error last ∧
      walk callback visits start = (error, last) ∧
      walk (noting callback) visits (before, start) = (error, before ++ made, last) := by
  induction visits generalizing before start with
  | nil => exact ⟨[], none, start, ⟨fun _ => rfl, by simp⟩, rfl, by simp [walk]⟩
  | cons v rest ih =>
    cases called : callback v start with | mk failure t =>
    cases failure with
    | some e =>
      refine ⟨[v], some e, t, ⟨by simp, ?_⟩, by simp [walk, called], by simp [walk, noting, called]⟩
      intro _ same
      cases same
      exact ⟨0, v, start, rfl, rfl, rfl, called⟩
    | none =>
      obtain ⟨made, error, last, ended, walked, noted⟩ := ih (before ++ [v]) t
      refine ⟨v :: made, error, last, ⟨fun none => by rw [ended.whole none], ?_⟩, ?_, ?_⟩
      · intro e failed
        obtain ⟨j, w, u, there, calls, good, bad⟩ := ended.failed e failed
        refine ⟨j + 1, w, u, there, by rw [calls]; rfl, ?_, bad⟩
        simp only [List.take_succ_cons, walk, called, good]
      · simp only [walk, called, walked]
      · simp only [walk, noting, called, noted, List.append_assoc, List.singleton_append]

/-! ### Counts -/

theorem Block.length_values (b : Block δ) : b.values.length = b.valueCount := by
  simp [values, valueCount, List.length_flatMap, Metric.values]

variable [Driver δ] {env : Surroundings} {clear : Bool}

theorem Block.pass_length {b c : Block δ} {s t : Shared} {fault : Option Fault}
    (done : b.pass env clear s = (fault, c, t)) : c.values.length = b.values.length := by
  have same : c.metrics.map (·.elements.length) = b.metrics.map (·.elements.length) := by
    simpa [Function.comp_def] using congrArg (List.map Prod.snd) (pass_sizes done).2
  rw [length_values, length_values, valueCount, valueCount, same]

/-- The number of values that was counted at allocation is right for good. -/
theorem Zone.counted_lasting (made : ZoneSpec δ → Prop) :
    Lasting made fun _ z => z.valueCount = z.values.length where
  allocated := by
    intro spec z _ done
    obtain ⟨blocks, -, rfl⟩ := Zone.alloc_ok done
    simp only [values, List.length_flatMap]
    exact congrArg List.sum (List.map_congr_left fun b _ => b.length_values.symm)
  poisoned := fun h => h
  attached := by
    intro env domain r handle z w s u v t ps counted attaches
    rw [attaches.carried.values, ← counted, attaches.zone]
  left := by
    intro z counted
    rw [z.left_carried.values, ← counted]
    rfl
  treated := by
    intro env treatment sound z w s t fault counted done
    obtain ⟨-, same, blocks⟩ := Treatment.run_each done
    have lengths : z.blocks.map (·.values.length) = w.blocks.map (·.values.length) := by
      refine forall₂_map_eq (blocks.imp ?_)
      rintro b c (rfl | ⟨clear, u, f, v, passed, -⟩)
      · rfl
      · exact (Block.pass_length passed).symm
    rw [same, counted, values, values, List.length_flatMap, List.length_flatMap, lengths]

namespace Domain

def Counted (d : Domain δ) : Prop := d.valueCount = (d.zones.map (·.valueCount)).sum

theorem counted_kept : Kept (Counted (δ := δ)) where
  created := fun _ _ _ _ => rfl
  becomes := by
    intro env effect d e s t counted becomes
    have same : d.zones.map (·.valueCount) = e.zones.map (·.valueCount) := by
      rw [becomes.zones]
      refine forall₂_map_eq ((effect.run_each d.zones s).imp ?_)
      rintro z w (rfl | ⟨treatment, u, f, v, done, -⟩)
      · rfl
      · exact (Treatment.run_each done).2.1.symm
    rw [Counted, becomes.frame.valueCount, counted, same]
  poisoned := fun h => h
  attached := by
    intro d w counted _
    simp only [Counted, List.map_append, List.sum_append]
    rw [show d.valueCount = _ from counted]
    simp
  detached := by
    intro d n z counted there
    rw [Counted, show d.valueCount = _ from counted, sum_split (·.valueCount) there]
    exact Nat.add_sub_cancel_left ..

variable {d : Domain δ} {s : Shared} {z : Zone δ}

def answering (d : Domain δ) (s : Shared) (a : α) : Done δ α :=
  ⟨if d.treePoisoned then .error (.fault (.poisonedDomain d.name)) else .ok a, d, s⟩

omit [Driver δ] in
theorem reading_answering (d : Domain δ) (s : Shared) (view : Domain δ → α) :
    d.reading s view = d.answering s (view d) := by
  unfold reading locked answering
  cases d.treePoisoned <;> rfl

omit [Driver δ] in
theorem InOrder.kept?_mem (h : d.InOrder) (member : z ∈ d.zones) :
    ∃ handle, z.handle = some handle ∧ d.kept? handle = some z := by
  obtain ⟨n, there⟩ := List.mem_iff_getElem?.mp member
  have ⟨ns, handles, _⟩ := h
  have known : z.handle ∈ d.zones.map (·.handle) := List.mem_map_of_mem member
  rw [handles] at known
  obtain ⟨k, -, same⟩ := List.mem_map.mp known
  refine ⟨⟨d.id, k⟩, same.symm, ?_⟩
  cases found : d.kept? ⟨d.id, k⟩ with
  | none =>
    have absent := List.find?_eq_none.mp found z member
    simp [← same] at absent
  | some w =>
    obtain ⟨m, -, here⟩ := placed_of_find? found
    have alike := h.apart there here (same.symm.trans (kept?_handle found).symm)
    rw [← alike, there] at here
    exact here.symm

omit [Driver δ] in
theorem Numbered.readingZone (h : d.Numbered) {handle : ZoneHandle}
    (there : d.kept? handle = some z) (s : Shared) (view : Zone δ → α) :
    d.readingZone handle s view = d.answering s (view z) := by
  obtain ⟨n, -, reached⟩ := h.onZone there
  rw [Domain.readingZone, reached]
  exact d.reading_answering s fun _ => view z

end Domain

/-- **All readers agree**, in every domain that can be reached. Counts, copies into a buffer of any
size, snapshots and walks, of the domain and of each of its zones, are about one sequence; that of
the domain is that of its zones, one after the other, in the order of their attachment. A walk makes
all visits, or those up to the first call that fails, and ends with the error of that call. -/
theorem readers_agree (count : Nat) (steps : List (Surroundings × Action δ)) :
    let s : Site δ := (Site.empty count).run steps
    ∀ i d, s.domain? i = some d →
      let visits := d.zones.flatMap (Zone.visits d.name)
      let values := visits.flatMap (·.metric.values)
      d.numberOfValues s.shared = d.answering s.shared values.length ∧
      (d.zones.map (·.valueCount)).sum = values.length ∧
      (∀ z ∈ d.zones, z.valueCount ≤ d.valueCount) ∧
      (∀ out, d.getValues out s.shared = d.answering s.shared (copied values out)) ∧
      (∀ max, d.snapshot max s.shared = d.answering s.shared (values.take (min max values.length))) ∧
      (∀ (σ ε : Type) (callback : Visit → σ → Option ε × σ) (start : σ), ∃ made error last,
        Walked visits callback start made error last ∧
        d.forEachMetric callback start s.shared = d.answering s.shared (error, last) ∧
        d.forEachMetric (noting callback) ([], start) s.shared =
          d.answering s.shared (error, made, last)) ∧
      (∃ ns : List Nat, d.zones.map (·.handle) = ns.map (fun n => some ⟨d.id, n⟩) ∧
        ns.Pairwise (· < ·)) ∧
      values = d.zones.flatMap (fun z => (z.visits d.name).flatMap (·.metric.values)) ∧
      ∀ z ∈ d.zones, ∃ handle, z.handle = some handle ∧
        let own := z.visits d.name
        let values := own.flatMap (·.metric.values)
        d.readingZone handle s.shared (·.valueCount) = d.answering s.shared values.length ∧
        (∀ out, d.readingZone handle s.shared (·.fill out) =
          d.answering s.shared (copied values out)) ∧
        ∀ (σ ε : Type) (callback : Visit → σ → Option ε × σ) (start : σ), ∃ made error last,
          Walked own callback start made error last ∧
          d.forEachZoneMetric handle callback start s.shared =
            d.answering s.shared (error, last) ∧
          d.forEachZoneMetric handle (noting callback) ([], start) s.shared =
            d.answering s.shared (error, made, last) := by
  intro s i d found visits values
  have everywhere := Site.run_everywhere (Zone.counted_lasting fun _ => True) count steps
    fun _ _ _ _ => trivial
  have sizes : ∀ z ∈ d.zones, z.valueCount = z.values.length := everywhere.at_ found
  have total : d.Counted := Site.run_throughout Domain.counted_kept count steps i d found
  have ordered : d.InOrder := Site.run_throughout Domain.inOrder_kept count steps i d found
  have numbered : d.Numbered := Site.run_numbered count steps i d found
  have sequence : values = d.zones.flatMap Zone.values := by
    simp only [values, visits, List.flatMap_assoc, Zone.visited_values]
  have sum : (d.zones.map (·.valueCount)).sum = values.length := by
    rw [sequence, List.length_flatMap, List.map_congr_left sizes]
  have counted : d.valueCount = values.length := total.trans sum
  refine ⟨?_, sum, ?_, ?_, ?_, ?_, ?_, ?_, ?_⟩
  · rw [← counted]
    exact d.reading_answering s.shared _
  · intro z member
    obtain ⟨n, there⟩ := List.mem_iff_getElem?.mp member
    rw [show d.valueCount = _ from total, sum_split (·.valueCount) there]
    exact Nat.le_add_right _ _
  · intro out
    rw [sequence, ← Domain.fillZones_eq]
    exact d.reading_answering s.shared _
  · intro max
    rw [Domain.snapshot, d.reading_answering, Domain.fillZones_eq, ← sequence, counted]
    simp [copied]
  · intro σ ε callback start
    obtain ⟨made, error, last, ended, walked, noted⟩ := walk_walked callback visits [] start
    refine ⟨made, error, last, ended, ?_, ?_⟩
    · rw [← walked]
      exact d.reading_answering s.shared _
    · rw [← List.nil_append made, ← noted]
      exact d.reading_answering s.shared _
  · obtain ⟨ns, handles, sorted, -⟩ := ordered
    exact ⟨ns, handles, sorted⟩
  · exact List.flatMap_assoc
  · intro z member
    obtain ⟨handle, known, there⟩ := ordered.kept?_mem member
    refine ⟨handle, known, ?_, ?_, ?_⟩
    · rw [numbered.readingZone there, sizes z member, z.visited_values]
    · intro out
      rw [numbered.readingZone there, z.fill_eq, z.visited_values]
    · intro σ ε callback start
      obtain ⟨made, error, last, ended, walked, noted⟩ :=
        walk_walked callback (z.visits d.name) [] start
      refine ⟨made, error, last, ended, ?_, ?_⟩
      · rw [← walked]
        exact numbered.readingZone there s.shared _
      · rw [← List.nil_append made, ← noted]
        exact numbered.readingZone there s.shared _

end Telemetry

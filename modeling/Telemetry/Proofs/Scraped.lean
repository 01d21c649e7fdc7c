import Telemetry.Proofs.Carried
import Telemetry.Proofs.Describing
import Telemetry.Proofs.Registered

/-! What is scraped is what was sampled. In every site that can be reached, gathering a registry
yields for each metric of an attached zone one series per fingerprint of exported values, labelled as
its owners are named, with the value that the last element of that fingerprint holds. Unless two
tuples of values have one fingerprint, that is one series per tuple. -/
namespace Telemetry

open Series (Family Line Sample Store)

theorem Effect.run_disabled {δ : Type} [Driver δ] {env : Surroundings} {effect : Effect}
    {zones : List (Zone δ)} {z : Zone δ} (member : z ∈ zones) (off : z.enabled = false)
    (other : ∀ handle clear, effect ≠ .one handle (.enable clear)) (s : Shared) :
    z ∈ (effect.run env zones s).2.1 := by
  have skipped (clear : Bool) (t : Shared) : z.pass env clear t = (none, z, t) := by
    simp [Zone.pass, off]
  cases effect with
  | nothing => exact member
  | everywhere clear =>
    refine passOver_in_place (Zone.pass env clear) (fun zones _ => z ∈ zones) ?_ [] zones s member
    intro before a after t inside
    rw [List.mem_append, List.mem_cons] at inside ⊢
    rcases inside with inside | rfl | inside
    · exact .inl inside
    · exact .inr (.inl (by rw [skipped]))
    · exact .inr (.inr inside)
  | one handle treatment =>
    simp only [run]
    split
    · exact member
    · rename_i i y found
      obtain ⟨-, inside⟩ := found_at found
      obtain ⟨k, here⟩ := List.mem_iff_getElem?.mp member
      refine List.mem_iff_getElem?.mpr ⟨k, ?_⟩
      by_cases same : i = k
      · subst same
        cases inside.symm.trans here
        have kept : (treatment.run env z s).2.1 = z := by
          cases treatment with
          | pass clear => rw [Treatment.run, skipped]
          | enable clear => exact absurd rfl (other handle clear)
          | disable => rw [Treatment.run, Zone.disable, ← off]
        rw [kept, List.getElem?_set_self (List.getElem?_eq_some_iff.mp here).1]
      · rw [List.getElem?_set_ne same, here]

theorem Operation.effect_quiet {δ : Type} {operation : Operation}
    (quiet : ∀ handle, operation ≠ .enable handle) (d : Domain δ) (handle : ZoneHandle)
    (clear : Bool) : operation.effect d ≠ .one handle (.enable clear) := by
  intro same
  cases operation with
  | enable handle => exact quiet handle rfl
  | stop => cases same
  | _ =>
    simp only [effect, through] at same
    split at same <;> cases same

theorem mergeSort_eq_of_perm {xs ys : List (String × String)} (same : xs.Perm ys)
    (distinct : (xs.map (·.1)).Nodup) :
    xs.mergeSort (fun a b => a.1 ≤ b.1) = ys.mergeSort (fun a b => a.1 ≤ b.1) := by
  have sorted (zs : List (String × String)) :
      (zs.mergeSort fun a b => a.1 ≤ b.1).Pairwise fun a b => decide (a.1 ≤ b.1) = true := by
    apply List.pairwise_mergeSort
    · intro a b c
      simpa using String.le_trans
    · intro a b
      simpa using String.le_total a.1 b.1
  have left := List.mergeSort_perm xs fun a b => a.1 ≤ b.1
  have right := List.mergeSort_perm ys fun a b => a.1 ≤ b.1
  refine List.Perm.eq_of_pairwise ?_ (sorted xs) (sorted ys) (left.trans (same.trans right.symm))
  intro a b ha hb below above
  have names : a.1 = b.1 :=
    String.le_antisymm (of_decide_eq_true below) (of_decide_eq_true above)
  have inside : b ∈ xs := same.mem_iff.mpr (right.mem_iff.mp hb)
  exact List.inj_on_of_nodup_map distinct (left.mem_iff.mp ha) inside names

namespace Element

def pairs (e : Element) : List (String × String) :=
  (Label.exported e.labels).map fun l => (l.key, l.value)

/-- The series that an element among `es` leads: its labels, and the latest value. -/
def line (name : String) (es : List Element) (e : Element) : Line :=
  ⟨name, ⟨e.pairs.mergeSort fun a b => a.1 ≤ b.1, latest e.key es e.converted⟩⟩

/-- No two tuples of values have one fingerprint. -/
def Apart (es : List Element) : Prop :=
  ∀ d ∈ es, ∀ e ∈ es, d.key = e.key → d.exposed = e.exposed

end Element

def IndexLabel.Injective (label : IndexLabel) : Prop :=
  ∀ j k text, label.Reads j text → label.Reads k text → j = k

theorem IndexLabel.decimal_injective {label : IndexLabel} (decimal : label.format = none) :
    label.Injective := by
  intro j k text first second
  simp only [IndexLabel.Reads, decimal] at first second
  have same : j.repr = k.repr := first.symm.trans second
  have digits : Nat.toDigits 10 j = Nat.toDigits 10 k := by
    rw [← Nat.toList_repr, ← Nat.toList_repr, same]
  rw [← Nat.ofDigitChars_ten_toDigits (n := j), digits, Nat.ofDigitChars_ten_toDigits]

namespace Shows

variable {domain zone block : String} {s : Store} {i : Nat} {m : Metric} {e : Element}

theorem exports (h : Shows domain zone block s i m) :
    ∃ values, ∀ k e, m.elements[k]? = some e →
      ∃ own, Metric.Exports m.spec ⟨domain, zone, block, m.name⟩ values k e.labels own := by
  obtain ⟨values, labelled⟩ := h.labelled
  refine ⟨values, fun k e found => ?_⟩
  exact Metric.exports_labelsAt labelled.fits (labelled.elements k e found)

theorem labels (h : Shows domain zone block s i m) (member : e ∈ m.elements) :
    ∃ own, Label.exported e.labels = Label.owners ⟨domain, zone, block, m.name⟩ ++ own ∧
      own.map (·.key) = m.spec.exportedKeys ∧ own.map (·.value) = e.tuple ∧
      ((Label.exported e.labels).map (·.key)).Nodup := by
  obtain ⟨k, found⟩ := List.mem_iff_getElem?.mp member
  obtain ⟨values, each⟩ := h.exports
  obtain ⟨own, exports⟩ := each k e found
  obtain ⟨v, -, described, -⟩ := h.vector
  refine ⟨_, exports.exported, exports.keys, ?_, ?_⟩
  · rw [exports.tuple (h.sized e member), List.map_append]
  · have distinct := (Series.checkLabels_eq_none_iff.mp (describe_ok described).2).1
    rw [exports.exported, List.map_append, exports.keys]
    have owners : ownerKeys.Nodup := by decide
    refine List.nodup_append'.mpr ⟨owners, distinct, ?_⟩
    intro key owner exported
    rw [← exports.keys] at exported
    obtain ⟨l, inside, rfl⟩ := List.mem_map.mp exported
    exact exports.apart (h.sized e member) l inside owner

theorem sample (h : Shows domain zone block s i m) {v : Series.Vector}
    (described : Collector.describe domain zone block m.spec = .ok v.descriptor)
    (member : e ∈ m.elements) :
    (⟨v.descriptor.name, v.sample ⟨e.tuple, Element.latest e.key m.elements e.converted⟩⟩ : Line)
      = e.line m.name m.elements := by
  obtain ⟨own, exported, keys, values, distinct⟩ := h.labels member
  have descriptor := (describe_ok described).1
  have varying : v.descriptor.labelNames.zip e.tuple = own.map fun l => (l.key, l.value) := by
    rw [descriptor, ← keys, ← values, List.zip_map']
  have constants : v.descriptor.constants.Perm
      [(domainKey, domain), (zoneKey, zone), (blockKey, block)] := by
    rw [descriptor]
    exact List.mergeSort_perm _ _
  have same : (v.descriptor.labelNames.zip e.tuple ++ v.descriptor.constants).Perm e.pairs := by
    rw [varying, Element.pairs, exported, List.map_append]
    exact List.perm_append_comm.trans (constants.append_right _)
  have names : (e.pairs.map (·.1)).Nodup := by
    rw [Element.pairs, List.map_map]
    exact distinct
  have sorted := mergeSort_eq_of_perm same ((same.map _).nodup_iff.mpr names)
  have name : v.descriptor.name = m.name := congrArg (·.name) descriptor
  rw [Element.line, ← sorted, ← name]
  rfl

theorem lines (h : Shows domain zone block s i m) :
    s.lines i = (Element.leaders m.elements).map (Element.line m.name m.elements) := by
  obtain ⟨v, found, described, -, -, children⟩ := h.vector
  simp only [Store.lines, found, Series.Vector.family, Family.lines, children, Element.shown,
    List.map_map]
  apply List.map_congr_left
  intro e member
  exact h.sample described ((Element.leaders_sublist m.elements).subset member)

theorem key_eq (h : Shows domain zone block s i m) {d : Element} (left : d ∈ m.elements)
    (right : e ∈ m.elements) (alike : d.exposed = e.exposed) : d.key = e.key := by
  obtain ⟨own, exported, -, values, -⟩ := h.labels left
  obtain ⟨other, exported', -, values', -⟩ := h.labels right
  rw [Element.exposed, Element.exposed, exported, exported', List.map_append, List.map_append,
    List.append_cancel_left_eq, values, values'] at alike
  rw [Element.key, Element.key, alike]

/-- Elements with an exported index label of their own are all shown, each with its index. -/
theorem indexed (h : Shows domain zone block s i m) (array : m.spec.flags.array = true)
    (visible : m.spec.indexLabel.internal = false) (injective : m.spec.indexLabel.Injective)
    (apart : Element.Apart m.elements) :
    (m.elements.map Element.key).Nodup ∧
      ∀ k e, m.elements[k]? = some e → ∃ text, m.spec.indexLabel.Reads k text ∧
        (m.spec.indexLabel.key, text) ∈ e.pairs := by
  obtain ⟨values, each⟩ := h.exports
  constructor
  · refine List.nodup_iff_pairwise_ne.mpr (List.pairwise_map.mpr ?_)
    refine List.pairwise_iff_getElem.mpr fun j k hj hk before same => ?_
    have alike := apart _ (List.getElem_mem hj) _ (List.getElem_mem hk) same
    obtain ⟨own, left⟩ := each j _ (List.getElem?_eq_getElem hj)
    obtain ⟨other, right⟩ := each k _ (List.getElem?_eq_getElem hk)
    obtain ⟨text, first, rfl⟩ := left.index array visible
    obtain ⟨last, second, rfl⟩ := right.index array visible
    rw [left.exposed_eq_iff right] at alike
    cases alike
    exact Nat.ne_of_lt before (injective j k text first second)
  · intro k e found
    obtain ⟨own, exports⟩ := each k e found
    obtain ⟨text, value, rfl⟩ := exports.index array visible
    refine ⟨text, value, ?_⟩
    rw [Element.pairs, exports.exported]
    simp

end Shows

namespace Mount

variable {δ : Type}

def lines (x : Mount δ) : List Line :=
  x.block.metrics.flatMap fun m =>
    (Element.leaders m.elements).map (Element.line m.name m.elements)

theorem Shown.lines {x : Mount δ} {s : Store} (h : x.Shown s) :
    x.vectors.flatMap s.lines = x.lines := by
  have shows := h.vectors
  unfold Mount.lines
  generalize x.vectors = vectors at shows
  generalize x.block.metrics = metrics at shows
  induction shows with
  | nil => rfl
  | cons head tail ih =>
    rw [List.flatMap_cons, List.flatMap_cons, head.lines, ih]

end Mount

namespace Mirror

variable {δ : Type} {count : Nat} {xs : List (Mount δ)} {guests : List Guest} {s : Shared}

/-- What a registry gathers: the series of its blocks, and what guests have put there. -/
theorem gathered (h : Mirror count xs guests s) (r : Nat) :
    ((s.gather r).flatMap Family.lines).Perm
      ((xs.filter (·.registry = r)).flatMap Mount.lines ++
        (guests.filter (·.registry = r)).flatMap fun g => s.store.lines g.vector) := by
  apply ((s.registry r).gather_lines s.store).trans
  have entries := ((h.entries r).flatMap_right id).flatMap_right s.store.lines
  rw [List.flatMap_map, List.flatMap_append, List.flatMap_map, List.flatMap_map,
    List.flatMap_append] at entries
  refine entries.trans (.append ?_ (.of_eq ?_))
  · have empty (x : Mount δ) (none : x.block.metrics = []) : x.lines = [] := by
      rw [Mount.lines, none, List.flatMap_nil]
    rw [← exporting_flatMap empty, List.flatMap_assoc]
    refine .of_eq (List.flatMap_congr fun x member => ?_)
    exact (h.shown x (List.mem_of_mem_filter member)).lines
  · rw [List.flatMap_assoc]
    exact List.flatMap_congr fun g _ => List.flatMap_singleton _ _

end Mirror

/-- How the elements of a metric share series: by the fingerprint of what is exported beside the
owners' names, which is to say by what they export, unless two tuples have one fingerprint. -/
structure Metric.Scraped (domain zone block : String) (m : Metric) : Prop where
  labels : ∀ e ∈ m.elements, ∃ own,
    Label.exported e.labels =
        [⟨"domain", domain, false⟩, ⟨"zone", zone, false⟩, ⟨"block", block, false⟩] ++ own ∧
      own.map (·.key) = m.spec.exportedKeys ∧ ((Label.exported e.labels).map (·.key)).Nodup ∧
      e.key = .ofJoined (own.map (·.value))
  shared : Element.OnePer Element.key m.elements
  each : Element.Apart m.elements → Element.OnePer Element.exposed m.elements
  indexed : m.spec.flags.array = true → m.spec.indexLabel.internal = false →
    (m.spec.indexLabel.format = none ∨ m.spec.indexLabel.Injective) → Element.Apart m.elements →
    Element.leaders m.elements = m.elements ∧
      (∀ e ∈ m.elements, Element.latest e.key m.elements e.converted = e.converted) ∧
      ∀ k e, m.elements[k]? = some e → ∃ text, m.spec.indexLabel.Reads k text ∧
        (m.spec.indexLabel.key, text) ∈ e.pairs

theorem Shows.scraped {domain zone block : String} {s : Store} {i : Nat} {m : Metric}
    (h : Shows domain zone block s i m) : m.Scraped domain zone block := by
  have shared := Element.onePer_key m.elements
  refine ⟨?_, shared, ?_, ?_⟩
  · intro e member
    obtain ⟨own, exported, keys, values, distinct⟩ := h.labels member
    exact ⟨own, exported, keys, distinct, by rw [values, Element.key]⟩
  · intro apart
    exact shared.of_iff fun d left e right => ⟨apart d left e right, h.key_eq left right⟩
  · intro array visible format apart
    have injective : m.spec.indexLabel.Injective := format.elim IndexLabel.decimal_injective id
    obtain ⟨distinct, texts⟩ := h.indexed array visible injective apart
    exact ⟨Element.leaders_eq_self distinct,
      fun e member => Element.latest_own distinct member _, texts⟩

theorem Mount.Shown.scraped {δ : Type} {x : Mount δ} {s : Store} (h : x.Shown s) :
    ∀ m ∈ x.block.metrics, m.Scraped x.domain x.zone x.block.name := by
  intro m member
  obtain ⟨i, -, shows⟩ := forall₂_mem h.vectors m member
  exact shows.scraped

variable {δ : Type} [Driver δ]

/-- **What is scraped is what was sampled**, in every site that can be reached. Values that are not
sampled are kept: while a zone is disabled, and from a detachment to the next attachment. -/
theorem scraped_is_sampled (count : Nat) (steps : List (Surroundings × Action δ)) :
    let s : Site δ := (Site.empty count).run steps
    (∀ r, ((s.shared.gather r).flatMap Family.lines).Perm
      ((s.mounts.filter (·.registry = r)).flatMap Mount.lines ++
        (s.guests.filter (·.registry = r)).flatMap fun g => s.shared.store.lines g.vector)) ∧
    (∀ x ∈ s.mounts, ∀ m ∈ x.block.metrics, m.Scraped x.domain x.zone x.block.name) ∧
    (∀ env i operation d, s.domain? i = some d → (∀ handle, operation ≠ .enable handle) →
      ∃ e, (s.perform env (.operate i operation)).2.domain? i = some e ∧
        ∀ z ∈ d.zones, z.enabled = false → z ∈ e.zones) ∧
    (∀ env i k d z handle, s.domain? i = some d → s.loose? k = some z →
      (s.perform env (.attach i k)).1 = .ok (some handle) →
      ∃ e w, (s.perform env (.attach i k)).2.domain? i = some e ∧ e.zones = d.zones ++ [w] ∧
        w.handle = some handle ∧ w.enabled = z.enabled ∧ w.values = z.values) ∧
    ∀ env i d handle, s.domain? i = some d → (s.perform env (.detach i handle)).1 = .ok none →
      ∃ z ∈ d.zones, ∃ w, (s.perform env (.detach i handle)).2.loose = s.loose ++ [some w] ∧
        z.handle = some handle ∧ w.enabled = z.enabled ∧ w.values = z.values := by
  intro s
  have coherent : s.Coherent count := Site.run_coherent count steps
  refine ⟨coherent.mirror.gathered, fun x member => (coherent.mirror.shown x member).scraped,
    ?_, ?_, ?_⟩
  · intro env i operation d found quiet
    simp only [Site.perform, found]
    refine ⟨_, Site.settle_here found _, ?_⟩
    intro z member off
    rw [(operation.run_becomes env d s.shared).zones]
    exact Effect.run_disabled member off (operation.effect_quiet quiet d) s.shared
  · intro env i k d z handle found held done
    obtain ⟨-, -, w, carried, known, here⟩ := coherent.perform_attach found held done
    exact ⟨_, w, here, rfl, known, carried.enabled, carried.values⟩
  · intro env i d handle found done
    obtain ⟨n, z, -, placed, there, loose, -⟩ := coherent.perform_detach found done
    refine ⟨z, List.mem_of_getElem? there, z.left, loose, ?_, ?_, ?_⟩
    · exact d.position_handle placed there
    · exact z.left_carried.enabled
    · exact z.left_carried.values

def abandoned : List (Surroundings × Action StockDriver) :=
  [(.plain [] 0, .create 0 ⟨"d", 0, false⟩), (.plain [] 0, .alloc 0 unreadable),
    (.plain [] 0, .abandon 0)]

def attachedAlike : List (Surroundings × Action StockDriver) :=
  [(.plain [] 0, .create 0 ⟨"d", 0, false⟩),
    (.plain [] 0, .alloc 0 ⟨"z", [⟨"b", none, [alikeSpec], 0, none⟩]⟩)]

/-- No domain is left, nobody else has brought a collector, and there are series all the same. And
where two of four elements with four indices have one fingerprint, there are three series. -/
theorem abandoned_and_alike_scraped :
    let s : Site StockDriver := (Site.empty 1).run abandoned
    let t : Site StockDriver := (Site.empty 1).run attachedAlike
    (s.domains = [none] ∧ s.guests = [] ∧ s.shared.gather 0 ≠ []) ∧
      (t.mounts.map fun x => x.block.metrics.map fun m => m.elements.map Element.exposed)
          = [[["j11wmb8910o3i9", "j11wmb8910o3i10", "j11wmb8910o3i11", "j11wmb8910o3i12"].map
              fun index => ["d", "z", "b", index]]] ∧
        ((t.shared.gather 0).flatMap Family.lines).length = 3 := by
  refine ⟨⟨rfl, rfl, Series.Registry.gather_ne_nil (by decide +kernel)⟩, by decide +kernel, ?_⟩
  refine (Series.Registry.gather_lines _ _).length_eq.trans ?_
  decide +kernel

end Telemetry

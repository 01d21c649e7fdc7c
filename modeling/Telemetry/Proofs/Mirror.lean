import Mathlib.Data.List.Forall2
import Telemetry.Proofs.Labelling
import Telemetry.Proofs.Ledger
import Telemetry.Proofs.Site
import Telemetry.Proofs.Vectors

/-! How the exporter mirrors attached blocks. Every metric of an attached block has a vector of its
own, which carries the metric's descriptor and shows its elements; a block with metrics has one
entry in its registry, one without has none. The invariant is about a plain list of blocks, so it
does not matter which zone or domain holds them. -/
namespace Telemetry

open Series (Store Vector Descriptor)

/-- A block of an attached zone, with its owners' names and its registry. -/
structure Mount (δ : Type) where
  registry : Nat
  domain : String
  zone : String
  block : Block δ

def ownerLabels (domain zone block : String) : List (String × String) :=
  [(domainKey, domain), (zoneKey, zone), (blockKey, block)].mergeSort fun a b => a.1 ≤ b.1

def identityOf (domain zone block name : String) : Fingerprint :=
  .ofTexts (name :: (ownerLabels domain zone block).map (·.2))

theorem Series.checkLabels_eq_none_iff {earlier names : List String} :
    Series.checkLabels earlier names = none ↔
      names.Nodup ∧ ∀ name ∈ names, Series.isLabelName name = true ∧ name ∉ earlier := by
  induction names generalizing earlier with
  | nil => simp [Series.checkLabels]
  | cons name rest ih =>
    simp only [Series.checkLabels, Bool.not_eq_true', List.contains_eq_mem, decide_eq_true_eq,
      List.nodup_cons, List.forall_mem_cons]
    split
    · rename_i invalid
      simp [invalid]
    · rename_i valid
      split
      · rename_i repeated
        simp [repeated]
      · rename_i fresh
        simp only [ih, List.mem_cons, not_or]
        constructor
        · rintro ⟨distinct, apart⟩
          exact ⟨⟨fun again => (apart name again).2.1 rfl, distinct⟩,
            ⟨by simpa using valid, fresh⟩,
            fun other member => ⟨(apart other member).1, (apart other member).2.2⟩⟩
        · rintro ⟨⟨absent, distinct⟩, -, apart⟩
          exact ⟨distinct, fun other member => ⟨(apart other member).1,
            fun same => absent (same ▸ member), (apart other member).2⟩⟩

theorem describe_ok {domain zone block : String} {spec : MetricSpec} {d : Descriptor}
    (accepted : Collector.describe domain zone block spec = .ok d) :
    d = ⟨spec.name, spec.help, ownerLabels domain zone block, spec.exportedKeys⟩ ∧
      Series.checkLabels [] spec.exportedKeys = none := by
  unfold Collector.describe Descriptor.make? at accepted
  split at accepted
  · cases accepted
  · split at accepted
    · cases accepted
    · split at accepted
      · cases accepted
      · rename_i checked
        cases accepted
        exact ⟨rfl, checked⟩

theorem describe_identity {domain zone block : String} {spec : MetricSpec} {d : Descriptor}
    (accepted : Collector.describe domain zone block spec = .ok d) :
    d.identity = identityOf domain zone block spec.name := by
  rw [(describe_ok accepted).1]
  rfl

theorem ownerLabels_eq (domain zone block : String) :
    ownerLabels domain zone block = [(blockKey, block), (domainKey, domain), (zoneKey, zone)] := by
  have first : domainKey ≤ zoneKey := by decide
  have second : ¬ domainKey ≤ blockKey := by decide
  simp [ownerLabels, List.mergeSort, List.MergeSort.Internal.splitInTwo, first, second]

theorem ownerLabels_keys (domain zone block : String) :
    (ownerLabels domain zone block).map (·.1) = [blockKey, domainKey, zoneKey] := by
  rw [ownerLabels_eq]
  rfl

theorem describe_dimensions {domain zone block domain' zone' block' : String}
    {spec spec' : MetricSpec} {d e : Descriptor}
    (told : Collector.describe domain zone block spec = .ok d)
    (other : Collector.describe domain' zone' block' spec' = .ok e)
    (help : spec.help = spec'.help) (keys : spec.exportedKeys = spec'.exportedKeys) :
    d.dimensions = e.dimensions := by
  rw [(describe_ok told).1, (describe_ok other).1]
  simp only [Descriptor.dimensions, Descriptor.markedNames, ownerLabels_keys, help,
    keys]

/-- A vector of the store shows a metric: its children are those of the metric's elements. -/
structure Shows (domain zone block : String) (store : Store) (i : Nat) (m : Metric) : Prop where
  labelled : ∃ values, m.Labelled ⟨domain, zone, block, m.name⟩ values
  bound : ∀ e ∈ m.elements, e.series = some ⟨i, e.key⟩
  vector : ∃ v, store.get? i = some v ∧
    Collector.describe domain zone block m.spec = .ok v.descriptor ∧ v.kind = .gauge ∧
    (∀ e ∈ m.elements, e.tuple.length = v.descriptor.labelNames.length) ∧
    v.children = Element.shown m.elements

namespace Shows

variable {domain zone block : String} {s t : Store} {i : Nat} {m : Metric}

theorem congr (h : Shows domain zone block s i m) (same : t.get? i = s.get? i) :
    Shows domain zone block t i m :=
  ⟨h.labelled, h.bound, same ▸ h.vector⟩

theorem congr_all {vs : List Nat} {ms : List Metric}
    (h : List.Forall₂ (Shows domain zone block s) vs ms)
    (same : ∀ i ∈ vs, t.get? i = s.get? i) : List.Forall₂ (Shows domain zone block t) vs ms := by
  induction h with
  | nil => exact .nil
  | cons head tail ih =>
    exact .cons (head.congr (same _ List.mem_cons_self))
      (ih fun i hi => same i (List.mem_cons_of_mem _ hi))

theorem lt (h : Shows domain zone block s i m) : i < s.vectors.length := by
  obtain ⟨v, found, -⟩ := h.vector
  exact Store.get?_lt found

theorem lt_all {vs : List Nat} {ms : List Metric}
    (shows : List.Forall₂ (Shows domain zone block s) vs ms) : ∀ i ∈ vs, i < s.vectors.length := by
  induction shows with
  | nil => simp
  | cons head _ ih =>
    intro i member
    rcases List.mem_cons.mp member with rfl | member
    · exact head.lt
    · exact ih i member

theorem sized (h : Shows domain zone block s i m) :
    ∀ e ∈ m.elements, e.tuple.length = m.spec.exportedKeys.length := by
  obtain ⟨v, -, described, -, sized, -⟩ := h.vector
  intro e member
  rw [sized e member, (describe_ok described).1]

end Shows

def Block.vectors (b : Block δ) : List Nat :=
  match b.collector with
  | some c => c.vectors
  | none => []

def Block.identities (domain zone : String) (b : Block δ) : List Fingerprint :=
  b.metrics.map fun m => identityOf domain zone b.name m.name

namespace Mount

variable {δ : Type}

def vectors (x : Mount δ) : List Nat := x.block.vectors

def names (x : Mount δ) : List (String × String × String × String) :=
  x.block.metrics.map fun m => (m.name, x.domain, x.zone, x.block.name)

def identities (x : Mount δ) : List Fingerprint := x.block.identities x.domain x.zone

def named : String × String × String × String → Fingerprint
  | (name, domain, zone, block) => identityOf domain zone block name

theorem identities_names (x : Mount δ) : x.identities = x.names.map named := by
  rw [names, List.map_map]
  rfl

def exhibits (x : Mount δ) : List Exhibit :=
  if x.block.metrics = [] then [] else [⟨x.registry, x.vectors, x.identities⟩]

def Shown (x : Mount δ) (store : Store) : Prop :=
  ∃ vectors, x.block.collector = some ⟨x.block.name, vectors⟩ ∧
    List.Forall₂ (Shows x.domain x.zone x.block.name store) vectors x.block.metrics

variable {x : Mount δ} {s t : Store}

theorem Shown.vectors (h : x.Shown s) :
    List.Forall₂ (Shows x.domain x.zone x.block.name s) x.vectors x.block.metrics := by
  obtain ⟨vectors, attached, shows⟩ := h
  simpa only [Mount.vectors, Block.vectors, attached] using shows

theorem Shown.collector (h : x.Shown s) : x.block.collector = some ⟨x.block.name, x.vectors⟩ := by
  obtain ⟨vectors, attached, -⟩ := h
  simp only [Mount.vectors, Block.vectors, attached]

theorem Shown.congr (h : x.Shown s) (same : ∀ i ∈ x.vectors, t.get? i = s.get? i) : x.Shown t :=
  ⟨x.vectors, h.collector, Shows.congr_all h.vectors same⟩

theorem Shown.lt (h : x.Shown s) : ∀ i ∈ x.vectors, i < s.vectors.length :=
  Shows.lt_all h.vectors

theorem Shown.exhibited (h : x.Shown s) : x.exhibits.flatMap (·.vectors) = x.vectors := by
  unfold exhibits
  split
  · rename_i none
    have empty := h.vectors
    rw [none] at empty
    rw [List.forall₂_nil_right_iff.mp empty]
    rfl
  · simp

theorem Shown.descriptors (h : x.Shown s) :
    (s.descriptors x.vectors).map (·.identity) = x.identities := by
  have shows := h.vectors
  unfold identities Block.identities Store.descriptors
  generalize x.vectors = vectors at shows
  generalize x.block.metrics = metrics at shows
  induction shows with
  | nil => rfl
  | cons head tail ih =>
    obtain ⟨v, found, described, -⟩ := head.vector
    simp only [List.filterMap_cons, found, Option.map_some, List.map_cons, ih,
      describe_identity described]
    rfl

end Mount

namespace Guest

def exhibit (g : Guest) : Exhibit := ⟨g.registry, [g.vector], [g.identity]⟩

end Guest

/-- These blocks and guests are what is registered with so many registries, and every block is
shown as it is. -/
structure Mirror (count : Nat) (xs : List (Mount δ)) (guests : List Guest) (s : Shared) :
    Prop where
  counted : s.registries.length = count
  ledger : Ledger (xs.flatMap Mount.exhibits ++ guests.map Guest.exhibit) s
  shown : ∀ x ∈ xs, x.Shown s.store

namespace Mirror

variable {δ : Type} {count : Nat} {xs ys rest : List (Mount δ)} {x y : Mount δ}
  {guests : List Guest} {s t : Shared}

theorem perm (h : Mirror count xs guests s) (same : xs.Perm ys) : Mirror count ys guests s :=
  ⟨h.counted, h.ledger.perm ((same.flatMap_right _).append_right _),
    fun y hy => h.shown y (same.mem_iff.mpr hy)⟩

theorem agrees (h : Mirror count xs guests s) (quiet : s.Agrees t) : Mirror count xs guests t := by
  refine ⟨quiet.1 ▸ h.counted, h.ledger.agrees quiet.1 (Nat.le_of_eq (by rw [quiet.2])), ?_⟩
  rw [quiet.2]
  exact h.shown

/-- The mirror needs no more than the same collectors and the same vectors; new vectors are
nobody's yet. -/
theorem same (h : Mirror count xs guests s) (counted : t.registries.length = s.registries.length)
    (collectors : ∀ r, (s.registry r).SameCollectors (t.registry r))
    (grown : Store.Extends s.store t.store) : Mirror count xs guests t := by
  refine ⟨counted.trans h.counted, h.ledger.same counted collectors grown.length, ?_⟩
  intro x member
  have here := h.shown x member
  exact here.congr fun i inside => grown.get? (here.lt i inside)

theorem grows (h : Mirror count xs guests s) (registries : t.registries = s.registries)
    (grown : Store.Extends s.store t.store) : Mirror count xs guests t := by
  refine h.same (by rw [registries]) ?_ grown
  intro r
  have here := Shared.registry_congr registries r
  exact ⟨here ▸ rfl, here ▸ rfl⟩

theorem vectors (h : Mirror count xs guests s) :
    (xs.flatMap Mount.exhibits ++ guests.map Guest.exhibit).flatMap (·.vectors)
      = xs.flatMap Mount.vectors ++ guests.map (·.vector) := by
  have own : (xs.flatMap Mount.exhibits).flatMap (·.vectors) = xs.flatMap Mount.vectors := by
    rw [List.flatMap_assoc]
    exact List.flatMap_congr fun x hx => (h.shown x hx).exhibited
  have others : (guests.map Guest.exhibit).flatMap (·.vectors) = guests.map (·.vector) := by
    rw [List.flatMap_map]
    exact List.flatMap_pure_eq_map _ _
  rw [List.flatMap_append, own, others]

theorem apart (h : Mirror count xs guests s) :
    (xs.flatMap Mount.vectors ++ guests.map (·.vector)).Nodup :=
  h.vectors ▸ h.ledger.apart

theorem entries_stored (h : Mirror count xs guests s) (r : Nat) :
    ∀ e ∈ (s.registry r).entries, ∀ i ∈ e.vectors, i < s.store.vectors.length := by
  intro e member
  rw [(h.ledger.lists r).entries.mem_iff] at member
  obtain ⟨x, inside, rfl⟩ := List.mem_map.mp member
  exact h.ledger.stored x (List.mem_of_mem_filter inside)

theorem own_nodup (h : Mirror count (x :: rest) guests s) : x.vectors.Nodup := by
  have apart := h.apart
  rw [List.flatMap_cons, List.append_assoc] at apart
  exact (List.nodup_append'.mp apart).1

theorem others (h : Mirror count (x :: rest) guests s) (member : y ∈ rest) :
    ∀ i ∈ x.vectors, i ∉ y.vectors := by
  have apart := h.apart
  rw [List.flatMap_cons, List.append_assoc] at apart
  intro i own other
  refine (List.nodup_append'.mp apart).2.2 own (List.mem_append_left _ ?_)
  exact List.mem_flatMap.mpr ⟨y, member, other⟩

theorem alter (h : Mirror count (x :: rest) guests s) (registries : t.registries = s.registries)
    (altered : Store.Alters x.vectors s.store t.store)
    (exhibits : y.exhibits = x.exhibits) (shown : y.Shown t.store) :
    Mirror count (y :: rest) guests t := by
  refine ⟨registries ▸ h.counted, ?_, ?_⟩
  · rw [List.flatMap_cons, exhibits, ← List.flatMap_cons]
    exact h.ledger.agrees registries (Nat.le_of_eq altered.count.symm)
  · intro z hz
    rcases List.mem_cons.mp hz with rfl | hz
    · exact shown
    · refine (h.shown z (List.mem_cons_of_mem _ hz)).congr fun i other => ?_
      exact altered.others i fun own => h.others hz i own other

theorem reblock (h : Mirror count (x :: rest) guests s) {b : Block δ} (name : b.name = x.block.name)
    (metrics : b.metrics = x.block.metrics) (collector : b.collector = x.block.collector) :
    Mirror count ({ x with block := b } :: rest) guests s := by
  refine h.alter rfl (.refl _ _) ?_ ?_
  · simp only [Mount.exhibits, Mount.vectors, Block.vectors, Mount.identities, Block.identities, name,
      metrics, collector]
  · simpa only [Mount.Shown, name, metrics, collector] using h.shown x List.mem_cons_self

end Mirror

end Telemetry

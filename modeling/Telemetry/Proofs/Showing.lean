import Telemetry.Metric.Element
import Telemetry.Proofs.Sequences

/-! Which series the elements of a metric have. A vector finds its children by fingerprint, so of
the elements with one fingerprint the first gives the child its label values and the last its value.
This is what a vector holds once elements have been bound to it, and again whenever they have been
written to it. -/
namespace Telemetry

namespace Element

open Series (Child)

def exposed (e : Element) : List String := (Label.exported e.labels).map (·.value)

def tuple (e : Element) : List String := Label.variableValues e.labels

def key (e : Element) : Fingerprint := .ofJoined e.tuple

def child (e : Element) : Child := ⟨e.tuple, e.converted⟩

theorem key_child (e : Element) : e.child.key = e.key := rfl

/-- The first element with each key. -/
def leaders : List Element → List Element
  | [] => []
  | e :: rest => e :: (leaders rest).filter (·.key ≠ e.key)

/-- What the last of some elements with this key has made of a value. -/
def latest (key : Fingerprint) (es : List Element) (x : Binary64) : Binary64 :=
  es.foldl (fun x e => if e.key = key then e.converted else x) x

/-- The children of a vector that shows these elements. -/
def shown (es : List Element) : List Child :=
  (leaders es).map fun e => ⟨e.tuple, latest e.key es e.converted⟩

theorem latest_cons (key : Fingerprint) (e : Element) (es : List Element) (x : Binary64) :
    latest key (e :: es) x = latest key es (if e.key = key then e.converted else x) := rfl

theorem latest_absent {key : Fingerprint} {es : List Element} (absent : key ∉ es.map Element.key)
    (x : Binary64) : latest key es x = x := by
  induction es generalizing x with
  | nil => rfl
  | cons e rest ih =>
    obtain ⟨other, absent⟩ := not_or.mp (List.mem_cons.not.mp absent)
    rw [latest_cons, if_neg (Ne.symm other), ih absent]

theorem latest_append (key : Fingerprint) (es ds : List Element) (x : Binary64) :
    latest key (es ++ ds) x = latest key ds (latest key es x) := List.foldl_append

theorem exists_last {key : Fingerprint} {es : List Element} (member : key ∈ es.map Element.key) :
    ∃ before d after, es = before ++ d :: after ∧ d.key = key ∧ key ∉ after.map Element.key := by
  induction es with
  | nil => cases member
  | cons e rest ih =>
    by_cases later : key ∈ rest.map Element.key
    · obtain ⟨before, d, after, rfl, last⟩ := ih later
      exact ⟨e :: before, d, after, rfl, last⟩
    · have own := (List.mem_cons.mp member).resolve_right later
      exact ⟨[], e, rest, rfl, own.symm, later⟩

theorem latest_last {before after : List Element} {d : Element}
    (last : d.key ∉ after.map Element.key) (x : Binary64) :
    latest d.key (before ++ d :: after) x = d.converted := by
  rw [latest_append, latest_cons, if_pos rfl, latest_absent last]

theorem latest_own {es : List Element} {e : Element} (distinct : (es.map key).Nodup)
    (member : e ∈ es) (x : Binary64) : latest e.key es x = e.converted := by
  obtain ⟨before, after, rfl⟩ := List.append_of_mem member
  rw [List.map_append, List.map_cons] at distinct
  have apart := (List.nodup_append'.mp distinct).2.1
  exact latest_last (List.nodup_cons.mp apart).1 x

theorem latest_eq {key : Fingerprint} {es : List Element} (member : key ∈ es.map Element.key)
    (x y : Binary64) : latest key es x = latest key es y := by
  obtain ⟨before, d, after, rfl, rfl, last⟩ := exists_last member
  rw [latest_last last, latest_last last]

theorem leaders_sublist (es : List Element) : (leaders es).Sublist es := by
  induction es with
  | nil => exact .slnil
  | cons e rest ih => exact (List.filter_sublist.trans ih).cons_cons e

theorem key_leaders_nodup (es : List Element) : ((leaders es).map key).Nodup := by
  induction es with
  | nil => exact .nil
  | cons e rest ih =>
    refine List.nodup_cons.mpr ⟨?_, (List.filter_sublist.map key).nodup ih⟩
    intro again
    obtain ⟨d, member, same⟩ := List.mem_map.mp again
    exact absurd same (by simpa using (List.mem_filter.mp member).2)

theorem mem_key_leaders {es : List Element} {k : Fingerprint} :
    k ∈ (leaders es).map key ↔ k ∈ es.map key := by
  induction es with
  | nil => rfl
  | cons e rest ih =>
    have others : (leaders rest |>.filter (·.key ≠ e.key)).map key
        = ((leaders rest).map key).filter (· ≠ e.key) := by
      rw [List.filter_map]
      rfl
    rw [leaders, List.map_cons, List.map_cons, others, List.mem_cons, List.mem_cons,
      List.mem_filter, ih, decide_eq_true_iff]
    constructor
    · exact Or.imp_right (·.1)
    · rintro (own | later)
      · exact .inl own
      · exact (em (k = e.key)).imp_right fun other => ⟨later, other⟩

theorem leaders_first {es : List Element} {e : Element} (member : e ∈ leaders es) :
    ∃ before after, es = before ++ e :: after ∧ e.key ∉ before.map key := by
  induction es with
  | nil => cases member
  | cons d rest ih =>
    rcases List.mem_cons.mp member with rfl | member
    · exact ⟨[], rest, rfl, List.not_mem_nil⟩
    · obtain ⟨member, other⟩ := List.mem_filter.mp member
      obtain ⟨before, after, rfl, first⟩ := ih member
      refine ⟨d :: before, after, rfl, ?_⟩
      rw [List.map_cons, List.mem_cons, not_or]
      exact ⟨by simpa using other, first⟩

theorem leaders_eq_self {es : List Element} (apart : (es.map key).Nodup) : leaders es = es := by
  induction es with
  | nil => rfl
  | cons e rest ih =>
    obtain ⟨visible, apart⟩ := List.nodup_cons.mp apart
    rw [leaders, ih apart, List.filter_eq_self.mpr]
    intro d member
    have other : d.key ≠ e.key := fun same => visible (same ▸ List.mem_map_of_mem member)
    exact decide_eq_true other

def keyOf (labels : List Label) : Fingerprint := .ofJoined (Label.variableValues labels)

theorem keys_labels {es ds : List Element} (labels : ds.map (·.labels) = es.map (·.labels)) :
    ds.map key = es.map key := by
  have keys (fs : List Element) : fs.map key = (fs.map (·.labels)).map keyOf := by
    rw [List.map_map]
    rfl
  rw [keys, keys, labels]

theorem leaders_labels {es ds : List Element} (labels : ds.map (·.labels) = es.map (·.labels)) :
    (leaders ds).map (·.labels) = (leaders es).map (·.labels) := by
  induction es generalizing ds with
  | nil => rw [List.map_eq_nil_iff.mp labels]
  | cons e rest ih =>
    cases ds with
    | nil => cases labels
    | cons d others =>
      obtain ⟨(here : d.labels = e.labels), later⟩ := List.cons.inj labels
      have key : d.key = e.key := congrArg keyOf here
      have tails (k : Fingerprint) (fs : List Element) :
          (fs.filter (·.key ≠ k)).map (·.labels)
            = (fs.map (·.labels)).filter (keyOf · ≠ k) := by
        rw [List.filter_map]
        rfl
      rw [leaders, leaders, List.map_cons, List.map_cons, tails, tails, ih later, here, key]

/-- There is one series for each value of `f` on the elements: it has the labels of the first element
with this value, and shows the last. -/
structure OnePer {β : Type} (f : Element → β) (es : List Element) : Prop where
  distinct : ((leaders es).map f).Nodup
  every : ∀ x, x ∈ (leaders es).map f ↔ x ∈ es.map f
  first : ∀ e ∈ leaders es, ∃ before after, es = before ++ e :: after ∧ f e ∉ before.map f
  last : ∀ e ∈ leaders es, ∃ before d after, es = before ++ d :: after ∧ f d = f e ∧
    f e ∉ after.map f ∧ latest e.key es e.converted = d.converted

theorem onePer_key (es : List Element) : OnePer key es := by
  refine ⟨key_leaders_nodup es, fun k => mem_key_leaders, fun e => leaders_first, ?_⟩
  intro e leads
  have member := (leaders_sublist es).subset leads
  obtain ⟨before, d, after, split, same, last⟩ := exists_last (List.mem_map_of_mem member)
  refine ⟨before, d, after, split, same, last, ?_⟩
  rw [split, ← same, latest_last (same ▸ last)]

theorem OnePer.of_iff {β γ : Type} {f : Element → β} {g : Element → γ} {es : List Element}
    (h : OnePer f es) (same : ∀ a ∈ es, ∀ b ∈ es, f a = f b ↔ g a = g b) : OnePer g es := by
  have inside := (leaders_sublist es).subset
  have absent {ds : List Element} {e : Element} (own : ∀ d ∈ ds, d ∈ es) (member : e ∈ es)
      (other : f e ∉ ds.map f) : g e ∉ ds.map g := by
    intro again
    obtain ⟨d, there, alike⟩ := List.mem_map.mp again
    exact other (List.mem_map.mpr ⟨d, there, (same d (own d there) e member).mpr alike⟩)
  refine ⟨?_, fun x => ⟨?_, ?_⟩, ?_, ?_⟩
  · have apart := h.distinct
    rw [List.nodup_iff_pairwise_ne, List.pairwise_map] at apart ⊢
    refine apart.imp_of_mem fun {a b} ha hb other alike => other ?_
    exact (same a (inside ha) b (inside hb)).mpr alike
  · intro leads
    obtain ⟨e, member, rfl⟩ := List.mem_map.mp leads
    exact List.mem_map_of_mem (inside member)
  · intro there
    obtain ⟨e, member, rfl⟩ := List.mem_map.mp there
    obtain ⟨d, leads, alike⟩ := List.mem_map.mp ((h.every _).mpr (List.mem_map_of_mem member))
    exact List.mem_map.mpr ⟨d, leads, (same d (inside leads) e member).mp alike⟩
  · intro e leads
    obtain ⟨before, after, split, first⟩ := h.first e leads
    refine ⟨before, after, split, absent (fun d there => ?_) (inside leads) first⟩
    exact split ▸ List.mem_append_left _ there
  · intro e leads
    obtain ⟨before, d, after, split, alike, last, value⟩ := h.last e leads
    have own : d ∈ es := split ▸ List.mem_append_right _ List.mem_cons_self
    refine ⟨before, d, after, split, (same d own e (inside leads)).mp alike,
      absent (fun f there => ?_) (inside leads) last, value⟩
    exact split ▸ List.mem_append_right _ (List.mem_cons_of_mem _ there)

theorem exists_alike {es ds : List Element} (labels : ds.map (·.labels) = es.map (·.labels)) :
    ∀ d ∈ ds, ∃ e ∈ es, e.tuple = d.tuple := by
  intro d member
  have there : d.labels ∈ es.map (·.labels) := labels ▸ List.mem_map_of_mem member
  obtain ⟨e, inside, same⟩ := List.mem_map.mp there
  exact ⟨e, inside, by rw [tuple, same, tuple]⟩

end Element

namespace Series

open Element (latest leaders)

def replace (key : Fingerprint) (value : Binary64) (children : List Child) : List Child :=
  children.map fun c => if c.key = key then { c with value } else c

/-- Writes an element: its child gets the converted value, and is made if there is none. -/
def record (children : List Child) (e : Element) : List Child :=
  if e.key ∈ children.map Child.key then replace e.key e.converted children
  else children ++ [e.child]

def refresh (children : List Child) (e : Element) : List Child :=
  replace e.key e.converted children

def Child.after (es : List Element) (c : Child) : Child := { c with value := latest c.key es c.value }

theorem Child.after_cons (e : Element) (es : List Element) (c : Child) :
    c.after (e :: es) = (if c.key = e.key then { c with value := e.converted } else c).after es := by
  rw [Child.after, Element.latest_cons]
  by_cases own : c.key = e.key
  · rw [if_pos own, if_pos own.symm]
    rfl
  · rw [if_neg own, if_neg (Ne.symm own)]
    rfl

theorem replace_after (e : Element) (es : List Element) (children : List Child) :
    (refresh children e).map (·.after es) = children.map (·.after (e :: es)) := by
  simp only [refresh, replace, List.map_map, Function.comp_def, Child.after_cons]

theorem foldl_refresh (es : List Element) (children : List Child) :
    es.foldl refresh children = children.map (·.after es) := by
  induction es generalizing children with
  | nil => exact (List.map_id _).symm
  | cons e rest ih => rw [List.foldl_cons, ih, replace_after]

theorem replace_keys (key : Fingerprint) (value : Binary64) (children : List Child) :
    (replace key value children).map Child.key = children.map Child.key := by
  simp only [replace, List.map_map]
  apply List.map_congr_left
  intro c _
  simp only [Function.comp_apply]
  split <;> rfl

theorem replace_absent {key : Fingerprint} {children : List Child} (value : Binary64)
    (absent : key ∉ children.map Child.key) : replace key value children = children := by
  apply map_fixed
  intro c member
  exact if_neg fun same => absent (List.mem_map.mpr ⟨c, member, same⟩)

/-- Writing elements in order to some children updates these, and makes one for each new key. -/
theorem foldl_record (es : List Element) (children : List Child) :
    es.foldl record children = children.map (·.after es) ++
      ((leaders es).filter (·.key ∉ children.map Child.key)).map (·.child.after es) := by
  induction es generalizing children with
  | nil => simp [Child.after, Element.latest, leaders]
  | cons e rest ih =>
    -- a leader of the rest that is not hidden by `e` has another key, so `e` does not touch it
    have others (ds : List Element) (apart : ∀ d ∈ ds, d.key ≠ e.key) :
        ds.map (·.child.after (e :: rest)) = ds.map (·.child.after rest) := by
      apply List.map_congr_left
      intro d member
      have other : d.child.key ≠ e.key := apart d member
      rw [Child.after_cons, if_neg other]
    have distinct : ∀ d ∈ (leaders rest).filter (·.key ≠ e.key), d.key ≠ e.key := by
      intro d member
      simpa using (List.mem_filter.mp member).2
    rw [List.foldl_cons, ih, leaders]
    by_cases present : e.key ∈ children.map Child.key
    · have written : record children e = refresh children e := if_pos present
      rw [written, replace_after, refresh, replace_keys,
        List.filter_cons_of_neg (by simpa using present),
        others _ fun d member => distinct d (List.mem_of_mem_filter member), List.filter_filter]
      congr 2
      apply List.filter_congr
      intro d _
      by_cases same : d.key = e.key
      · rw [same]
        simp [present]
      · simp [same]
    · have written : record children e = children ++ [e.child] := if_neg present
      have old : children.map (·.after (e :: rest)) = children.map (·.after rest) := by
        rw [← replace_after, refresh, replace_absent _ present]
      have own : e.child.after (e :: rest) = e.child.after rest := by
        rw [Child.after_cons, if_pos e.key_child]
        rfl
      rw [written, old, List.filter_cons_of_pos (by simpa using present), List.map_cons, own,
        others _ fun d member => distinct d (List.mem_of_mem_filter member), List.filter_filter,
        List.map_append, List.append_assoc]
      congr 2
      rw [List.map_append, List.map_singleton, List.map_singleton, List.singleton_append]
      congr 2
      apply List.filter_congr
      intro d _
      simp [Element.key_child]

theorem find?_shown {es : List Element} {e : Element} (leads : e ∈ leaders es) :
    (Element.shown es).find? (·.key = e.key) = some ⟨e.tuple, latest e.key es e.converted⟩ := by
  have keys : ((Element.shown es).map Child.key).Nodup := by
    rw [Element.shown, List.map_map]
    exact Element.key_leaders_nodup es
  have inside : (⟨e.tuple, latest e.key es e.converted⟩ : Child) ∈ Element.shown es :=
    List.mem_map_of_mem leads
  cases found : (Element.shown es).find? (·.key = e.key) with
  | none => exact (List.find?_eq_none.mp found _ inside (decide_eq_true rfl)).elim
  | some c =>
    have same : c.key = e.key := by simpa using List.find?_some found
    rw [List.inj_on_of_nodup_map keys (List.mem_of_find?_eq_some found) inside same]

theorem foldl_record_nil (es : List Element) : es.foldl record [] = Element.shown es := by
  rw [foldl_record, List.map_nil, List.nil_append, List.filter_eq_self.mpr (by simp)]
  rfl

/-- Children that show some elements show those that take their places once these are written. -/
theorem foldl_refresh_shown {es ds : List Element}
    (labels : ds.map (·.labels) = es.map (·.labels)) :
    ds.foldl refresh (Element.shown es) = Element.shown ds := by
  let child (labels : List Label) : Child :=
    ⟨Label.variableValues labels, latest (Element.keyOf labels) ds (.zero false)⟩
  have own (fs : List Element) (there : ∀ f ∈ fs, f.key ∈ ds.map Element.key)
      (x : Element → Binary64) :
      (fs.map fun f => (⟨f.tuple, latest f.key ds (x f)⟩ : Child))
        = (fs.map (·.labels)).map child := by
    rw [List.map_map]
    apply List.map_congr_left
    intro f member
    exact congrArg (Child.mk f.tuple) (Element.latest_eq (there f member) _ _)
  have inside : ∀ fs : List Element, fs.map Element.key = ds.map Element.key →
      ∀ f ∈ leaders fs, f.key ∈ ds.map Element.key := by
    intro fs keys f member
    exact keys ▸ List.mem_map_of_mem ((Element.leaders_sublist fs).subset member)
  calc ds.foldl refresh (Element.shown es)
      = (leaders es).map fun e => ⟨e.tuple, latest e.key ds (latest e.key es e.converted)⟩ := by
        rw [foldl_refresh, Element.shown, List.map_map]
        rfl
    _ = ((leaders es).map (·.labels)).map child :=
        own _ (inside es (Element.keys_labels labels).symm) _
    _ = ((leaders ds).map (·.labels)).map child := by rw [Element.leaders_labels labels]
    _ = Element.shown ds := (own _ (inside ds rfl) _).symm

end Series

end Telemetry

import Telemetry.Series.Vector

/-! Two ways in which a store of vectors changes: it may get more vectors, those there are staying
as they are, or some of its vectors may change their children and nothing else. -/
namespace Telemetry.Series.Store

variable {s t u : Store} {vs ws : List Nat}

theorem get?_modify (s : Store) (i j : Nat) (f : Vector → Vector) :
    (s.modify i f).get? j = if i = j then (s.get? j).map f else s.get? j := by
  simp only [modify, get?, List.getElem?_modify]
  split <;> simp

theorem modify_modify (s : Store) (i : Nat) (f g : Vector → Vector) :
    (s.modify i f).modify i g = s.modify i (g ∘ f) := by
  simp only [modify, List.modify_modify_eq]

theorem get?_add (s : Store) (v : Vector) (j : Nat) :
    (s.add v).2.get? j = if j = s.vectors.length then some v else s.get? j := by
  simp only [add, get?, List.getElem?_append, List.getElem?_singleton]
  split
  · rw [if_neg (by omega)]
  · split
    · rw [if_pos (by omega)]
    · rw [if_neg (by omega)]
      exact (List.getElem?_eq_none (by omega)).symm

theorem get?_lt {i : Nat} {v : Vector} (found : s.get? i = some v) : i < s.vectors.length :=
  (List.getElem?_eq_some_iff.mp found).1

theorem get?_isSome_iff {i : Nat} : (s.get? i).isSome ↔ i < s.vectors.length := by
  simp [get?]

theorem find?_set (v : Vector) (key other : Fingerprint) (value : Binary64) :
    (v.set key value).children.find? (·.key = other) =
      (v.children.find? (·.key = other)).map fun c => if other = key then { c with value } else c := by
  have keys : ((fun c : Child => decide (c.key = other)) ∘
      fun c => if c.key = key then { c with value } else c) = fun c => decide (c.key = other) := by
    funext c
    simp only [Function.comp_apply]
    split <;> rfl
  rw [Vector.set, List.find?_map, keys]
  cases found : v.children.find? (·.key = other) with
  | none => rfl
  | some c =>
    have named : c.key = other := by simpa using List.find?_some found
    simp only [Option.map_some, named]

theorem value?_set (s : Store) (ref other : Ref) (value : Binary64) :
    (s.set ref value).value? other =
      if other = ref then (s.value? other).map fun _ => value else s.value? other := by
  simp only [value?, set, get?_modify]
  obtain ⟨vector, key⟩ := ref
  obtain ⟨vector', key'⟩ := other
  by_cases same : vector = vector'
  · subst same
    cases s.get? vector with
    | none => simp
    | some v =>
      simp only [if_true, Option.map_some, Option.bind_some, find?_set, Option.map_map]
      cases v.children.find? (·.key = key') with
      | none => simp
      | some c => by_cases named : key' = key <;> simp [named]
  · have apart : ¬ (⟨vector', key'⟩ : Ref) = ⟨vector, key⟩ := fun here =>
      same (Ref.mk.inj here).1.symm
    simp only [if_neg same, if_neg apart]

def Extends (s t : Store) : Prop := ∀ i v, s.get? i = some v → t.get? i = some v

namespace Extends

theorem refl (s : Store) : Extends s s := fun _ _ h => h

theorem trans (first : Extends s t) (second : Extends t u) : Extends s u :=
  fun i v h => second i v (first i v h)

theorem length (h : Extends s t) : s.vectors.length ≤ t.vectors.length := by
  by_cases none : s.vectors.length = 0
  · omega
  · have last : s.vectors.length - 1 < s.vectors.length := by omega
    have found := h _ _ (List.getElem?_eq_getElem last)
    have inside := get?_lt found
    omega

theorem add (s : Store) (v : Vector) : Extends s (s.add v).2 := by
  intro i w found
  have inside := get?_lt found
  rw [get?_add, if_neg (by omega)]
  exact found

theorem get? (h : Extends s t) {i : Nat} (inside : i < s.vectors.length) :
    t.get? i = s.get? i := by
  have found : s.get? i = some s.vectors[i] := List.getElem?_eq_getElem inside
  rw [found]
  exact h i _ found

end Extends

/-- Only children of these vectors have changed. -/
structure Alters (vs : List Nat) (s t : Store) : Prop where
  count : t.vectors.length = s.vectors.length
  others : ∀ i, i ∉ vs → t.get? i = s.get? i
  framed : ∀ i v, s.get? i = some v → ∃ children, t.get? i = some { v with children }

namespace Alters

theorem refl (vs : List Nat) (s : Store) : Alters vs s s :=
  ⟨rfl, fun _ _ => rfl, fun _ v h => ⟨v.children, h⟩⟩

theorem trans (first : Alters vs s t) (second : Alters vs t u) : Alters vs s u := by
  refine ⟨second.count.trans first.count, ?_, ?_⟩
  · intro i outside
    exact (second.others i outside).trans (first.others i outside)
  · intro i v found
    obtain ⟨_, moved⟩ := first.framed i v found
    obtain ⟨children, again⟩ := second.framed i _ moved
    exact ⟨children, again⟩

theorem mono (h : Alters vs s t) (wider : ∀ i ∈ vs, i ∈ ws) : Alters ws s t :=
  ⟨h.count, fun i outside => h.others i fun hi => outside (wider i hi), h.framed⟩

theorem modify {i : Nat} (inside : i ∈ vs) (s : Store) (f : List Child → List Child) :
    Alters vs s (s.modify i fun v => { v with children := f v.children }) := by
  refine ⟨by simp [Store.modify], ?_, ?_⟩
  · intro j outside
    have apart : i ≠ j := fun h => outside (h ▸ inside)
    rw [get?_modify, if_neg apart]
  · intro j v found
    rw [get?_modify, found]
    split
    · exact ⟨_, rfl⟩
    · exact ⟨v.children, rfl⟩

theorem set {ref : Ref} (inside : ref.vector ∈ vs) (s : Store) (value : Binary64) :
    Alters vs s (s.set ref value) :=
  modify inside s _

theorem clear (vs : List Nat) (s : Store) : Alters vs s (s.clear vs) := by
  suffices all : ∀ ws, (∀ i ∈ ws, i ∈ vs) → ∀ s, Alters vs s (s.clear ws) from
    all vs (fun _ h => h) s
  intro ws
  induction ws with
  | nil => exact fun _ s => refl vs s
  | cons w ws ih =>
    intro inside s
    have head : Alters vs s (s.modify w Vector.clear) :=
      modify (inside w List.mem_cons_self) s fun _ => []
    exact head.trans (ih (fun i hi => inside i (List.mem_cons_of_mem _ hi)) _)

theorem descriptor (h : Alters vs s t) (i : Nat) :
    (t.get? i).map (·.descriptor) = (s.get? i).map (·.descriptor) := by
  cases found : s.get? i with
  | none =>
    have outside : ¬ i < t.vectors.length := by
      rw [h.count, ← get?_isSome_iff, found]
      simp
    rw [← get?_isSome_iff, Option.not_isSome_iff_eq_none] at outside
    rw [outside]
  | some v =>
    obtain ⟨children, moved⟩ := h.framed i v found
    rw [moved]
    rfl

theorem descriptors (h : Alters vs s t) (ws : List Nat) : t.descriptors ws = s.descriptors ws := by
  unfold Store.descriptors
  simp only [h.descriptor]

theorem keeps (h : Alters vs t u) (grown : Extends s t)
    (fresh : ∀ i ∈ vs, s.vectors.length ≤ i) : Extends s u := by
  intro i v found
  have inside := get?_lt found
  have outside : i ∉ vs := fun hi => by
    have := fresh i hi
    omega
  rw [h.others i outside]
  exact grown i v found

end Alters

end Telemetry.Series.Store

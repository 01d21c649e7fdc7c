import Mathlib.Data.List.Forall2
import Mathlib.Data.List.Nodup
import Mathlib.Data.List.Perm.Basic

/-! Computations that may fail, one after the other, and lists that are filtered or taken apart. -/
namespace Telemetry

theorem toOption_some {x : Except ε α} {a : α} (done : x.toOption = some a) : x = .ok a := by
  cases x with
  | error e => cases done
  | ok b => exact congrArg Except.ok (Option.some.inj done)

theorem bind_ok {x : Except ε α} {f : α → Except ε β} {b : β} (whole : x >>= f = .ok b) :
    ∃ a, x = .ok a ∧ f a = .ok b := by
  cases x with
  | error e => cases whole
  | ok a => exact ⟨a, rfl, whole⟩

theorem bind_error {x : Except ε α} {f : α → Except ε β} {e : ε} (failed : x >>= f = .error e) :
    x = .error e ∨ ∃ a, x = .ok a ∧ f a = .error e := by
  cases x with
  | error d =>
    cases failed
    exact .inl rfl
  | ok a => exact .inr ⟨a, rfl, failed⟩

theorem map_ok {x : Except ε α} {f : α → β} {b : β} (whole : x.map f = .ok b) :
    ∃ a, x = .ok a ∧ f a = b := by
  cases x with
  | error e => cases whole
  | ok a =>
    cases whole
    exact ⟨a, rfl, rfl⟩

theorem map_error {x : Except ε α} {f : α → β} {e : ε} (failed : x.map f = .error e) :
    x = .error e := by
  cases x with
  | error d =>
    cases failed
    rfl
  | ok a => cases failed

theorem mapError_ok {x : Except ε α} {g : ε → ε'} {a : α} (whole : x.mapError g = .ok a) :
    x = .ok a := by
  cases x with
  | error d => cases whole
  | ok b =>
    cases whole
    rfl

theorem mapError_error {x : Except ε α} {g : ε → ε'} {e : ε'} (failed : x.mapError g = .error e) :
    ∃ d, e = g d := by
  cases x with
  | error d =>
    cases failed
    exact ⟨d, rfl⟩
  | ok a => cases failed

theorem mapM_forall₂ {f : α → Except ε β} {xs : List α} {ys : List β}
    (whole : xs.mapM f = .ok ys) : List.Forall₂ (fun x y => f x = .ok y) xs ys := by
  induction xs generalizing ys with
  | nil =>
    cases whole
    exact .nil
  | cons x xs ih =>
    rw [List.mapM_cons] at whole
    obtain ⟨y, head, whole⟩ := bind_ok whole
    obtain ⟨rest, tail, whole⟩ := bind_ok whole
    cases whole
    exact .cons head (ih tail)

theorem mapM_congr {f g : α → Except ε β} {xs : List α} (same : ∀ x ∈ xs, f x = g x) :
    xs.mapM f = xs.mapM g := by
  induction xs with
  | nil => rfl
  | cons x rest ih =>
    rw [List.mapM_cons, List.mapM_cons, same x List.mem_cons_self,
      ih fun y member => same y (List.mem_cons_of_mem x member)]

theorem mapM_error {f : α → Except ε β} {xs : List α} {e : ε} (failed : xs.mapM f = .error e) :
    ∃ x ∈ xs, f x = .error e := by
  induction xs with
  | nil => cases failed
  | cons x xs ih =>
    rw [List.mapM_cons] at failed
    rcases bind_error failed with head | ⟨y, -, tail⟩
    · exact ⟨x, List.mem_cons_self, head⟩
    · rcases bind_error tail with rest | ⟨ys, -, none⟩
      · obtain ⟨z, member, same⟩ := ih rest
        exact ⟨z, List.mem_cons_of_mem _ member, same⟩
      · cases none

theorem mapM_isOk {f : α → Except ε β} {xs : List α} (each : ∀ x ∈ xs, ∃ y, f x = .ok y) :
    ∃ ys, xs.mapM f = .ok ys := by
  cases whole : xs.mapM f with
  | ok ys => exact ⟨ys, rfl⟩
  | error e =>
    obtain ⟨x, member, failed⟩ := mapM_error whole
    obtain ⟨y, done⟩ := each x member
    cases done.symm.trans failed

variable {R : α → β → Prop}

theorem forall₂_getElem? {xs : List α} {ys : List β} (each : List.Forall₂ R xs ys) {k : Nat} {x : α}
    (there : xs[k]? = some x) : ∃ y, ys[k]? = some y ∧ R x y := by
  obtain ⟨below, rfl⟩ := List.getElem?_eq_some_iff.mp there
  have inside : k < ys.length := each.length_eq ▸ below
  exact ⟨ys[k], List.getElem?_eq_getElem inside, (List.forall₂_iff_get.mp each).2 k below inside⟩

theorem forall₂_mem {xs : List α} {ys : List β} (each : List.Forall₂ R xs ys) :
    ∀ y ∈ ys, ∃ x ∈ xs, R x y := by
  induction each with
  | nil => simp
  | cons head _ ih =>
    intro y member
    rcases List.mem_cons.mp member with rfl | member
    · exact ⟨_, List.mem_cons_self, head⟩
    · obtain ⟨x, inside, related⟩ := ih y member
      exact ⟨x, List.mem_cons_of_mem _ inside, related⟩

theorem forall₂_trans {S : β → γ → Prop} {T : α → γ → Prop} {xs : List α} {ys : List β}
    {zs : List γ} (step : ∀ {x y z}, R x y → S y z → T x z) (first : List.Forall₂ R xs ys)
    (second : List.Forall₂ S ys zs) : List.Forall₂ T xs zs := by
  induction first generalizing zs with
  | nil =>
    cases second
    exact .nil
  | cons head _ ih =>
    cases second with
    | cons next rest => exact .cons (step head next) (ih rest)

theorem forall₂_map_eq {f : α → γ} {g : β → γ} {xs : List α} {ys : List β}
    (each : List.Forall₂ (fun x y => f x = g y) xs ys) : xs.map f = ys.map g := by
  rw [← List.forall₂_eq_eq_eq, List.forall₂_map_left_iff, List.forall₂_map_right_iff]
  exact each

theorem forall₂_flatMap_eq {f : α → List γ} {g : β → List γ} {xs : List α} {ys : List β}
    (each : List.Forall₂ (fun x y => f x = g y) xs ys) : xs.flatMap f = ys.flatMap g := by
  rw [List.flatMap_def, List.flatMap_def, forall₂_map_eq each]

theorem forall₂_middle {vs : List α} {before after : List β} {b : β}
    (h : List.Forall₂ R vs (before ++ b :: after)) :
    ∃ us v ws, vs = us ++ v :: ws ∧ List.Forall₂ R us before ∧ R v b ∧ List.Forall₂ R ws after := by
  induction before generalizing vs with
  | nil =>
    cases h with
    | cons head tail => exact ⟨[], _, _, rfl, .nil, head, tail⟩
  | cons c before ih =>
    cases h with
    | cons head tail =>
      obtain ⟨us, v, ws, rfl, left, here, right⟩ := ih tail
      exact ⟨_ :: us, v, ws, rfl, .cons head left, here, right⟩

theorem split_at {xs : List α} {i : Nat} {x : α} (inside : xs[i]? = some x) :
    xs = xs.take i ++ x :: xs.drop (i + 1) ∧
      ∀ y, xs.set i y = xs.take i ++ y :: xs.drop (i + 1) := by
  obtain ⟨below, rfl⟩ := List.getElem?_eq_some_iff.mp inside
  constructor
  · rw [List.getElem_cons_drop, List.take_append_drop]
  · intro y
    rw [List.set_eq_take_append_cons_drop, if_pos below]

theorem flatMap_eraseIdx (f : α → List β) {xs : List α} {i : Nat} {x : α}
    (inside : xs[i]? = some x) : (xs.flatMap f).Perm (f x ++ (xs.eraseIdx i).flatMap f) := by
  conv_lhs => rw [(split_at inside).1]
  rw [List.eraseIdx_eq_take_drop_succ, List.flatMap_append, List.flatMap_cons,
    List.flatMap_append]
  exact List.perm_append_comm_assoc _ _ _

theorem sum_split (f : α → Nat) {xs : List α} {i : Nat} {x : α} (inside : xs[i]? = some x) :
    (xs.map f).sum = f x + ((xs.eraseIdx i).map f).sum := by
  have split := congrArg (fun xs => (xs.map f).sum) (split_at inside).1
  simp only [List.map_append, List.map_cons, List.sum_append, List.sum_cons] at split
  rw [split, List.eraseIdx_eq_take_drop_succ, List.map_append, List.sum_append]
  omega

theorem map_fixed {f : α → α} {xs : List α} (fixed : ∀ x ∈ xs, f x = x) : xs.map f = xs := by
  conv_rhs => rw [← List.map_id xs]
  exact List.map_congr_left fixed

theorem filter_key_absent [DecidableEq β] (f : α → β) {key : β} {xs : List α}
    (absent : key ∉ xs.map f) : xs.filter (f · ≠ key) = xs := by
  apply List.filter_eq_self.mpr
  intro x member
  have apart : f x ≠ key := fun same => absent (List.mem_map.mpr ⟨x, member, same⟩)
  exact decide_eq_true apart

theorem filter_apart [DecidableEq α] {xs ys : List α} (apart : ∀ x ∈ xs, x ∉ ys) :
    xs.filter (· ∉ ys) = xs := by
  apply List.filter_eq_self.mpr
  intro x member
  exact decide_eq_true (apart x member)

theorem eraseDups_of_nodup [DecidableEq α] {xs : List α} (unique : xs.Nodup) :
    xs.eraseDups = xs := by
  induction xs with
  | nil => rfl
  | cons x xs ih =>
    obtain ⟨fresh, unique⟩ := List.nodup_cons.mp unique
    have rest : (xs.filter fun y => !y == x) = xs := by
      apply List.filter_eq_self.mpr
      intro y hy
      have apart : y ≠ x := fun h => fresh (h ▸ hy)
      simpa using apart
    rw [List.eraseDups_cons, rest, ih unique]

end Telemetry

import Telemetry.Block.Pass
import Telemetry.Proofs.Sequences

/-! Induction over a sweep and over a pass through a list. A property of a whole list and the state
beside it is kept when each single step keeps it in place, whether or not a fault cuts the walk
short; a walk without a fault has made its step on every member. A walk with one has made all steps
before it. Where the step takes members and states that correspond to ones that correspond, so do
walks. -/
namespace Telemetry

theorem sweep_in_place (step : α → σ → Except Fault α × σ) (P : List α → σ → Prop)
    (failed : ∀ before a after s f s', P (before ++ a :: after) s → step a s = (.error f, s') →
      P (before ++ a :: after) s')
    (done : ∀ before a after s b s', P (before ++ a :: after) s → step a s = (.ok b, s') →
      P (before ++ b :: after) s')
    (before as : List α) (s : σ) (start : P (before ++ as) s) :
    P (before ++ (sweep step as s).2.1) (sweep step as s).2.2 := by
  induction as generalizing before s with
  | nil => exact start
  | cons a after ih =>
    unfold sweep
    split
    · rename_i f s' hs
      exact failed before a after s f s' start hs
    · rename_i b s' hs
      have moved := done before a after s b s' start hs
      have rest := ih (before ++ [b]) s' (by simpa using moved)
      simpa using rest

theorem passOver_in_place (step : α → σ → Option Fault × α × σ) (P : List α → σ → Prop)
    (keeps : ∀ before a after s, P (before ++ a :: after) s →
      P (before ++ (step a s).2.1 :: after) (step a s).2.2)
    (before as : List α) (s : σ) (start : P (before ++ as) s) :
    P (before ++ (passOver step as s).2.1) (passOver step as s).2.2 := by
  induction as generalizing before s with
  | nil => exact start
  | cons a after ih =>
    have moved := keeps before a after s start
    unfold passOver
    split
    · rename_i f b s' hs
      rw [hs] at moved
      exact moved
    · rename_i b s' hs
      rw [hs] at moved
      have rest := ih (before ++ [b]) s' (by simpa using moved)
      simpa using rest

theorem sweep_forall₂ {step : α → σ → Except Fault α × σ} (I : σ → Prop) (R : α → α → Prop)
    (done : ∀ a s b s', I s → step a s = (.ok b, s') → I s' ∧ R a b)
    {as bs : List α} {s s' : σ} (start : I s) (whole : sweep step as s = (none, bs, s')) :
    I s' ∧ List.Forall₂ R as bs := by
  induction as generalizing s bs with
  | nil =>
    cases whole
    exact ⟨start, .nil⟩
  | cons a as ih =>
    unfold sweep at whole
    split at whole
    · cases whole
    · rename_i b t hs
      have one := done a s b t start hs
      cases hr : sweep step as t with | mk fault rest =>
      simp only [hr] at whole
      cases whole
      have tail := ih one.1 hr
      exact ⟨tail.1, .cons one.2 tail.2⟩

/-- A sweep that a fault may cut short: its members are stepped over, or left as they were. -/
theorem sweep_each {step : α → σ → Except Fault α × σ} (I : σ → Prop) (R : α → α → Prop)
    (failed : ∀ a s f s', I s → step a s = (.error f, s') → I s')
    (done : ∀ a s b s', I s → step a s = (.ok b, s') → I s' ∧ R a b)
    {as bs : List α} {s s' : σ} {fault : Option Fault} (start : I s)
    (swept : sweep step as s = (fault, bs, s')) :
    I s' ∧ List.Forall₂ (fun a b => R a b ∨ fault ≠ none ∧ b = a) as bs := by
  induction as generalizing s bs with
  | nil =>
    cases swept
    exact ⟨start, .nil⟩
  | cons a as ih =>
    cases here : step a s with | mk result u =>
    simp only [sweep, here] at swept
    cases result with
    | error f =>
      cases swept
      refine ⟨failed a s f _ start here, List.forall₂_same.mpr fun b _ => ?_⟩
      exact .inr ⟨by simp, rfl⟩
    | ok b =>
      cases rest : sweep step as u with | mk fault' tail =>
      simp only [rest] at swept
      cases swept
      have one := done a s b u start here
      obtain ⟨later, each⟩ := ih one.1 rest
      exact ⟨later, .cons (.inl one.2) each⟩

theorem passOver_forall₂ {step : α → σ → Option Fault × α × σ} (I : σ → Prop) (R : α → α → Prop)
    (done : ∀ a s b s', I s → step a s = (none, b, s') → I s' ∧ R a b)
    {as bs : List α} {s s' : σ} (start : I s) (whole : passOver step as s = (none, bs, s')) :
    I s' ∧ List.Forall₂ R as bs := by
  induction as generalizing s bs with
  | nil =>
    cases whole
    exact ⟨start, .nil⟩
  | cons a as ih =>
    unfold passOver at whole
    split at whole
    · cases whole
    · rename_i b t hs
      have one := done a s b t start hs
      cases hr : passOver step as t with | mk fault rest =>
      simp only [hr] at whole
      cases whole
      have tail := ih one.1 hr
      exact ⟨tail.1, .cons one.2 tail.2⟩

theorem sweep_beside {step : α → σ → Except Fault α × σ} (f : α → α) (R : σ → σ → Prop)
    (each : ∀ {a s t result s'}, R s t → step a s = (result, s') →
      ∃ t', step (f a) t = (result.map f, t') ∧ R s' t')
    {as bs : List α} {s t s' : σ} {fault : Option Fault} (start : R s t)
    (done : sweep step as s = (fault, bs, s')) :
    ∃ t', sweep step (as.map f) t = (fault, bs.map f, t') ∧ R s' t' := by
  induction as generalizing s t bs with
  | nil =>
    cases done
    exact ⟨t, rfl, start⟩
  | cons a as ih =>
    cases here : step a s with | mk result u =>
    obtain ⟨v, there, related⟩ := each start here
    simp only [sweep, here] at done
    simp only [List.map_cons, sweep, there]
    cases result with
    | error f =>
      cases done
      exact ⟨v, rfl, related⟩
    | ok b =>
      cases rest : sweep step as u with | mk failed tail =>
      simp only [rest] at done
      cases done
      obtain ⟨w, later, whole⟩ := ih related rest
      exact ⟨w, by simp only [Except.map, later, List.map_cons], whole⟩

theorem passOver_beside {step : α → σ → Option Fault × α × σ} (f : α → α) (R : σ → σ → Prop)
    (each : ∀ {a s t fault b s'}, R s t → step a s = (fault, b, s') →
      ∃ t', step (f a) t = (fault, f b, t') ∧ R s' t')
    {as bs : List α} {s t s' : σ} {fault : Option Fault} (start : R s t)
    (done : passOver step as s = (fault, bs, s')) :
    ∃ t', passOver step (as.map f) t = (fault, bs.map f, t') ∧ R s' t' := by
  induction as generalizing s t bs with
  | nil =>
    cases done
    exact ⟨t, rfl, start⟩
  | cons a as ih =>
    cases here : step a s with | mk failure moved =>
    obtain ⟨b, u⟩ := moved
    obtain ⟨v, there, related⟩ := each start here
    simp only [passOver, here] at done
    simp only [List.map_cons, passOver, there]
    cases failure with
    | some f =>
      cases done
      exact ⟨v, rfl, related⟩
    | none =>
      cases rest : passOver step as u with | mk failed tail =>
      simp only [rest] at done
      cases done
      obtain ⟨w, later, whole⟩ := ih related rest
      exact ⟨w, by simp only [later, List.map_cons], whole⟩

/-- The states in which a sweep comes to its members, up to one that faults. -/
def arrivals (step : α → σ → Except Fault α × σ) : List α → σ → List σ
  | [], _ => []
  | a :: rest, s =>
    s ::
      match step a s with
      | (.error _, _) => []
      | (.ok _, s) => arrivals step rest s

theorem arrivals_append {step : α → σ → Except Fault α × σ} {before ds : List α} {s u : σ}
    (done : sweep step before s = (none, ds, u)) (rest : List α) :
    arrivals step (before ++ rest) s = arrivals step before s ++ arrivals step rest u ∧
      (arrivals step before s).length = before.length := by
  induction before generalizing s ds with
  | nil =>
    cases done
    exact ⟨rfl, rfl⟩
  | cons a before ih =>
    cases here : step a s with | mk result v =>
    simp only [sweep, here] at done
    cases result with
    | error f => cases done
    | ok b =>
      cases later : sweep step before v with | mk fault others =>
      simp only [later] at done
      cases done
      obtain ⟨same, length⟩ := ih later
      simp [arrivals, here, same, length]

theorem sweep_append {step : α → σ → Except Fault α × σ} {before ds : List α} {s u : σ}
    (done : sweep step before s = (none, ds, u)) (rest : List α) :
    sweep step (before ++ rest) s =
      ((sweep step rest u).1, ds ++ (sweep step rest u).2.1, (sweep step rest u).2.2) := by
  induction before generalizing s ds with
  | nil =>
    cases done
    rfl
  | cons a before ih =>
    cases here : step a s with | mk result v =>
    simp only [sweep, here] at done
    cases result with
    | error f => cases done
    | ok b =>
      cases later : sweep step before v with | mk fault others =>
      simp only [later] at done
      cases done
      simp only [List.cons_append, sweep, here, ih later]

theorem sweep_come {step : α → σ → Except Fault α × σ} {as : List α} {s u : σ} {i : Nat}
    (here : (arrivals step as s)[i]? = some u) :
    ∃ ds, sweep step (as.take i) s = (none, ds, u) ∧ ds.length = i := by
  induction as generalizing s i with
  | nil => cases here
  | cons a rest ih =>
    cases i with
    | zero =>
      cases here
      exact ⟨[], rfl, rfl⟩
    | succ i =>
      cases moved : step a s with | mk result v =>
      simp only [arrivals, moved, List.getElem?_cons_succ] at here
      cases result with
      | error f => cases here
      | ok b =>
        obtain ⟨ds, through, length⟩ := ih here
        exact ⟨b :: ds, by simp only [List.take_succ_cons, sweep, moved, through],
          congrArg Nat.succ length⟩

theorem arrivals_done {step : α → σ → Except Fault α × σ} {as bs : List α} {s t u : σ} {i : Nat}
    {a : α} (done : sweep step as s = (none, bs, t)) (there : as[i]? = some a)
    (here : (arrivals step as s)[i]? = some u) :
    ∃ b v, step a u = (.ok b, v) ∧ bs[i]? = some b := by
  induction as generalizing s bs i with
  | nil => cases there
  | cons first rest ih =>
    cases moved : step first s with | mk result v =>
    simp only [sweep, moved] at done
    cases result with
    | error f => cases done
    | ok b =>
      cases later : sweep step rest v with | mk fault others =>
      simp only [later] at done
      cases done
      cases i with
      | zero =>
        cases there
        cases here
        exact ⟨b, v, moved, rfl⟩
      | succ i =>
        simp only [arrivals, moved, List.getElem?_cons_succ] at there here
        obtain ⟨c, w, stepped, placed⟩ := ih later there here
        exact ⟨c, w, stepped, placed⟩

theorem sweep_stopped {step : α → σ → Except Fault α × σ} {as bs : List α} {s t : σ} {f : Fault}
    (stopped : sweep step as s = (some f, bs, t)) :
    ∃ before a after ds u, as = before ++ a :: after ∧ bs = ds ++ a :: after ∧
      sweep step before s = (none, ds, u) ∧ step a u = (.error f, t) := by
  induction as generalizing s bs with
  | nil => cases stopped
  | cons first rest ih =>
    cases here : step first s with | mk result v =>
    simp only [sweep, here] at stopped
    cases result with
    | error g =>
      cases stopped
      exact ⟨[], first, rest, [], s, rfl, rfl, rfl, here⟩
    | ok b =>
      cases later : sweep step rest v with | mk fault others =>
      simp only [later] at stopped
      cases stopped
      obtain ⟨before, a, after, ds, u, split, left, through, failed⟩ := ih later
      refine ⟨first :: before, a, after, b :: ds, u, ?_, ?_, ?_, failed⟩
      · rw [split, List.cons_append]
      · rw [left, List.cons_append]
      · simp only [sweep, here, through]

/-- A sweep over states of which the step sees only a part. -/
theorem sweep_through {step : α → σ → Except Fault α × σ} {view : α → τ → Except Fault α × τ}
    (part : σ → τ) (each : ∀ a s, view a (part s) = ((step a s).1, part (step a s).2))
    (as : List α) (s : σ) :
    sweep view as (part s) =
      ((sweep step as s).1, (sweep step as s).2.1, part (sweep step as s).2.2) := by
  induction as generalizing s with
  | nil => rfl
  | cons a rest ih =>
    simp only [sweep, each]
    cases step a s with | mk result t =>
    cases result with
    | error f => rfl
    | ok b => simp only [ih]

end Telemetry

import Telemetry.Proofs.Timing

/-! What a replay tells of itself. Its series are those that the exporter's metrics were registered
with: each of them shows one value, in a vector of its own. So a row that is written counts, the
position behind it is shown, and neither disturbs the other. -/
namespace Telemetry

open Series (Ref Store)

/-! ### Series of one value -/

namespace Series.Store

variable {s : Store} {ref other : Ref} {value : Binary64}

theorem value?_set_self (present : (s.value? ref).isSome) :
    (s.set ref value).value? ref = some value := by
  obtain ⟨old, known⟩ := Option.isSome_iff_exists.mp present
  rw [value?_set, if_pos rfl, known, Option.map_some]

theorem value?_set_other (apart : other.vector ≠ ref.vector) :
    (s.set ref value).value? other = s.value? other := by
  rw [value?_set, if_neg fun same => apart (congrArg (·.vector) same)]

theorem count_increment (s : Store) (ref : Ref) :
    (s.increment ref).count ref = s.count ref + 1 := by
  simp [increment, count]

end Series.Store

namespace SelfMetrics

def Apart (m : SelfMetrics) : Prop := (m.progress.map (·.vector)).Nodup

structure Spares (m : SelfMetrics) (s t : Store) : Prop where
  count : t.count m.samples = s.count m.samples
  samples : t.value? m.samples = s.value? m.samples
  position : t.value? m.position = s.value? m.position

/-- The count of rows goes up with each of them, and the position shows the last one. -/
structure Tells (m : SelfMetrics) (before : UInt64) (log : List Replay.Write) (s : Store) :
    Prop where
  count : s.count m.samples = before + .ofNat log.length
  samples : ∃ x, s.value? m.samples = some x ∧
    (log ≠ [] → x = .ofWord (before + .ofNat log.length))
  position : ∃ x, s.value? m.position = some x ∧
    ∀ w, log.getLast? = some w → x = .ofNat (w.row + 1)

variable {m : SelfMetrics} {before : UInt64} {log : List Replay.Write} {s t : Store}

theorem Tells.spared (h : m.Tells before log s) (spared : m.Spares s t) :
    m.Tells before log t :=
  ⟨spared.count.trans h.count, spared.samples ▸ h.samples, spared.position ▸ h.position⟩

theorem Tells.plays (h : m.Tells before log s) (apart : m.Apart) {position total : Nat}
    {speed : Binary64} {due : Nat} {shared : Shared} (here : shared.store = s) :
    m.Tells before (log ++ [⟨due, position⟩])
      (m.setReplay (position + 1) total speed (m.countSample shared)).store := by
  simp only [Apart, progress, List.map_cons, List.map_nil, List.nodup_cons, List.mem_cons,
    List.not_mem_nil, or_false, not_or] at apart
  obtain ⟨⟨first, second, third⟩, ⟨fourth, fifth⟩, -, -⟩ := apart
  subst here
  have length : (log ++ [(⟨due, position⟩ : Replay.Write)]).length = log.length + 1 :=
    List.length_append
  have counted : shared.store.count m.samples + 1 = before + .ofNat (log.length + 1) := by
    rw [h.count, UInt64.ofNat_add, UInt64.add_assoc]
    rfl
  obtain ⟨x, samples, -⟩ := h.samples
  obtain ⟨y, shown, -⟩ := h.position
  constructor
  · rw [length, ← counted]
    exact shared.store.count_increment m.samples
  · refine ⟨_, ?_, fun _ => rfl⟩
    rw [length, ← counted]
    simp only [setReplay, countSample]
    rw [Store.value?_set_other third, Store.value?_set_other second, Store.value?_set_other first]
    exact Store.value?_set_self (by rw [samples]; rfl)
  · refine ⟨.ofNat (position + 1), ?_, ?_⟩
    · simp only [setReplay, countSample]
      rw [Store.value?_set_other fifth, Store.value?_set_other fourth]
      apply Store.value?_set_self
      have kept : (shared.store.increment m.samples).value? m.position =
          shared.store.value? m.position := Store.value?_set_other (Ne.symm first)
      rw [kept, shown]
      rfl
    · intro w last
      rw [List.getLast?_concat] at last
      cases last
      rfl

end SelfMetrics

/-! ### The exporter's metrics as they are registered -/

namespace SelfMetrics

variable {registry : Nat} {s t : Shared} {m : SelfMetrics}

theorem registerOne_ok {v : Series.Vector} {ref : Ref}
    (done : registerOne registry v s = (.ok ref, t)) :
    ref = only s.store.vectors.length ∧ t.store.vectors = s.store.vectors ++ [v] := by
  simp only [registerOne, Prod.mk.injEq] at done
  obtain ⟨kept, rfl⟩ := done
  refine ⟨?_, rfl⟩
  revert kept
  generalize (Series.Registry.register _ _ _).1 = result
  intro kept
  cases result with
  | error _ => cases kept
  | ok _ =>
    cases kept
    rfl

theorem registerAll_ok {vs : List Series.Vector} {refs : List Ref}
    (done : registerAll registry vs s = (.ok refs, t)) :
    refs = (List.range vs.length).map (fun i => only (s.store.vectors.length + i)) ∧
      t.store.vectors = s.store.vectors ++ vs := by
  induction vs generalizing s refs with
  | nil =>
    cases done
    exact ⟨rfl, (List.append_nil _).symm⟩
  | cons v rest ih =>
    unfold registerAll at done
    split at done
    · cases done
    · rename_i ref u first
      split at done
      · cases done
      · rename_i others w later
        cases done
        obtain ⟨rfl, one⟩ := registerOne_ok first
        obtain ⟨rfl, all⟩ := ih later
        constructor
        · rw [List.length_cons, List.range_succ_eq_map, List.map_cons, List.map_map, one,
            List.length_append]
          refine congrArg₂ List.cons rfl (List.map_congr_left fun i _ => ?_)
          simp only [Function.comp_apply, List.length_singleton, Nat.succ_eq_add_one]
          congr 1
          omega
        · rw [all, one, List.append_assoc]
          rfl

theorem register_ok (done : register registry s = (.ok m, t)) :
    m.Apart ∧ ∀ ref ∈ m.progress, (t.store.value? ref).isSome := by
  unfold register at done
  split at done
  · cases done
  · rename_i scrapes samples position totalSamples speed u all
    cases done
    obtain ⟨refs, vectors⟩ := registerAll_ok all
    simp only [SelfMetrics.vectors, List.length_cons, List.length_nil] at refs
    cases refs
    constructor
    · simp [Apart, progress, only]
    · simp only [progress, List.forall_mem_cons]
      simp [Store.value?, Store.get?, vectors, only, SelfMetrics.vectors, samplesVector,
        positionVector, totalSamplesVector, speedVector, vector, Series.Child.key]
  · cases done

end SelfMetrics

end Telemetry

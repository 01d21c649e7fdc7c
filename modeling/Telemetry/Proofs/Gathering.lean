import Mathlib.Data.List.Perm.Basic
import Telemetry.Series.Registry

/-! What gathering yields, whatever the order: every child of every vector of every collector, once,
under the name of its vector. Merging families of one name and sorting only move lines. -/
namespace Telemetry.Series

structure Line where
  name : String
  sample : Sample
deriving DecidableEq

namespace Family

def lines (f : Family) : List Line := f.samples.map fun sample => ⟨f.name, sample⟩

theorem lines_merge (f : Family) (fs : List Family) :
    ((Registry.merge f fs).flatMap lines).Perm (fs.flatMap lines ++ f.lines) := by
  induction fs with
  | nil => simp [Registry.merge]
  | cons g rest ih =>
    unfold Registry.merge
    split
    · rename_i same
      have joined : lines { g with samples := g.samples ++ f.samples } = g.lines ++ f.lines := by
        simp only [lines, List.map_append, same]
      rw [List.flatMap_cons, List.flatMap_cons, joined, List.append_assoc, List.append_assoc]
      exact List.perm_append_comm.append_left _
    · rw [List.flatMap_cons, List.flatMap_cons, List.append_assoc]
      exact ih.append_left _

theorem lines_foldl_merge (fs gs : List Family) :
    ((fs.foldl (fun families f => Registry.merge f families) gs).flatMap lines).Perm
      (gs.flatMap lines ++ fs.flatMap lines) := by
  induction fs generalizing gs with
  | nil => simp
  | cons f rest ih =>
    rw [List.foldl_cons, List.flatMap_cons, ← List.append_assoc]
    exact (ih _).trans ((lines_merge f gs).append_right _)

theorem lines_filter (fs : List Family) :
    (fs.filter (!·.samples.isEmpty)).flatMap lines = fs.flatMap lines := by
  induction fs with
  | nil => rfl
  | cons f rest ih =>
    cases empty : f.samples.isEmpty with
    | true =>
      have none : f.lines = [] := by simpa [lines] using empty
      rw [List.filter_cons_of_neg (by simp [empty]), ih, List.flatMap_cons, none, List.nil_append]
    | false =>
      rw [List.filter_cons_of_pos (by simp [empty]), List.flatMap_cons, List.flatMap_cons, ih]

end Family

namespace Store

def lines (s : Store) (i : Nat) : List Line :=
  match s.get? i with
  | some v => v.family.lines
  | none => []

theorem lines_families (s : Store) (vectors : List Nat) :
    (s.families vectors).flatMap Family.lines = vectors.flatMap s.lines := by
  induction vectors with
  | nil => rfl
  | cons i rest ih =>
    rw [families] at ih ⊢
    rw [List.flatMap_cons, lines]
    cases found : s.get? i with
    | none => rw [List.filterMap_cons_none (by simp [found]), ih, List.nil_append]
    | some v =>
      rw [List.filterMap_cons_some (b := v.family) (by simp [found]), List.flatMap_cons, ih]

end Store

theorem Registry.gather_lines (r : Registry) (s : Store) :
    ((r.gather s).flatMap Family.lines).Perm
      ((r.entries.flatMap (·.vectors)).flatMap s.lines) := by
  have samples : ∀ fs : List Family, ((fs.map fun f =>
      { f with samples := f.samples.mergeSort fun a b =>
          Registry.valuesLE (a.labels.map (·.2)) (b.labels.map (·.2)) }).flatMap Family.lines).Perm
      (fs.flatMap Family.lines) := by
    intro fs
    rw [List.flatMap_map]
    refine List.Perm.flatMap_left fs fun f _ => ?_
    exact (List.mergeSort_perm _ _).map _
  have families : (r.entries.flatMap fun e => s.families e.vectors).flatMap Family.lines
      = (r.entries.flatMap (·.vectors)).flatMap s.lines := by
    rw [List.flatMap_assoc, List.flatMap_assoc]
    exact List.flatMap_congr fun e _ => s.lines_families e.vectors
  unfold gather
  refine ((List.mergeSort_perm _ _).flatMap_right _).trans ((samples _).trans ?_)
  apply (Family.lines_foldl_merge _ []).trans
  rw [List.flatMap_nil, List.nil_append, Family.lines_filter, families]

theorem Registry.gather_ne_nil {r : Registry} {s : Store}
    (lines : 0 < ((r.entries.flatMap (·.vectors)).flatMap s.lines).length) : r.gather s ≠ [] := by
  intro none
  have same := (r.gather_lines s).length_eq
  rw [none, List.flatMap_nil, List.length_nil] at same
  exact Nat.ne_of_lt lines same

end Telemetry.Series

import Mathlib.Data.List.FinRange
import Mathlib.Data.List.Induction
import Telemetry.Proofs.Ordering
import Telemetry.Report.Layout

/-! How rows come to be lines. Rows of one name are gathered into a group, the groups in the order
in which their names come up; then the groups are sorted by name. What comes out is one arrangement
of all rows, said here for their numbers. -/
namespace Telemetry

namespace Report

/-! ### Names in the order in which they come up -/

theorem eraseDups_snoc (names : List String) (name : String) :
    (names ++ [name]).eraseDups =
      if name ∈ names then names.eraseDups else names.eraseDups ++ [name] := by
  rw [List.eraseDups_append]
  split
  · rename_i known
    simp [List.removeAll, known]
  · rename_i fresh
    simp [List.removeAll, fresh, List.eraseDups_cons]

theorem eraseDups_appearing (names : List String) :
    names.eraseDups.Pairwise fun a b => names.idxOf a < names.idxOf b := by
  induction names using List.reverseRecOn with
  | nil => exact .nil
  | append_singleton names name ih =>
    have same : names.eraseDups.Pairwise fun a b =>
        (names ++ [name]).idxOf a < (names ++ [name]).idxOf b := by
      refine ih.imp_of_mem fun first second before => ?_
      rw [List.idxOf_append_of_mem (List.mem_eraseDups.mp first),
        List.idxOf_append_of_mem (List.mem_eraseDups.mp second)]
      exact before
    rw [eraseDups_snoc]
    split
    · exact same
    · rename_i fresh
      refine List.pairwise_append.mpr ⟨same, List.pairwise_singleton _ _, ?_⟩
      intro a member b last
      have known := List.mem_eraseDups.mp member
      rw [List.mem_singleton.mp last, List.idxOf_append_of_mem known,
        List.idxOf_append_of_notMem fresh]
      exact Nat.lt_add_right _ (List.idxOf_lt_length_of_mem known)

theorem eraseDups_nodup (names : List String) : names.eraseDups.Nodup := by
  refine (eraseDups_appearing names).imp fun before same => ?_
  rw [same] at before
  exact Nat.lt_irrefl _ before

/-! ### Groups -/

section Groups

variable (shown : Row → String)

def groupOf (rows : List Row) (name : String) : Group :=
  ⟨name, rows.filter fun r => shown r = name⟩

@[simp]
theorem groupOf_name (rows : List Row) (name : String) : (groupOf shown rows name).name = name :=
  rfl

theorem groupOf_other {rows : List Row} {r : Row} {name : String} (other : shown r ≠ name) :
    groupOf shown (rows ++ [r]) name = groupOf shown rows name := by
  simp [groupOf, other]

theorem addRow_groups (rows : List Row) (r : Row) {names : List String} (distinct : names.Nodup) :
    addRow (shown r) r (names.map (groupOf shown rows)) =
      if shown r ∈ names then names.map (groupOf shown (rows ++ [r]))
      else names.map (groupOf shown (rows ++ [r])) ++ [⟨shown r, [r]⟩] := by
  induction names with
  | nil => rfl
  | cons name rest ih =>
    obtain ⟨apart, distinct⟩ := List.nodup_cons.mp distinct
    rw [List.map_cons, addRow, groupOf_name]
    by_cases here : name = shown r
    · subst here
      have others : rest.map (groupOf shown rows) = rest.map (groupOf shown (rows ++ [r])) := by
        refine List.map_congr_left fun text member => ?_
        exact (groupOf_other shown fun same => apart (same ▸ member)).symm
      rw [if_pos rfl, if_pos List.mem_cons_self, List.map_cons, others]
      simp [groupOf]
    · have elsewhere : shown r ∈ name :: rest ↔ shown r ∈ rest := by
        simp [Ne.symm here]
      rw [if_neg here, ih distinct, List.map_cons, groupOf_other shown (Ne.symm here)]
      simp only [elsewhere]
      split <;> rfl

theorem foldl_addRow (rows : List Row) :
    rows.foldl (fun gs r => addRow (shown r) r gs) [] =
      (rows.map shown).eraseDups.map (groupOf shown rows) := by
  induction rows using List.reverseRecOn with
  | nil => rfl
  | append_singleton rows r ih =>
    rw [List.foldl_append, ih, List.foldl_cons, List.foldl_nil,
      addRow_groups shown rows r (eraseDups_nodup _), List.map_append, List.map_singleton,
      eraseDups_snoc]
    simp only [List.mem_eraseDups]
    split
    · rfl
    · rename_i fresh
      have alone : groupOf shown (rows ++ [r]) (shown r) = ⟨shown r, [r]⟩ := by
        have none : rows.filter (fun x => shown x = shown r) = [] := by
          refine List.filter_eq_nil_iff.mpr fun x member same => fresh ?_
          exact of_decide_eq_true same ▸ List.mem_map_of_mem member
        simp [groupOf, none]
      rw [List.map_append, List.map_singleton, alone]

end Groups

/-! ### The arrangement -/

variable {n : Nat}

/-- An order in which all rows are printed under their names. Names do not descend, rows of one name
stand together as they came, and of two names that compare equal the one that came up first. -/
structure Arranged (name : Fin n → String) (order : List (Fin n)) : Prop where
  complete : order.Perm (List.finRange n)
  ascending : order.Pairwise fun i j => naturalCompare (name i) (name j) ≠ .gt
  together : ∀ i j k, [i, j, k].Sublist order → name i = name k → name j = name i
  inTurn : order.Pairwise fun i j => name i = name j → i < j
  firstSeen : order.Pairwise fun i j => naturalCompare (name i) (name j) = .eq →
    (List.ofFn name).idxOf (name i) ≤ (List.ofFn name).idxOf (name j)

def arrangement (name : Fin n → String) : List (Fin n) :=
  (naturalSort id (List.ofFn name).eraseDups).flatMap fun text =>
    (List.finRange n).filter (name · = text)

section Arrangement

variable (name : Fin n → String)

theorem arrangement_pairwise {R : String → String → Prop} {S : Fin n → Fin n → Prop}
    (between : (naturalSort id (List.ofFn name).eraseDups).Pairwise R)
    (apart : ∀ i j, R (name i) (name j) → S i j)
    (within : ∀ i j, i < j → name i = name j → S i j) : (arrangement name).Pairwise S := by
  have named {text : String} {i : Fin n} (member : i ∈ (List.finRange n).filter (name · = text)) :
      name i = text := of_decide_eq_true (List.mem_filter.mp member).2
  refine List.pairwise_flatMap.mpr ⟨?_, ?_⟩
  · intro text _
    refine ((List.pairwise_lt_finRange n).filter _).imp_of_mem fun first second less => ?_
    exact within _ _ less ((named first).trans (named second).symm)
  · refine between.imp fun related i first j second => apart i j ?_
    rw [named first, named second]
    exact related

theorem sorted_nodup : (naturalSort id (List.ofFn name).eraseDups).Nodup :=
  (naturalSort_perm id _).nodup_iff.mpr (eraseDups_nodup _)

theorem mem_arrangement (i : Fin n) : i ∈ arrangement name := by
  refine List.mem_flatMap.mpr ⟨name i, ?_, by simp⟩
  refine (naturalSort_perm id _).mem_iff.mpr (List.mem_eraseDups.mpr ?_)
  exact (List.mem_ofFn' ..).mpr ⟨i, rfl⟩

theorem arrangement_nodup : (arrangement name).Nodup :=
  arrangement_pairwise name (sorted_nodup name) (fun _ _ differ same => differ (congrArg name same))
    fun _ _ less _ => Fin.ne_of_lt less

theorem arrangement_inTurn : (arrangement name).Pairwise fun i j => name i = name j → i < j :=
  arrangement_pairwise name (sorted_nodup name) (fun _ _ differ same => absurd same differ)
    fun _ _ less _ _ => less

theorem arrangement_ascending :
    (arrangement name).Pairwise fun i j => naturalCompare (name i) (name j) ≠ .gt := by
  refine arrangement_pairwise name (naturalSort_ascending id _) (fun _ _ ordered => ordered) ?_
  intro i j _ same
  have equal : naturalCompare (name j) (name j) = .eq := Std.ReflCmp.compare_self
  rw [same, equal]
  decide

theorem arrangement_firstSeen :
    (arrangement name).Pairwise fun i j => naturalCompare (name i) (name j) = .eq →
      (List.ofFn name).idxOf (name i) ≤ (List.ofFn name).idxOf (name j) := by
  have stable := naturalSort_stable id _ (eraseDups_appearing (List.ofFn name))
  refine arrangement_pairwise name stable (fun i j before alike => (before alike).le) ?_
  intro i j _ same _
  rw [same]

theorem arrangement_together (i j k : Fin n) (placed : [i, j, k].Sublist (arrangement name))
    (same : name i = name k) : name j = name i := by
  have first : [i, j].Sublist (arrangement name) := .trans (by simp) placed
  have second : [j, k].Sublist (arrangement name) := .trans (by simp) placed
  have swapped : naturalCompare (name j) (name i) = (naturalCompare (name i) (name j)).swap :=
    Std.OrientedCmp.eq_swap
  have up := List.pairwise_iff_forall_sublist.mp (arrangement_ascending name) first
  have down := List.pairwise_iff_forall_sublist.mp (arrangement_ascending name) second
  rw [← same, swapped] at down
  have alike : naturalCompare (name i) (name j) = .eq := by
    cases order : naturalCompare (name i) (name j) <;> simp_all
  have back : naturalCompare (name j) (name k) = .eq := by
    rw [← same, swapped, alike]
    rfl
  have here := List.pairwise_iff_forall_sublist.mp (arrangement_firstSeen name) first alike
  have there := List.pairwise_iff_forall_sublist.mp (arrangement_firstSeen name) second back
  rw [← same] at there
  refine (List.idxOf_inj ?_).mp (Nat.le_antisymm there here)
  exact (List.mem_ofFn' ..).mpr ⟨j, rfl⟩

theorem arrangement_arranged : Arranged name (arrangement name) where
  complete := (List.perm_ext_iff_of_nodup (arrangement_nodup name) (List.nodup_finRange n)).mpr
    fun i => ⟨fun _ => List.mem_finRange i, fun _ => mem_arrangement name i⟩
  ascending := arrangement_ascending name
  together := arrangement_together name
  inTurn := arrangement_inTurn name
  firstSeen := arrangement_firstSeen name

section Rows

variable {name} {options : Options} {row : Fin n → Row}
  (named : ∀ k, displayName options (List.ofFn row) (row k) = name k)

include named

theorem sorted_groups : naturalSort Group.name (groups options (List.ofFn row)) =
    (naturalSort id (List.ofFn name).eraseDups).map
      (groupOf (displayName options (List.ofFn row)) (List.ofFn row)) := by
  have names : (List.ofFn row).map (displayName options (List.ofFn row)) = List.ofFn name := by
    rw [List.map_ofFn]
    exact congrArg List.ofFn (funext named)
  rw [groups, foldl_addRow, names, naturalSort, naturalSort]
  refine (List.map_mergeSort ?_).symm
  exact fun _ _ _ _ => rfl

theorem mem_sorted_groups (text : String) :
    text ∈ (naturalSort Group.name (groups options (List.ofFn row))).map (·.name) ↔
      ∃ k, name k = text := by
  simp [sorted_groups named, (naturalSort_perm id _).mem_iff, List.mem_eraseDups]

theorem groupOf_rows (text : String) :
    (groupOf (displayName options (List.ofFn row)) (List.ofFn row) text).rows =
      ((List.finRange n).filter (name · = text)).map row := by
  generalize displayName options (List.ofFn row) = shown at named
  have alike : (fun r => decide (shown r = text)) ∘ row = fun k => decide (name k = text) := by
    funext k
    rw [Function.comp_apply, named]
  rw [groupOf, List.ofFn_eq_map, List.filter_map, alike]

/-- The sorted groups are the arrangement, whatever is printed of each row under its name. -/
theorem groups_arrangement {α : Type} (printed : String → Row → List α) :
    (naturalSort Group.name (groups options (List.ofFn row))).flatMap
        (fun g => g.rows.flatMap (printed g.name)) =
      (arrangement name).flatMap fun k => printed (name k) (row k) := by
  rw [sorted_groups named, List.flatMap_map, arrangement, List.flatMap_assoc]
  refine List.flatMap_congr fun text _ => ?_
  rw [groupOf_name, groupOf_rows named, List.flatMap_map]
  refine List.flatMap_congr fun k member => ?_
  rw [of_decide_eq_true (List.mem_filter.mp member).2]

end Rows

end Arrangement

end Report

end Telemetry

import Telemetry.Proofs.Following
import Telemetry.Proofs.Turning
import Telemetry.Replay.Clock

/-! A replay beside everything that shares the exporter. Turns of the replay, actions on domains and
zones, and changes of other registers come in any order. The registers of the replay are told by its
loops and its position in every state, so each pass over a zone is put down with these two. -/
namespace Telemetry

open Register (Window)
open Replay (Engine Scene)

structure Theatre where
  engine : Engine
  /-- How often the dataset has started over. -/
  loops : Nat
  windows : List Window
  site : Site StockDriver

inductive Cue where
  | wake (now : Nat)
  | turn
  | halt
  /-- Registers that are not those of the replay change. -/
  | device (window : Nat) (contents : Window)
  | act (now : Nat) (action : Action StockDriver)

/-- A pass over a zone, and how far the replay was at that time. -/
structure Sight where
  pass : Pass
  loops : Nat
  position : Nat

namespace Theatre

def opening (windows : List Window) (site : Site StockDriver) (d : Dataset)
    (settings : Replay.Settings) (metrics : Option SelfMetrics) : Theatre :=
  ⟨.create d settings windows.length metrics, 0,
    windows ++ [.ofSize .memory (Engine.windowSize d)], site⟩

def scene (s : Theatre) : Scene := ⟨s.windows, s.site.shared⟩

def env (s : Theatre) (now : Nat) : Surroundings := .plain s.windows now

def moved (s : Theatre) (after : Engine × Scene) : Theatre :=
  { s with engine := after.1, windows := after.2.windows, site.shared := after.2.shared }

def step (cue : Cue) (s : Theatre) : Theatre :=
  match cue with
  | .wake now => s.moved (Replay.awaken now s.engine s.scene)
  | .turn =>
    { s.moved (s.engine.turn s.scene) with
      loops := if s.engine.restarts then s.loops + 1 else s.loops }
  | .halt => { s with engine := s.engine.halt }
  | .device i contents =>
    if i = s.engine.window then s else { s with windows := s.windows.set i contents }
  | .act now action => { s with site := (s.site.perform (s.env now) action).2 }

def run (cues : List Cue) (s : Theatre) : Theatre := cues.foldl (fun s cue => s.step cue) s

def next (s : Theatre) (cue : Cue) (place : Place) : Option Place :=
  match cue with
  | .act now action => s.site.next (s.env now) action place
  | _ => some place

def sights (s : Theatre) (cue : Cue) (place : Place) : List Sight :=
  match cue with
  | .act now action =>
    (s.site.passes (s.env now) action place).map fun p => ⟨p, s.loops, s.engine.position⟩
  | _ => []

def follow : List Cue → Theatre → Place → Option (Place × List Sight)
  | [], _, place => some (place, [])
  | cue :: rest, s, place =>
    (s.next cue place).bind fun place' =>
      (follow rest (s.step cue) place').map fun (last, later) =>
        (last, s.sights cue place ++ later)

/-- Every state of a theatre that opened with this replay. -/
structure Sound (count : Nat) (first : Engine) (s : Theatre) : Prop where
  kept : first.Kept s.engine
  holds : s.engine.Holds s.loops s.windows
  listed : ∀ m, first.metrics = some m → m.Listed s.site.guests
  coherent : s.site.Coherent count
  numbered : s.site.Numbered

end Theatre

namespace Site

variable {δ : Type} [Driver δ]

theorem perform_guests (env : Surroundings) (action : Action δ) (s : Site δ) :
    ∀ g ∈ s.guests, g ∈ (s.perform env action).2.guests := by
  intro g member
  cases action with
  | enlist registry vector =>
    simp only [perform]
    split
    · split
      · exact member
      · exact List.mem_append_left _ member
    · exact member
  | _ =>
    simp only [perform]
    repeat' split
    all_goals exact member

omit [Driver δ] in
theorem passes_env (s : Site δ) (env : Surroundings) (action : Action δ) (place : Place) :
    ∀ p ∈ s.passes env action place, p.env = env := by
  have treated (effect : Effect) (handle : ZoneHandle) (z : Zone δ) :
      ∀ p ∈ effect.passes env handle z, p.env = env := by
    intro p member
    unfold Effect.passes at member
    split at member
    · rename_i treatment _
      cases treatment with
      | pass clear =>
        simp only [Treatment.passes] at member
        split at member <;> simp_all
      | enable clear =>
        simp only [Treatment.passes] at member
        split at member <;> simp_all
      | disable => cases member
    · cases member
  intro p member
  unfold passes at member
  split at member
  · split at member
    · split at member
      · exact treated _ _ _ p member
      · cases member
    · cases member
  · cases member

end Site

namespace Theatre

variable {count : Nat} {first : Engine} {s : Theatre}

theorem Sound.shared (h : s.Sound count first) {t : Shared}
    (mirror : Mirror count s.site.mounts s.site.guests t) :
    ({ s.site with shared := t } : Site StockDriver).Coherent count :=
  h.coherent.shared mirror

theorem Sound.step (h : s.Sound count first) (table : first.dataset.Tabular)
    (fits : Engine.windowSize first.dataset < 2 ^ 64) (cue : Cue) :
    (s.step cue).Sound count first := by
  have listed : ∀ m, s.engine.metrics = some m → m.Listed s.site.guests := fun m known =>
    h.listed m (h.kept.metrics ▸ known)
  cases cue with
  | wake now =>
    by_cases ready : s.engine.phase = .ready
    · have woken : s.step (.wake now) = s.moved (s.engine.start now s.scene) := by
        simp only [Theatre.step, Replay.awaken, if_pos ready]
      rw [woken]
      exact ⟨h.kept.trans ⟨rfl, rfl, rfl, rfl⟩, ⟨h.holds.base, h.holds.position, h.holds.window⟩,
        h.listed, h.shared (h.coherent.mirror.agrees (.log _ _ _)), h.numbered⟩
    · have idle : s.step (.wake now) = s := by
        simp only [Theatre.step, Replay.awaken, if_neg ready]
        rfl
      rw [idle]
      exact h
  | turn =>
    have turns := s.engine.turn_turns s.scene
    exact ⟨h.kept.trans turns.kept,
      h.holds.turns (h.kept.dataset ▸ table) (h.kept.dataset ▸ fits) turns, h.listed,
      h.shared (h.coherent.mirror.turns listed turns), h.numbered⟩
  | halt =>
    exact ⟨h.kept.trans ⟨rfl, rfl, rfl, rfl⟩, ⟨h.holds.base, h.holds.position, h.holds.window⟩,
      h.listed, h.coherent, h.numbered⟩
  | device i contents =>
    by_cases own : i = s.engine.window
    · have idle : s.step (.device i contents) = s := if_pos own
      rw [idle]
      exact h
    · have changed : s.step (.device i contents)
          = { s with windows := s.windows.set i contents } := if_neg own
      rw [changed]
      exact ⟨h.kept, ⟨h.holds.base, h.holds.position,
        (List.getElem?_set_ne own).trans h.holds.window⟩, h.listed, h.coherent, h.numbered⟩
  | act now action =>
    have grown := s.site.perform_guests (s.env now) action
    exact ⟨h.kept, h.holds, fun m known => (h.listed m known).mono grown,
      (Site.perform_coherent action h.coherent).1,
      h.coherent.perform_numbered h.numbered action⟩

theorem Sound.run (h : s.Sound count first) (table : first.dataset.Tabular)
    (fits : Engine.windowSize first.dataset < 2 ^ 64) (cues : List Cue) :
    (s.run cues).Sound count first := by
  induction cues generalizing s with
  | nil => exact h
  | cons cue rest ih => exact ih (h.step table fits cue)

theorem opening_sound {site : Site StockDriver} {d : Dataset} {metrics : Option SelfMetrics}
    (coherent : site.Coherent count) (numbered : site.Numbered)
    (listed : ∀ m, metrics = some m → m.Listed site.guests) (table : d.Tabular)
    (windows : List Window) (settings : Replay.Settings) :
    (opening windows site d settings metrics).Sound count
      (.create d settings windows.length metrics) :=
  ⟨.refl _, Engine.create_holds table settings metrics windows, listed, coherent, numbered⟩

/-! ### Following a zone -/

theorem step_device_site (s : Theatre) (i : Nat) (contents : Window) :
    (s.step (.device i contents)).site = s.site := by
  simp only [Theatre.step]
  split <;> rfl

theorem Sound.step_lives (h : s.Sound count first) {cue : Cue} {place place' : Place}
    {z : Zone StockDriver} (there : s.site.zone? place = some z)
    (taken : s.next cue place = some place') :
    (∃ w, (s.step cue).site.zone? place' = some w ∧
      z.Lives ((s.sights cue place).map (·.pass)) w) ∨ (s.step cue).site.Sealed place' := by
  cases cue with
  | act now action =>
    have passes : (s.sights (.act now action) place).map (·.pass)
        = s.site.passes (s.env now) action place := by
      rw [sights, List.map_map]
      exact List.map_id _
    rw [passes]
    exact h.coherent.step_lives h.numbered there taken
  | device i contents =>
    cases taken
    exact .inl ⟨z, s.step_device_site i contents ▸ there, .start⟩
  | wake now | turn | halt =>
    cases taken
    exact .inl ⟨z, there, .start⟩

theorem Sound.sealed_step (h : s.Sound count first) {cue : Cue} {place place' : Place}
    (behind : s.site.Sealed place) (taken : s.next cue place = some place') :
    (s.step cue).site.Sealed place' := by
  cases cue with
  | act now action => exact h.coherent.sealed_step behind taken
  | device i contents =>
    cases taken
    exact s.step_device_site i contents ▸ behind
  | wake now | turn | halt =>
    cases taken
    exact behind

/-- The registers of the replay as a pass saw them. -/
structure Seen (first : Engine) (v : Sight) : Prop where
  position : v.position ≤ first.dataset.rows.length
  window : v.pass.env.windows[first.window]? =
    some (.ofWords (first.dataset.registers v.loops v.position))

theorem Sound.seen (h : s.Sound count first) (cue : Cue) (place : Place) :
    ∀ v ∈ s.sights cue place, Seen first v := by
  intro v member
  cases cue with
  | act now action =>
    obtain ⟨p, inside, rfl⟩ := List.mem_map.mp member
    have holds := h.holds
    refine ⟨h.kept.dataset ▸ holds.position, ?_⟩
    rw [s.site.passes_env (s.env now) action place p inside, ← h.kept.window, ← h.kept.dataset]
    exact holds.window
  | _ => cases member

theorem Sound.sealed_run (h : s.Sound count first) (table : first.dataset.Tabular)
    (fits : Engine.windowSize first.dataset < 2 ^ 64) {cues : List Cue} {place last : Place}
    {seen : List Sight} (behind : s.site.Sealed place)
    (followed : s.follow cues place = some (last, seen)) : (s.run cues).site.Sealed last := by
  induction cues generalizing s place seen with
  | nil =>
    cases followed
    exact behind
  | cons cue rest ih =>
    obtain ⟨place', taken, later⟩ := Option.bind_eq_some_iff.mp followed
    obtain ⟨⟨_, others⟩, whole, same⟩ := Option.map_eq_some_iff.mp later
    cases same
    exact ih (h.step table fits cue) (h.sealed_step behind taken) whole

/-- What has become of a zone within reach at the end of a run, and what its passes saw. -/
theorem Sound.follow_lives (h : s.Sound count first) (table : first.dataset.Tabular)
    (fits : Engine.windowSize first.dataset < 2 ^ 64) {cues : List Cue} {place last : Place}
    {seen : List Sight} {z w : Zone StockDriver} (there : s.site.zone? place = some z)
    (followed : s.follow cues place = some (last, seen))
    (found : (s.run cues).site.zone? last = some w) :
    z.Lives (seen.map (·.pass)) w ∧ ∀ v ∈ seen, Seen first v := by
  induction cues generalizing s place z seen with
  | nil =>
    cases followed
    cases there.symm.trans found
    exact ⟨.start, fun v member => by cases member⟩
  | cons cue rest ih =>
    obtain ⟨place', taken, later⟩ := Option.bind_eq_some_iff.mp followed
    obtain ⟨⟨_, others⟩, whole, same⟩ := Option.map_eq_some_iff.mp later
    cases same
    have after := h.step table fits cue
    rcases h.step_lives there taken with ⟨y, here, lives⟩ | behind
    · obtain ⟨rest, saw⟩ := ih after here whole found
      refine ⟨?_, List.forall_mem_append.mpr ⟨h.seen cue place, saw⟩⟩
      rw [List.map_append]
      exact lives.trans rest
    · have gone := (after.sealed_run table fits behind whole).zone?_none
      exact absurd (gone.symm.trans found) (by simp)

end Theatre

end Telemetry

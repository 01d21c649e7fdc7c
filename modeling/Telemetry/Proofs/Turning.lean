import Telemetry.Proofs.Looping
import Telemetry.Proofs.Upkeep

/-! What a turn of a replay can come to, and what every turn keeps. It writes its own window and no
other, and what it writes there is told by the number of loops and the rows since. Of all that is
shared it touches the journal and the exporter's own metrics only. -/
namespace Telemetry

open Register (Window)

namespace Replay.Engine

/-- Everything that a turn can come to. -/
inductive Turns (e : Engine) (s : Scene) : Engine → Scene → Prop
  | idles : e.due? = none → Turns e s e s
  | ends {due : Nat} : e.phase = .playing due → e.running = false →
      Turns e s { e with phase := .ended } s
  | rewinds {due : Nat} : e.phase = .playing due → e.running = true →
      e.dataset.rows[e.position]? = none → e.settings.looping = true →
      Turns e s e.rewind
        { s with shared := s.shared.log .info "Dataset complete, looping..." }
  | finishes {due : Nat} : e.phase = .playing due → e.running = true →
      e.dataset.rows[e.position]? = none → e.settings.looping = false →
      Turns e s { e with running := false, phase := .ended }
        { s with shared := s.shared.log .info "Dataset complete, stopping" }
  | plays {due : Nat} {row : DataRow} : e.phase = .playing due → e.running = true →
      e.dataset.rows[e.position]? = some row →
      Turns e s (e.play due row s).1 (e.play due row s).2

def restarts (e : Engine) : Bool :=
  e.due?.isSome && e.running && (e.dataset.rows[e.position]?).isNone && e.settings.looping

variable {e f : Engine} {s t : Scene} {k : Nat}

theorem turn_turns (e : Engine) (s : Scene) : e.Turns s (e.turn s).1 (e.turn s).2 := by
  unfold turn
  split
  · rename_i ready
    exact .idles (by rw [due?, ready])
  · rename_i ended
    exact .idles (by rw [due?, ended])
  · rename_i due playing
    split
    · rename_i stopped
      exact .ends playing (by simpa using stopped)
    · rename_i going
      have running : e.running = true := by simpa using going
      split
      · rename_i behind
        cases looping : e.settings.looping with
        | true =>
          simp only [complete, looping]
          exact .rewinds playing running behind looping
        | false =>
          simp only [complete, looping]
          exact .finishes playing running behind looping
      · rename_i row there
        exact .plays playing running there

theorem restarts_iff : e.restarts = true ↔
    (∃ due, e.phase = .playing due) ∧ e.running = true ∧ e.dataset.rows[e.position]? = none ∧
      e.settings.looping = true := by
  have playing : e.due?.isSome = true ↔ ∃ due, e.phase = .playing due := by
    unfold due?
    cases e.phase <;> simp
  simp only [restarts, Bool.and_eq_true, playing, Option.isNone_iff_eq_none, and_assoc]

/-- What a replay keeps as long as it lasts. -/
structure Kept (e f : Engine) : Prop where
  dataset : f.dataset = e.dataset
  settings : f.settings = e.settings
  window : f.window = e.window
  metrics : f.metrics = e.metrics

theorem Kept.refl (e : Engine) : e.Kept e := ⟨rfl, rfl, rfl, rfl⟩

theorem Kept.trans {g : Engine} (first : e.Kept f) (second : f.Kept g) : e.Kept g :=
  ⟨second.dataset.trans first.dataset, second.settings.trans first.settings,
    second.window.trans first.window, second.metrics.trans first.metrics⟩

theorem Turns.kept (h : e.Turns s f t) : e.Kept f := by
  cases h <;> exact ⟨rfl, rfl, rfl, rfl⟩

/-- A turn stays in its row, goes on to the next one, or starts over. -/
theorem Turns.advances (turns : e.Turns s f t) :
    (f.position = e.position ∧ e.restarts = false) ∨
      (f.position = e.position + 1 ∧ e.restarts = false) ∨
      (f.position = 0 ∧ e.restarts = true) := by
  cases turns with
  | idles none => exact .inl ⟨rfl, by simp [restarts, none]⟩
  | ends _ stopped => exact .inl ⟨rfl, by simp [restarts, stopped]⟩
  | finishes _ _ _ once => exact .inl ⟨rfl, by simp [restarts, once]⟩
  | rewinds playing running behind looping =>
    exact .inr (.inr ⟨rfl, restarts_iff.mpr ⟨⟨_, playing⟩, running, behind, looping⟩⟩)
  | plays _ _ there => exact .inr (.inl ⟨rfl, by simp [restarts, there]⟩)

structure Holds (e : Engine) (k : Nat) (windows : List Window) : Prop where
  base : e.base = e.dataset.bases k
  position : e.position ≤ e.dataset.rows.length
  window : windows[e.window]? = some (.ofWords (e.dataset.registers k e.position))

theorem create_holds {d : Dataset} (table : d.Tabular) (settings : Settings)
    (metrics : Option SelfMetrics) (windows : List Window) :
    (create d settings windows.length metrics).Holds 0
      (windows ++ [.ofSize .memory (windowSize d)]) := by
  refine ⟨d.bases_start.symm, Nat.zero_le _, ?_⟩
  rw [windowSize, Window.ofSize_words, ← d.registers_start table]
  exact List.getElem?_concat_length

theorem Holds.turns (h : e.Holds k s.windows) (table : e.dataset.Tabular)
    (fits : windowSize e.dataset < 2 ^ 64) (turns : e.Turns s f t) :
    f.Holds (if e.restarts then k + 1 else k) t.windows := by
  have stays (other : e.restarts = false) : (if e.restarts then k + 1 else k) = k := by
    rw [other]
    rfl
  cases turns with
  | idles none =>
    have other : e.restarts = false := by simp [restarts, none]
    rw [stays other]
    exact h
  | ends _ stopped =>
    have other : e.restarts = false := by simp [restarts, stopped]
    rw [stays other]
    exact ⟨h.base, h.position, h.window⟩
  | finishes _ _ _ once =>
    have other : e.restarts = false := by simp [restarts, once]
    rw [stays other]
    exact ⟨h.base, h.position, h.window⟩
  | rewinds playing running behind looping =>
    rw [restarts_iff.mpr ⟨⟨_, playing⟩, running, behind, looping⟩]
    have whole : e.position = e.dataset.rows.length :=
      Nat.le_antisymm h.position (List.getElem?_eq_none_iff.mp behind)
    have window := h.window
    rw [whole, ← e.dataset.registers_rewind table k] at window
    refine ⟨?_, Nat.zero_le _, window⟩
    rw [rewind, h.base]
    exact e.dataset.bases_rewind k
  | @plays due row _ _ there =>
    have other : e.restarts = false := by simp [restarts, there]
    rw [stays other]
    refine ⟨h.base, (List.getElem?_eq_some_iff.mp there).1, ?_⟩
    have written : (e.play due row s).2.windows[e.window]?
        = (s.windows.modify e.window
            (writeWords 0 (rowWords e.dataset.columns e.base row.cells)))[e.window]? := by
      unfold play applyRow
      cases e.metrics <;> rfl
    refine written.trans ?_
    rw [List.getElem?_modify_eq, h.window, h.base]
    exact congrArg some (e.dataset.writeWords_registers table fits there k)

theorem Turns.elsewhere (turns : e.Turns s f t) {j : Nat} (other : j ≠ e.window) :
    t.windows[j]? = s.windows[j]? := by
  cases turns with
  | plays =>
    have same (change : Window → Window) :
        (s.windows.modify e.window change)[j]? = s.windows[j]? :=
      List.getElem?_modify_ne _ _ other.symm
    unfold play applyRow
    cases e.metrics <;> exact same _
  | _ => rfl

end Replay.Engine

/-! ### The exporter's own metrics -/

namespace SelfMetrics

def progress (m : SelfMetrics) : List Series.Ref :=
  [m.samples, m.position, m.totalSamples, m.speed]

def Listed (guests : List Guest) (m : SelfMetrics) : Prop :=
  ∀ ref ∈ m.progress, ∃ g ∈ guests, g.vector = ref.vector

theorem Listed.mono {guests more : List Guest} {m : SelfMetrics} (h : m.Listed guests)
    (grown : ∀ g ∈ guests, g ∈ more) : m.Listed more := by
  intro ref member
  obtain ⟨g, there, same⟩ := h ref member
  exact ⟨g, grown g there, same⟩

end SelfMetrics

namespace Mirror

variable {δ : Type} {count : Nat} {xs : List (Mount δ)} {guests : List Guest} {s : Shared}
  {m : SelfMetrics}

theorem setListed (h : Mirror count xs guests s) {ref : Series.Ref}
    (listed : ∃ g ∈ guests, g.vector = ref.vector) (value : Binary64) :
    Mirror count xs guests { s with store := s.store.set ref value } := by
  obtain ⟨g, member, same⟩ := listed
  have set := h.publish member ref.key value
  rwa [same] at set

theorem countSample (h : Mirror count xs guests s) (listed : m.Listed guests) :
    Mirror count xs guests (m.countSample s) := by
  have own := listed m.samples List.mem_cons_self
  exact (h.setListed own _).grows rfl fun _ _ found => found

theorem setReplay (h : Mirror count xs guests s) (listed : m.Listed guests) (position total : Nat)
    (speed : Binary64) : Mirror count xs guests (m.setReplay position total speed s) := by
  have own (ref : Series.Ref) (member : ref ∈ m.progress) := listed ref member
  simp only [SelfMetrics.progress, List.forall_mem_cons] at own
  obtain ⟨-, first, second, third, -⟩ := own
  exact ((h.setListed first _).setListed second _).setListed third _

open Replay (Engine Scene)

theorem turns {e f : Engine} {s t : Scene} (h : Mirror count xs guests s.shared)
    (listed : ∀ m, e.metrics = some m → m.Listed guests) (turns : e.Turns s f t) :
    Mirror count xs guests t.shared := by
  have logged (level : Level) (message : String) :
      Mirror count xs guests (s.shared.log level message) := h.agrees (.log _ _ _)
  cases turns with
  | idles | ends => exact h
  | rewinds | finishes => exact logged _ _
  | plays =>
    unfold Engine.play Engine.applyRow
    cases known : e.metrics with
    | none => exact logged _ _
    | some m => exact ((logged _ _).countSample (listed m known)).setReplay (listed m known) _ _ _

end Mirror

end Telemetry

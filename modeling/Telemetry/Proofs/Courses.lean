import Telemetry.Proofs.Staging

/-! Rows and rewinds in any order. Whatever rows of its dataset a replay writes, and however often
it goes back to the start in between, its window holds for every column the word that was last
written for it, and the bases are told by the number of rewinds. A replay that takes its turns among
other things that happen is such a course. -/
namespace Telemetry

open Register (Window)

namespace Replay

open Engine (rowWords writeWords windowSize cellWord create)

/-- What rows write: for each column a word, or none if the cell is missing. -/
abbrev Log := List (List (Option UInt64))

def Log.last? (log : Log) (i : Nat) : Option UInt64 :=
  log.reverse.findSome? fun words => (words[i]?).join

def Log.words (log : Log) (columns : Nat) : List UInt64 :=
  (List.range columns).map fun i => (log.last? i).getD 0

def Scene.register? (s : Scene) (window i : Nat) : Option UInt64 :=
  (s.windows[window]?).bind fun w =>
    ((w.read (UInt64.ofNat (i * registerSize)) registerSize).toOption).map fun bytes =>
      UInt64.ofNat (Register.littleEndian bytes)

/-- All that a replay can come to from an opening: rows that it writes and rewinds in any order, and
whatever else happens that leaves its bases and its window alone. Put down are the number of rewinds
and what was written. -/
inductive Course (first : Engine) (opening : Scene) : Nat → Log → Engine → Scene → Prop
  | opens : Course first opening 0 [] first opening
  | writes {k : Nat} {log : Log} {e : Engine} {s : Scene} {row : DataRow} :
      Course first opening k log e s → row ∈ e.dataset.rows →
      Course first opening k (log ++ [rowWords e.dataset.columns e.base row.cells]) e
        (e.applyRow row s)
  | rewinds {k : Nat} {log : Log} {e : Engine} {s : Scene} :
      Course first opening k log e s → Course first opening (k + 1) log e.rewind s
  | others {k : Nat} {log : Log} {e f : Engine} {s t : Scene} :
      Course first opening k log e s → e.Kept f → f.base = e.base →
      t.windows[e.window]? = s.windows[e.window]? → Course first opening k log f t

/-- A replay with nothing written to its window yet. -/
structure Opens (first : Engine) (opening : Scene) : Prop where
  table : first.dataset.Tabular
  fits : windowSize first.dataset < 2 ^ 64
  base : first.base = first.dataset.bases 0
  window : opening.windows[first.window]? = some (.ofSize .memory (windowSize first.dataset))

theorem create_opens {bytes : List UInt8} {d : Dataset} (accepted : d.Accepted bytes)
    (settings : Settings) {window : Nat} (metrics : Option SelfMetrics) {opening : Scene}
    (own : opening.windows[window]? = some (.ofSize .memory (windowSize d))) :
    Opens (create d settings window metrics) opening :=
  ⟨Dataset.ofBytes?_tabular accepted.read, accepted.fits, d.bases_start.symm, own⟩

namespace Log

variable {log : Log} {columns i : Nat}

theorem last?_snoc (log : Log) (words : List (Option UInt64)) (i : Nat) :
    last? (log ++ [words]) i = (words[i]?).join.or (log.last? i) := by
  rw [last?, List.reverse_append, List.findSome?_append, List.reverse_singleton,
    List.findSome?_singleton, last?]

theorem words_length (log : Log) (columns : Nat) : (log.words columns).length = columns := by
  rw [words, List.length_map, List.length_range]

theorem getElem?_words (log : Log) (inside : i < columns) :
    (log.words columns)[i]? = some ((log.last? i).getD 0) := by
  rw [words, List.getElem?_map, List.getElem?_range inside, Option.map_some]

theorem words_nil (columns : Nat) : words [] columns = List.replicate columns 0 := by
  rw [List.eq_replicate_iff]
  refine ⟨words_length _ _, fun w member => ?_⟩
  obtain ⟨i, -, rfl⟩ := List.mem_map.mp member
  rfl

theorem words_snoc (log : Log) {row : List (Option UInt64)} (sized : row.length = columns) :
    List.zipWith Option.getD row (log.words columns) = words (log ++ [row]) columns := by
  apply List.ext_getElem?
  intro i
  rcases Nat.lt_or_ge i columns with inside | beyond
  · have here : row[i]? = some row[i] := List.getElem?_eq_getElem (sized ▸ inside)
    rw [List.getElem?_zipWith, getElem?_words log inside, getElem?_words _ inside, last?_snoc, here]
    cases row[i] <;> rfl
  · rw [List.getElem?_eq_none, List.getElem?_eq_none]
    · rw [words_length]
      exact beyond
    · rw [List.length_zipWith, words_length, sized, Nat.min_self]
      exact beyond

end Log

namespace Course

variable {first e : Engine} {opening s : Scene} {k : Nat} {log : Log}

theorem kept (h : Course first opening k log e s) : first.Kept e := by
  induction h with
  | opens => exact .refl first
  | writes _ _ ih => exact ih
  | rewinds _ ih => exact ih.trans ⟨rfl, rfl, rfl, rfl⟩
  | others _ same _ _ ih => exact ih.trans same

theorem base (h : Course first opening k log e s) (opens : Opens first opening) :
    e.base = first.dataset.bases k := by
  induction h with
  | opens => exact opens.base
  | writes _ _ ih => exact ih
  | @rewinds k log e s course ih =>
    rw [Engine.rewind, ih, course.kept.dataset]
    exact first.dataset.bases_rewind k
  | others _ _ same _ ih => exact same.trans ih

theorem window (h : Course first opening k log e s) (opens : Opens first opening) :
    s.windows[first.window]? = some (.ofWords (log.words first.dataset.columns.length)) := by
  induction h with
  | opens =>
    rw [opens.window, windowSize, Window.ofSize_words, Log.words_nil]
  | rewinds _ ih => exact ih
  | others course _ _ same ih =>
    rw [← course.kept.window] at ih ⊢
    exact same.trans ih
  | @writes k log e s row course member ih =>
    have kept := course.kept
    have sized : (rowWords e.dataset.columns e.base row.cells).length =
        first.dataset.columns.length := by
      rw [course.base opens, kept.dataset]
      exact Dataset.rowWords_length opens.table (kept.dataset ▸ member) k
    have whole := Dataset.writeWords_ofWords (rowWords e.dataset.columns e.base row.cells) []
      (log.words first.dataset.columns.length) (by rw [sized, Log.words_length])
      (by rw [List.nil_append, Log.words_length]; exact opens.fits)
    rw [List.nil_append, List.nil_append, log.words_snoc sized] at whole
    rw [Engine.applyRow, kept.window, List.getElem?_modify_eq, ih]
    exact congrArg some whole

theorem register? (h : Course first opening k log e s) (opens : Opens first opening) {i : Nat}
    (inside : i < first.dataset.columns.length) :
    s.register? first.window i = some ((log.last? i).getD 0) := by
  have reach : Window.Reach (log.words first.dataset.columns.length) i :=
    ⟨by rw [Log.words_length]; exact inside, by rw [Log.words_length]; exact opens.fits⟩
  have read := Window.read_word reach (log.getElem?_words inside)
  rw [Scene.register?, h.window opens, Option.bind_some, read]
  have whole : Register.littleEndian (Register.bytesOf registerSize ((log.last? i).getD 0)) =
      ((log.last? i).getD 0).toNat := by
    rw [Register.littleEndian_bytesOf]
    exact Nat.mod_eq_of_lt (UInt64.toNat_lt _)
  rw [Except.toOption, Option.map_some, whole, UInt64.ofNat_toNat]

theorem getElem?_base (h : Course first opening k log e s) (opens : Opens first opening) {i : Nat}
    {column : Column} (there : first.dataset.columns[i]? = some column) :
    e.base[i]? = some (first.dataset.base k i column) := by
  rw [h.base opens, Dataset.bases, List.getElem?_mapIdx, there, Option.map_some]

/-- **What one row does.** A cell is written on top of the base of its column; where the cell is
missing, the register stays as it is. -/
theorem applyRow_register? (h : Course first opening k log e s) (opens : Opens first opening)
    {row : DataRow} (member : row ∈ first.dataset.rows) {i : Nat} {column : Column}
    (there : first.dataset.columns[i]? = some column) :
    (e.applyRow row s).register? first.window i =
      match (row.cells[i]?).join with
      | none => s.register? first.window i
      | some cell => some (cellWord column.type (first.dataset.base k i column) cell) := by
  have inside := (List.getElem?_eq_some_iff.mp there).1
  have kept := h.kept
  have after := (h.writes (kept.dataset ▸ member)).register? opens inside
  rw [after, Log.last?_snoc, h.base opens, kept.dataset,
    Dataset.getElem?_rowWords opens.table member, there, h.register? opens inside]
  cases (row.cells[i]?).join <;> rfl

/-- **What a rewind does.** The base of a counter grows by the last cell of its column. -/
theorem rewind_base (h : Course first opening k log e s) (opens : Opens first opening) {i : Nat}
    {column : Column} (there : first.dataset.columns[i]? = some column) :
    e.rewind.base[i]? = some (if column.type = .counter then
      first.dataset.base k i column + Dataset.lastWord first.dataset.rows i
      else first.dataset.base k i column) := by
  rw [h.rewinds.getElem?_base opens there, ← Dataset.nextBase_base, Engine.nextBase,
    Dataset.lastWord]
  split
  · cases Engine.lastCell? first.dataset.rows i <;> rfl
  · rfl

/-! ### Turns -/

theorem turns (h : Course first opening k log e s) {f : Engine} {t : Scene}
    (turns : e.Turns s f t) : ∃ k log, Course first opening k log f t := by
  cases turns with
  | idles => exact ⟨k, log, h⟩
  | ends => exact ⟨k, log, h.others ⟨rfl, rfl, rfl, rfl⟩ rfl rfl⟩
  | rewinds => exact ⟨k + 1, log, h.rewinds.others (.refl _) rfl rfl⟩
  | finishes => exact ⟨k, log, h.others ⟨rfl, rfl, rfl, rfl⟩ rfl rfl⟩
  | @plays due row _ _ there =>
    refine ⟨k, _, (h.writes (List.mem_of_getElem? there)).others (f := (e.play due row s).1)
      (t := (e.play due row s).2) ⟨rfl, rfl, rfl, rfl⟩ rfl ?_⟩
    unfold Engine.play
    cases e.metrics <;> rfl

end Course

end Replay

namespace Theatre

open Replay (Course)

variable {first : Replay.Engine} {opening : Replay.Scene} {k : Nat} {log : Replay.Log} {s : Theatre}

theorem step_course (h : Course first opening k log s.engine s.scene) (cue : Cue) :
    ∃ k log, Course first opening k log (s.step cue).engine (s.step cue).scene := by
  cases cue with
  | wake now =>
    refine ⟨k, log, h.others (f := (s.step (.wake now)).engine) (t := (s.step (.wake now)).scene)
      ?_ ?_ ?_⟩
    all_goals
      simp only [step, Replay.awaken]
      split
    · exact ⟨rfl, rfl, rfl, rfl⟩
    · exact .refl _
    all_goals rfl
  | turn => exact h.turns (s.engine.turn_turns s.scene)
  | halt => exact ⟨k, log, h.others ⟨rfl, rfl, rfl, rfl⟩ rfl rfl⟩
  | device i contents =>
    refine ⟨k, log, h.others (f := (s.step (.device i contents)).engine)
      (t := (s.step (.device i contents)).scene) ?_ ?_ ?_⟩
    all_goals
      simp only [step]
      split
    · exact .refl _
    · exact .refl _
    · rfl
    · rfl
    · rfl
    · rename_i other
      exact List.getElem?_set_ne other
  | act now action => exact ⟨k, log, h.others (.refl _) rfl rfl⟩

/-- Whatever happens around a replay, it takes a course. -/
theorem run_course (h : Course first opening k log s.engine s.scene) (cues : List Cue) :
    ∃ k log, Course first opening k log (s.run cues).engine (s.run cues).scene := by
  induction cues generalizing s k log with
  | nil => exact ⟨k, log, h⟩
  | cons cue rest ih =>
    obtain ⟨k, log, next⟩ := step_course h cue
    exact ih next

end Theatre

end Telemetry

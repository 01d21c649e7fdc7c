import Telemetry.Proofs.Denoting
import Telemetry.Proofs.Missing

/-! Whole numbers in cells. A cell is held as a binary64 word, which has fifty-three significant
bits; so a counter's register gets a whole number as it is if that many bits are enough for it, and
otherwise the nearest one for which they are, or the greatest word. A rewind adds the same. -/
namespace Telemetry

open Replay (Course Engine Scene)
open Replay.Engine (create windowSize cellWord)

namespace Binary64

def lastBit (n : Nat) : Nat := 2 ^ (n.log2 - 52)

def nearestWhole (n : Nat) : Nat := divNearest n (lastBit n) * lastBit n

/-- What a word keeps of a whole number. -/
def held (n : Nat) : Nat := min (nearestWhole n) (2 ^ 64 - 1)

variable {n : Nat}

theorem lastBit_pos (n : Nat) : 0 < lastBit n := Nat.two_pow_pos _

theorem lastBit_small (small : n < 2 ^ 53) : lastBit n = 1 := by
  have few : n.log2 ≤ 52 := by
    rcases Nat.eq_zero_or_pos n with rfl | some
    · decide
    · exact Nat.le_of_lt_succ ((Nat.log2_lt some.ne').mpr small)
  rw [lastBit, Nat.sub_eq_zero_of_le few, Nat.pow_zero]

theorem nearestWhole_eq_iff : nearestWhole n = n ↔ lastBit n ∣ n := by
  constructor
  · intro same
    exact ⟨divNearest n (lastBit n), by rw [Nat.mul_comm]; exact same.symm⟩
  · intro divides
    have whole := divNearest_mul (n / lastBit n) (lastBit_pos n)
    rw [Nat.div_mul_cancel divides] at whole
    rw [nearestWhole, whole, Nat.div_mul_cancel divides]

theorem floorLog2_whole (some : 0 < n) : floorLog2 n 1 = n.log2 := by
  have one : Nat.log2 1 = 0 := by decide
  have reached : reaches n 1 (n.log2 : Int) = true := by
    rw [reaches, if_pos (Int.natCast_nonneg _), Int.toNat_natCast, Nat.one_mul, decide_eq_true_iff]
    exact Nat.log2_self_le some.ne'
  simp only [floorLog2, one, Nat.cast_zero, sub_zero, reached, if_true]

theorem rounded_whole (n : Nat) : rounded n 1 = nearestWhole n := by
  rcases Nat.lt_or_ge n (2 ^ 53) with small | large
  · have all : nearestWhole n = n :=
      nearestWhole_eq_iff.mpr (by rw [lastBit_small small]; exact Nat.one_dvd n)
    rw [all, rounded_exact (k := n) (e := 0) Nat.one_pos small (by decide) (by simp), Nat.cast_one,
      div_one]
  · have some : 0 < n := Nat.lt_of_lt_of_le (by decide) large
    have many : 53 ≤ n.log2 := (Nat.le_log2 some.ne').mpr large
    have last : unit n 1 = ((n.log2 - 52 : Nat) : Int) := by
      rw [unit, floorLog2_whole some]
      omega
    rw [rounded, last, units, if_pos (Int.natCast_nonneg _), Int.toNat_natCast, Nat.one_mul,
      zpow_natCast, nearestWhole, lastBit]
    push_cast
    rfl

theorem toWord_ofNat (fits : n < 2 ^ 64) : (ofNat n).toWord = UInt64.ofNat (held n) := by
  have value : (ofNat n).value? = some (nearestWhole n : ℚ) := by
    rw [ofNat, value_nearest false Nat.one_pos (rounded_word_fits fits.le), rounded_whole]
    rfl
  have word : (ofNat n).toWord.toNat = held n := by
    rw [toWord_eq value, Nat.floor_natCast, held]
  rw [← word, UInt64.ofNat_toNat]

/-- No whole number is moved further than by half of its last bit. -/
theorem held_near (fits : n < 2 ^ 64) :
    2 * held n ≤ 2 * n + lastBit n ∧ 2 * n ≤ 2 * held n + lastBit n := by
  have whole := Nat.div_add_mod' n (lastBit n)
  have rest := Nat.mod_lt n (lastBit_pos n)
  have near : 2 * nearestWhole n ≤ 2 * n + lastBit n ∧ 2 * n ≤ 2 * nearestWhole n + lastBit n := by
    unfold nearestWhole
    rcases divNearest_cases n (lastBit n) with ⟨half, same⟩ | ⟨half, same⟩ | ⟨half, same⟩
    · rw [same]
      omega
    · rw [same, Nat.add_mul, Nat.one_mul]
      omega
    · rw [same, Nat.add_mul]
      rcases Nat.mod_two_eq_zero_or_one (n / lastBit n) with even | odd
      · rw [even, Nat.zero_mul]
        omega
      · rw [odd, Nat.one_mul]
        omega
  rw [held]
  omega

theorem held_eq_iff (fits : n < 2 ^ 64) : held n = n ↔ lastBit n ∣ n ∨ n = 2 ^ 64 - 1 := by
  rw [← nearestWhole_eq_iff, held]
  constructor
  · intro same
    omega
  · rintro (same | rfl)
    · omega
    · decide +kernel

theorem nearestWhole_small (small : n ≤ 2 ^ 53) : nearestWhole n = n := by
  rw [nearestWhole_eq_iff]
  rcases Nat.lt_or_eq_of_le small with less | rfl
  · rw [lastBit_small less]
    exact Nat.one_dvd n
  · decide +kernel

theorem held_small (small : n ≤ 2 ^ 53) : held n = n := by
  rw [held, nearestWhole_small small]
  omega

end Binary64

open Binary64 (held lastBit)

/-! ### Cells -/

theorem ofDecimal_whole {n : Nat} (fits : n < 2 ^ 64) :
    Reader.ofDecimal false n 0 = .ofNat n := by
  rcases Nat.eq_zero_or_pos n with rfl | some
  · rfl
  · have short : (Nat.toDigits 10 n).length ≤ 20 :=
      (Nat.length_toDigits_le_iff (by decide) (by decide)).mpr (fits.trans (by decide))
    simp only [Reader.ofDecimal]
    rw [if_neg (by omega), if_neg (by omega), if_pos (by decide)]
    exact congrArg (Binary64.nearest false · 1) (Nat.mul_one n)

theorem reads_numeral {text : String} {n : Nat} (plain : trimmed text = Digits.numeral n)
    (fits : n < 2 ^ 64) : Reads (trimmed text) (.ofNat n) := by
  let m : Magnitude := ⟨Digits.numeral n, none, none, numeral_digits n, List.forall_mem_nil _,
    .inl (List.ne_nil_of_length_pos Nat.length_toDigits_pos)⟩
  have digits : m.digits = n := Reader.digitsFrom_numeral n
  have spelled : m.text = Digits.numeral n := List.append_nil _
  have reads := Reads.decimal .absent m
  rw [Sign.text, List.nil_append, spelled, digits] at reads
  rw [plain, ← ofDecimal_whole fits]
  exact reads

/-- What the counter cells of a sheet come to that hold whole numbers, in a state of its replay. -/
structure Sheet.Counted (t : Sheet) (d : Dataset) (window : Nat) (e : Engine) (s : Scene) :
    Prop where
  row : ∀ p row i column base text n, d.rows[p]? = some row → d.columns[i]? = some column →
    column.type = .counter → e.base[i]? = some base → t.cell? p i = some text →
    trimmed text = Digits.numeral n → n < 2 ^ 64 →
    (e.applyRow row s).register? window i = some (base + UInt64.ofNat (held n))
  rewind : ∀ i column base text n, d.columns[i]? = some column → column.type = .counter →
    e.base[i]? = some base → t.LastPresent i text → trimmed text = Digits.numeral n →
    n < 2 ^ 64 → e.rewind.base[i]? = some (base + UInt64.ofNat (held n))

theorem Replay.Course.counted {first e : Engine} {opening s : Scene} {k : Nat} {log : Replay.Log}
    {t : Sheet} (h : Course first opening k log e s) (opens : Replay.Opens first opening)
    (read : t.dataset? = .ok first.dataset) : t.Counted first.dataset first.window e s := by
  constructor
  · intro p row i column base text n there known counter here cell plain fits
    have based : first.dataset.base k i column = base :=
      Option.some.inj ((h.getElem?_base opens known).symm.trans here)
    have own : (row.cells[i]?).join = some (.ofNat n) := by
      rw [Sheet.cell_read read there (List.getElem?_eq_some_iff.mp known).1, cell, Option.bind_some]
      exact cell_iff.mpr (reads_numeral plain fits)
    rw [h.applyRow_register? opens (List.mem_of_getElem? there) known, own, based, counter]
    exact congrArg (some <| base + ·) (Binary64.toWord_ofNat fits)
  · intro i column base text n known counter here last plain fits
    rw [((h.inert opens read).rewind i column base known counter here).1 text _ last
      (reads_numeral plain fits), Binary64.toWord_ofNat fits]

/-- **Counter cells are written as a binary64 word holds them.** A whole number below two to the
sixty-fourth is added to the base, rounded to fifty-three significant bits and cut to a word, by the
row of its cell, and by a rewind if it is the last one present. It is added as it is just if the
last of these bits is a divisor of it, or it is the greatest word; so it is up to two to the
fifty-third. -/
theorem counter_cells_held (bytes : List UInt8) (t : Sheet) (d : Dataset)
    (settings : Replay.Settings) (window : Nat) (metrics : Option SelfMetrics) (opening : Scene)
    (accepted : d.Accepted bytes) (spelled : t.Spelled bytes)
    (own : opening.windows[window]? = some (.ofSize .memory (windowSize d))) :
    (∀ k log e s, Course (create d settings window metrics) opening k log e s →
      t.Counted d window e s) ∧
    ∀ n, n < 2 ^ 64 →
      (held n = n ↔ lastBit n ∣ n ∨ n = 2 ^ 64 - 1) ∧ (n ≤ 2 ^ 53 → held n = n) ∧
        2 * held n ≤ 2 * n + lastBit n ∧ 2 * n ≤ 2 * held n + lastBit n :=
  ⟨fun _ _ _ _ course => course.counted (Replay.create_opens accepted settings metrics own)
      (spelled.ofBytes?.symm.trans accepted.read),
    fun _ fits => ⟨Binary64.held_eq_iff fits, Binary64.held_small, Binary64.held_near fits⟩⟩

def oddCell : List UInt8 := "timestamp_ms,c_total\n0,9007199254740993\n".toUTF8.toList

def oddCellSheet : Sheet := ⟨["c_total"], [⟨"0", ["9007199254740993"]⟩]⟩

def oddCellData : Dataset := ⟨[⟨"c_total", .counter⟩], [⟨0, [some (.ofNat (2 ^ 53 + 1))]⟩]⟩

theorem oddCell_accepted : oddCellData.Accepted oddCell :=
  ⟨toOption_some (by decide +kernel), by decide⟩

theorem counter_cells_held_odd :
    ∃ row, oddCellData.rows[0]? = some row ∧
      ((create oddCellData loopingSettings 0 none).applyRow row blankScene).register? 0 0 =
        some (UInt64.ofNat (held (2 ^ 53 + 1))) ∧
      held (2 ^ 53 + 1) = 2 ^ 53 ∧ held (2 ^ 53 + 2) = 2 ^ 53 + 2 := by
  have counted := counter_cells_held oddCell oddCellSheet oddCellData loopingSettings 0 none
    blankScene oddCell_accepted (by decide +kernel) rfl
  refine ⟨_, rfl, ?_, by decide +kernel, ?_⟩
  · have row := (counted.1 _ _ _ _ .opens).row 0 _ 0 _ 0 "9007199254740993" (2 ^ 53 + 1) rfl rfl rfl
      rfl rfl (by decide +kernel) (by decide)
    rwa [UInt64.zero_add] at row
  · exact (counted.2 _ (by decide)).1.mpr (.inl (by decide +kernel))

/-- A counter cell that a word cannot hold: neither a row nor a rewind adds it as it is. -/
theorem odd_cell_rounded :
    let e := create oddCellData loopingSettings 0 none
    oddCellData.Accepted oddCell ∧ oddCellSheet.Spelled oddCell ∧
      oddCellSheet.cell? 0 0 = some "9007199254740993" ∧
      trimmed "9007199254740993" = Digits.numeral 9007199254740993 ∧
      oddCellData.columns[0]? = some ⟨"c_total", .counter⟩ ∧ e.base[0]? = some 0 ∧
      (∀ row ∈ oddCellData.rows, (e.applyRow row blankScene).register? 0 0 ≠
        some (0 + UInt64.ofNat 9007199254740993)) ∧
      e.rewind.base[0]? ≠ some (0 + UInt64.ofNat 9007199254740993) := by
  refine ⟨oddCell_accepted, by decide +kernel, rfl, by decide +kernel, rfl, rfl, ?_,
    by decide +kernel⟩
  rw [oddCellData, List.forall_mem_singleton]
  decide +kernel

end Telemetry

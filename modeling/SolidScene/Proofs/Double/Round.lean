import Mathlib.Algebra.Order.Round
import Mathlib.Data.Int.Log
import Mathlib.Data.Rat.Floor
import Mathlib.Tactic.FieldSimp
import Mathlib.Tactic.Linarith
import Mathlib.Tactic.Positivity
import Mathlib.Tactic.Ring

/-!
# Rounding rational numbers to doubles

`roundEven` is the nearest integer, a half going to the even neighbour.  The doubles around a
number lie on a grid whose step is a power of two: 53 bits below the leading one, but never finer
than `2 ^ (-1074)`.  `nearest q` is the point of that grid nearest to `q`, again with halves to
even.  The range of doubles is not looked at here.

* A value is told to be the rounded one by its distance alone (`roundEven_eq`).
* `nearest` keeps the order (`nearest_mono`) and what is on the grid (`nearest_of_grid`,
  `nearest_nearest`), and between two neighbours on the grid it finds nothing
  (`add_one_mul_le_of_lt`).
* From `2 ^ (-1022)` on its relative error is at most `2 ^ (-53)` (`abs_nearest_sub_le_mul`).
-/

namespace SolidScene.Double

/-! ### The nearest integer -/

/-- The nearest integer; a half goes to the even neighbour. -/
def roundEven (q : ℚ) : ℤ :=
  if (round q : ℚ) - q = 1 / 2 ∧ round q % 2 = 1 then round q - 1 else round q

theorem abs_roundEven_sub_le (q : ℚ) : |(roundEven q : ℚ) - q| ≤ 1 / 2 := by
  have hround := abs_sub_round q
  rw [abs_sub_comm] at hround
  unfold roundEven
  split
  · next h =>
    have hbelow : ((round q - 1 : ℤ) : ℚ) - q = -(1 / 2) := by
      push_cast
      linarith [h.1]
    rw [hbelow, abs_neg, abs_of_pos (by norm_num)]
  · exact hround

/-- An integer half way from a number is the rounded one only if it is even. -/
theorem roundEven_mod_two {q : ℚ} (h : |(roundEven q : ℚ) - q| = 1 / 2) : roundEven q % 2 = 0 := by
  revert h
  unfold roundEven
  split
  · next htie =>
    intro _
    omega
  · next htie =>
    intro h
    by_contra hodd
    -- Half a step above would have been rounded down, half a step below is never chosen.
    have habove : (round q : ℚ) - q = 1 / 2 := by
      rcases abs_eq (by norm_num : (0 : ℚ) ≤ 1 / 2) |>.1 h with h | h
      · exact h
      · have hlt : q < round q + 1 / 2 := by
          have hfloor := Int.lt_floor_add_one (q + 1 / 2)
          rw [← round_eq] at hfloor
          linarith
        linarith
    exact htie ⟨habove, by omega⟩

/-- An integer at most half a step away, and even if it is exactly half a step away, is the rounded
one. -/
theorem roundEven_eq {q : ℚ} {n : ℤ} (hdistance : |(n : ℚ) - q| ≤ 1 / 2)
    (heven : |(n : ℚ) - q| = 1 / 2 → n % 2 = 0) : roundEven q = n := by
  have hrounded := abs_roundEven_sub_le q
  by_contra hne
  rw [abs_le] at hdistance hrounded
  have hclose : |(roundEven q - n : ℤ)| ≤ 1 := by
    have h : |((roundEven q - n : ℤ) : ℚ)| ≤ 1 := by
      rw [abs_le]
      push_cast
      constructor <;> linarith
    exact_mod_cast h
  -- Two different integers this near stand on either side, and only one of them is even.
  have hsides : roundEven q = n + 1 ∨ roundEven q = n - 1 := by
    rw [abs_le] at hclose
    omega
  have hcast : (roundEven q : ℚ) = n + 1 ∨ (roundEven q : ℚ) = n - 1 := by
    rcases hsides with h | h
    · exact .inl (by rw [h]; push_cast; rfl)
    · exact .inr (by rw [h]; push_cast; rfl)
  have hhalf : |(n : ℚ) - q| = 1 / 2 ∧ |(roundEven q : ℚ) - q| = 1 / 2 := by
    rw [abs_eq (by norm_num), abs_eq (by norm_num)]
    rcases hcast with h | h
    · exact ⟨.inr (by linarith), .inl (by linarith)⟩
    · exact ⟨.inl (by linarith), .inr (by linarith)⟩
  have hn := heven hhalf.1
  have hr := roundEven_mod_two hhalf.2
  omega

theorem roundEven_eq_of_abs_lt {q : ℚ} {n : ℤ} (h : |(n : ℚ) - q| < 1 / 2) : roundEven q = n :=
  roundEven_eq h.le fun heq => absurd heq h.ne

/-- No integer is nearer than the rounded one. -/
theorem abs_roundEven_sub_le_abs (q : ℚ) (m : ℤ) : |(roundEven q : ℚ) - q| ≤ |m - q| := by
  by_contra hnearer
  have hhalf := (not_le.1 hnearer).trans_le (abs_roundEven_sub_le q)
  rw [roundEven_eq_of_abs_lt hhalf] at hnearer
  exact hnearer le_rfl

/-- Where another integer is as near, the rounded one is even. -/
theorem even_roundEven_of_tie {q : ℚ} {m : ℤ} (hm : m ≠ roundEven q)
    (htie : |(m : ℚ) - q| = |(roundEven q : ℚ) - q|) : Even (roundEven q) := by
  have hhalf : |(roundEven q : ℚ) - q| = 1 / 2 := by
    refine le_antisymm (abs_roundEven_sub_le q) (not_lt.1 fun hlt => hm ?_)
    exact (roundEven_eq_of_abs_lt (htie ▸ hlt)).symm
  exact Int.even_iff.2 (roundEven_mod_two hhalf)

@[simp] theorem roundEven_intCast (n : ℤ) : roundEven n = n :=
  roundEven_eq_of_abs_lt (by norm_num)

@[simp] theorem roundEven_zero : roundEven 0 = 0 := by
  simpa using roundEven_intCast 0

theorem roundEven_neg (q : ℚ) : roundEven (-q) = -roundEven q := by
  have hdistance : |((-roundEven q : ℤ) : ℚ) - -q| = |(roundEven q : ℚ) - q| := by
    rw [← abs_neg]
    congr 1
    push_cast
    ring
  refine roundEven_eq (hdistance ▸ abs_roundEven_sub_le q) fun h => ?_
  have := roundEven_mod_two (hdistance ▸ h)
  omega

theorem roundEven_mono {p q : ℚ} (h : p ≤ q) : roundEven p ≤ roundEven q := by
  by_contra hlt
  have hp := abs_le.1 (abs_roundEven_sub_le p)
  have hq := abs_le.1 (abs_roundEven_sub_le q)
  have hstep : (roundEven q : ℚ) + 1 ≤ roundEven p := by exact_mod_cast Int.not_le.1 hlt
  have heq : p = q := by linarith
  exact hlt (heq ▸ le_rfl)

theorem roundEven_nonneg {q : ℚ} (h : 0 ≤ q) : 0 ≤ roundEven q := by
  simpa using roundEven_mono h

/-- A quotient of natural numbers is a whole part and a rest. -/
theorem div_eq_div_add_mod_div (num : ℕ) {den : ℕ} (hden : 0 < den) :
    (num : ℚ) / den = (num / den : ℕ) + (num % den : ℕ) / den := by
  have hpos : (0 : ℚ) < den := by exact_mod_cast hden
  have hsplit : (num : ℚ) = den * (num / den : ℕ) + (num % den : ℕ) := by
    exact_mod_cast (Nat.div_add_mod num den).symm
  rw [div_eq_iff hpos.ne', add_mul, div_mul_cancel₀ _ hpos.ne']
  linarith

/-! ### The grid of doubles -/

/-- The exponent of the step from one double to the next around a number. -/
def stepExponent (q : ℚ) : ℤ := max (Int.log 2 |q| - 52) (-1074)

/-- The number on the grid of doubles that is nearest to a number. -/
def nearest (q : ℚ) : ℚ := roundEven (q / 2 ^ stepExponent q) * 2 ^ stepExponent q

theorem two_zpow_pos (e : ℤ) : (0 : ℚ) < 2 ^ e := zpow_pos (by norm_num) e

theorem two_zpow_le {d e : ℤ} (h : d ≤ e) : (2 : ℚ) ^ d ≤ 2 ^ e :=
  zpow_le_zpow_right₀ (by norm_num) h

theorem two_zpow_lt {d e : ℤ} (h : d < e) : (2 : ℚ) ^ d < 2 ^ e :=
  zpow_lt_zpow_right₀ (by norm_num) h

theorem two_zpow_add (d e : ℤ) : (2 : ℚ) ^ (d + e) = 2 ^ d * 2 ^ e :=
  zpow_add₀ (by norm_num) d e

theorem two_zpow_log2_le {m : ℕ} (hm : 0 < m) : (2 : ℚ) ^ (m.log2 : ℤ) ≤ m := by
  rw [zpow_natCast]
  exact_mod_cast Nat.log2_self_le hm.ne'

theorem add_one_le_two_zpow_log2 (m : ℕ) : (m : ℚ) + 1 ≤ 2 ^ ((m.log2 : ℤ) + 1) := by
  have : m + 1 ≤ 2 ^ (m.log2 + 1) := Nat.lt_log2_self
  exact_mod_cast this

/-- A power of two is a whole number of steps of every finer grid. -/
theorem exists_two_zpow_eq {d e : ℤ} (h : d ≤ e) : ∃ n : ℤ, (2 : ℚ) ^ e = n * 2 ^ d := by
  obtain ⟨k, hk⟩ := Int.eq_ofNat_of_zero_le (Int.sub_nonneg.2 h)
  refine ⟨2 ^ k, ?_⟩
  rw [show e = k + d by omega, two_zpow_add, zpow_natCast]
  push_cast
  rfl

@[simp] theorem nearest_zero : nearest 0 = 0 := by simp [nearest]

@[simp] theorem stepExponent_neg (q : ℚ) : stepExponent (-q) = stepExponent q := by
  rw [stepExponent, abs_neg, stepExponent]

@[simp] theorem nearest_neg (q : ℚ) : nearest (-q) = -nearest q := by
  rw [nearest, stepExponent_neg, neg_div, roundEven_neg, nearest]
  push_cast
  ring

theorem neg_1074_le_stepExponent (q : ℚ) : -1074 ≤ stepExponent q := le_max_right _ _

/-- A number below 53 bits of some grid is rounded on this grid or on a finer one. -/
theorem stepExponent_le {q : ℚ} (hq : q ≠ 0) {e : ℤ} (he : -1074 ≤ e)
    (h : |q| < 2 ^ (e + 53)) : stepExponent q ≤ e := by
  have hlog : Int.log 2 |q| < e + 53 := by
    refine (Int.lt_zpow_iff_log_lt (by norm_num) (abs_pos.2 hq)).1 ?_
    exact_mod_cast h
  rw [stepExponent]
  omega

/-- A number from 52 bits of some grid on is rounded on this grid or on a coarser one. -/
theorem le_stepExponent {q : ℚ} {e : ℤ} (h : 2 ^ (e + 52) ≤ |q|) : e ≤ stepExponent q := by
  have hpos : 0 < |q| := (two_zpow_pos _).trans_le h
  have hlog : e + 52 ≤ Int.log 2 |q| := by
    refine (Int.zpow_le_iff_le_log (by norm_num) hpos).1 ?_
    exact_mod_cast h
  rw [stepExponent]
  omega

/-- The step around a number is told by a power of two above it and, unless the step is the finest
one, by one below it. -/
theorem stepExponent_eq {q : ℚ} (hq : q ≠ 0) {e : ℤ} (he : -1074 ≤ e)
    (habove : |q| < 2 ^ (e + 53)) (hbelow : e = -1074 ∨ (2 : ℚ) ^ (e + 52) ≤ |q|) :
    stepExponent q = e := by
  refine le_antisymm (stepExponent_le hq he habove) ?_
  rcases hbelow with rfl | hle
  · exact neg_1074_le_stepExponent q
  · exact le_stepExponent hle

theorem abs_lt_two_zpow_stepExponent (q : ℚ) : |q| < 2 ^ (stepExponent q + 53) := by
  calc |q| < ((2 : ℕ) : ℚ) ^ (Int.log 2 |q| + 1) := Int.lt_zpow_succ_log_self (by norm_num) |q|
    _ = 2 ^ (Int.log 2 |q| + 1) := by norm_num
    _ ≤ 2 ^ (stepExponent q + 53) := two_zpow_le (by rw [stepExponent]; omega)

theorem two_zpow_stepExponent_le {q : ℚ} (hq : q ≠ 0) (h : stepExponent q ≠ -1074) :
    (2 : ℚ) ^ (stepExponent q + 52) ≤ |q| := by
  have hlog : stepExponent q = Int.log 2 |q| - 52 := by
    rw [stepExponent] at h ⊢
    omega
  have hself := Int.zpow_log_le_self (R := ℚ) (b := 2) (by norm_num) (abs_pos.2 hq)
  rw [hlog, sub_add_cancel]
  exact_mod_cast hself

/-- A number is rounded to 53 bits: not to more of them, and on all grids but the finest not to
fewer. -/
theorem roundEven_stepExponent_bounds {q : ℚ} (hq : 0 < q) :
    roundEven (q / 2 ^ stepExponent q) ≤ 2 ^ 53 ∧
      (stepExponent q = -1074 ∨ 2 ^ 52 ≤ roundEven (q / 2 ^ stepExponent q)) := by
  constructor
  · have hle : q / 2 ^ stepExponent q ≤ ((2 ^ 53 : ℤ) : ℚ) := by
      have habove := abs_lt_two_zpow_stepExponent q
      rw [abs_of_pos hq, add_comm, two_zpow_add] at habove
      rw [div_le_iff₀ (two_zpow_pos _)]
      exact_mod_cast habove.le
    have := roundEven_mono hle
    rwa [roundEven_intCast] at this
  · refine or_iff_not_imp_left.2 fun hne => ?_
    have hle : ((2 ^ 52 : ℤ) : ℚ) ≤ q / 2 ^ stepExponent q := by
      have hbelow := two_zpow_stepExponent_le hq.ne' hne
      rw [abs_of_pos hq, add_comm, two_zpow_add] at hbelow
      rw [le_div_iff₀ (two_zpow_pos _)]
      exact_mod_cast hbelow
    have := roundEven_mono hle
    rwa [roundEven_intCast] at this

/-- The grid gets coarser, if at all, away from zero. -/
theorem stepExponent_mono {p q : ℚ} (hp : 0 < p) (h : p ≤ q) :
    stepExponent p ≤ stepExponent q := by
  have hlog : Int.log 2 |p| ≤ Int.log 2 |q| := by
    rw [abs_of_pos hp, abs_of_pos (hp.trans_le h)]
    exact Int.log_mono_right hp h
  rw [stepExponent, stepExponent]
  omega

/-- What is rounded on a grid lies at most half a step away. -/
theorem abs_nearest_sub_le (q : ℚ) : |nearest q - q| ≤ 2 ^ stepExponent q / 2 := by
  have hstep := two_zpow_pos (stepExponent q)
  have hscaled : nearest q - q =
      (roundEven (q / 2 ^ stepExponent q) - q / 2 ^ stepExponent q) * 2 ^ stepExponent q := by
    rw [sub_mul, div_mul_cancel₀ q hstep.ne', nearest]
  rw [hscaled, abs_mul, abs_of_pos hstep]
  calc _ ≤ 1 / 2 * (2 : ℚ) ^ stepExponent q :=
        mul_le_mul_of_nonneg_right (abs_roundEven_sub_le _) hstep.le
    _ = 2 ^ stepExponent q / 2 := by ring

/-- The relative error of rounding, where the step is not the finest. -/
theorem abs_nearest_sub_le_mul {q : ℚ} (h : 2 ^ (-1022 : ℤ) ≤ |q|) :
    |nearest q - q| ≤ 2 ^ (-53 : ℤ) * |q| := by
  have hq : q ≠ 0 := by
    rintro rfl
    rw [abs_zero] at h
    linarith [two_zpow_pos (-1022)]
  have hlog : -1022 ≤ Int.log 2 |q| := by
    refine (Int.zpow_le_iff_le_log (by norm_num) (abs_pos.2 hq)).1 ?_
    exact_mod_cast h
  have hexponent : stepExponent q = Int.log 2 |q| - 52 := by
    rw [stepExponent]
    omega
  have hself : (2 : ℚ) ^ Int.log 2 |q| ≤ |q| := by
    exact_mod_cast Int.zpow_log_le_self (R := ℚ) (b := 2) (by norm_num) (abs_pos.2 hq)
  calc |nearest q - q| ≤ 2 ^ stepExponent q / 2 := abs_nearest_sub_le q
    _ = 2 ^ (-53 : ℤ) * 2 ^ Int.log 2 |q| := by
        rw [hexponent, ← two_zpow_add, div_eq_mul_inv, ← zpow_neg_one, ← two_zpow_add]
        congr 1
        ring
    _ ≤ 2 ^ (-53 : ℤ) * |q| := mul_le_mul_of_nonneg_left hself (two_zpow_pos _).le

/-- A whole number of steps of a grid coarse enough is rounded to itself. -/
theorem nearest_of_step {q : ℚ} {n : ℤ} {e : ℤ} (hq : q = n * 2 ^ e) (he : stepExponent q ≤ e) :
    nearest q = q := by
  obtain ⟨m, hm⟩ := exists_two_zpow_eq he
  have hwhole : q / 2 ^ stepExponent q = ((n * m : ℤ) : ℚ) := by
    rw [div_eq_iff (two_zpow_pos _).ne', Int.cast_mul, mul_assoc, ← hm]
    exact hq
  rw [nearest, hwhole, roundEven_intCast, ← hwhole, div_mul_cancel₀ _ (two_zpow_pos _).ne']

/-- What has at most 53 bits on a grid is rounded to itself. -/
theorem nearest_of_grid {n : ℤ} {e : ℤ} (hn : |n| < 2 ^ 53) (he : -1074 ≤ e) :
    nearest (n * 2 ^ e) = n * 2 ^ e := by
  rcases eq_or_ne ((n : ℚ) * 2 ^ e) 0 with h | h
  · rw [h, nearest_zero]
  · refine nearest_of_step rfl (stepExponent_le h he ?_)
    rw [abs_mul, abs_of_pos (two_zpow_pos e), add_comm e, two_zpow_add]
    refine mul_lt_mul_of_pos_right ?_ (two_zpow_pos e)
    exact_mod_cast hn

theorem nearest_two_zpow {e : ℤ} (he : -1074 ≤ e) : nearest (2 ^ e) = 2 ^ e := by
  have h := nearest_of_grid (n := 1) (by norm_num) he
  rwa [Int.cast_one, one_mul] at h

/-- What has been rounded is on the grid. -/
@[simp] theorem nearest_nearest (q : ℚ) : nearest (nearest q) = nearest q := by
  have hpositive {q : ℚ} (hq : 0 < q) : nearest (nearest q) = nearest q := by
    have hfinest := neg_1074_le_stepExponent q
    have hlow := roundEven_nonneg (div_nonneg hq.le (two_zpow_pos (stepExponent q)).le)
    rcases (roundEven_stepExponent_bounds hq).1.eq_or_lt with hnext | hlt
    · -- The significand was rounded up to the next power of two.
      have hpower : nearest q = 2 ^ (53 + stepExponent q) := by
        rw [nearest, hnext, two_zpow_add]
        norm_num
      rw [hpower, nearest_two_zpow (by omega)]
    · exact nearest_of_grid (by rwa [abs_of_nonneg hlow]) hfinest
  rcases lt_trichotomy q 0 with h | rfl | h
  · rw [← neg_neg q, nearest_neg, nearest_neg, hpositive (neg_pos.2 h)]
  · rw [nearest_zero, nearest_zero]
  · exact hpositive h

/-! ### Rounding keeps the order -/

theorem nearest_nonneg {q : ℚ} (h : 0 ≤ q) : 0 ≤ nearest q := by
  have hrounded := roundEven_nonneg (div_nonneg h (two_zpow_pos (stepExponent q)).le)
  exact mul_nonneg (by exact_mod_cast hrounded) (two_zpow_pos _).le

/-- A number rounds to at most the power of two that bounds it. -/
theorem nearest_le_two_zpow {q : ℚ} {e : ℤ} (he : stepExponent q ≤ e) (h : q ≤ 2 ^ e) :
    nearest q ≤ 2 ^ e := by
  obtain ⟨n, hn⟩ := exists_two_zpow_eq he
  have hscaled : q / 2 ^ stepExponent q ≤ n := by rwa [div_le_iff₀ (two_zpow_pos _), ← hn]
  have hrounded := roundEven_mono hscaled
  rw [roundEven_intCast] at hrounded
  rw [nearest, hn]
  exact mul_le_mul_of_nonneg_right (by exact_mod_cast hrounded) (two_zpow_pos _).le

/-- A number rounds to at least the power of two that it reaches. -/
theorem two_zpow_le_nearest {q : ℚ} {e : ℤ} (he : stepExponent q ≤ e) (h : 2 ^ e ≤ q) :
    2 ^ e ≤ nearest q := by
  obtain ⟨n, hn⟩ := exists_two_zpow_eq he
  have hscaled : n ≤ q / 2 ^ stepExponent q := by rwa [le_div_iff₀ (two_zpow_pos _), ← hn]
  have hrounded := roundEven_mono hscaled
  rw [roundEven_intCast] at hrounded
  rw [nearest, hn]
  exact mul_le_mul_of_nonneg_right (by exact_mod_cast hrounded) (two_zpow_pos _).le

theorem nearest_le_of_pos {p q : ℚ} (hp : 0 < p) (h : p ≤ q) : nearest p ≤ nearest q := by
  have hq : 0 < q := hp.trans_le h
  rcases (stepExponent_mono hp h).eq_or_lt with hsame | hcoarser
  · have hscaled : p / 2 ^ stepExponent p ≤ q / 2 ^ stepExponent p :=
      div_le_div_of_nonneg_right h (two_zpow_pos _).le
    rw [nearest, nearest, ← hsame]
    exact mul_le_mul_of_nonneg_right (by exact_mod_cast roundEven_mono hscaled)
      (two_zpow_pos _).le
  · -- A power of two lies between the two numbers and is on both grids.
    have hfinest := neg_1074_le_stepExponent p
    have habove := abs_lt_two_zpow_stepExponent p
    have hbelow := two_zpow_stepExponent_le hq.ne' (by omega)
    rw [abs_of_pos hp] at habove
    rw [abs_of_pos hq] at hbelow
    have hmiddle := two_zpow_le (show stepExponent p + 53 ≤ stepExponent q + 52 by omega)
    calc nearest p ≤ 2 ^ (stepExponent q + 52) :=
          nearest_le_two_zpow (by omega) (habove.le.trans hmiddle)
      _ ≤ nearest q := two_zpow_le_nearest (by omega) hbelow

theorem nearest_mono {p q : ℚ} (h : p ≤ q) : nearest p ≤ nearest q := by
  rcases lt_or_ge 0 p with hp | hp
  · exact nearest_le_of_pos hp h
  · have hnonneg := nearest_nonneg (neg_nonneg.2 hp)
    rw [nearest_neg] at hnonneg
    rcases le_or_gt 0 q with hq | hq
    · linarith [nearest_nonneg hq]
    · have hneg := nearest_le_of_pos (neg_pos.2 hq) (neg_le_neg h)
      rw [nearest_neg, nearest_neg] at hneg
      linarith

/-- A number rounds to at least the power of two that it reaches, however coarse its grid. -/
theorem two_zpow_le_nearest_of_le {q : ℚ} {e : ℤ} (he : -1074 ≤ e) (h : 2 ^ e ≤ q) :
    2 ^ e ≤ nearest q :=
  nearest_two_zpow he ▸ nearest_mono h

/-- What lies less than half of the finest step from zero is rounded to zero. -/
theorem nearest_eq_zero {q : ℚ} (h : |q| < 2 ^ (-1075 : ℤ)) : nearest q = 0 := by
  rcases eq_or_ne q 0 with rfl | hq
  · exact nearest_zero
  have hstep : stepExponent q = -1074 :=
    stepExponent_eq hq le_rfl (h.trans (two_zpow_lt (by norm_num))) (.inl rfl)
  have hhalf : |((0 : ℤ) : ℚ) - q / 2 ^ (-1074 : ℤ)| < 1 / 2 := by
    rw [Int.cast_zero, zero_sub, abs_neg, abs_div, abs_of_pos (two_zpow_pos _),
      div_lt_iff₀ (two_zpow_pos _)]
    calc |q| < 2 ^ (-1075 : ℤ) := h
      _ = 1 / 2 * 2 ^ (-1074 : ℤ) := by
        rw [show (-1075 : ℤ) = -1 + -1074 by norm_num, two_zpow_add, zpow_neg_one, one_div]
  rw [nearest, hstep, roundEven_eq_of_abs_lt hhalf, Int.cast_zero, zero_mul]

/-! ### Points of the grid -/

/-- A point of the grid above the least normal one has a significand of 53 bits. -/
theorem exists_significand {p : ℚ} (hgrid : nearest p = p) (h : 2 ^ (-1022 : ℤ) ≤ p) :
    ∃ (m : ℕ) (e : ℤ), 2 ^ 52 ≤ m ∧ m < 2 ^ 53 ∧ p = m * 2 ^ e := by
  have hpos : 0 < p := (two_zpow_pos _).trans_le h
  have hstep := two_zpow_pos (stepExponent p)
  have habove := abs_lt_two_zpow_stepExponent p
  have hbounds := (roundEven_stepExponent_bounds hpos).2
  obtain ⟨m, hm⟩ := Int.eq_ofNat_of_zero_le (roundEven_nonneg (div_nonneg hpos.le hstep.le))
  rw [nearest, hm, Int.cast_natCast] at hgrid
  refine ⟨m, stepExponent p, ?_, ?_, hgrid.symm⟩
  · rcases hbounds with hfinest | hfull
    · rw [hfinest] at hgrid
      rw [← hgrid, show (-1022 : ℤ) = 52 + -1074 by norm_num, two_zpow_add] at h
      exact_mod_cast le_of_mul_le_mul_right h (two_zpow_pos _)
    · exact_mod_cast hm ▸ hfull
  · rw [abs_of_pos hpos, add_comm, two_zpow_add] at habove
    nth_rewrite 1 [← hgrid] at habove
    exact_mod_cast lt_of_mul_lt_mul_right habove hstep.le

/-- Between two neighbours on the grid there is no point of the grid. -/
theorem add_one_mul_le_of_lt {p : ℚ} {m : ℕ} {e : ℤ} (hgrid : nearest p = p) (he : -1074 ≤ e)
    (hlow : 2 ^ 52 ≤ m) (hhigh : m < 2 ^ 53) (hlt : m * 2 ^ e < p) : (m + 1) * 2 ^ e ≤ p := by
  by_contra hnext
  have hstep := two_zpow_pos e
  have hleast : (2 : ℚ) ^ (52 : ℤ) ≤ m := by exact_mod_cast hlow
  have hmost : (m : ℚ) + 1 ≤ 2 ^ (53 : ℤ) := by exact_mod_cast hhigh
  have hpos : 0 < p := lt_of_le_of_lt (mul_nonneg m.cast_nonneg hstep.le) hlt
  have hexponent : stepExponent p = e := by
    refine stepExponent_eq hpos.ne' he ?_ (.inr ?_)
    · rw [abs_of_pos hpos, add_comm, two_zpow_add]
      exact (not_le.1 hnext).trans_le (mul_le_mul_of_nonneg_right hmost hstep.le)
    · rw [abs_of_pos hpos, add_comm, two_zpow_add]
      exact (mul_le_mul_of_nonneg_right hleast hstep.le).trans hlt.le
  rw [nearest, hexponent] at hgrid
  rw [← hgrid] at hlt hnext
  have hbelow : (m : ℤ) < roundEven (p / 2 ^ e) := by
    exact_mod_cast lt_of_mul_lt_mul_right hlt hstep.le
  have habove : roundEven (p / 2 ^ e) < m + 1 := by
    exact_mod_cast lt_of_mul_lt_mul_right (not_le.1 hnext) hstep.le
  omega

theorem lt_of_two_zpow_le_significand {m : ℕ} {k e : ℤ} (hm : m < 2 ^ 53)
    (h : (2 : ℚ) ^ k ≤ m * 2 ^ e) : k < 53 + e := by
  have hsmall : (m : ℚ) * 2 ^ e < 2 ^ (53 : ℤ) * 2 ^ e :=
    mul_lt_mul_of_pos_right (by exact_mod_cast hm) (two_zpow_pos e)
  rw [← two_zpow_add] at hsmall
  exact (zpow_lt_zpow_iff_right₀ one_lt_two).1 (h.trans_lt hsmall)

end SolidScene.Double

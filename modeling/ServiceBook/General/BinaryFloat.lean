import Mathlib.Data.Int.Log
import Mathlib.Data.Rat.Floor
import Mathlib.Algebra.Order.Field.Basic
import Mathlib.Tactic.Linarith
import Mathlib.Tactic.Positivity
import Mathlib.Tactic.NormNum

/-! Binary floating point with a significand of `p` bits and no bound on the
exponent: every finite result is the exact rational one, rounded to the
nearest representable value with ties to the even significand. The results
below bound how far one rounding can move a value. -/
namespace BinaryFloat

/-- A finite value is the rational number it denotes. The sign of a zero is
not kept. -/
inductive Value where
  | finite (x : ℚ)
  | infinite (negative : Bool)
  | nan
deriving DecidableEq, Repr

def Value.IsFinite : Value → Prop
  | .finite _ => True
  | _ => False

instance (v : Value) : Decidable v.IsFinite := by
  cases v <;> unfold Value.IsFinite <;> infer_instance

/-- The nearest integer, with ties to the even neighbour. -/
def nearestEven (x : ℚ) : ℤ :=
  if x - ⌊x⌋ < 1 / 2 then ⌊x⌋
  else if 1 / 2 < x - ⌊x⌋ then ⌊x⌋ + 1
  else ⌊x⌋ + ⌊x⌋ % 2

/-- The exponent of the last place of a `p`-bit significand of `x`. -/
def lastPlace (p : ℕ) (x : ℚ) : ℤ := Int.log 2 |x| + 1 - p

/-- The nearest rational with a `p`-bit significand. -/
def round (p : ℕ) (x : ℚ) : ℚ :=
  if x = 0 then 0 else nearestEven (x / 2 ^ lastPlace p x) * 2 ^ lastPlace p x

def ofInt (p : ℕ) (n : ℤ) : Value := .finite (round p n)

def div (p : ℕ) : Value → Value → Value
  | .finite x, .finite y =>
      if y = 0 then (if x = 0 then .nan else .infinite (x < 0)) else .finite (round p (x / y))
  | .finite _, .infinite _ => .finite 0
  | .infinite negative, .finite y => .infinite (negative != decide (y < 0))
  | _, _ => .nan

/-- The integer part, rounded toward zero. Infinities and NaN have none. -/
def truncate : Value → Option ℤ
  | .finite x => some (if 0 ≤ x then ⌊x⌋ else ⌈x⌉)
  | _ => none

theorem nearestEven_error (x : ℚ) : |(nearestEven x : ℚ) - x| ≤ 1 / 2 := by
  have hLower := Int.floor_le x
  have hUpper := Int.lt_floor_add_one x
  have hParity : (0 : ℚ) ≤ (⌊x⌋ % 2 : ℤ) ∧ ((⌊x⌋ % 2 : ℤ) : ℚ) ≤ 1 := by
    constructor
    · exact_mod_cast Int.emod_nonneg ⌊x⌋ two_ne_zero
    · exact_mod_cast (by omega : ⌊x⌋ % 2 ≤ 1)
  rw [abs_le, nearestEven]
  split_ifs
  · constructor <;> linarith
  · push_cast
    constructor <;> linarith
  · have hTie : x - ⌊x⌋ = 1 / 2 := by linarith
    push_cast at hParity ⊢
    constructor <;> linarith

/-- Integers stay as they are. -/
theorem nearestEven_intCast (n : ℤ) : nearestEven (n : ℚ) = n := by
  rw [nearestEven, Int.floor_intCast, sub_self, if_pos (by norm_num)]

/-- Two values whose nearest integers are out of order are half a unit away from
either, so they are equal. -/
theorem nearestEven_mono {x y : ℚ} (h : x ≤ y) : nearestEven x ≤ nearestEven y := by
  by_contra hNot
  have hGap : (nearestEven y : ℚ) + 1 ≤ nearestEven x := by
    exact_mod_cast Int.add_one_le_of_lt (not_le.mp hNot)
  have hx := (abs_le.mp (nearestEven_error x)).2
  have hy := (abs_le.mp (nearestEven_error y)).1
  obtain rfl : x = y := by linarith
  exact hNot le_rfl

/-- Zero rounds like every other value. -/
theorem round_eq (p : ℕ) (x : ℚ) :
    round p x = nearestEven (x / 2 ^ lastPlace p x) * 2 ^ lastPlace p x := by
  unfold round
  split
  · next hx =>
      have hZero : nearestEven 0 = 0 := by exact_mod_cast nearestEven_intCast 0
      rw [hx, zero_div, hZero, Int.cast_zero, zero_mul]
  · rfl

theorem scale_pos (p : ℕ) (x : ℚ) : (0 : ℚ) < 2 ^ lastPlace p x := zpow_pos two_pos _

/-- A nonzero value has at least one full unit in its last place. -/
theorem one_le_scaled {p : ℕ} (hp : 1 ≤ p) {x : ℚ} (hx : x ≠ 0) :
    1 ≤ |x / 2 ^ lastPlace p x| := by
  rw [abs_div, abs_of_pos (scale_pos p x), le_div_iff₀ (scale_pos p x), one_mul]
  calc (2 : ℚ) ^ lastPlace p x
      ≤ 2 ^ Int.log 2 |x| := zpow_le_zpow_right₀ one_le_two (by unfold lastPlace; omega)
    _ ≤ |x| := by exact_mod_cast Int.zpow_log_le_self one_lt_two (abs_pos.mpr hx)

/-- Rounding to an integer moves a value of magnitude at least one by less
than a factor of two in either direction. -/
theorem nearestEven_abs_bounds {y : ℚ} (hy : 1 ≤ |y|) :
    |y| / 2 ≤ |(nearestEven y : ℚ)| ∧ |(nearestEven y : ℚ)| ≤ 2 * |y| := by
  have hError := nearestEven_error y
  have hUp := abs_sub_abs_le_abs_sub (nearestEven y : ℚ) y
  have hDown := abs_sub_abs_le_abs_sub y (nearestEven y : ℚ)
  rw [abs_sub_comm] at hDown
  constructor <;> linarith

/-- One rounding moves a value by at most a factor of two. -/
theorem round_abs_bounds {p : ℕ} (hp : 1 ≤ p) (x : ℚ) :
    |x| / 2 ≤ |round p x| ∧ |round p x| ≤ 2 * |x| := by
  by_cases hx : x = 0
  · simp [round, hx]
  have hScale := scale_pos p x
  obtain ⟨hLower, hUpper⟩ := nearestEven_abs_bounds (one_le_scaled hp hx)
  have hSplit : |x| = |x / 2 ^ lastPlace p x| * 2 ^ lastPlace p x := by
    rw [abs_div, abs_of_pos hScale, div_mul_cancel₀ _ hScale.ne']
  have hRound : |round p x| =
      |(nearestEven (x / 2 ^ lastPlace p x) : ℚ)| * 2 ^ lastPlace p x := by
    rw [round_eq, abs_mul, abs_of_pos hScale]
  rw [hRound]
  constructor
  · calc |x| / 2 = |x / 2 ^ lastPlace p x| / 2 * 2 ^ lastPlace p x := by
          conv_lhs => rw [hSplit, mul_div_right_comm]
      _ ≤ _ := mul_le_mul_of_nonneg_right hLower hScale.le
  · calc _ ≤ 2 * |x / 2 ^ lastPlace p x| * 2 ^ lastPlace p x :=
          mul_le_mul_of_nonneg_right hUpper hScale.le
      _ = 2 * |x| := by conv_rhs => rw [hSplit, ← mul_assoc]

theorem round_zero (p : ℕ) : round p 0 = 0 := if_pos rfl

/-- Truncation never leaves the range of the value's magnitude. -/
theorem abs_truncate_le {x : ℚ} {n : ℤ} (h : truncate (.finite x) = some n) : |(n : ℚ)| ≤ |x| := by
  obtain rfl := Option.some.inj h
  split_ifs with hx
  · rw [abs_of_nonneg hx, abs_of_nonneg (by exact_mod_cast Int.floor_nonneg.mpr hx)]
    exact Int.floor_le x
  · have hNeg : x ≤ 0 := (not_le.mp hx).le
    rw [abs_of_nonpos hNeg, abs_of_nonpos (by exact_mod_cast Int.ceil_nonpos.mpr hNeg)]
    linarith [Int.le_ceil x]

section Order

variable {p : ℕ} {x y : ℚ} {n k : ℤ}

/-- A multiple of the last place that bounds a value bounds its rounding. -/
theorem round_le (h : x ≤ n * 2 ^ lastPlace p x) : round p x ≤ n * 2 ^ lastPlace p x := by
  have hScale := scale_pos p x
  rw [round_eq]
  apply mul_le_mul_of_nonneg_right _ hScale.le
  have hScaled : x / 2 ^ lastPlace p x ≤ n := (div_le_iff₀ hScale).mpr h
  exact_mod_cast nearestEven_intCast n ▸ nearestEven_mono hScaled

theorem le_round (h : n * 2 ^ lastPlace p x ≤ x) : n * 2 ^ lastPlace p x ≤ round p x := by
  have hScale := scale_pos p x
  rw [round_eq]
  apply mul_le_mul_of_nonneg_right _ hScale.le
  have hScaled : n ≤ x / 2 ^ lastPlace p x := (le_div_iff₀ hScale).mpr h
  exact_mod_cast nearestEven_intCast n ▸ nearestEven_mono hScaled

theorem round_nonneg (h : 0 ≤ x) : 0 ≤ round p x := by
  have hZero : ((0 : ℤ) : ℚ) * 2 ^ lastPlace p x = 0 := by simp
  rw [← hZero] at h ⊢
  exact le_round h

theorem round_nonpos (h : x ≤ 0) : round p x ≤ 0 := by
  have hZero : ((0 : ℤ) : ℚ) * 2 ^ lastPlace p x = 0 := by simp
  rw [← hZero] at h ⊢
  exact round_le h

/-- Powers of two from the last place on are multiples of it. -/
theorem exists_multiple (hk : lastPlace p x ≤ k) : ∃ n : ℤ, (n : ℚ) * 2 ^ lastPlace p x = 2 ^ k := by
  refine ⟨2 ^ (k - lastPlace p x).toNat, ?_⟩
  push_cast
  rw [← zpow_natCast, Int.toNat_of_nonneg (by omega), ← zpow_add₀ two_ne_zero, sub_add_cancel]

/-- What has no digits below its last place is kept as it is. -/
theorem round_eq_self (hx : x = n * 2 ^ k) (hk : lastPlace p x ≤ k) : round p x = x := by
  obtain ⟨m, hm⟩ := exists_multiple hk
  have hScale := (scale_pos p x).ne'
  have hWhole : x / 2 ^ lastPlace p x = ((n * m : ℤ) : ℚ) := by
    rw [div_eq_iff hScale, Int.cast_mul, mul_assoc, hm]
    exact hx
  rw [round_eq, hWhole, nearestEven_intCast, ← hWhole, div_mul_cancel₀ _ hScale]

/-- With one exponent the values keep their order. -/
theorem round_mono_of_lastPlace (hPlace : lastPlace p x = lastPlace p y) (h : x ≤ y) :
    round p x ≤ round p y := by
  rw [round_eq, round_eq, hPlace]
  have hScale := scale_pos p y
  apply mul_le_mul_of_nonneg_right _ hScale.le
  exact_mod_cast nearestEven_mono ((div_le_div_iff_of_pos_right hScale).mpr h)

/-- A rounding stays between the two powers of two around the value. -/
theorem round_abs_between (hp : 1 ≤ p) (hx : x ≠ 0) :
    2 ^ Int.log 2 |x| ≤ |round p x| ∧ |round p x| ≤ 2 ^ (Int.log 2 |x| + 1) := by
  obtain ⟨n, hn⟩ : ∃ n : ℤ, (n : ℚ) * 2 ^ lastPlace p x = 2 ^ Int.log 2 |x| :=
    exists_multiple (by unfold lastPlace; omega)
  obtain ⟨m, hm⟩ : ∃ m : ℤ, (m : ℚ) * 2 ^ lastPlace p x = 2 ^ (Int.log 2 |x| + 1) :=
    exists_multiple (by unfold lastPlace; omega)
  have hLower : (2 : ℚ) ^ Int.log 2 |x| ≤ |x| := by
    exact_mod_cast Int.zpow_log_le_self one_lt_two (abs_pos.mpr hx)
  have hUpper : |x| ≤ (2 : ℚ) ^ (Int.log 2 |x| + 1) := by
    exact_mod_cast (Int.lt_zpow_succ_log_self one_lt_two |x|).le
  rw [← hn] at hLower ⊢
  rw [← hm] at hUpper ⊢
  rcases le_total 0 x with hPos | hNeg
  · rw [abs_of_nonneg hPos] at hLower hUpper
    rw [abs_of_nonneg (round_nonneg hPos)]
    exact ⟨le_round hLower, round_le hUpper⟩
  · rw [abs_of_nonpos hNeg, le_neg, ← neg_mul, ← Int.cast_neg] at hLower
    rw [abs_of_nonpos hNeg, neg_le, ← neg_mul, ← Int.cast_neg] at hUpper
    rw [abs_of_nonpos (round_nonpos hNeg), le_neg, neg_le, ← neg_mul, ← neg_mul, ← Int.cast_neg,
      ← Int.cast_neg]
    exact ⟨round_le hLower, le_round hUpper⟩

/-- A second rounding changes nothing. -/
theorem round_round (hp : 1 ≤ p) (x : ℚ) : round p (round p x) = round p x := by
  by_cases hx : x = 0
  · rw [hx, round_zero, round_zero]
  obtain ⟨hLower, hUpper⟩ := round_abs_between hp hx
  have hPos : 0 < |round p x| := (zpow_pos two_pos _).trans_le hLower
  rcases hUpper.lt_or_eq with hLess | hPower
  · have hLog : Int.log 2 |round p x| < Int.log 2 |x| + 1 :=
      (Int.lt_zpow_iff_log_lt one_lt_two hPos).mp (by exact_mod_cast hLess)
    exact round_eq_self (round_eq p x) (by unfold lastPlace; omega)
  · -- the significand has overflowed to the next power of two
    have hLog : Int.log 2 |round p x| = Int.log 2 |x| + 1 := by
      have hLog := Int.log_zpow (R := ℚ) one_lt_two (Int.log 2 |x| + 1)
      rwa [Nat.cast_ofNat, ← hPower] at hLog
    obtain ⟨m, hm⟩ : ∃ m : ℤ, round p x = m * 2 ^ (Int.log 2 |x| + 1) := by
      rcases abs_choice (round p x) with hSign | hSign
      · exact ⟨1, by rw [← hPower, hSign, Int.cast_one, one_mul]⟩
      · exact ⟨-1, by rw [← hPower, hSign, Int.cast_neg, Int.cast_one, neg_one_mul, neg_neg]⟩
    exact round_eq_self hm (by unfold lastPlace; omega)

/-- Across an exponent the power of two in between separates the roundings. -/
theorem round_abs_le_of_log_lt (hp : 1 ≤ p) (hx : x ≠ 0) (hy : y ≠ 0)
    (h : Int.log 2 |x| < Int.log 2 |y|) : |round p x| ≤ |round p y| :=
  calc |round p x| ≤ 2 ^ (Int.log 2 |x| + 1) := (round_abs_between hp hx).2
    _ ≤ 2 ^ Int.log 2 |y| := zpow_le_zpow_right₀ one_le_two h
    _ ≤ |round p y| := (round_abs_between hp hy).1

/-- A value of greater size has a greater exponent or the same last place. -/
theorem log_lt_or_lastPlace_eq (hx : x ≠ 0) (h : |x| ≤ |y|) :
    Int.log 2 |x| < Int.log 2 |y| ∨ lastPlace p x = lastPlace p y := by
  rcases (Int.log_mono_right (b := 2) (abs_pos.mpr hx) h).lt_or_eq with hLess | hSame
  · exact Or.inl hLess
  · exact Or.inr (by rw [lastPlace, lastPlace, hSame])

/-- Rounding keeps the order. -/
theorem round_mono (hp : 1 ≤ p) (h : x ≤ y) : round p x ≤ round p y := by
  rcases lt_trichotomy x 0 with hx | rfl | hx
  · rcases lt_or_ge y 0 with hy | hy
    · have hAbs : |y| ≤ |x| := by
        rw [abs_of_neg hx, abs_of_neg hy]
        exact neg_le_neg h
      rcases log_lt_or_lastPlace_eq hy.ne hAbs with hLess | hSame
      · have hSize := round_abs_le_of_log_lt hp hy.ne hx.ne hLess
        rw [abs_of_nonpos (round_nonpos hx.le), abs_of_nonpos (round_nonpos hy.le)] at hSize
        exact neg_le_neg_iff.mp hSize
      · exact round_mono_of_lastPlace hSame.symm h
    · exact (round_nonpos hx.le).trans (round_nonneg hy)
  · rw [round_zero]
    exact round_nonneg h
  · have hy : 0 < y := hx.trans_le h
    have hAbs : |x| ≤ |y| := by rwa [abs_of_pos hx, abs_of_pos hy]
    rcases log_lt_or_lastPlace_eq hx.ne' hAbs with hLess | hSame
    · have hSize := round_abs_le_of_log_lt hp hx.ne' hy.ne' hLess
      rwa [abs_of_nonneg (round_nonneg hx.le), abs_of_nonneg (round_nonneg hy.le)] at hSize
    · exact round_mono_of_lastPlace hSame h

/-- Truncation toward zero keeps the order. -/
theorem truncate_mono {m n : ℤ} (h : x ≤ y) (hm : truncate (.finite x) = some m)
    (hn : truncate (.finite y) = some n) : m ≤ n := by
  obtain rfl := Option.some.inj hm
  obtain rfl := Option.some.inj hn
  by_cases hx : 0 ≤ x
  · rw [if_pos hx, if_pos (hx.trans h)]
    exact Int.floor_mono h
  · rw [if_neg hx]
    split
    · next hy => exact (Int.ceil_nonpos.mpr (not_le.mp hx).le).trans (Int.floor_nonneg.mpr hy)
    · exact Int.ceil_mono h

end Order

section RelativeError

variable {p : ℕ} {u v x y z d e : ℚ}

/-- `x` is `y` up to a relative error of at most `u`. -/
def Within (u x y : ℚ) : Prop := |x - y| ≤ u * |y|

theorem Within.le_add (h : Within u x y) : x ≤ y + u * |y| := by
  have hUpper := (abs_le.mp h).2
  linarith

theorem Within.sub_le (h : Within u x y) : y - u * |y| ≤ x := by
  have hLower := (abs_le.mp h).1
  linarith

theorem Within.abs_le (h : Within u x y) : |x| ≤ (1 + u) * |y| := by
  have hUp := abs_sub_abs_le_abs_sub x y
  unfold Within at h
  linarith

theorem Within.le_abs (h : Within u x y) : (1 - u) * |y| ≤ |x| := by
  have hDown := abs_sub_abs_le_abs_sub y x
  rw [abs_sub_comm] at hDown
  unfold Within at h
  linarith

/-- A small relative error does not change the sign. -/
theorem Within.nonneg (h : Within u x y) (hu : u ≤ 1) (hy : 0 ≤ y) : 0 ≤ x := by
  have hLower := h.sub_le
  rw [abs_of_nonneg hy] at hLower
  linarith [mul_le_mul_of_nonneg_right hu hy]

theorem Within.nonpos (h : Within u x y) (hu : u ≤ 1) (hy : y ≤ 0) : x ≤ 0 := by
  have hUpper := h.le_add
  rw [abs_of_nonpos hy] at hUpper
  linarith [mul_le_mul_of_nonneg_right hu (neg_nonneg.mpr hy)]

/-- The error of a second step adds to that of the first. -/
theorem Within.trans (hxy : Within u x y) (hyz : Within v y z) (hu : 0 ≤ u) :
    Within (u + v + u * v) x z := by
  have hSize := hyz.abs_le
  calc |x - z| ≤ |x - y| + |y - z| := abs_sub_le x y z
    _ ≤ u * ((1 + v) * |z|) + v * |z| := by
        have hFirst := le_trans hxy (mul_le_mul_of_nonneg_left hSize hu)
        exact add_le_add hFirst hyz
    _ = (u + v + u * v) * |z| := by ring

theorem Within.mono (h : Within u x y) (huv : u ≤ v) : Within v x y :=
  le_trans h (mul_le_mul_of_nonneg_right huv (abs_nonneg y))

/-- The errors of the parts of a quotient add up. -/
theorem Within.div (hxy : Within u x y) (hde : Within v d e) (hv : v < 1) (he : e ≠ 0) :
    Within ((u + v) / (1 - v)) (x / d) (y / e) := by
  have hePos : 0 < |e| := abs_pos.mpr he
  have hRest : 0 < 1 - v := by linarith
  have hdLower := hde.le_abs
  have hdPos : 0 < |d| := lt_of_lt_of_le (mul_pos hRest hePos) hdLower
  have hd : d ≠ 0 := abs_pos.mp hdPos
  have hNumerator : |(x - y) * e - y * (d - e)| ≤ (u + v) * (|y| * |e|) := by
    calc _ ≤ |(x - y) * e| + |y * (d - e)| := abs_sub _ _
      _ = |x - y| * |e| + |y| * |d - e| := by rw [abs_mul, abs_mul]
      _ ≤ u * |y| * |e| + |y| * (v * |e|) :=
          add_le_add (mul_le_mul_of_nonneg_right hxy (abs_nonneg e))
            (mul_le_mul_of_nonneg_left hde (abs_nonneg y))
      _ = (u + v) * (|y| * |e|) := by ring
  have hSplit : x / d - y / e = ((x - y) * e - y * (d - e)) / (d * e) := by
    rw [div_sub_div _ _ hd he]
    ring
  have hBound : 0 ≤ (u + v) * (|y| * |e|) := (abs_nonneg _).trans hNumerator
  unfold Within
  calc |x / d - y / e| = |(x - y) * e - y * (d - e)| / (|d| * |e|) := by
        rw [hSplit, abs_div, abs_mul d e]
    _ ≤ (u + v) * (|y| * |e|) / ((1 - v) * |e| * |e|) := by gcongr
    _ = (u + v) / (1 - v) * |y / e| := by
        rw [abs_div]
        field_simp

/-- One rounding to `p` bits. -/
theorem within_round (p : ℕ) (x : ℚ) : Within (1 / 2 ^ p) (round p x) x := by
  by_cases hx : x = 0
  · simp [Within, round, hx]
  have hScale := scale_pos p x
  have hLog : (2 : ℚ) ^ Int.log 2 |x| ≤ |x| := by
    exact_mod_cast Int.zpow_log_le_self one_lt_two (abs_pos.mpr hx)
  have hPlace : (2 : ℚ) ^ lastPlace p x = 2 * 2 ^ Int.log 2 |x| / 2 ^ p := by
    rw [lastPlace, zpow_sub₀ two_ne_zero, zpow_add₀ two_ne_zero, zpow_one, zpow_natCast, mul_comm (2 : ℚ)]
  have hSplit : round p x - x =
      ((nearestEven (x / 2 ^ lastPlace p x) : ℚ) - x / 2 ^ lastPlace p x) * 2 ^ lastPlace p x := by
    rw [round_eq, sub_mul, div_mul_cancel₀ _ hScale.ne']
  calc |round p x - x| ≤ 1 / 2 * 2 ^ lastPlace p x := by
        rw [hSplit, abs_mul, abs_of_pos hScale]
        exact mul_le_mul_of_nonneg_right (nearestEven_error _) hScale.le
    _ = 1 / 2 ^ p * 2 ^ Int.log 2 |x| := by
        rw [hPlace]
        ring
    _ ≤ 1 / 2 ^ p * |x| := by gcongr

/-- Integers of at most `p` bits are kept as they are. -/
theorem round_intCast {n : ℤ} (h : |n| < 2 ^ p) : round p n = n := by
  by_cases hn : n = 0
  · simp [hn, round_zero]
  have hCast : (n : ℚ) ≠ 0 := by exact_mod_cast hn
  have hLog : Int.log 2 |(n : ℚ)| < p := by
    rw [← Int.lt_zpow_iff_log_lt one_lt_two (abs_pos.mpr hCast)]
    exact_mod_cast h
  have hZero : (n : ℚ) = n * 2 ^ (0 : ℤ) := by rw [zpow_zero, mul_one]
  exact round_eq_self hZero (by unfold lastPlace; omega)

/-- A value that is off by less than one unit of the divisor keeps the integer
part of a quotient, unless the quotient is whole. -/
theorem floor_eq_or_whole {n d : ℤ} (hd : 0 < d) {x : ℚ} (h : |x - n / d| < 1 / d) :
    ⌊x⌋ = ⌊(n / d : ℚ)⌋ ∨ (d ∣ n ∧ ⌊x⌋ = ⌊(n / d : ℚ)⌋ - 1) := by
  have hdPos : (0 : ℚ) < d := by exact_mod_cast hd
  have hUnit : (1 : ℚ) / d ≤ 1 := by
    rw [div_le_one hdPos]
    exact_mod_cast hd
  have hSplit : (n / d : ℚ) = (n / d : ℤ) + (n % d : ℤ) / d := by
    have hn : (n : ℚ) = d * (n / d : ℤ) + (n % d : ℤ) := by exact_mod_cast (Int.mul_ediv_add_emod n d).symm
    rw [hn]
    field_simp
  have hRestNonneg : (0 : ℚ) ≤ (n % d : ℤ) / d := by
    have hMod : (0 : ℚ) ≤ (n % d : ℤ) := by exact_mod_cast Int.emod_nonneg n hd.ne'
    positivity
  -- the remainder is a whole number of units, below the divisor
  have hRestUpper : (n % d : ℤ) / d + (1 : ℚ) / d ≤ 1 := by
    rw [← add_div, div_le_one hdPos]
    exact_mod_cast Int.emod_lt_of_pos n hd
  have hFloor : ⌊(n / d : ℚ)⌋ = n / d := by
    rw [hSplit, Int.floor_intCast_add, Int.floor_eq_zero_iff.mpr ⟨hRestNonneg, ?_⟩, add_zero]
    have hUnitPos : (0 : ℚ) < 1 / d := by positivity
    linarith
  rw [hFloor]
  rw [hSplit] at h
  obtain ⟨hLower, hUpper⟩ := abs_lt.mp h
  by_cases hWhole : n % d = 0
  · rw [hWhole, Int.cast_zero, zero_div, add_zero] at hLower hUpper
    by_cases hReached : ((n / d : ℤ) : ℚ) ≤ x
    · exact Or.inl (Int.floor_eq_iff.mpr ⟨hReached, by linarith⟩)
    · refine Or.inr ⟨Int.dvd_of_emod_eq_zero hWhole, Int.floor_eq_iff.mpr ⟨?_, ?_⟩⟩
      · push_cast at hLower ⊢
        linarith
      · push_cast at hReached ⊢
        linarith
  · have hOne : (1 : ℚ) / d ≤ (n % d : ℤ) / d := by
      have hMod : (1 : ℤ) ≤ n % d := by
        have hNonneg := Int.emod_nonneg n hd.ne'
        omega
      gcongr
      exact_mod_cast hMod
    exact Or.inl (Int.floor_eq_iff.mpr ⟨by linarith, by linarith⟩)

end RelativeError

end BinaryFloat

import ServiceBook.Utilities.UTC
import ServiceBook.Utilities.DueDate

/-! How many days the due-date rule adds. Three single-precision roundings lie
between the exact quotient and the number that is truncated, and together they
move it by at most one part in `2 ^ 22`. Each of them keeps the order. -/
namespace ServiceBook

namespace AppSharedInstance

/-- The distance over the daily run, as an exact rational. -/
def exactDays (serviceRequiredAfter averageRun : Int64) : ℚ :=
  7 * serviceRequiredAfter.toInt / averageRun.toInt

/-- For every vehicle with this distance and weekly run, the due date is this
many days after the last service date. -/
def AddsDays (serviceRequiredAfter averageRun : Int64) (days : ℤ) : Prop :=
  ∀ (P : Platform) (objVehicle : AllVehiclesI) (lastServiceDate : Date),
    objVehicle.serviceRequiredAfter = some serviceRequiredAfter →
    objVehicle.averageRun = some averageRun → objVehicle.lastServiceDate = some lastServiceDate →
      getServiceDueDate P objVehicle =
        (unwrap (P.dateByAddingDays days lastServiceDate)).map fun serviceDueDate =>
          ({ objVehicle with serviceDueDate := some serviceDueDate }, P.stringFromDate serviceDueDate)

/-- This number of days fits, and no other does. -/
def DaysAdded (serviceRequiredAfter averageRun : Int64) (n : ℤ) : Prop :=
  ∀ days, AddsDays serviceRequiredAfter averageRun days ↔ days = n

/-- The quotient is negative and reaches a whole day. -/
def Early (serviceRequiredAfter averageRun : Int64) : Prop :=
  serviceRequiredAfter.toInt * averageRun.toInt < 0 ∧ |averageRun.toInt| ≤ 7 * |serviceRequiredAfter.toInt|

section Days

variable {serviceRequiredAfter averageRun : Int64} {days : ℤ} {x : ℚ}

theorem addsDays_of_int (h : intOfFloat (noOfDays serviceRequiredAfter averageRun) = .ok days) :
    AddsDays serviceRequiredAfter averageRun days := by
  intro P objVehicle lastServiceDate hDistance hRun hLast
  rw [getServiceDueDate, hRun, hDistance, unwrap_some, unwrap_some, ok_bind, ok_bind, h, ok_bind, hLast,
    unwrap_some, ok_bind]
  cases P.dateByAddingDays days lastServiceDate <;> rfl

theorem intOfFloat_eq_ok {v : BinaryFloat.Value} (h : intOfFloat v = .ok days) :
    BinaryFloat.truncate v = some days := by
  unfold intOfFloat at h
  split at h
  · next n hTruncate =>
      split at h
      · rw [hTruncate, Except.ok.inj h]
      · cases h
  · cases h

/-- A weekly run that fits 16 bits is a single-precision number. -/
theorem averageDay_eq (hRun : InInt16 averageRun) :
    averageDay averageRun = .finite (BinaryFloat.round 24 (averageRun.toInt / 7)) := by
  have hBits : |averageRun.toInt| < 2 ^ 24 := by
    rw [abs_lt]
    obtain ⟨hLower, hUpper⟩ := hRun
    constructor <;> omega
  rw [averageDay, BinaryFloat.ofInt, BinaryFloat.round_intCast hBits, BinaryFloat.div, if_neg (by norm_num)]

theorem ne_zero_of_one_le (h : 1 ≤ averageRun.toInt) : averageRun ≠ 0 := by
  rintro rfl
  simp at h

theorem toInt_div_seven_ne_zero (h : averageRun ≠ 0) : (averageRun.toInt / 7 : ℚ) ≠ 0 :=
  div_ne_zero (toInt_ne_zero h) (by norm_num)

/-- The rounded daily run is not zero either. -/
theorem round_averageDay_ne_zero (h : averageRun ≠ 0) :
    BinaryFloat.round 24 (averageRun.toInt / 7 : ℚ) ≠ 0 := by
  have hLower := (BinaryFloat.within_round 24 (averageRun.toInt / 7 : ℚ)).le_abs
  have hPos : 0 < |(averageRun.toInt / 7 : ℚ)| := abs_pos.mpr (toInt_div_seven_ne_zero h)
  rw [← abs_pos]
  exact lt_of_lt_of_le (mul_pos (by norm_num) hPos) hLower

theorem noOfDays_eq (serviceRequiredAfter : Int64) (hRun : InInt16 averageRun) (hZero : averageRun ≠ 0) :
    noOfDays serviceRequiredAfter averageRun = .finite (BinaryFloat.round 24
      (BinaryFloat.round 24 serviceRequiredAfter.toInt / BinaryFloat.round 24 (averageRun.toInt / 7))) := by
  rw [noOfDays, averageDay_eq hRun, BinaryFloat.ofInt, BinaryFloat.div,
    if_neg (round_averageDay_ne_zero hZero)]

/-- The error of the rounded distance and those of the two roundings after it. -/
theorem noOfDays_within_of {u : ℚ} (hRun : InInt16 averageRun) (hZero : averageRun ≠ 0)
    (hDistance : BinaryFloat.Within u (BinaryFloat.round 24 serviceRequiredAfter.toInt) serviceRequiredAfter.toInt)
    (hQuotient : noOfDays serviceRequiredAfter averageRun = .finite x) :
    BinaryFloat.Within (1 / 2 ^ 24 + (u + 1 / 2 ^ 24) / (1 - 1 / 2 ^ 24) +
      1 / 2 ^ 24 * ((u + 1 / 2 ^ 24) / (1 - 1 / 2 ^ 24))) x (exactDays serviceRequiredAfter averageRun) := by
  rw [noOfDays_eq serviceRequiredAfter hRun hZero] at hQuotient
  obtain rfl := BinaryFloat.Value.finite.inj hQuotient
  have hDay := BinaryFloat.within_round 24 (averageRun.toInt / 7 : ℚ)
  have hDivided := hDistance.div hDay (by norm_num) (toInt_div_seven_ne_zero hZero)
  have hExact : (serviceRequiredAfter.toInt / (averageRun.toInt / 7) : ℚ) =
      exactDays serviceRequiredAfter averageRun := by
    rw [exactDays, div_div_eq_mul_div, mul_comm]
  rw [hExact] at hDivided
  exact (BinaryFloat.within_round 24 _).trans hDivided (by norm_num)

/-- The three roundings together. -/
theorem noOfDays_within (hRun : InInt16 averageRun) (hZero : averageRun ≠ 0)
    (hQuotient : noOfDays serviceRequiredAfter averageRun = .finite x) :
    BinaryFloat.Within (1 / 2 ^ 22) x (exactDays serviceRequiredAfter averageRun) :=
  (noOfDays_within_of hRun hZero (BinaryFloat.within_round 24 _) hQuotient).mono (by norm_num)

/-- A distance of at most 24 bits is not rounded. -/
theorem noOfDays_within_of_bits (hRun : InInt16 averageRun) (hZero : averageRun ≠ 0)
    (hBits : |serviceRequiredAfter.toInt| < 2 ^ 24)
    (hQuotient : noOfDays serviceRequiredAfter averageRun = .finite x) :
    BinaryFloat.Within (2 / (2 ^ 24 - 1)) x (exactDays serviceRequiredAfter averageRun) := by
  have hDistance : BinaryFloat.Within 0 (BinaryFloat.round 24 serviceRequiredAfter.toInt)
      serviceRequiredAfter.toInt := by
    rw [BinaryFloat.round_intCast hBits, BinaryFloat.Within, sub_self, abs_zero, zero_mul]
  exact (noOfDays_within_of hRun hZero hDistance hQuotient).mono (by norm_num)

/-- The quotient that is truncated, and what the truncation gives. -/
theorem exists_quotient (hRun : InInt16 averageRun)
    (h : intOfFloat (noOfDays serviceRequiredAfter averageRun) = .ok days) :
    ∃ x, BinaryFloat.Within (1 / 2 ^ 22) x (exactDays serviceRequiredAfter averageRun) ∧
      noOfDays serviceRequiredAfter averageRun = .finite x ∧ days = if 0 ≤ x then ⌊x⌋ else ⌈x⌉ := by
  have hZero := averageRun_ne_zero_of_int h
  have hTruncate := intOfFloat_eq_ok h
  have hQuotient := noOfDays_eq serviceRequiredAfter hRun hZero
  rw [hQuotient] at hTruncate
  exact ⟨_, noOfDays_within hRun hZero hQuotient, hQuotient, (Option.some.inj hTruncate).symm⟩

end Days

section Exact

variable {serviceRequiredAfter averageRun : Int64}

theorem exactDays_nonneg (hDistance : 0 ≤ serviceRequiredAfter.toInt) (hRun : 1 ≤ averageRun.toInt) :
    0 ≤ exactDays serviceRequiredAfter averageRun := by
  have hDistance' : (0 : ℚ) ≤ serviceRequiredAfter.toInt := by exact_mod_cast hDistance
  have hRun' : (0 : ℚ) ≤ averageRun.toInt := by exact_mod_cast (by omega : 0 ≤ averageRun.toInt)
  rw [exactDays]
  positivity

/-- The due date lies a whole number of days after the last service date, and
that number is the integer part of a value within one part in `2 ^ 22` of the
exact quotient. For distances below `2 ^ 23 / 7` it is the integer part of the
exact quotient itself, except that a whole quotient may come out one less. -/
theorem due_days (hDistance : 0 ≤ serviceRequiredAfter.toInt ∧ serviceRequiredAfter.toInt < 2 ^ 31)
    (hRun : 1 ≤ averageRun.toInt ∧ averageRun.toInt ≤ 32767) :
    ∃ (days : ℤ) (x : ℚ), AddsDays serviceRequiredAfter averageRun days ∧
      days = ⌊x⌋ ∧ BinaryFloat.Within (1 / 2 ^ 22) x (exactDays serviceRequiredAfter averageRun) ∧
      (7 * serviceRequiredAfter.toInt < 2 ^ 23 →
        days = ⌊exactDays serviceRequiredAfter averageRun⌋ ∨
          (averageRun.toInt ∣ 7 * serviceRequiredAfter.toInt ∧
            days = ⌊exactDays serviceRequiredAfter averageRun⌋ - 1)) := by
  have hDistance32 : InInt32 serviceRequiredAfter := ⟨by omega, hDistance.2⟩
  have hRun16 : InInt16 averageRun := ⟨by omega, by omega⟩
  have hZero := ne_zero_of_one_le hRun.1
  obtain ⟨days, hDays⟩ := noOfDays_int hDistance32 hZero
  obtain ⟨x, hWithin, hQuotient, hFloor⟩ := exists_quotient hRun16 hDays
  have hExact := exactDays_nonneg hDistance.1 hRun.1
  rw [if_pos (hWithin.nonneg (by norm_num) hExact)] at hFloor
  refine ⟨days, x, addsDays_of_int hDays, hFloor, hWithin, fun hSmall => ?_⟩
  rw [hFloor]
  have hPos : (0 : ℚ) < averageRun.toInt := by exact_mod_cast (by omega : 0 < averageRun.toInt)
  have hCast : exactDays serviceRequiredAfter averageRun =
      ((7 * serviceRequiredAfter.toInt : ℤ) : ℚ) / averageRun.toInt := by
    rw [exactDays]
    push_cast
    rfl
  have hBits : |serviceRequiredAfter.toInt| < 2 ^ 24 := by
    rw [abs_of_nonneg hDistance.1]
    omega
  -- the error of a quotient below `2 ^ 23` over the run is less than one unit of the run
  have hClose : |x - ((7 * serviceRequiredAfter.toInt : ℤ) : ℚ) / averageRun.toInt| < 1 / averageRun.toInt := by
    have hSmall' : (7 * serviceRequiredAfter.toInt : ℚ) ≤ 2 ^ 23 - 1 := by
      exact_mod_cast Int.le_sub_one_of_lt hSmall
    have hError : |x - exactDays serviceRequiredAfter averageRun| ≤
        2 / (2 ^ 24 - 1) * |exactDays serviceRequiredAfter averageRun| :=
      noOfDays_within_of_bits hRun16 hZero hBits hQuotient
    rw [abs_of_nonneg hExact] at hError
    rw [← hCast]
    calc |x - exactDays serviceRequiredAfter averageRun|
        ≤ 2 / (2 ^ 24 - 1) * exactDays serviceRequiredAfter averageRun := hError
      _ = 7 * serviceRequiredAfter.toInt * (2 / (2 ^ 24 - 1)) / averageRun.toInt := by
          rw [exactDays]
          ring
      _ < 1 / averageRun.toInt := by
          gcongr
          linarith
  rw [hCast]
  exact BinaryFloat.floor_eq_or_whole (by omega) hClose

/-- 5000 km at 200 km per week are 175 days. -/
theorem due_days_moped :
    ∃ (days : ℤ) (x : ℚ), AddsDays 5000 200 days ∧ days = ⌊x⌋ ∧
      BinaryFloat.Within (1 / 2 ^ 22) x (exactDays 5000 200) ∧
      (7 * (5000 : Int64).toInt < 2 ^ 23 → days = ⌊exactDays 5000 200⌋ ∨
        ((200 : Int64).toInt ∣ 7 * (5000 : Int64).toInt ∧ days = ⌊exactDays 5000 200⌋ - 1)) :=
  due_days ⟨by decide, by decide⟩ ⟨by decide, by decide⟩

private def unicycle : AllVehiclesI :=
  { serviceRequiredAfter := some 1, averageRun := some 1, lastServiceDate := some 0 }

/-- 1 km at 1 km per week is a whole week, but the rule adds six days. -/
theorem not_exact_days :
    ¬ ∀ serviceRequiredAfter averageRun : Int64,
      0 ≤ serviceRequiredAfter.toInt ∧ serviceRequiredAfter.toInt < 2 ^ 31 →
      1 ≤ averageRun.toInt ∧ averageRun.toInt ≤ 32767 →
        AddsDays serviceRequiredAfter averageRun ⌊exactDays serviceRequiredAfter averageRun⌋ := by
  intro h
  have hSix : intOfFloat (noOfDays 1 1) = .ok 6 := by decide +kernel
  have hSeven : ⌊exactDays 1 1⌋ = 7 := by decide +kernel
  have hClaim := h 1 1 ⟨by decide, by decide⟩ ⟨by decide, by decide⟩ UTC.platform unicycle 0 rfl rfl rfl
  rw [hSeven, addsDays_of_int hSix UTC.platform unicycle 0 rfl rfl rfl] at hClaim
  have hDates := congrArg (fun result => result.toOption.map fun r => r.1.serviceDueDate) hClaim
  revert hDates
  decide +kernel

end Exact

section Sign

variable {serviceRequiredAfter averageRun : Int64} {days : ℤ}

theorem abs_exactDays (serviceRequiredAfter averageRun : Int64) :
    |exactDays serviceRequiredAfter averageRun| =
      ((7 * |serviceRequiredAfter.toInt| : ℤ) : ℚ) / (|averageRun.toInt| : ℤ) := by
  rw [exactDays, abs_div, abs_mul]
  push_cast
  norm_num

theorem exactDays_nonpos (h : serviceRequiredAfter.toInt * averageRun.toInt < 0) :
    exactDays serviceRequiredAfter averageRun ≤ 0 := by
  rw [exactDays]
  rcases mul_neg_iff.mp h with ⟨hDistance, hRun⟩ | ⟨hDistance, hRun⟩
  · have hDistance' : (0 : ℚ) ≤ serviceRequiredAfter.toInt := by exact_mod_cast hDistance.le
    exact div_nonpos_of_nonneg_of_nonpos (by linarith) (by exact_mod_cast hRun.le)
  · have hDistance' : (serviceRequiredAfter.toInt : ℚ) ≤ 0 := by exact_mod_cast hDistance.le
    exact div_nonpos_of_nonpos_of_nonneg (by linarith) (by exact_mod_cast hRun.le)

theorem exactDays_nonneg_of_mul (h : 0 ≤ serviceRequiredAfter.toInt * averageRun.toInt) :
    0 ≤ exactDays serviceRequiredAfter averageRun := by
  rw [exactDays]
  rcases mul_nonneg_iff.mp h with ⟨hDistance, hRun⟩ | ⟨hDistance, hRun⟩
  · have hDistance' : (0 : ℚ) ≤ serviceRequiredAfter.toInt := by exact_mod_cast hDistance
    exact div_nonneg (by linarith) (by exact_mod_cast hRun)
  · have hDistance' : (serviceRequiredAfter.toInt : ℚ) ≤ 0 := by exact_mod_cast hDistance
    exact div_nonneg_of_nonpos (by linarith) (by exact_mod_cast hRun)

/-- If the exact quotient is minus one day, no step of the rule rounds. -/
theorem noOfDays_neg_one (hRun : InInt16 averageRun) (hZero : averageRun ≠ 0)
    (h : 7 * serviceRequiredAfter.toInt = -averageRun.toInt) :
    noOfDays serviceRequiredAfter averageRun = .finite (-1) := by
  have hBits : |serviceRequiredAfter.toInt| < 2 ^ 24 := by
    rw [abs_lt]
    obtain ⟨hLower, hUpper⟩ := hRun
    constructor <;> omega
  have hDay : (averageRun.toInt / 7 : ℚ) = ((-serviceRequiredAfter.toInt : ℤ) : ℚ) := by
    rw [div_eq_iff (by norm_num)]
    exact_mod_cast (by omega : averageRun.toInt = -serviceRequiredAfter.toInt * 7)
  have hNonzero : (serviceRequiredAfter.toInt : ℚ) ≠ 0 := by
    intro hNone
    apply toInt_div_seven_ne_zero hZero
    rw [hDay]
    push_cast
    rw [hNone, neg_zero]
  have hQuotient :
      (serviceRequiredAfter.toInt : ℚ) / ((-serviceRequiredAfter.toInt : ℤ) : ℚ) = ((-1 : ℤ) : ℚ) := by
    push_cast
    rw [div_neg, div_self hNonzero]
  rw [noOfDays_eq _ hRun hZero, hDay, BinaryFloat.round_intCast hBits,
    BinaryFloat.round_intCast (by rwa [abs_neg]), hQuotient, BinaryFloat.round_intCast (by norm_num)]
  norm_num

/-- A proper fraction with a denominator of at most `2 ^ 15` is short of one by
at least one part in `2 ^ 15`. -/
theorem div_le_of_lt {a b : ℤ} (hPos : 0 < b) (hBits : b ≤ 2 ^ 15) (h : a < b) :
    (a : ℚ) / b ≤ 1 - 1 / 2 ^ 15 := by
  have hPos' : (0 : ℚ) < b := by exact_mod_cast hPos
  have hBits' : (b : ℚ) ≤ 2 ^ 15 := by exact_mod_cast hBits
  have hShort : (a : ℚ) + 1 ≤ b := by exact_mod_cast h
  rw [div_le_iff₀ hPos']
  nlinarith

theorem le_div_of_lt {a b : ℤ} (hPos : 0 < b) (hBits : b ≤ 2 ^ 15) (h : b < a) :
    1 + 1 / 2 ^ 15 ≤ (a : ℚ) / b := by
  have hPos' : (0 : ℚ) < b := by exact_mod_cast hPos
  have hBits' : (b : ℚ) ≤ 2 ^ 15 := by exact_mod_cast hBits
  have hOver : (b : ℚ) + 1 ≤ a := by exact_mod_cast h
  rw [le_div_iff₀ hPos']
  nlinarith

theorem opposite_of_abs_eq (hSign : serviceRequiredAfter.toInt * averageRun.toInt < 0)
    (h : 7 * |serviceRequiredAfter.toInt| = |averageRun.toInt|) :
    7 * serviceRequiredAfter.toInt = -averageRun.toInt := by
  rcases mul_neg_iff.mp hSign with ⟨hDistance, hRun⟩ | ⟨hDistance, hRun⟩
  · rwa [abs_of_pos hDistance, abs_of_neg hRun] at h
  · rw [abs_of_neg hDistance, abs_of_pos hRun] at h
    omega

/-- A negative quotient reaches minus one exactly if the exact one does. -/
theorem le_neg_one_iff {x : ℚ} (hRun : InInt16 averageRun) (hZero : averageRun ≠ 0)
    (hSign : serviceRequiredAfter.toInt * averageRun.toInt < 0)
    (hQuotient : noOfDays serviceRequiredAfter averageRun = .finite x) :
    x ≤ -1 ↔ |averageRun.toInt| ≤ 7 * |serviceRequiredAfter.toInt| := by
  have hWithin := noOfDays_within hRun hZero hQuotient
  have hPos : 0 < |averageRun.toInt| := by
    have hNonzero : averageRun.toInt ≠ 0 := by exact_mod_cast toInt_ne_zero hZero
    exact abs_pos.mpr hNonzero
  have hBits : |averageRun.toInt| ≤ 2 ^ 15 := by
    rw [abs_le]
    obtain ⟨hLower, hUpper⟩ := hRun
    constructor <;> omega
  have hExact := exactDays_nonpos hSign
  have hSize := abs_exactDays serviceRequiredAfter averageRun
  have hLower := hWithin.sub_le
  have hUpper := hWithin.le_add
  rw [abs_of_nonpos hExact] at hSize hLower hUpper
  rcases lt_trichotomy (7 * |serviceRequiredAfter.toInt|) |averageRun.toInt| with hLess | hEqual | hMore
  · have hShort := div_le_of_lt hPos hBits hLess
    refine iff_of_false (fun hDay => ?_) (not_le.mpr hLess)
    linarith
  · refine iff_of_true ?_ hEqual.ge
    rw [noOfDays_neg_one hRun hZero (opposite_of_abs_eq hSign hEqual)] at hQuotient
    exact (BinaryFloat.Value.finite.inj hQuotient).ge
  · have hOver := le_div_of_lt hPos hBits hMore
    refine iff_of_true ?_ hMore.le
    linarith

/-- The rule takes days off exactly if the quotient is negative and reaches a
whole day. -/
theorem days_neg_iff (hRun : InInt16 averageRun)
    (h : intOfFloat (noOfDays serviceRequiredAfter averageRun) = .ok days) :
    days < 0 ↔ Early serviceRequiredAfter averageRun := by
  have hZero := averageRun_ne_zero_of_int h
  obtain ⟨x, hWithin, hQuotient, hDays⟩ := exists_quotient hRun h
  by_cases hSign : serviceRequiredAfter.toInt * averageRun.toInt < 0
  · -- the quotient is not positive and is truncated upwards
    have hx : x ≤ 0 := hWithin.nonpos (by norm_num) (exactDays_nonpos hSign)
    have hCeil : days = ⌈x⌉ := by
      rw [hDays]
      split
      · next hNonneg =>
          obtain rfl : x = 0 := le_antisymm hx hNonneg
          simp
      · rfl
    have hNegative : days < 0 ↔ x ≤ -1 := by
      rw [hCeil, ← Int.le_sub_one_iff, Int.ceil_le]
      norm_num
    rw [hNegative, le_neg_one_iff hRun hZero hSign hQuotient, Early, and_iff_right hSign]
  · have hx := hWithin.nonneg (by norm_num) (exactDays_nonneg_of_mul (not_lt.mp hSign))
    rw [if_pos hx] at hDays
    refine ⟨fun hNegative => ?_, fun hEarly => absurd hEarly.1 hSign⟩
    have hFloor : 0 ≤ ⌊x⌋ := Int.floor_nonneg.mpr hx
    omega

end Sign

section Order

variable {serviceRequiredAfter averageRun s₁ s₂ a₁ a₂ : Int64} {days days₁ days₂ : ℤ} {x₁ x₂ : ℚ}

/-- The calendar of a platform can tell two numbers of days apart. -/
theorem AddsDays.unique (h₁ : AddsDays serviceRequiredAfter averageRun days₁)
    (h₂ : AddsDays serviceRequiredAfter averageRun days₂) : days₁ = days₂ := by
  let objVehicle : AllVehiclesI :=
    { serviceRequiredAfter := some serviceRequiredAfter, averageRun := some averageRun
      lastServiceDate := some 0 }
  have hSame := (h₁ UTC.platform objVehicle 0 rfl rfl rfl).symm.trans (h₂ UTC.platform objVehicle 0 rfl rfl rfl)
  have hDates := congrArg (fun result => result.toOption.bind fun r => r.1.serviceDueDate) hSame
  have hSeconds : (days₁ : ℚ) * UTC.secondsPerDay = days₂ * UTC.secondsPerDay := by
    simpa [UTC.platform, Except.map, Except.toOption] using hDates
  exact_mod_cast mul_right_cancel₀ (by norm_num [UTC.secondsPerDay]) hSeconds

theorem daysAdded_of_int (h : intOfFloat (noOfDays serviceRequiredAfter averageRun) = .ok days) :
    DaysAdded serviceRequiredAfter averageRun days := by
  intro other
  constructor
  · exact fun hOther => hOther.unique (addsDays_of_int h)
  · rintro rfl
    exact addsDays_of_int h

theorem round_averageDay_pos (h : 1 ≤ averageRun.toInt) :
    0 < BinaryFloat.round 24 (averageRun.toInt / 7 : ℚ) := by
  have hRun : (0 : ℚ) ≤ averageRun.toInt := by exact_mod_cast (by omega : 0 ≤ averageRun.toInt)
  have hDay : (0 : ℚ) ≤ averageRun.toInt / 7 := by positivity
  exact lt_of_le_of_ne (BinaryFloat.round_nonneg hDay) (round_averageDay_ne_zero (ne_zero_of_one_le h)).symm

/-- A longer distance does not lower the quotient. -/
theorem noOfDays_mono (hRun : 1 ≤ averageRun.toInt) (hRun16 : InInt16 averageRun)
    (hDistance : s₁.toInt ≤ s₂.toInt) (h₁ : noOfDays s₁ averageRun = .finite x₁)
    (h₂ : noOfDays s₂ averageRun = .finite x₂) : x₁ ≤ x₂ := by
  have hZero := ne_zero_of_one_le hRun
  rw [noOfDays_eq s₁ hRun16 hZero] at h₁
  rw [noOfDays_eq s₂ hRun16 hZero] at h₂
  obtain rfl := BinaryFloat.Value.finite.inj h₁
  obtain rfl := BinaryFloat.Value.finite.inj h₂
  have hCast : (s₁.toInt : ℚ) ≤ s₂.toInt := by exact_mod_cast hDistance
  have hRounded := BinaryFloat.round_mono (p := 24) (by norm_num) hCast
  apply BinaryFloat.round_mono (by norm_num)
  exact div_le_div_of_nonneg_right hRounded (round_averageDay_pos hRun).le

/-- A greater weekly run does not raise it. -/
theorem noOfDays_anti (hDistance : 0 ≤ serviceRequiredAfter.toInt) (hRun : 1 ≤ a₁.toInt)
    (hLe : a₁.toInt ≤ a₂.toInt) (hRun₁ : InInt16 a₁) (hRun₂ : InInt16 a₂)
    (h₁ : noOfDays serviceRequiredAfter a₁ = .finite x₁) (h₂ : noOfDays serviceRequiredAfter a₂ = .finite x₂) :
    x₂ ≤ x₁ := by
  rw [noOfDays_eq serviceRequiredAfter hRun₁ (ne_zero_of_one_le hRun)] at h₁
  rw [noOfDays_eq serviceRequiredAfter hRun₂ (ne_zero_of_one_le (hRun.trans hLe))] at h₂
  obtain rfl := BinaryFloat.Value.finite.inj h₁
  obtain rfl := BinaryFloat.Value.finite.inj h₂
  have hDistance' : (0 : ℚ) ≤ serviceRequiredAfter.toInt := by exact_mod_cast hDistance
  have hCast : (a₁.toInt : ℚ) ≤ a₂.toInt := by exact_mod_cast hLe
  have hDay : (a₁.toInt / 7 : ℚ) ≤ a₂.toInt / 7 := by linarith
  have hRounded := BinaryFloat.round_mono (p := 24) (by norm_num) hDay
  apply BinaryFloat.round_mono (by norm_num)
  exact div_le_div_of_nonneg_left (BinaryFloat.round_nonneg hDistance') (round_averageDay_pos hRun) hRounded

/-- The order of the quotients is the order of the days. -/
theorem days_le (h₁ : intOfFloat (noOfDays s₁ a₁) = .ok days₁) (h₂ : intOfFloat (noOfDays s₂ a₂) = .ok days₂)
    (hLe : ∀ x₁ x₂, noOfDays s₁ a₁ = .finite x₁ → noOfDays s₂ a₂ = .finite x₂ → x₁ ≤ x₂) :
    days₁ ≤ days₂ := by
  obtain ⟨x₁, hx₁, _⟩ := noOfDays_of_ne_zero s₁ (averageRun_ne_zero_of_int h₁)
  obtain ⟨x₂, hx₂, _⟩ := noOfDays_of_ne_zero s₂ (averageRun_ne_zero_of_int h₂)
  have hFirst := intOfFloat_eq_ok h₁
  have hSecond := intOfFloat_eq_ok h₂
  rw [hx₁] at hFirst
  rw [hx₂] at hSecond
  exact BinaryFloat.truncate_mono (hLe x₁ x₂ hx₁ hx₂) hFirst hSecond

/-- In spite of the roundings, a longer distance never brings the due date
forward, and a greater weekly run never puts it off. -/
theorem due_days_mono :
    (∀ averageRun s₁ s₂ : Int64, 1 ≤ averageRun.toInt ∧ averageRun.toInt ≤ 32767 →
      InInt32 s₁ → InInt32 s₂ → s₁.toInt ≤ s₂.toInt →
        ∃ days₁ days₂, DaysAdded s₁ averageRun days₁ ∧ DaysAdded s₂ averageRun days₂ ∧ days₁ ≤ days₂) ∧
    (∀ serviceRequiredAfter a₁ a₂ : Int64,
      0 ≤ serviceRequiredAfter.toInt ∧ serviceRequiredAfter.toInt < 2 ^ 31 →
      1 ≤ a₁.toInt → a₁.toInt ≤ a₂.toInt → a₂.toInt ≤ 32767 →
        ∃ days₁ days₂, DaysAdded serviceRequiredAfter a₁ days₁ ∧ DaysAdded serviceRequiredAfter a₂ days₂ ∧
          days₂ ≤ days₁) := by
  constructor
  · intro averageRun s₁ s₂ hRun hFirst hSecond hDistance
    have hZero := ne_zero_of_one_le hRun.1
    have hRun16 : InInt16 averageRun := ⟨by omega, by omega⟩
    obtain ⟨days₁, hDays₁⟩ := noOfDays_int hFirst hZero
    obtain ⟨days₂, hDays₂⟩ := noOfDays_int hSecond hZero
    refine ⟨days₁, days₂, daysAdded_of_int hDays₁, daysAdded_of_int hDays₂, days_le hDays₁ hDays₂ ?_⟩
    exact fun x₁ x₂ => noOfDays_mono hRun.1 hRun16 hDistance
  · intro serviceRequiredAfter a₁ a₂ hDistance hRun hLe hUpper
    have hDistance32 : InInt32 serviceRequiredAfter := ⟨by omega, hDistance.2⟩
    obtain ⟨days₁, hDays₁⟩ := noOfDays_int hDistance32 (ne_zero_of_one_le hRun)
    obtain ⟨days₂, hDays₂⟩ := noOfDays_int hDistance32 (ne_zero_of_one_le (hRun.trans hLe))
    refine ⟨days₁, days₂, daysAdded_of_int hDays₁, daysAdded_of_int hDays₂, days_le hDays₂ hDays₁ ?_⟩
    exact fun x₂ x₁ h₂ h₁ => noOfDays_anti hDistance.1 hRun hLe ⟨by omega, by omega⟩ ⟨by omega, by omega⟩ h₁ h₂

/-- 4000 km are due no later than 5000 km, and 5000 km at 200 km per week no
later than at 100. -/
theorem due_days_mono_moped :
    (∃ days₁ days₂, DaysAdded 4000 200 days₁ ∧ DaysAdded 5000 200 days₂ ∧ days₁ ≤ days₂) ∧
      ∃ days₁ days₂, DaysAdded 5000 100 days₁ ∧ DaysAdded 5000 200 days₂ ∧ days₂ ≤ days₁ :=
  ⟨due_days_mono.1 200 4000 5000 ⟨by decide, by decide⟩ (by decide) (by decide) (by decide),
    due_days_mono.2 5000 100 200 ⟨by decide, by decide⟩ (by decide) (by decide) (by decide)⟩

end Order

end AppSharedInstance

end ServiceBook

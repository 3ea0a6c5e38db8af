import ServiceBook.Interface.AllVehiclesI

/-! The due-date rule of `AppSharedInstance`. It works in single precision:
every step is an exact rational operation rounded to a 24-bit significand. -/
namespace ServiceBook

namespace AppSharedInstance

/-- `Float(averageRun) / 7.0` -/
def averageDay (averageRun : Int64) : BinaryFloat.Value :=
  BinaryFloat.div 24 (BinaryFloat.ofInt 24 averageRun.toInt) (.finite 7)

/-- `Float(serviceRequiredAfter) / averageDay` -/
def noOfDays (serviceRequiredAfter averageRun : Int64) : BinaryFloat.Value :=
  BinaryFloat.div 24 (BinaryFloat.ofInt 24 serviceRequiredAfter.toInt) (averageDay averageRun)

/-- Sets the due date of the vehicle and returns its formatted text. -/
def getServiceDueDate (P : Platform) (objVehicle : AllVehiclesI) :
    Except Trap (AllVehiclesI × String) := do
  let averageRun ← unwrap objVehicle.averageRun
  let serviceRequiredAfter ← unwrap objVehicle.serviceRequiredAfter
  let days ← intOfFloat (noOfDays serviceRequiredAfter averageRun)
  let lastServiceDate ← unwrap objVehicle.lastServiceDate
  let objVehicle :=
    { objVehicle with serviceDueDate := P.dateByAddingDays days lastServiceDate }
  let serviceDueDate ← unwrap objVehicle.serviceDueDate
  return (objVehicle, P.stringFromDate serviceDueDate)

/-- Everything the rule needs, and all that it changes. -/
theorem getServiceDueDate_eq_ok {P : Platform} {objVehicle : AllVehiclesI}
    {result : AllVehiclesI × String} :
    getServiceDueDate P objVehicle = .ok result ↔
      ∃ averageRun serviceRequiredAfter days lastServiceDate serviceDueDate,
        objVehicle.averageRun = some averageRun ∧
        objVehicle.serviceRequiredAfter = some serviceRequiredAfter ∧
        intOfFloat (noOfDays serviceRequiredAfter averageRun) = .ok days ∧
        objVehicle.lastServiceDate = some lastServiceDate ∧
        P.dateByAddingDays days lastServiceDate = some serviceDueDate ∧
        result = ({ objVehicle with serviceDueDate := some serviceDueDate },
          P.stringFromDate serviceDueDate) := by
  unfold getServiceDueDate
  simp only [bind_eq_ok, unwrap_eq_ok, pure_eq_ok, Except.ok.injEq]
  constructor
  · rintro ⟨a, ha, s, hs, n, hn, d, hd, due, hDue, rfl⟩
    exact ⟨a, s, n, d, due, ha, hs, hn, hd, hDue, by rw [hDue]⟩
  · rintro ⟨a, s, n, d, due, ha, hs, hn, hd, hDue, rfl⟩
    exact ⟨a, ha, s, hs, n, hn, d, hd, due, hDue, by rw [hDue]⟩

/-- The rule sets the due date and nothing else. -/
theorem getServiceDueDate_sets {P : Platform} {objVehicle objVehicle' : AllVehiclesI} {text : String}
    (h : getServiceDueDate P objVehicle = .ok (objVehicle', text)) :
    ∃ serviceDueDate, objVehicle' = { objVehicle with serviceDueDate := some serviceDueDate } := by
  obtain ⟨_, _, _, _, serviceDueDate, _, _, _, _, _, hResult⟩ := getServiceDueDate_eq_ok.mp h
  exact ⟨serviceDueDate, (Prod.mk.inj hResult).1⟩

/-- It does not look at the due date it replaces. -/
theorem getServiceDueDate_again {P : Platform} {objVehicle objVehicle' : AllVehiclesI} {text : String}
    (h : getServiceDueDate P objVehicle = .ok (objVehicle', text)) :
    getServiceDueDate P objVehicle' = .ok (objVehicle', text) := by
  obtain ⟨serviceDueDate, rfl⟩ := getServiceDueDate_sets h
  exact h

/-- A vehicle without a weekly run stops the rule at its first step. -/
theorem getServiceDueDate_of_averageRun_none (P : Platform) {objVehicle : AllVehiclesI}
    (h : objVehicle.averageRun = none) :
    getServiceDueDate P objVehicle = .error .unexpectedlyFoundNil := by
  simp [getServiceDueDate, h]

theorem toInt_ne_zero {n : Int64} (h : n ≠ 0) : (n.toInt : ℚ) ≠ 0 := by
  intro hZero
  have hInt : n.toInt = (0 : Int64).toInt := by exact_mod_cast hZero
  exact h (Int64.toInt_inj.mp hInt)

theorem one_le_abs_toInt {n : Int64} (h : n ≠ 0) : 1 ≤ |(n.toInt : ℚ)| := by
  have hInt : n.toInt ≠ 0 := by exact_mod_cast toInt_ne_zero h
  exact_mod_cast Int.one_le_abs hInt

/-- A nonzero weekly run gives a daily run bounded away from zero. -/
theorem averageDay_of_ne_zero {averageRun : Int64} (h : averageRun ≠ 0) :
    ∃ x : ℚ, averageDay averageRun = .finite x ∧ 1 / 28 ≤ |x| := by
  have hFloat := (BinaryFloat.round_abs_bounds (by norm_num : 1 ≤ 24) (averageRun.toInt : ℚ)).1
  have hDay := (BinaryFloat.round_abs_bounds (by norm_num : 1 ≤ 24)
    (BinaryFloat.round 24 (averageRun.toInt : ℚ) / 7)).1
  have hOne := one_le_abs_toInt h
  refine ⟨BinaryFloat.round 24 (BinaryFloat.round 24 (averageRun.toInt : ℚ) / 7), ?_, ?_⟩
  · simp [averageDay, BinaryFloat.div, BinaryFloat.ofInt]
  · rw [abs_div, abs_of_pos (by norm_num : (0 : ℚ) < 7)] at hDay
    linarith

/-- A zero weekly run makes the quotient infinite or not a number. -/
theorem noOfDays_of_zero (serviceRequiredAfter : Int64) :
    BinaryFloat.truncate (noOfDays serviceRequiredAfter 0) = none := by
  have hDay : averageDay 0 = .finite 0 := by
    simp [averageDay, BinaryFloat.div, BinaryFloat.ofInt, BinaryFloat.round_zero]
  rw [noOfDays, hDay, BinaryFloat.ofInt, BinaryFloat.div, if_pos rfl]
  split_ifs <;> rfl

/-- With a nonzero weekly run the quotient is finite, and its size is bounded
by the distance alone. -/
theorem noOfDays_of_ne_zero (serviceRequiredAfter : Int64) {averageRun : Int64}
    (h : averageRun ≠ 0) :
    ∃ x : ℚ, noOfDays serviceRequiredAfter averageRun = .finite x ∧
      |x| ≤ 112 * |(serviceRequiredAfter.toInt : ℚ)| := by
  obtain ⟨day, hDay, hBound⟩ := averageDay_of_ne_zero h
  have hPos : 0 < |day| := by linarith
  have hDistance := (BinaryFloat.round_abs_bounds (by norm_num : 1 ≤ 24)
    (serviceRequiredAfter.toInt : ℚ)).2
  have hQuotient := (BinaryFloat.round_abs_bounds (by norm_num : 1 ≤ 24)
    (BinaryFloat.round 24 (serviceRequiredAfter.toInt : ℚ) / day)).2
  refine ⟨BinaryFloat.round 24 (BinaryFloat.round 24 (serviceRequiredAfter.toInt : ℚ) / day), ?_, ?_⟩
  · rw [noOfDays, hDay, BinaryFloat.ofInt, BinaryFloat.div, if_neg (abs_pos.mp hPos)]
  · calc _ ≤ 2 * (|BinaryFloat.round 24 (serviceRequiredAfter.toInt : ℚ)| / |day|) := by
          rwa [abs_div] at hQuotient
      _ ≤ 2 * (2 * |(serviceRequiredAfter.toInt : ℚ)| / (1 / 28)) := by
          gcongr
      _ = 112 * |(serviceRequiredAfter.toInt : ℚ)| := by ring

/-- The conversion of the quotient to `Int` is safe for every distance that
fits 32 bits and every nonzero weekly run. -/
theorem noOfDays_int {serviceRequiredAfter averageRun : Int64}
    (hDistance : InInt32 serviceRequiredAfter) (hRun : averageRun ≠ 0) :
    ∃ days, intOfFloat (noOfDays serviceRequiredAfter averageRun) = .ok days := by
  obtain ⟨x, hQuotient, hSize⟩ := noOfDays_of_ne_zero serviceRequiredAfter hRun
  have hAbs : |(serviceRequiredAfter.toInt : ℚ)| ≤ 2 ^ 31 := by
    rw [abs_le]
    constructor
    · exact_mod_cast hDistance.1
    · exact_mod_cast hDistance.2.le
  obtain ⟨days, hDays⟩ : ∃ days, BinaryFloat.truncate (.finite x) = some days := ⟨_, rfl⟩
  have hDaysAbs : |(days : ℚ)| ≤ 112 * 2 ^ 31 := by
    have hTruncate := BinaryFloat.abs_truncate_le hDays
    linarith
  have hRange : |days| ≤ 112 * 2 ^ 31 := by exact_mod_cast hDaysAbs
  refine ⟨days, ?_⟩
  rw [hQuotient, intOfFloat, hDays]
  exact if_pos (by rw [abs_le] at hRange; omega)

theorem averageRun_ne_zero_of_int {serviceRequiredAfter averageRun : Int64} {days : ℤ}
    (h : intOfFloat (noOfDays serviceRequiredAfter averageRun) = .ok days) : averageRun ≠ 0 := by
  rintro rfl
  rw [intOfFloat, noOfDays_of_zero] at h
  cases h

end AppSharedInstance

end ServiceBook

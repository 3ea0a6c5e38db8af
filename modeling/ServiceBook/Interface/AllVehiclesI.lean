import Mathlib.Data.Rat.Defs
import Mathlib.Algebra.Order.Ring.Unbundled.Rat
import ServiceBook.General.BinaryFloat

/-! The vehicle record that the screens, the presenters and the database layer
pass around, and the ways in which the code that handles it can trap. Swift's
`Int` is `Int64`; a date is the number of seconds since 1970. -/
namespace ServiceBook

/-- What stops the process at run time. -/
inductive Trap where
  | unexpectedlyFoundNil
  | floatToInt
  | integerNarrowing
  | indexOutOfRange
  | uncaughtError
deriving DecidableEq, Repr

def unwrap {α : Type} : Option α → Except Trap α
  | some a => .ok a
  | none => .error .unexpectedlyFoundNil

/-- `Int(x)` for a floating-point `x`. -/
def intOfFloat (x : BinaryFloat.Value) : Except Trap ℤ :=
  match BinaryFloat.truncate x with
  | some n => if -2 ^ 63 ≤ n ∧ n < 2 ^ 63 then .ok n else .error .floatToInt
  | none => .error .floatToInt

def InInt32 (n : Int64) : Prop := -2 ^ 31 ≤ n.toInt ∧ n.toInt < 2 ^ 31

def InInt16 (n : Int64) : Prop := -2 ^ 15 ≤ n.toInt ∧ n.toInt < 2 ^ 15

instance (n : Int64) : Decidable (InInt32 n) := inferInstanceAs (Decidable (_ ∧ _))

instance (n : Int64) : Decidable (InInt16 n) := inferInstanceAs (Decidable (_ ∧ _))

/-- `Int32(n)`, which traps instead of wrapping. -/
def int32OfInt (n : Int64) : Except Trap Int32 :=
  if InInt32 n then .ok n.toInt32 else .error .integerNarrowing

def int16OfInt (n : Int64) : Except Trap Int16 :=
  if InInt16 n then .ok n.toInt16 else .error .integerNarrowing

/-- `intValue` of a parsed number: what stands behind the point is dropped, and
beyond the range of `Int` it is the bound that is nearest. -/
def intValue (number : ℚ) : Int64 :=
  Int64.ofInt (max (-2 ^ 63) (min (2 ^ 63 - 1) (if 0 ≤ number then ⌊number⌋ else ⌈number⌉)))

section Traps

variable {α β : Type} {a : α} {b : β} {t : Trap} {x : Except Trap α} {f : α → Except Trap β}

@[simp] theorem ok_bind : ((.ok a : Except Trap α) >>= f) = f a := rfl

@[simp] theorem error_bind : ((.error t : Except Trap α) >>= f) = .error t := rfl

@[simp] theorem pure_eq_ok : (pure a : Except Trap α) = .ok a := rfl

@[simp] theorem throw_eq_error : (throw t : Except Trap α) = .error t := rfl

/-- A sequence of two computations completes exactly if both do. -/
theorem bind_eq_ok : x >>= f = .ok b ↔ ∃ a, x = .ok a ∧ f a = .ok b := by
  cases x with
  | error t => simp
  | ok a => simp

@[simp] theorem unwrap_some : unwrap (some a) = .ok a := rfl

@[simp] theorem unwrap_none : unwrap (none : Option α) = .error .unexpectedlyFoundNil := rfl

theorem unwrap_eq_ok {o : Option α} : unwrap o = .ok a ↔ o = some a := by
  cases o <;> simp

theorem int32OfInt_eq_ok {n : Int64} {m : Int32} :
    int32OfInt n = .ok m ↔ InInt32 n ∧ n.toInt32 = m := by
  unfold int32OfInt
  split <;> simp_all

theorem int16OfInt_eq_ok {n : Int64} {m : Int16} :
    int16OfInt n = .ok m ↔ InInt16 n ∧ n.toInt16 = m := by
  unfold int16OfInt
  split <;> simp_all

/-- Every result of a completed loop comes from one of its elements. -/
theorem mem_of_mapM_eq_ok {f : α → Except Trap β} {l : List α} {results : List β}
    (h : l.mapM f = .ok results) (hb : b ∈ results) : ∃ a ∈ l, f a = .ok b := by
  induction l generalizing results with
  | nil =>
      cases h
      cases hb
  | cons a l ih =>
      simp only [List.mapM_cons, bind_eq_ok, pure_eq_ok, Except.ok.injEq] at h
      obtain ⟨first, hFirst, rest, hRest, rfl⟩ := h
      rcases List.mem_cons.mp hb with rfl | hb
      · exact ⟨a, List.mem_cons_self .., hFirst⟩
      · obtain ⟨a', ha', hResult⟩ := ih hRest hb
        exact ⟨a', List.mem_cons_of_mem _ ha', hResult⟩

end Traps

/-- Widening a narrowed integer gives it back. -/
theorem toInt64_toInt32 {n : Int64} (h : InInt32 n) : n.toInt32.toInt64 = n := by
  obtain ⟨hLower, hUpper⟩ := h
  apply Int64.toInt_inj.mp
  rw [Int32.toInt_toInt64, Int64.toInt_toInt32]
  exact Int.bmod_eq_of_le (by omega) (by omega)

theorem toInt64_toInt16 {n : Int64} (h : InInt16 n) : n.toInt16.toInt64 = n := by
  obtain ⟨hLower, hUpper⟩ := h
  apply Int64.toInt_inj.mp
  rw [Int16.toInt_toInt64, Int64.toInt_toInt16]
  exact Int.bmod_eq_of_le (by omega) (by omega)

theorem toInt_intValue (n : ℤ) : (intValue n).toInt = max (-2 ^ 63) (min (2 ^ 63 - 1) n) := by
  have hWhole : (if 0 ≤ (n : ℚ) then ⌊(n : ℚ)⌋ else ⌈(n : ℚ)⌉) = n := by
    split
    · exact Int.floor_intCast n
    · exact Int.ceil_intCast n
  rw [intValue, hWhole]
  exact Int64.toInt_ofInt_of_le (by omega) (by omega)

/-- An integer of the range is its own value. -/
@[simp]
theorem intValue_toInt (n : Int64) : intValue n.toInt = n := by
  have hLower := n.le_toInt
  have hUpper := n.toInt_lt
  apply Int64.toInt_inj.mp
  rw [toInt_intValue]
  omega

example : intValue (2009 / 10) = 200 := by decide +kernel

abbrev Date := ℚ

/-- The Foundation services the app calls, in the way it calls them. -/
structure Platform where
  /-- `NumberFormatter().number(from:)`. -/
  numberFromString : String → Option ℚ
  /-- `Calendar.current.date(byAdding: .day, value:, to:)`. -/
  dateByAddingDays : ℤ → Date → Option Date
  /-- A `DateFormatter` for `dd MMM yyyy`, in both directions. -/
  stringFromDate : Date → String
  dateFromString : String → Option Date

/-- The fields start out as `init()` and `resetData()` leave them. -/
structure AllVehiclesI where
  vehicleID : String := ""
  vehicleType : Option String := some ""
  vehicleName : Option String := some ""
  vehicleNo : Option String := some ""
  serviceRequiredAfter : Option Int64 := none
  averageRun : Option Int64 := none
  lastServiceDate : Option Date := none
  notes : Option String := some ""
  serviceDueDate : Option Date := none
deriving DecidableEq, Repr

def AllVehiclesI.resetData (_objVehicle : AllVehiclesI) : AllVehiclesI := {}

end ServiceBook

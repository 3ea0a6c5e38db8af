import ServiceBook.Interface.AllVehiclesI

/-! A platform whose calendar is the Gregorian one in the time zone UTC, where
every day has the same length. -/
namespace ServiceBook

namespace UTC

def secondsPerDay : ℚ := 86400

/-- Years start in March here, so that the leap day is the last day of a year. -/
structure Civil where
  year : ℤ
  month : ℤ
  day : ℤ
deriving DecidableEq, Repr

/-- The civil date of a number of days since the first of January 1970. -/
def civilOfDays (days : ℤ) : Civil :=
  let z := days + 719468
  let era := z / 146097
  let doe := z % 146097
  let yoe := (doe - doe / 1460 + doe / 36524 - doe / 146096) / 365
  let doy := doe - (365 * yoe + yoe / 4 - yoe / 100)
  let mp := (5 * doy + 2) / 153
  let month := if mp < 10 then mp + 3 else mp - 9
  { year := yoe + era * 400 + if month ≤ 2 then 1 else 0
    month := month
    day := doy - (153 * mp + 2) / 5 + 1 }

def daysOfCivil (date : Civil) : ℤ :=
  let y := if date.month ≤ 2 then date.year - 1 else date.year
  let era := y / 400
  let yoe := y % 400
  let mp := if 2 < date.month then date.month - 3 else date.month + 9
  let doy := (153 * mp + 2) / 5 + date.day - 1
  era * 146097 + (yoe * 365 + yoe / 4 - yoe / 100 + doy) - 719468

def monthNames : List String :=
  ["Jan", "Feb", "Mar", "Apr", "May", "Jun", "Jul", "Aug", "Sep", "Oct", "Nov", "Dec"]

def twoDigits (n : ℤ) : String := if n < 10 then "0" ++ toString n else toString n

def formatted (date : Civil) : String :=
  twoDigits date.day ++ " " ++ (monthNames[(date.month - 1).toNat]?).getD "" ++ " " ++
    toString date.year

/-- A nonempty list of digits. -/
def natOfDigits : List Char → Option ℕ
  | [] => none
  | digits =>
      digits.foldl (fun value c =>
        value.bind fun n => if c.isDigit then some (10 * n + (c.toNat - 48)) else none) (some 0)

def intOfString (s : String) : Option ℤ :=
  match s.toList with
  | '-' :: digits => (natOfDigits digits).map fun n => -n
  | digits => (natOfDigits digits).map fun n => n

def civilOfString (s : String) : Option Civil :=
  match s.toList with
  | d :: d' :: ' ' :: m :: m' :: m'' :: ' ' :: year => do
      let day ← natOfDigits [d, d']
      let month ← monthNames.idxOf? (String.ofList [m, m', m''])
      let year ← natOfDigits year
      return { year := year, month := month + 1, day := day }
  | _ => none

/-- The number of the day an instant falls on. -/
def dayOf (date : Date) : ℤ := ⌊date / secondsPerDay⌋

def midnight (day : ℤ) : Date := day * secondsPerDay

def platform : Platform where
  numberFromString s := (intOfString s).map fun n => (n : ℚ)
  dateByAddingDays days date := some (date + days * secondsPerDay)
  stringFromDate date := formatted (civilOfDays (dayOf date))
  dateFromString s := (civilOfString s).map fun date => midnight (daysOfCivil date)

theorem dateByAddingDays_isSome (days : ℤ) (date : Date) :
    (platform.dateByAddingDays days date).isSome := rfl

/-- Digits are read from left to right. -/
theorem foldl_digits {digits : List Char} (h : ∀ c ∈ digits, c.isDigit = true) (value : ℕ) :
    digits.foldl (fun value c =>
      value.bind fun n => if c.isDigit then some (10 * n + (c.toNat - 48)) else none) (some value) =
        some (Nat.ofDigitChars 10 digits value) := by
  induction digits generalizing value with
  | nil => simp
  | cons c digits ih =>
      have hDigit := h c (List.mem_cons_self ..)
      have hRest := ih (fun d hd => h d (List.mem_cons_of_mem _ hd)) (10 * value + (c.toNat - 48))
      simpa [Nat.ofDigitChars_cons, hDigit] using hRest

theorem natOfDigits_toDigits (n : ℕ) : natOfDigits (Nat.toDigits 10 n) = some n := by
  have hDigits : ∀ c ∈ Nat.toDigits 10 n, c.isDigit = true := fun c hc =>
    Nat.isDigit_of_mem_toDigits (by decide) (by decide) hc
  have hRead := foldl_digits hDigits 0
  rw [Nat.ofDigitChars_ten_toDigits] at hRead
  cases hList : Nat.toDigits 10 n with
  | nil => exact absurd hList Nat.toDigits_ne_nil
  | cons c digits =>
      rw [hList] at hRead
      exact hRead

/-- What is printed reads back. -/
theorem intOfString_toString (n : ℤ) : intOfString (toString n) = some n := by
  cases n with
  | ofNat m =>
      have hText : (toString (Int.ofNat m)).toList = Nat.toDigits 10 m := Nat.toList_repr
      have hRead := natOfDigits_toDigits m
      rw [intOfString, hText]
      cases hList : Nat.toDigits 10 m with
      | nil => exact absurd hList Nat.toDigits_ne_nil
      | cons c digits =>
          have hDigit : c.isDigit = true :=
            Nat.isDigit_of_mem_toDigits (by decide) (by decide) (hList ▸ List.mem_cons_self ..)
          have hNotMinus : c ≠ '-' := by
            rintro rfl
            exact absurd hDigit (by decide)
          rw [hList] at hRead
          split
          · next digits' hMinus => exact absurd (List.cons.inj hMinus).1 hNotMinus
          · rw [hRead]
            rfl
  | negSucc m =>
      have hText : (toString (Int.negSucc m)).toList = '-' :: Nat.toDigits 10 (m + 1) := by
        change ("-" ++ Nat.repr (m + 1)).toList = _
        rw [String.toList_append, Nat.toList_repr]
        rfl
      rw [intOfString, hText]
      simp [natOfDigits_toDigits, Int.negSucc_eq]

theorem numberFromString_toString (n : Int64) :
    platform.numberFromString (toString n) = some (n.toInt : ℚ) := by
  have hText : intOfString (toString n) = some n.toInt := intOfString_toString n.toInt
  simp [platform, hText]

example : platform.stringFromDate 1700000000 = "14 Nov 2023" := by decide +kernel

example : platform.dateFromString "14 Nov 2023" = some 1699920000 := by decide +kernel

end UTC

end ServiceBook

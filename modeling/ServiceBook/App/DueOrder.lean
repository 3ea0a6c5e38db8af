import ServiceBook.Utilities.DueDays
import ServiceBook.App.Written

/-! The order of the two dates of a stored record. The form takes any numbers,
so the order rests on what has been typed into it. -/
namespace ServiceBook

/-- What the calendar is relied on for: more days lead to a later date, and no
days to the same. -/
structure Platform.CountsDays (P : Platform) : Prop where
  monotone : ∀ (m n : ℤ) (date earlier later : Date), m ≤ n → P.dateByAddingDays m date = some earlier →
    P.dateByAddingDays n date = some later → earlier ≤ later
  zero : ∀ date, P.dateByAddingDays 0 date = some date

/-- The last service date is there and the due date is not before it. -/
def Vehicle.DueAfterService (vehicle : Vehicle) : Prop :=
  ∃ lastServiceDate serviceDueDate, vehicle.lastServiceDate = some lastServiceDate ∧
    vehicle.serviceDueDate = some serviceDueDate ∧ lastServiceDate ≤ serviceDueDate

/-- So it is for every persisted record, and for every record a fetch sees. -/
def RecordsInOrder (app : App) : Prop :=
  (∀ vehicle ∈ app.context.persisted.values, vehicle.DueAfterService) ∧
    ∀ vehicle ∈ app.context.objects.values, vehicle.DueAfterService

/-- Save is not pressed with a distance and a weekly run of opposite signs
whose quotient reaches a day. -/
def NotEarly (P : Platform) (app : App) : Action → Prop
  | .clkSave _ => ∀ slot form serviceRequiredAfter averageRun,
      app.activeForm = some slot → app.form slot = some form →
      AddVehicleVC.enteredNumber P form.cell.txtServiceRequired form.objVehicle.serviceRequiredAfter =
        some serviceRequiredAfter →
      AddVehicleVC.enteredNumber P form.cell.txtWeeklyRun form.objVehicle.averageRun = some averageRun →
        ¬ AppSharedInstance.Early serviceRequiredAfter averageRun
  | _ => True

section DueOrder

variable {P : Platform} {app : App} {action : Action} {objVehicle : AllVehiclesI}

/-- What a Save writes is in order unless its numbers are early. -/
theorem Saves.dueAfterService (hCalendar : P.CountsDays) (hSaves : Saves P app action objVehicle)
    (hNarrow : DatabaseManager.Narrow objVehicle) (hEntered : NotEarly P app action) :
    (DatabaseManager.stored objVehicle).DueAfterService := by
  obtain ⟨uuid, slot, form, text, rfl, hSlot, hForm, hRule⟩ := hSaves
  obtain ⟨averageRun, serviceRequiredAfter, days, last, due, hRun, hDistance, hDays, hLast, hDue, hResult⟩ :=
    AppSharedInstance.getServiceDueDate_eq_ok.mp hRule
  obtain ⟨rfl, -⟩ := Prod.mk.inj hResult
  have hNotEarly := hEntered slot form serviceRequiredAfter averageRun hSlot hForm hDistance hRun
  obtain ⟨_, run, _, _, hNarrowRun, hRun16⟩ := hNarrow
  obtain rfl : averageRun = run := Option.some.inj (hRun.symm.trans hNarrowRun)
  rw [← AppSharedInstance.days_neg_iff hRun16 hDays, not_lt] at hNotEarly
  exact ⟨last, due, hLast, rfl, hCalendar.monotone 0 days last last due hNotEarly (hCalendar.zero last) hDue⟩

/-- In every run whose Saves are not early, no stored record is ever due before
its last service. -/
theorem due_after_service (hCalendar : P.CountsDays) {now : Date} {actions : List Action}
    (hEntered : Transition.Throughout (App.step P) (NotEarly P) (App.installed now) actions) :
    Transition.Always (App.step P) RecordsInOrder (App.installed now) actions := by
  have hContains : Transition.Always (App.step P)
      (fun app => DatabaseManager.Contains
        (fun v => (DatabaseManager.stored v).DueAfterService) app.context) (App.installed now) actions :=
    contains_run (hEntered.mono fun app action hNotEarly objVehicle hSaves hNarrow =>
      hSaves.dueAfterService hCalendar hNarrow hNotEarly)
  refine hContains.mono fun app h => ⟨fun vehicle hVehicle => ?_, fun vehicle hVehicle => ?_⟩
  · obtain ⟨objVehicle, _, hOrder, rfl⟩ := h.persisted vehicle hVehicle
    exact hOrder
  · obtain ⟨objVehicle, _, hOrder, rfl⟩ := h.objects vehicle hVehicle
    exact hOrder

theorem UTC.countsDays : UTC.platform.CountsDays where
  monotone := by
    intro m n date earlier later hDays hEarlier hLater
    obtain rfl := Option.some.inj hEarlier
    obtain rfl := Option.some.inj hLater
    have hCast : (m : ℚ) ≤ n := by exact_mod_cast hDays
    have hSeconds : (0 : ℚ) ≤ UTC.secondsPerDay := by norm_num [UTC.secondsPerDay]
    linarith [mul_le_mul_of_nonneg_right hCast hSeconds]
  zero := by
    intro date
    simp [UTC.platform]

private theorem filled_numbers :
    (Transition.run (App.step UTC.platform) (App.installed 1700000000)
      (fillingActions "5000" "200" 1700000000)).map (fun app => (app.editor.isNone,
        app.addVehicleVC.cell.txtServiceRequired, app.addVehicleVC.cell.txtWeeklyRun)) =
      some (true, "5000", "200") := by
  decide +kernel

/-- 5000 km at 200 km per week are saved. -/
theorem due_after_service_moped :
    Transition.Always (App.step UTC.platform) RecordsInOrder (App.installed 1700000000)
      (addingActions "5000" "200" 1700000000 "A1") := by
  refine due_after_service UTC.countsDays (throughout_adding (by simp [fillingActions, NotEarly]) ?_)
  intro filled hRun slot form distance run hSlot hForm hDistance hWeekly
  obtain ⟨app, hApp, hNumbers⟩ := Option.map_eq_some_iff.mp filled_numbers
  obtain rfl : app = filled := Option.some.inj (hApp.symm.trans hRun)
  obtain ⟨hEditor, hTexts⟩ := Prod.mk.inj hNumbers
  obtain ⟨hDistanceText, hRunText⟩ := Prod.mk.inj hTexts
  cases slot with
  | editor =>
      change app.editor = some form at hForm
      rw [hForm] at hEditor
      cases hEditor
  | addTab =>
      obtain rfl := Option.some.inj hForm
      rw [hDistanceText] at hDistance
      rw [hRunText] at hWeekly
      obtain rfl : (5000 : Int64) = distance := Option.some.inj hDistance
      obtain rfl : (200 : Int64) = run := Option.some.inj hWeekly
      exact fun hEarly => absurd hEarly.1 (by decide)

private theorem negative_distance_saved :
    (Transition.run (App.step UTC.platform) (App.installed 1700000000)
      (addingActions "-5000" "200" 1700000000 "A1")).map (fun app =>
        app.context.persisted.values.map fun vehicle => (vehicle.lastServiceDate, vehicle.serviceDueDate)) =
      some [(some 1699920000, some 1684800000)] := by
  decide +kernel

/-- A negative distance is accepted and puts the due date before the service. -/
theorem not_due_after_service :
    ¬ ∀ P : Platform, P.CountsDays → ∀ (now : Date) (actions : List Action),
      Transition.Always (App.step P) RecordsInOrder (App.installed now) actions := by
  intro h
  obtain ⟨app, hRun, hSaved⟩ := Option.map_eq_some_iff.mp negative_distance_saved
  obtain ⟨vehicle, hVehicle, hDates⟩ := List.mem_map.mp
    (hSaved ▸ List.mem_singleton_self (some (1699920000 : Date), some (1684800000 : Date)))
  obtain ⟨last, due, hLast, hDue, hOrder⟩ :=
    ((h UTC.platform UTC.countsDays 1700000000 _).of_run hRun).1 vehicle hVehicle
  rw [hLast, hDue] at hDates
  obtain ⟨hLastDate, hDueDate⟩ := Prod.mk.inj hDates
  rw [Option.some.inj hLastDate, Option.some.inj hDueDate] at hOrder
  revert hOrder
  decide +kernel

end DueOrder

end ServiceBook

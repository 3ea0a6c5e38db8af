import ServiceBook.App.Identity
import ServiceBook.AddEditVehicle.Pickers

/-! What a Save stores, next to what the form shows when it is pressed. The
three texts are read from the cell. The numbers and the date are not: they come
from the vehicle when the text does not parse, and always in the case of the date. -/
namespace ServiceBook

open DatabaseManager

/-- Reading the text of a date back gives a day with the same text. -/
def Platform.RereadsDates (P : Platform) : Prop :=
  ∀ date day, P.dateFromString (P.stringFromDate date) = some day → P.stringFromDate day = P.stringFromDate date

namespace AddVehicleVC

/-- The object holds what the cell shows. -/
structure ShownIn (P : Platform) (cell : AddVehicleCell) (vehicle : Vehicle) : Prop where
  vehicleName : vehicle.vehicleName = some cell.txtVehicleName
  vehicleType : vehicle.vehicleType = some cell.txtVehicleType
  vehicleNo : vehicle.vehicleNo = some cell.txtVehicleNo
  serviceRequiredAfter :
    P.numberFromString cell.txtServiceRequired = some (vehicle.serviceRequiredAfter.toInt : ℚ)
  averageRun : P.numberFromString cell.txtWeeklyRun = some (vehicle.averageRun.toInt : ℚ)
  lastServiceDate : vehicle.lastServiceDate.map P.stringFromDate = some cell.txtLastServiceDate

/-- One persisted object has the id that the Save has used, and it holds what
the form shows. -/
def StoredAsShown (P : Platform) (uuid : String) (form : AddVehicleVC) (context : ManagedObjectContext) : Prop :=
  ∃ vehicle, context.persisted.values.filter (fun v => v.vehicleID = some (form.populate P uuid).vehicleID) =
    [vehicle] ∧ ShownIn P form.cell vehicle

/-- Both numeric texts denote integers. -/
def IntegersEntered (P : Platform) (form : AddVehicleVC) : Prop :=
  (∃ n : ℤ, P.numberFromString form.cell.txtServiceRequired = some (n : ℚ)) ∧
    ∃ n : ℤ, P.numberFromString form.cell.txtWeeklyRun = some (n : ℚ)

/-- A form that adds is not reloaded, nor is a type chosen in it, while it shows
another date than the one picked last. -/
def PickConfirmed (P : Platform) (form : AddVehicleVC) : Event → Prop
  | .clkPickerDone => PickShown P form
  | .reloadData => PickShown P form
  | _ => True

/-- The date of the vehicle is the one that is shown. -/
def DateShown (P : Platform) (form : AddVehicleVC) : Prop :=
  ∀ day, form.objVehicle.lastServiceDate = some day → form.cell.txtLastServiceDate = P.stringFromDate day

section Dates

variable {P : Platform} {form form' : AddVehicleVC}

theorem DateShown.of_untyped (h : DateShown P form) (hSame : form'.untyped = form.untyped) : DateShown P form' := by
  have hText : form'.cell.txtLastServiceDate = form.cell.txtLastServiceDate := congrArg Prod.fst hSame
  have hDate : form'.objVehicle.lastServiceDate = form.objVehicle.lastServiceDate :=
    congrArg (fun untyped => untyped.2.2.1) hSame
  intro day hDay
  rw [hText]
  exact h day (hDate ▸ hDay)

theorem InStep.dateShown (h : InStep P form) (hEdit : form.isRecordEdit = true) : DateShown P form := by
  intro day hDay
  rw [h.date hEdit, hDay]
  rfl

/-- A reload that shows the date picked last keeps the date shown. -/
theorem DateShown.reload (h : DateShown P form) (hTab : form.isRecordEdit = false) (hPick : PickShown P form)
    {reloading : AddVehicleVC} (hReload : cellForRowAt P reloading = .ok form')
    (hSame : reloading.isRecordEdit = form.isRecordEdit) (hLast : reloading.dtLastService = form.dtLastService)
    (hDate : reloading.objVehicle.lastServiceDate = form.objVehicle.lastServiceDate) : DateShown P form' := by
  obtain ⟨_, _, _, _, _, _, rfl⟩ := cellForRowAt_eq_ok.mp hReload
  intro day hDay
  have hShown := h day (hDate ▸ hDay)
  rw [hPick hTab] at hShown
  rw [← hShown, ← hLast, hSame, hTab]
  rfl

/-- Every event keeps the date shown, if a pick is confirmed before a reload. -/
theorem DateShown.handle (h : DateShown P form) (hInStep : InStep P form) (hTab : form.isRecordEdit = false)
    (hRereads : P.RereadsDates) {e : Event} (hPick : PickConfirmed P form e)
    (hHandle : handle P form e = .ok form') : DateShown P form' := by
  cases e with
  | becomeFirstResponder responder =>
      cases hHandle
      exact h.of_untyped (untyped_becomeFirstResponder responder)
  | type text =>
      cases hHandle
      exact h.of_untyped (hInStep.untyped_type text)
  | returnKey =>
      cases hHandle
      exact h.of_untyped untyped_returnKey
  | endEditing =>
      cases hHandle
      exact h.of_untyped untyped_endEditing
  | didSelectRow row =>
      cases hHandle
      exact h
  | clkPickerDone =>
      obtain ⟨strVehicleType, hDone⟩ := hInStep.clkPickerDone_eq
      rw [AddVehicleVC.handle, hDone] at hHandle
      exact h.reload hTab hPick hHandle rfl rfl rfl
  | clkPickerCancel =>
      cases hHandle
      rw [clkPickerCancel, hInStep.previousPickerRow]
      exact h
  | selectDate date =>
      cases hHandle
      exact h
  | clkDone =>
      -- what is shown is the picked date, and what is held is its text read back
      obtain ⟨_, _, _, _, _, _, rfl⟩ := cellForRowAt_eq_ok.mp hHandle
      intro day hDay
      rw [hRereads _ day hDay]
      simp [hTab]
  | clkCancel =>
      cases hHandle
      exact h
  | reloadData => exact h.reload hTab hPick hHandle rfl rfl rfl

/-- Both kinds of form show the date of their vehicle. -/
theorem dateShown_rule (hRereads : P.RereadsDates) :
    FormRule P (fun form => InStep P form ∧ DateShown P form) (fun _ => True) (PickConfirmed P) where
  added := fun now => ⟨inStep_addForm now, fun day hDay => by cases hDay⟩
  reset := by
    intro form form' h hTab hReload
    refine ⟨inStep_rule.reset form form' h.1 hTab hReload, fun day hDay => ?_⟩
    obtain ⟨_, _, _, _, _, _, rfl⟩ := cellForRowAt_eq_ok.mp hReload
    cases hDay
  opened := by
    intro now objVehicle gadget form' _ hAppear
    have hInStep := inStep_rule.opened now objVehicle gadget form' trivial hAppear
    exact ⟨hInStep, hInStep.dateShown (sameRecord_appear hAppear rfl).isRecordEdit⟩
  handled := by
    intro form e form' h hPick hOffered hHandle
    have hInStep := h.1.handle hOffered hHandle
    refine ⟨hInStep, ?_⟩
    cases hMode : form.isRecordEdit with
    | true => exact hInStep.dateShown ((handle_sameRecord hHandle).isRecordEdit.trans hMode)
    | false => exact h.2.handle h.1 hMode hRereads hPick hHandle

end Dates

section StoredForm

variable {P : Platform} {form : AddVehicleVC} {objVehicle : AllVehiclesI} {uuid text : String}

/-- A number in the range of `Int32` that has been entered is the one the text
denotes, or else the text denotes no integer. -/
theorem numberFromString_iff {numberText : String} {before : Option Int64} {n : Int64} (hNarrow : InInt32 n)
    (hEntered : enteredNumber P numberText before = some n) :
    P.numberFromString numberText = some (n.toInt : ℚ) ↔
      ∃ m : ℤ, P.numberFromString numberText = some (m : ℚ) := by
  refine ⟨fun hParse => ⟨_, hParse⟩, ?_⟩
  rintro ⟨m, hParse⟩
  rw [enteredNumber, hParse] at hEntered
  have hValue : n.toInt = max (-2 ^ 63) (min (2 ^ 63 - 1) m) := by
    rw [← Option.some.inj hEntered, toInt_intValue]
  obtain ⟨hLower, hUpper⟩ := hNarrow
  -- a text beyond the range of `Int` would have left a number beyond the one of `Int32`
  have hSame : m = n.toInt := by omega
  rw [hParse, hSame]

/-- What the rule of Save has let through is stored as shown exactly if both
numeric texts denote integers. -/
theorem shownIn_stored_iff (hDate : DateShown P form) (hNarrow : Narrow objVehicle)
    (hRule : AppSharedInstance.getServiceDueDate P (form.populate P uuid) = .ok (objVehicle, text)) :
    ShownIn P form.cell (stored objVehicle) ↔ IntegersEntered P form := by
  obtain ⟨_, _, _, last, due, _, _, _, hLast, _, hResult⟩ :=
    AppSharedInstance.getServiceDueDate_eq_ok.mp hRule
  obtain ⟨rfl, -⟩ := Prod.mk.inj hResult
  obtain ⟨distance, run, hDistance, hDistance32, hRun, hRun16⟩ := hNarrow
  have hRun32 : InInt32 run := by
    obtain ⟨hLower, hUpper⟩ := hRun16
    exact ⟨by omega, by omega⟩
  have hWideDistance : distance.toInt32.toInt = distance.toInt := by
    rw [← Int32.toInt_toInt64, toInt64_toInt32 hDistance32]
  have hWideRun : run.toInt16.toInt = run.toInt := by
    rw [← Int16.toInt_toInt64, toInt64_toInt16 hRun16]
  constructor
  · exact fun hShown => ⟨⟨_, hShown.serviceRequiredAfter⟩, _, hShown.averageRun⟩
  · rintro ⟨hWholeDistance, hWholeRun⟩
    refine ⟨rfl, rfl, rfl, ?_, ?_, ?_⟩
    · simp only [stored]
      rw [hDistance, Option.getD_some, hWideDistance]
      exact (numberFromString_iff hDistance32 hDistance).mpr hWholeDistance
    · simp only [stored]
      rw [hRun, Option.getD_some, hWideRun]
      exact (numberFromString_iff hRun32 hRun).mpr hWholeRun
    · rw [hDate last hLast]
      exact congrArg (Option.map P.stringFromDate) hLast

end StoredForm

end AddVehicleVC

section Save

variable {P : Platform} {app app' : App} {slot : FormSlot} {form : AddVehicleVC} {uuid : String}

/-- A Save that the store answers with success persists one object under its
id, the encoding of what the rule of Save has let through. -/
theorem Identified.saved (h : Identified app) (hSlot : app.activeForm = some slot)
    (hForm : app.form slot = some form) (hWrite : app.storage.write = .success)
    (hFresh : FreshID app (.clkSave uuid)) (hSave : app.step P (.clkSave uuid) = some app') :
    ∃ objVehicle text,
      AppSharedInstance.getServiceDueDate P (form.populate P uuid) = .ok (objVehicle, text) ∧
      Narrow objVehicle ∧
      app'.context.persisted.values.filter (fun v => v.vehicleID = some objVehicle.vehicleID) =
        [stored objVehicle] := by
  have hDistinct := (h.step hFresh hSave).distinct
  have hStored := h.shown.editor
  cases step_stepped h.placed hSave with
  | saveAdd _ objVehicle text context success gadget due request _ hShows hRule hAdd _ _ _ _ =>
      obtain rfl := Option.some.inj (hSlot.symm.trans (activeForm_eq_addTab.mpr hShows))
      obtain rfl := Option.some.inj hForm
      rw [hWrite] at hAdd
      obtain ⟨hPersisted, hMem⟩ := addRecord_persisted rfl hAdd
      refine ⟨objVehicle, text, hRule, (addRecord_eq_ok.mp hAdd).1, ?_⟩
      rw [← hPersisted]
      exact hDistinct.filter_eq hMem
  | saveEdit _ editor objVehicle text gadgetObj context success gadget due request _ hEditor hRule _ hEdit _ _ _
      hAppear =>
      have hActive := activeForm_eq_editor.mpr (Option.isSome_iff_exists.mpr ⟨editor, hEditor⟩)
      obtain rfl := Option.some.inj (hSlot.symm.trans hActive)
      obtain rfl := Option.some.inj (hForm.symm.trans hEditor)
      have hID : objVehicle.vehicleID = form.objVehicle.vehicleID := by
        obtain ⟨_, rfl⟩ := AppSharedInstance.getServiceDueDate_sets hRule
        exact if_pos (h.placed.editor form hEditor)
      rw [hWrite] at hEdit
      obtain ⟨hNarrow, hPersisted, hMem⟩ := editRecord_persisted rfl rfl (hID ▸ hStored form hEditor) hEdit
      refine ⟨objVehicle, text, hRule, hNarrow, ?_⟩
      rw [(viewWillAppear_refreshed hAppear).context] at hDistinct ⊢
      rw [← hPersisted]
      exact hDistinct.filter_eq hMem

/-- The conditions on a run: new ids are fresh, and in a form that adds, a date
that has been picked is confirmed before the form is reloaded. -/
def ConfirmsPicks (P : Platform) (app : App) (action : Action) : Prop :=
  FreshID app action ∧ FormMeets (AddVehicleVC.PickConfirmed P) app action

/-- After every such run, a Save that completes with success has stored what
the form shows exactly if both numeric texts denote integers. -/
theorem saved_as_shown_iff (hRereads : P.RereadsDates) {now : Date} {actions : List Action}
    (hRun : Transition.run (App.step P) (App.installed now) actions = some app)
    (hConfirms : Transition.Throughout (App.step P) (ConfirmsPicks P) (App.installed now)
      (actions ++ [.clkSave uuid]))
    (hSlot : app.activeForm = some slot) (hForm : app.form slot = some form)
    (hWrite : app.storage.write = .success) (hSave : app.step P (.clkSave uuid) = some app') :
    AddVehicleVC.StoredAsShown P uuid form app'.context ↔ AddVehicleVC.IntegersEntered P form := by
  obtain ⟨hBefore, hLast⟩ := Transition.throughout_append.mp hConfirms
  have hFresh := (hLast app hRun app' hSave).1.1
  have hIdentified := (identified_run (hBefore.mono fun _ _ h => h.1)).of_run hRun
  have hShown := (((AddVehicleVC.dateShown_rule hRereads).run (hBefore.mono fun _ _ h => h.2)).of_run hRun).2
  have hDate := (hShown slot form hForm).2
  obtain ⟨objVehicle, text, hRule, hNarrow, hOnly⟩ := hIdentified.saved hSlot hForm hWrite hFresh hSave
  have hID : objVehicle.vehicleID = (form.populate P uuid).vehicleID := by
    obtain ⟨_, rfl⟩ := AppSharedInstance.getServiceDueDate_sets hRule
    rfl
  rw [← AddVehicleVC.shownIn_stored_iff hDate hNarrow hRule, AddVehicleVC.StoredAsShown, ← hID, hOnly]
  simp

/-- A platform that reads one date. -/
private def oneDay : Platform :=
  { UTC.platform with dateFromString := fun s => if s = "14 Nov 2023" then some 1699920000 else none }

private theorem oneDay_rereads : oneDay.RereadsDates := by
  intro date day hRead
  have hText : oneDay.stringFromDate date = "14 Nov 2023" ∧ (1699920000 : Date) = day := by
    simpa [oneDay] using hRead
  obtain ⟨hText, rfl⟩ := hText
  rw [hText]
  decide +kernel

private theorem oneDay_filled :
    (Transition.run (App.step oneDay) (App.installed 1700000000)
      (fillingActions "5000" "200" 1700000000)).bind (fun app =>
        (app.step oneDay (.clkSave "A1")).map fun _ => (app.storage, app.activeForm)) =
      some ({}, some .addTab) := by
  decide +kernel

theorem saved_as_shown_iff_added :
    ∃ app app',
      Transition.run (App.step oneDay) (App.installed 1700000000) (fillingActions "5000" "200" 1700000000) =
        some app ∧
      app.step oneDay (.clkSave "A1") = some app' ∧
      (AddVehicleVC.StoredAsShown oneDay "A1" app.addVehicleVC app'.context ↔
        AddVehicleVC.IntegersEntered oneDay app.addVehicleVC) := by
  obtain ⟨app, hRun, hStep⟩ := Option.bind_eq_some_iff.mp oneDay_filled
  obtain ⟨app', hSave, hState⟩ := Option.map_eq_some_iff.mp hStep
  obtain ⟨hStorage, hActive⟩ := Prod.mk.inj hState
  refine ⟨app, app', hRun, hSave, saved_as_shown_iff oneDay_rereads hRun ?_ hActive rfl ?_ hSave⟩
  · refine throughout_adding ?_ fun filled hFilled => ⟨fun _ => ?_, trivial⟩
    · simp [fillingActions, ConfirmsPicks, FreshID, FormMeets, AddVehicleVC.PickConfirmed]
    · rw [filled_context hFilled]
      simp
  · rw [hStorage]

/-- After a date has been entered another one is picked and cancelled, a type
is chosen, and a text that is no number is typed over the weekly run. -/
private def cancelledPick : List Action :=
  fillingActions "5000" "200" 1700000000 ++
    [.form (.selectDate 1600000000), .form .clkCancel, .form .clkPickerDone,
      .form (.becomeFirstResponder .weeklyRun), .form (.type "abc"), .form .endEditing]

private theorem cancelledPick_saved :
    (Transition.run (App.step UTC.platform) (App.installed 1700000000) cancelledPick).bind (fun app =>
      (app.step UTC.platform (.clkSave "A1")).map fun app' =>
        (app.addVehicleVC.cell.txtWeeklyRun, app.addVehicleVC.cell.txtLastServiceDate,
          app'.context.persisted.values.map fun v =>
            (v.averageRun, v.lastServiceDate.map UTC.platform.stringFromDate))) =
      some ("abc", "13 Sep 2020", [(200, some "14 Nov 2023")]) := by
  decide +kernel

/-- Neither the weekly run nor the date that is stored is the one shown. -/
theorem save_can_store_other :
    ∃ app app',
      Transition.run (App.step UTC.platform) (App.installed 1700000000) cancelledPick = some app ∧
      app.step UTC.platform (.clkSave "A1") = some app' ∧
      app.addVehicleVC.cell.txtWeeklyRun = "abc" ∧
      app.addVehicleVC.cell.txtLastServiceDate = "13 Sep 2020" ∧
      (∃ vehicle, app'.context.persisted.values = [vehicle] ∧ vehicle.averageRun = 200 ∧
        vehicle.lastServiceDate.map UTC.platform.stringFromDate = some "14 Nov 2023") ∧
      ¬ AddVehicleVC.StoredAsShown UTC.platform "A1" app.addVehicleVC app'.context := by
  obtain ⟨app, hRun, hStep⟩ := Option.bind_eq_some_iff.mp cancelledPick_saved
  obtain ⟨app', hSave, hState⟩ := Option.map_eq_some_iff.mp hStep
  obtain ⟨hWeekly, hRest⟩ := Prod.mk.inj hState
  obtain ⟨hDate, hStored⟩ := Prod.mk.inj hRest
  obtain ⟨vehicle, hOne, hVehicle⟩ := List.map_eq_singleton_iff.mp hStored
  obtain ⟨hStoredRun, hStoredDate⟩ := Prod.mk.inj hVehicle
  refine ⟨app, app', hRun, hSave, hWeekly, hDate, ⟨vehicle, hOne, hStoredRun, hStoredDate⟩, ?_⟩
  rintro ⟨other, _, hShown⟩
  have hParse := hShown.averageRun
  rw [hWeekly] at hParse
  cases hParse

end Save

end ServiceBook

import ServiceBook.App.Identity
import ServiceBook.App.Forms

/-! Opening a stored record in the editor and saving it untouched. The numbers
go through their texts and the due date is computed again; both come back as
they were. The notes go through their placeholder, and empty notes do not. -/
namespace ServiceBook

open DatabaseManager

/-- A 32-bit number that has been printed is read back. -/
def Platform.RereadsNumbers (P : Platform) : Prop :=
  ∀ n, InInt32 n → P.numberFromString (toString n) = some (n.toInt : ℚ)

/-- What Save writes: the due date is the one the rule computes, the texts are
there, and the notes are not the placeholder. -/
structure SavedVehicle (P : Platform) (objVehicle : AllVehiclesI) : Prop where
  rule : ∃ text, AppSharedInstance.getServiceDueDate P objVehicle = .ok (objVehicle, text)
  vehicleName : objVehicle.vehicleName.isSome
  vehicleType : objVehicle.vehicleType.isSome
  vehicleNo : objVehicle.vehicleNo.isSome
  notes : ∃ notes, objVehicle.notes = some notes ∧ notes ≠ "Notes"

/-- The row is opened in the editor and Save is pressed, with whatever answers
of the store: both complete, and every record is as it was. -/
def Untouched (P : Platform) (app : App) (row : Nat) : Prop :=
  ∀ storage uuid, ∃ saved,
    Transition.run (App.step P) app [.allVehiclesDidSelectRow row, .storage storage, .clkSave uuid] =
      some saved ∧
    saved.context.objects = app.context.objects

/-- The vehicle as the editor saves it again. -/
def resaved (objVehicle : AllVehiclesI) : AllVehiclesI :=
  { objVehicle with
    notes := if objVehicle.notes = some "" then some "No notes available" else objVehicle.notes }

section Reopen

variable {P : Platform} {app : App} {objVehicle : AllVehiclesI}

theorem savedVehicle_of_rule {form : AddVehicleVC} {uuid text : String}
    (hRule : AppSharedInstance.getServiceDueDate P (form.populate P uuid) = .ok (objVehicle, text)) :
    SavedVehicle P objVehicle := by
  have hAgain := AppSharedInstance.getServiceDueDate_again hRule
  obtain ⟨_, rfl⟩ := AppSharedInstance.getServiceDueDate_sets hRule
  refine ⟨⟨text, hAgain⟩, rfl, rfl, rfl, _, rfl, ?_⟩
  split
  · decide
  · next hNotes => exact hNotes

/-- Every stored object has been written by a Save. -/
theorem saved_contains (P : Platform) (now : Date) (actions : List Action) :
    Transition.Always (App.step P) (fun app => Contains (SavedVehicle P) app.context)
      (App.installed now) actions := by
  refine contains_run (Transition.throughout_of_forall fun action _ app objVehicle hSaves _ => ?_)
  obtain ⟨uuid, slot, form, text, _, _, _, hRule⟩ := hSaves
  exact savedVehicle_of_rule hRule

theorem resaved_eq_self (h : objVehicle.notes ≠ some "") : resaved objVehicle = objVehicle := by
  rw [resaved, if_neg h]

/-- The rule looks at neither the notes nor the due date. -/
theorem SavedVehicle.rule_resaved (h : SavedVehicle P objVehicle) :
    ∃ text, AppSharedInstance.getServiceDueDate P (resaved objVehicle) = .ok (resaved objVehicle, text) := by
  obtain ⟨text, hRule⟩ := h.rule
  obtain ⟨averageRun, distance, days, last, due, hRun, hDistance, hDays, hLast, hDue, hResult⟩ :=
    AppSharedInstance.getServiceDueDate_eq_ok.mp hRule
  have hSame : objVehicle.serviceDueDate = some due :=
    congrArg AllVehiclesI.serviceDueDate (Prod.mk.inj hResult).1
  refine ⟨P.stringFromDate due, AppSharedInstance.getServiceDueDate_eq_ok.mpr
    ⟨averageRun, distance, days, last, due, hRun, hDistance, hDays, hLast, hDue, ?_⟩⟩
  rw [← hSame]
  rfl

/-- The texts of the editor denote the vehicle it was opened with, up to empty notes. -/
theorem SavedVehicle.populate_reopened (h : SavedVehicle P objVehicle) (hNarrow : Narrow objVehicle)
    (hRereads : P.RereadsNumbers) {now : Date} {gadget : Option Gadget} {form : AddVehicleVC}
    (hAppear : AddVehicleVC.appear P (AddVehicleVC.editForm now objVehicle gadget) = .ok form) (uuid : String) :
    form.populate P uuid = resaved objVehicle := by
  obtain ⟨_, _, hCell⟩ := (AddVehicleVC.appear_edit rfl).mp hAppear
  obtain ⟨name, type, number, hName, hType, hNo, rfl⟩ := AddVehicleVC.cellForRowAt_eq_ok.mp hCell
  obtain ⟨distance, run, hDistance, hDistance32, hRun, hRun16⟩ := hNarrow
  obtain ⟨notes, hNotes, hNotPlaceholder⟩ := h.notes
  have hRun32 : InInt32 run := by
    obtain ⟨hLower, hUpper⟩ := hRun16
    exact ⟨by omega, by omega⟩
  have hReadDistance := hRereads distance hDistance32
  have hReadRun := hRereads run hRun32
  cases objVehicle
  subst hName hType hNo hDistance hRun hNotes
  simp only [AddVehicleVC.populate, AddVehicleVC.editForm, AddVehicleVC.enteredNumber, resaved, Option.map_some,
    Option.getD_some, hReadDistance, hReadRun, intValue_toInt, if_true, AllVehiclesI.mk.injEq, true_and, and_true,
    Option.some.injEq]
  by_cases hEmpty : notes = ""
  · simp [hEmpty]
  · simp [hEmpty, hNotPlaceholder]

theorem SavedVehicle.resaved (h : SavedVehicle P objVehicle) : SavedVehicle P (resaved objVehicle) := by
  refine ⟨h.rule_resaved, h.vehicleName, h.vehicleType, h.vehicleNo, ?_⟩
  by_cases hEmpty : objVehicle.notes = some ""
  · exact ⟨"No notes available", if_pos hEmpty, by decide⟩
  · rw [resaved_eq_self hEmpty]
    exact h.notes

theorem SavedVehicle.hasDates (h : SavedVehicle P objVehicle) : HasDates objVehicle := by
  obtain ⟨text, hRule⟩ := h.rule
  obtain ⟨_, _, _, last, due, _, _, _, hLast, _, hResult⟩ := AppSharedInstance.getServiceDueDate_eq_ok.mp hRule
  have hDue : objVehicle.serviceDueDate = some due :=
    congrArg AllVehiclesI.serviceDueDate (Prod.mk.inj hResult).1
  exact ⟨by rw [hLast]; rfl, by rw [hDue]; rfl⟩

theorem SavedVehicle.request (h : SavedVehicle P objVehicle) (notificationDate : Date) :
    ∃ request, AppSharedInstance.notificationRequest objVehicle notificationDate = .ok request := by
  obtain ⟨name, hName⟩ := Option.isSome_iff_exists.mp h.vehicleName
  obtain ⟨number, hNo⟩ := Option.isSome_iff_exists.mp h.vehicleNo
  obtain ⟨type, hType⟩ := Option.isSome_iff_exists.mp h.vehicleType
  obtain ⟨last, hLast⟩ := Option.isSome_iff_exists.mp h.hasDates.1
  simp [AppSharedInstance.notificationRequest, hName, hNo, hType, hLast]

/-- The list comes back on the screen. -/
theorem viewWillAppear_allVehicles_run (P : Platform) (mid : App) (hTab : mid.selectedTab = .allVehicles)
    (hContains : Contains (SavedVehicle P) mid.context) :
    ∃ app', (viewWillAppear P mid.selectedTab).run mid = .ok () app' := by
  obtain ⟨arrVehicles, hQuery⟩ := hContains.getAllRecords (fun _ hSaved => hSaved.vehicleType)
    mid.storage.list (upcoming mid.now)
  have hFetch := AllVehiclesPresenter.getAllVehicles_eq_ok.mpr ⟨arrVehicles, hQuery, rfl⟩
  rw [hTab]
  exact ⟨_, Program.run_bind_of_ok hFetch⟩

/-- The Save of an editor over the list completes, if what it saves has been
saved before up to its notes. -/
theorem SavedVehicle.save_completes (h : SavedVehicle P objVehicle) (hNarrow : Narrow objVehicle)
    (app : App) (hTab : app.selectedTab = .allVehicles) (hContains : Contains (SavedVehicle P) app.context)
    {form : AddVehicleVC} {gadgetObj : Gadget} {uuid : String} {obj : Table.Row Vehicle}
    (hForm : app.editor = some form) (hEdit : form.isRecordEdit = true)
    (hGadget : form.gadgetToUpdate = some gadgetObj) (hPopulate : form.populate P uuid = objVehicle)
    (hFirst : firstUnder app.context objVehicle.vehicleID = some obj) :
    ∃ saved, app.step P (.clkSave uuid) = some saved ∧
      saved.context.objects = if app.storage.write.fetch then
        app.context.objects.update obj.objectID (stored objVehicle) else app.context.objects := by
  obtain ⟨text, hRule⟩ := h.rule
  obtain ⟨context, success, hWrite, hObjects⟩ :=
    editRecord_completes hFirst h.vehicleType hNarrow app.storage.write
  obtain ⟨gadget, hUpdate, _⟩ := gadgetObjToUpdate_of_hasDates gadgetObj h.hasDates
  obtain ⟨due, hDue⟩ := Option.isSome_iff_exists.mp h.hasDates.2
  obtain ⟨request, hRequest⟩ := h.request due
  have hPopulated : AppSharedInstance.getServiceDueDate P (form.populate P uuid) = .ok (objVehicle, text) := by
    rw [hPopulate]
    exact hRule
  have hRun := clkSave_editor_run hForm hEdit hPopulated hGadget hWrite hUpdate hDue hRequest
  have hNext : Contains (SavedVehicle P) context := hContains.editRecord (fun _ => h) hWrite
  obtain ⟨saved, hAppear⟩ := viewWillAppear_allVehicles_run P { app with
    context := context
    outbox := app.outbox ++ FIRFireStoreService.update gadget
    told := app.told ++ [.vehicleInfoUpdated true]
    pendingRequests := (app.pendingRequests.remove [objVehicle.vehicleID]).add app.now request
    editor := none } hTab hNext
  have hActive : app.activeForm = some .editor := activeForm_eq_editor.mpr (by rw [hForm]; rfl)
  refine ⟨saved, step_eq_some.mpr ⟨by rw [Action.Offered, hActive]; rfl, ?_⟩, ?_⟩
  · rw [handle, Program.run_get_bind, hActive]
    exact hRun.trans hAppear
  · rw [(viewWillAppear_refreshed hAppear).context]
    exact hObjects

/-- The object behind a row of the list, and what a Save of its editor makes of it. -/
theorem Identified.resaves (h : Identified app) (hContains : Contains (SavedVehicle P) app.context)
    (hRereads : P.RereadsNumbers) (hShows : app.Shows .allVehicles) {row : Nat} {gadgetObj : Gadget}
    {form : AddVehicleVC} (hVehicle : app.allVehiclesVC.arrAllVehicles[row]? = some objVehicle)
    (hAppear : AddVehicleVC.appear P (AddVehicleVC.editForm app.now objVehicle (some gadgetObj)) = .ok form) :
    ∃ obj ∈ app.context.objects.rows, obj.value = stored objVehicle ∧
      ∀ (storage : Storage) (uuid : String), ∃ saved,
        App.step P { app with editor := some form, storage := storage } (.clkSave uuid) = some saved ∧
        saved.context.objects = if storage.write.fetch then
          app.context.objects.update obj.objectID (stored (resaved objVehicle)) else app.context.objects := by
  obtain ⟨outcome, predicate, vehicles, hList, hMem⟩ :=
    h.shown.due hShows objVehicle (List.mem_of_getElem? hVehicle)
  obtain ⟨obj, hObj, hCopy⟩ := mem_getAllRecords hList hMem
  obtain ⟨hNarrow, hSaved, hValue⟩ := hContains.of_copied (fun _ hSaved => hSaved.vehicleType) hObj hCopy
  have hFirst : firstUnder app.context (resaved objVehicle).vehicleID = some obj :=
    h.distinct.firstUnder_eq hObj (by rw [hValue]; rfl)
  have hSame := AddVehicleVC.sameRecord_appear hAppear rfl
  exact ⟨obj, hObj, hValue, fun storage uuid =>
    hSaved.resaved.save_completes hNarrow { app with editor := some form, storage := storage } hShows.1
      hContains rfl hSame.isRecordEdit hSame.gadgetToUpdate
      (hSaved.populate_reopened hNarrow hRereads hAppear uuid) hFirst⟩

theorem stored_resaved_iff : stored (resaved objVehicle) = stored objVehicle ↔ objVehicle.notes ≠ some "" := by
  constructor
  · intro hSame hEmpty
    have hNotes := congrArg Vehicle.notes hSame
    simp [stored, resaved, hEmpty] at hNotes
  · intro hNotes
    rw [resaved_eq_self hNotes]

/-- After every run with fresh ids, a record that is opened from the list and
saved untouched stays as it is exactly if its notes are not empty. -/
theorem untouched_iff (hRereads : P.RereadsNumbers) {now : Date} {actions : List Action} {row : Nat}
    (hRun : Transition.run (App.step P) (App.installed now) actions = some app)
    (hFresh : Transition.Throughout (App.step P) FreshID (App.installed now) actions)
    (hVehicle : app.allVehiclesVC.arrAllVehicles[row]? = some objVehicle)
    (hOpen : (app.step P (.allVehiclesDidSelectRow row)).isSome) :
    Untouched P app row ↔ objVehicle.notes ≠ some "" := by
  have hIdentified := (identified_run hFresh).of_run hRun
  have hContains := (saved_contains P now actions).of_run hRun
  obtain ⟨opened, hStep⟩ := Option.isSome_iff_exists.mp hOpen
  cases step_stepped hIdentified.placed hStep with
  | allVehiclesSelect _ vehicleObj gadgetObj form hShows hListed hGadget hAppear =>
      obtain rfl := Option.some.inj (hVehicle.symm.trans hListed)
      obtain ⟨obj, hObj, hValue, hSaves⟩ :=
        hIdentified.resaves hContains hRereads hShows hVehicle hAppear
      have hSteps (storage : Storage) (uuid : String) :
          Transition.run (App.step P) app
              [.allVehiclesDidSelectRow row, .storage storage, .clkSave uuid] =
            App.step P { app with editor := some form, storage := storage } (.clkSave uuid) := by
        have hStorage : App.step P { app with editor := some form } (.storage storage) =
            some { app with editor := some form, storage := storage } := step_eq_some.mpr ⟨trivial, rfl⟩
        rw [Transition.run_cons, hStep, Option.bind_some, Transition.run_cons, hStorage, Option.bind_some,
          Transition.run_cons]
        simp
      rw [← stored_resaved_iff, ← hValue, ← app.context.objects.update_eq_self_iff hObj]
      constructor
      · intro hUntouched
        obtain ⟨saved, hSaved, hSame⟩ := hUntouched {} ""
        obtain ⟨saved', hSaved', hUpdated⟩ := hSaves {} ""
        rw [hSteps] at hSaved
        obtain rfl := Option.some.inj (hSaved.symm.trans hSaved')
        exact hUpdated.symm.trans hSame
      · intro hSame storage uuid
        obtain ⟨saved, hSaved, hUpdated⟩ := hSaves storage uuid
        refine ⟨saved, (hSteps storage uuid).trans hSaved, ?_⟩
        rw [hUpdated, hSame]
        split <;> rfl

theorem UTC.rereadsNumbers : UTC.platform.RereadsNumbers := fun n _ => UTC.numberFromString_toString n

/-- The document of the vehicle that is added here. -/
private def document (notes : String) : KeyedCoding.JsonObject :=
  (Gadget.init "" "" "" notes 5000 200 (.finite 1699920000) (.finite 1715040000)).document

/-- A vehicle is added, its document arrives, and its row is drawn in the list. -/
private def listedActions : List Action :=
  addingActions "5000" "200" 1700000000 "A1" ++
    [.snapshot [("d1", document "No notes available")], .selectTab .allVehicles, .allVehiclesCellForRow 0]

private theorem listed_run :
    (Transition.run (App.step UTC.platform) (App.installed 1700000000) listedActions).map (fun app =>
      (app.allVehiclesVC.arrAllVehicles.length,
        (app.step UTC.platform (.allVehiclesDidSelectRow 0)).isSome)) = some (1, true) := by
  decide +kernel

theorem untouched_iff_listed :
    ∃ app objVehicle,
      Transition.run (App.step UTC.platform) (App.installed 1700000000) listedActions = some app ∧
      app.allVehiclesVC.arrAllVehicles[0]? = some objVehicle ∧
      (Untouched UTC.platform app 0 ↔ objVehicle.notes ≠ some "") := by
  obtain ⟨app, hRun, hState⟩ := Option.map_eq_some_iff.mp listed_run
  obtain ⟨hLength, hOpen⟩ := Prod.mk.inj hState
  have hVehicle := List.getElem?_eq_getElem (show 0 < app.allVehiclesVC.arrAllVehicles.length by omega)
  refine ⟨app, _, hRun, hVehicle, untouched_iff UTC.rereadsNumbers hRun ?_ hVehicle hOpen⟩
  rw [listedActions, Transition.throughout_append]
  constructor
  · refine throughout_adding (by simp [fillingActions, FreshID]) fun filled hFilled _ => ?_
    rw [filled_context hFilled]
    simp
  · intro added _
    exact Transition.throughout_of_forall (by simp [FreshID])

/-- The row is opened, its notes are emptied, which brings the placeholder back, and
tapped again, which removes it; then Save is pressed. The list comes back, is drawn
from the gadget it still has, and the written document arrives. -/
private def emptyNotes : List Action :=
  listedActions ++ [.allVehiclesDidSelectRow 0, .form (.becomeFirstResponder .notes), .form (.type ""),
    .form (.becomeFirstResponder .notes), .clkSave "B2", .allVehiclesCellForRow 0,
    .snapshot [("d1", document "")]]

private theorem emptyNotes_run :
    (Transition.run (App.step UTC.platform) (App.installed 1700000000) emptyNotes).bind (fun app =>
      (Transition.run (App.step UTC.platform) app
        [.allVehiclesDidSelectRow 0, .storage {}, .clkSave "C3"]).map fun saved =>
          (app.outbox, app.context.objects.values.map Vehicle.notes,
            saved.context.objects.values.map Vehicle.notes)) =
      some ([.addDocument (document "No notes available"), .setData "d1" (document "")],
        [some ""], [some "No notes available"]) := by
  decide +kernel

/-- Both documents that arrive have been sent, the record has empty notes, and saving
it untouched gives it some. -/
theorem untouched_can_change_notes :
    ∃ app saved,
      Transition.run (App.step UTC.platform) (App.installed 1700000000) emptyNotes = some app ∧
      app.outbox = [.addDocument (document "No notes available"), .setData "d1" (document "")] ∧
      Transition.run (App.step UTC.platform) app
        [.allVehiclesDidSelectRow 0, .storage {}, .clkSave "C3"] = some saved ∧
      app.context.objects.values.map Vehicle.notes = [some ""] ∧
      saved.context.objects.values.map Vehicle.notes = [some "No notes available"] ∧
      ¬ Untouched UTC.platform app 0 := by
  obtain ⟨app, hRun, hSteps⟩ := Option.bind_eq_some_iff.mp emptyNotes_run
  obtain ⟨saved, hSaved, hState⟩ := Option.map_eq_some_iff.mp hSteps
  obtain ⟨hSent, hNotes⟩ := Prod.mk.inj hState
  obtain ⟨hBefore, hAfter⟩ := Prod.mk.inj hNotes
  refine ⟨app, saved, hRun, hSent, hSaved, hBefore, hAfter, fun hUntouched => ?_⟩
  obtain ⟨other, hOther, hSame⟩ := hUntouched {} "C3"
  obtain rfl := Option.some.inj (hSaved.symm.trans hOther)
  rw [hSame, hBefore] at hAfter
  exact absurd hAfter (by decide)

end Reopen

end ServiceBook

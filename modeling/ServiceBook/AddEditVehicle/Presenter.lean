import ServiceBook.AllVehicles.AllVehiclesVC
import ServiceBook.HistoryBook.HistoryVC
import ServiceBook.AddEditVehicle.Save

/-! `AddVehiclePresenter`, the callbacks of its view, and the navigation to and
from the editor. A presenter belongs to the form in one slot and holds it
weakly, so there may be no view to call. -/
namespace ServiceBook

section

variable (P : Platform)

/-- A screen of the tab bar comes back on top. -/
def viewWillAppear : Tab → AppM Unit
  | .allVehicles => AllVehiclesVC.viewWillAppear
  | .history => HistoryVC.viewWillAppear
  | .addVehicle => do
      let app ← get
      let form ← Program.ofExcept (app.addVehicleVC.viewWillAppear P)
      set { app with addVehicleVC := form }

/-- `popViewController`: with no editor on top there is nothing to pop. -/
def popViewController : AppM Unit := do
  let app ← get
  match app.editor with
  | none => pure ()
  | some _ => do
      set { app with editor := none }
      viewWillAppear P app.selectedTab

namespace AddVehicleVC

def newVehicleAdded (slot : FormSlot) (isSuccess : Bool) : AppM Unit := do
  let app ← get
  match app.form slot with
  | none => pure ()
  | some form => do
      set { app with told := app.told ++ [ViewCall.newVehicleAdded isSuccess] }
      let serviceDueDate ← Program.ofExcept (unwrap form.objVehicle.serviceDueDate)
      AppSharedInstance.setLocalNotification form.objVehicle serviceDueDate
      let form ← Program.ofExcept (reloadData P
        { form with objVehicle := form.objVehicle.resetData, dtLastService := none })
      modify fun app => app.setForm form slot

def vehicleInfoUpdated (slot : FormSlot) (isSuccess : Bool) : AppM Unit := do
  let app ← get
  match app.form slot with
  | none => pure ()
  | some form => do
      set { app with told := app.told ++ [ViewCall.vehicleInfoUpdated isSuccess] }
      AppSharedInstance.removeNotification [form.objVehicle.vehicleID]
      let serviceDueDate ← Program.ofExcept (unwrap form.objVehicle.serviceDueDate)
      AppSharedInstance.setLocalNotification form.objVehicle serviceDueDate
      popViewController P

end AddVehicleVC

namespace AddVehiclePresenter

def updateRecordOnServer (gadgetObj : Gadget) (objVehicle : AllVehiclesI) : AppM Unit := do
  let gadget ← Program.ofExcept (gadgetObjToUpdate gadgetObj objVehicle)
  FIRFireStoreService.send (FIRFireStoreService.update gadget)

/-- The completion handler ignores whether the record was added. -/
def addVehicle (slot : FormSlot) (objVehicle : AllVehiclesI) : AppM Unit := do
  let calls ← VehicleManager.addNewVehicle objVehicle
  calls.forM fun _success => do
    addNewRecordOnFirebase objVehicle
    AddVehicleVC.newVehicleAdded P slot true

/-- The same for an edit. -/
def editVehicalInfo (slot : FormSlot) (objVehicle : AllVehiclesI) (gadgetObj : Gadget) : AppM Unit := do
  let calls ← VehicleManager.editVehicalInfo objVehicle
  calls.forM fun _success => do
    updateRecordOnServer gadgetObj objVehicle
    AddVehicleVC.vehicleInfoUpdated P slot true

end AddVehiclePresenter

namespace AddVehicleVC

def clkSave (slot : FormSlot) (uuid : String) : AppM Unit := do
  let app ← get
  match app.form slot with
  | none => pure ()
  | some form => do
      let (objVehicle, _) ← Program.ofExcept (AppSharedInstance.getServiceDueDate P (form.populate P uuid))
      set (app.setForm { form with objVehicle := objVehicle } slot)
      if form.isRecordEdit then
        let gadgetObj ← Program.ofExcept (unwrap form.gadgetToUpdate)
        AddVehiclePresenter.editVehicalInfo P slot objVehicle gadgetObj
      else AddVehiclePresenter.addVehicle P slot objVehicle

def clkBack : AppM Unit := popViewController P

end AddVehicleVC

/-- Push the editor of a vehicle. -/
def pushEditor (objVehicle : AllVehiclesI) (gadgetToUpdate : Option Gadget) : AppM Unit := do
  let app ← get
  let form ← Program.ofExcept
    (AddVehicleVC.appear P (AddVehicleVC.editForm app.now objVehicle gadgetToUpdate))
  set { app with editor := some form }

def AllVehiclesVC.didSelectRowAt (row : Nat) : AppM Unit := do
  let app ← get
  match app.allVehiclesVC.arrAllVehicles[row]? with
  | none => throw .indexOutOfRange
  | some vehicleObj =>
      match app.allVehiclesVC.arrGadgets[row]? with
      | none => throw .indexOutOfRange
      | some gadgetObj => pushEditor P vehicleObj (some gadgetObj)

/-- The History list hands no gadget to the editor. -/
def HistoryVC.didSelectRowAt (row : Nat) : AppM Unit := do
  let app ← get
  match app.historyVC.arrAllVehicles[row]? with
  | none => throw .indexOutOfRange
  | some vehicleObj => pushEditor P vehicleObj none

end

section Runs

variable {P : Platform} {app app' : App}

theorem addNewRecordOnFirebase_of_ok {objVehicle : AllVehiclesI}
    (h : (addNewRecordOnFirebase objVehicle).run app = .ok () app') :
    ∃ gadget, gadgetInfo objVehicle = .ok gadget ∧
      app' = { app with outbox := app.outbox ++ FIRFireStoreService.create gadget } := by
  obtain ⟨gadget, mid, hGadgetRun, hSend⟩ := Program.bind_eq_ok.mp h
  obtain ⟨hGadget, rfl⟩ := Program.ofExcept_eq_ok.mp hGadgetRun
  exact ⟨gadget, hGadget, Program.modify_eq_ok.mp hSend⟩

theorem updateRecordOnServer_of_ok {gadgetObj : Gadget} {objVehicle : AllVehiclesI}
    (h : (AddVehiclePresenter.updateRecordOnServer gadgetObj objVehicle).run app = .ok () app') :
    ∃ gadget, gadgetObjToUpdate gadgetObj objVehicle = .ok gadget ∧
      app' = { app with outbox := app.outbox ++ FIRFireStoreService.update gadget } := by
  obtain ⟨gadget, mid, hGadgetRun, hSend⟩ := Program.bind_eq_ok.mp h
  obtain ⟨hGadget, rfl⟩ := Program.ofExcept_eq_ok.mp hGadgetRun
  exact ⟨gadget, hGadget, Program.modify_eq_ok.mp hSend⟩

theorem updateRecordOnServer_run {gadgetObj gadget : Gadget} {objVehicle : AllVehiclesI} (app : App)
    (h : gadgetObjToUpdate gadgetObj objVehicle = .ok gadget) :
    (AddVehiclePresenter.updateRecordOnServer gadgetObj objVehicle).run app =
      .ok () { app with outbox := app.outbox ++ FIRFireStoreService.update gadget } := by
  rw [AddVehiclePresenter.updateRecordOnServer, h, Program.run_bind_of_ok Program.run_ofExcept_ok, send_run]

theorem setLocalNotification_of_ok {vehicleObj : AllVehiclesI} {notificationDate : Date}
    (h : (AppSharedInstance.setLocalNotification vehicleObj notificationDate).run app = .ok () app') :
    ∃ request, AppSharedInstance.notificationRequest vehicleObj notificationDate = .ok request ∧
      app' = { app with pendingRequests := app.pendingRequests.add app.now request } := by
  obtain ⟨request, mid, hRequestRun, hAdd⟩ := Program.bind_eq_ok.mp h
  obtain ⟨hRequest, rfl⟩ := Program.ofExcept_eq_ok.mp hRequestRun
  exact ⟨request, hRequest, Program.modify_eq_ok.mp hAdd⟩

/-- After an addition from the Add tab the vehicle has its notification and the
form is empty again. -/
theorem newVehicleAdded_of_ok {isSuccess : Bool}
    (h : (AddVehicleVC.newVehicleAdded P .addTab isSuccess).run app = .ok () app') :
    ∃ serviceDueDate request form,
      app.addVehicleVC.objVehicle.serviceDueDate = some serviceDueDate ∧
      AppSharedInstance.notificationRequest app.addVehicleVC.objVehicle serviceDueDate = .ok request ∧
      AddVehicleVC.reloadData P
        { app.addVehicleVC with
          objVehicle := app.addVehicleVC.objVehicle.resetData, dtLastService := none } = .ok form ∧
      app' = { app with
        told := app.told ++ [.newVehicleAdded isSuccess]
        pendingRequests := app.pendingRequests.add app.now request
        addVehicleVC := form } := by
  rw [AddVehicleVC.newVehicleAdded, Program.run_get_bind, App.form_addTab] at h
  dsimp only at h
  rw [Program.run_set_bind] at h
  obtain ⟨serviceDueDate, mid, hDueRun, h⟩ := Program.bind_eq_ok.mp h
  obtain ⟨hDue, rfl⟩ := Program.ofExcept_eq_ok.mp hDueRun
  obtain ⟨_, scheduled, hSchedule, h⟩ := Program.bind_eq_ok.mp h
  obtain ⟨request, hRequest, rfl⟩ := setLocalNotification_of_ok hSchedule
  obtain ⟨form, mid', hReloadRun, h⟩ := Program.bind_eq_ok.mp h
  obtain ⟨hReload, rfl⟩ := Program.ofExcept_eq_ok.mp hReloadRun
  exact ⟨serviceDueDate, request, form, unwrap_eq_ok.mp hDue, hRequest, hReload,
    Program.modify_eq_ok.mp h⟩

/-- After an edit the old notification is replaced, the editor is gone, and
the screen under it has appeared. -/
theorem vehicleInfoUpdated_of_ok {isSuccess : Bool} {form : AddVehicleVC} (hForm : app.editor = some form)
    (h : (AddVehicleVC.vehicleInfoUpdated P .editor isSuccess).run app = .ok () app') :
    ∃ serviceDueDate request,
      form.objVehicle.serviceDueDate = some serviceDueDate ∧
      AppSharedInstance.notificationRequest form.objVehicle serviceDueDate = .ok request ∧
      (viewWillAppear P app.selectedTab).run { app with
        told := app.told ++ [.vehicleInfoUpdated isSuccess]
        pendingRequests :=
          (app.pendingRequests.remove [form.objVehicle.vehicleID]).add app.now request
        editor := none } = .ok () app' := by
  rw [AddVehicleVC.vehicleInfoUpdated, Program.run_get_bind, App.form_editor, hForm] at h
  dsimp only at h
  rw [Program.run_set_bind] at h
  obtain ⟨_, removed, hRemove, h⟩ := Program.bind_eq_ok.mp h
  obtain rfl := Program.modify_eq_ok.mp hRemove
  obtain ⟨serviceDueDate, mid, hDueRun, h⟩ := Program.bind_eq_ok.mp h
  obtain ⟨hDue, rfl⟩ := Program.ofExcept_eq_ok.mp hDueRun
  obtain ⟨_, scheduled, hSchedule, h⟩ := Program.bind_eq_ok.mp h
  obtain ⟨request, hRequest, rfl⟩ := setLocalNotification_of_ok hSchedule
  rw [popViewController, Program.run_get_bind] at h
  dsimp only at h
  rw [Program.run_set_bind] at h
  exact ⟨serviceDueDate, request, unwrap_eq_ok.mp hDue, hRequest, h⟩

/-- Saving the Add tab: the vehicle of the form is stored, its document is
created, and the form starts over. -/
theorem clkSave_addTab_of_ok {uuid : String} (hTab : app.addVehicleVC.isRecordEdit = false)
    (h : (AddVehicleVC.clkSave P .addTab uuid).run app = .ok () app') :
    ∃ objVehicle text context success gadget serviceDueDate request form,
      AppSharedInstance.getServiceDueDate P (app.addVehicleVC.populate P uuid) = .ok (objVehicle, text) ∧
      DatabaseManager.addRecord app.storage.write app.context objVehicle = .ok (context, [success]) ∧
      gadgetInfo objVehicle = .ok gadget ∧
      objVehicle.serviceDueDate = some serviceDueDate ∧
      AppSharedInstance.notificationRequest objVehicle serviceDueDate = .ok request ∧
      AddVehicleVC.reloadData P
        { app.addVehicleVC with objVehicle := objVehicle.resetData, dtLastService := none } = .ok form ∧
      app' = { app with
        context := context
        outbox := app.outbox ++ FIRFireStoreService.create gadget
        told := app.told ++ [.newVehicleAdded true]
        pendingRequests := app.pendingRequests.add app.now request
        addVehicleVC := form } := by
  rw [AddVehicleVC.clkSave, Program.run_get_bind, App.form_addTab] at h
  dsimp only at h
  obtain ⟨⟨objVehicle, text⟩, _, hRuleRun, h⟩ := Program.bind_eq_ok.mp h
  obtain ⟨hRule, rfl⟩ := Program.ofExcept_eq_ok.mp hRuleRun
  rw [Program.run_set_bind, if_neg (Bool.eq_false_iff.mp hTab)] at h
  obtain ⟨context, success, hAdd, h⟩ := VehicleManager.perform_forM_of_ok h
  obtain ⟨_, _, hCreate, h⟩ := Program.bind_eq_ok.mp h
  obtain ⟨gadget, hGadget, rfl⟩ := addNewRecordOnFirebase_of_ok hCreate
  obtain ⟨serviceDueDate, request, form, hDue, hRequest, hReload, rfl⟩ := newVehicleAdded_of_ok h
  exact ⟨objVehicle, text, context, success, gadget, serviceDueDate, request, form, hRule, hAdd,
    hGadget, hDue, hRequest, hReload, rfl⟩

/-- Saving the editor: the record and the document of the gadget are
overwritten, and the screen under the editor comes back. -/
theorem clkSave_editor_of_ok {uuid : String} {form : AddVehicleVC} (hForm : app.editor = some form)
    (hEdit : form.isRecordEdit = true)
    (h : (AddVehicleVC.clkSave P .editor uuid).run app = .ok () app') :
    ∃ objVehicle text gadgetObj context success gadget serviceDueDate request,
      AppSharedInstance.getServiceDueDate P (form.populate P uuid) = .ok (objVehicle, text) ∧
      form.gadgetToUpdate = some gadgetObj ∧
      DatabaseManager.editRecord app.storage.write app.context objVehicle = .ok (context, [success]) ∧
      gadgetObjToUpdate gadgetObj objVehicle = .ok gadget ∧
      objVehicle.serviceDueDate = some serviceDueDate ∧
      AppSharedInstance.notificationRequest objVehicle serviceDueDate = .ok request ∧
      (viewWillAppear P app.selectedTab).run { app with
        context := context
        outbox := app.outbox ++ FIRFireStoreService.update gadget
        told := app.told ++ [.vehicleInfoUpdated true]
        pendingRequests :=
          (app.pendingRequests.remove [objVehicle.vehicleID]).add app.now request
        editor := none } = .ok () app' := by
  rw [AddVehicleVC.clkSave, Program.run_get_bind, App.form_editor, hForm] at h
  dsimp only at h
  obtain ⟨⟨objVehicle, text⟩, _, hRuleRun, h⟩ := Program.bind_eq_ok.mp h
  obtain ⟨hRule, rfl⟩ := Program.ofExcept_eq_ok.mp hRuleRun
  rw [Program.run_set_bind, if_pos hEdit] at h
  obtain ⟨gadgetObj, _, hGadgetRun, h⟩ := Program.bind_eq_ok.mp h
  obtain ⟨hGadget, rfl⟩ := Program.ofExcept_eq_ok.mp hGadgetRun
  obtain ⟨context, success, hSaved, h⟩ := VehicleManager.perform_forM_of_ok h
  obtain ⟨_, _, hUpdate, h⟩ := Program.bind_eq_ok.mp h
  obtain ⟨gadget, hNew, rfl⟩ := updateRecordOnServer_of_ok hUpdate
  obtain ⟨serviceDueDate, request, hDue, hRequest, h⟩ := vehicleInfoUpdated_of_ok rfl h
  exact ⟨objVehicle, text, gadgetObj, context, success, gadget, serviceDueDate, request, hRule,
    unwrap_eq_ok.mp hGadget, hSaved, hNew, hDue, hRequest, h⟩

/-- How the Save of an editor runs, up to the screen that comes back. -/
theorem clkSave_editor_run {uuid text : String} {form : AddVehicleVC} {objVehicle : AllVehiclesI}
    {gadgetObj gadget : Gadget} {context : ManagedObjectContext} {success : Bool} {serviceDueDate : Date}
    {request : UNNotificationRequest} (hForm : app.editor = some form) (hEdit : form.isRecordEdit = true)
    (hRule : AppSharedInstance.getServiceDueDate P (form.populate P uuid) = .ok (objVehicle, text))
    (hGadget : form.gadgetToUpdate = some gadgetObj)
    (hWrite : DatabaseManager.editRecord app.storage.write app.context objVehicle = .ok (context, [success]))
    (hUpdate : gadgetObjToUpdate gadgetObj objVehicle = .ok gadget)
    (hDue : objVehicle.serviceDueDate = some serviceDueDate)
    (hRequest : AppSharedInstance.notificationRequest objVehicle serviceDueDate = .ok request) :
    (AddVehicleVC.clkSave P .editor uuid).run app = (viewWillAppear P app.selectedTab).run { app with
      context := context
      outbox := app.outbox ++ FIRFireStoreService.update gadget
      told := app.told ++ [.vehicleInfoUpdated true]
      pendingRequests := (app.pendingRequests.remove [objVehicle.vehicleID]).add app.now request
      editor := none } := by
  let edited : App := { app with editor := some { form with objVehicle := objVehicle } }
  have hEdited : (DatabaseManager.Write.editRecord objVehicle).perform edited.storage.write edited.context =
      .ok (context, [success]) := hWrite
  have hUnwrap : unwrap form.gadgetToUpdate = .ok gadgetObj := unwrap_eq_ok.mpr hGadget
  rw [AddVehicleVC.clkSave, Program.run_get_bind, App.form_editor, hForm]
  dsimp only
  rw [hRule, Program.run_bind_of_ok Program.run_ofExcept_ok]
  dsimp only
  rw [Program.run_set_bind, if_pos hEdit, hUnwrap, Program.run_bind_of_ok Program.run_ofExcept_ok]
  refine (VehicleManager.perform_forM_run hEdited).trans ?_
  rw [AddVehiclePresenter.updateRecordOnServer, hUpdate]
  -- the view is told, and replaces the notification before it is popped
  rw [AddVehicleVC.vehicleInfoUpdated]
  change (do
    let serviceDueDate ← Program.ofExcept (unwrap objVehicle.serviceDueDate)
    AppSharedInstance.setLocalNotification objVehicle serviceDueDate
    popViewController P : AppM Unit).run _ = _
  rw [hDue, unwrap_some, Program.run_bind_of_ok Program.run_ofExcept_ok, AppSharedInstance.setLocalNotification,
    hRequest]
  rfl

theorem clkBack_of_ok {form : AddVehicleVC} (hForm : app.editor = some form)
    (h : (AddVehicleVC.clkBack P).run app = .ok () app') :
    (viewWillAppear P app.selectedTab).run { app with editor := none } = .ok () app' := by
  rw [AddVehicleVC.clkBack, popViewController, Program.run_get_bind] at h
  rw [hForm] at h
  exact h

theorem pushEditor_of_ok {objVehicle : AllVehiclesI} {gadgetToUpdate : Option Gadget}
    (h : (pushEditor P objVehicle gadgetToUpdate).run app = .ok () app') :
    ∃ form, AddVehicleVC.appear P (AddVehicleVC.editForm app.now objVehicle gadgetToUpdate) = .ok form ∧
      app' = { app with editor := some form } := by
  rw [pushEditor, Program.run_get_bind] at h
  obtain ⟨form, mid, hAppearRun, hSet⟩ := Program.bind_eq_ok.mp h
  obtain ⟨hAppear, rfl⟩ := Program.ofExcept_eq_ok.mp hAppearRun
  exact ⟨form, hAppear, Program.set_eq_ok.mp hSet⟩

/-- A tap on a Due Services row opens the editor with the vehicle and the
gadget of the same row number. -/
theorem AllVehiclesVC.didSelectRowAt_of_ok {row : Nat}
    (h : (AllVehiclesVC.didSelectRowAt P row).run app = .ok () app') :
    ∃ vehicleObj gadgetObj form,
      app.allVehiclesVC.arrAllVehicles[row]? = some vehicleObj ∧
      app.allVehiclesVC.arrGadgets[row]? = some gadgetObj ∧
      AddVehicleVC.appear P (AddVehicleVC.editForm app.now vehicleObj (some gadgetObj)) = .ok form ∧
      app' = { app with editor := some form } := by
  rw [AllVehiclesVC.didSelectRowAt, Program.run_get_bind] at h
  split at h
  · exact absurd h Program.throw_ne_ok
  · next vehicleObj hVehicle =>
      split at h
      · exact absurd h Program.throw_ne_ok
      · next gadgetObj hGadget =>
          obtain ⟨form, hAppear, hEnd⟩ := pushEditor_of_ok h
          exact ⟨vehicleObj, gadgetObj, form, hVehicle, hGadget, hAppear, hEnd⟩

theorem HistoryVC.didSelectRowAt_of_ok {row : Nat}
    (h : (HistoryVC.didSelectRowAt P row).run app = .ok () app') :
    ∃ vehicleObj form,
      app.historyVC.arrAllVehicles[row]? = some vehicleObj ∧
      AddVehicleVC.appear P (AddVehicleVC.editForm app.now vehicleObj none) = .ok form ∧
      app' = { app with editor := some form } := by
  rw [HistoryVC.didSelectRowAt, Program.run_get_bind] at h
  split at h
  · exact absurd h Program.throw_ne_ok
  · next vehicleObj hVehicle =>
      obtain ⟨form, hAppear, hEnd⟩ := pushEditor_of_ok h
      exact ⟨vehicleObj, form, hVehicle, hAppear, hEnd⟩

/-- What no appearing screen touches. -/
structure Refreshed (app app' : App) : Prop where
  context : app'.context = app.context
  storage : app'.storage = app.storage
  now : app'.now = app.now
  pendingRequests : app'.pendingRequests = app.pendingRequests
  outbox : app'.outbox = app.outbox
  selectedTab : app'.selectedTab = app.selectedTab
  editor : app'.editor = app.editor
  arrGadgets : app'.allVehiclesVC.arrGadgets = app.allVehiclesVC.arrGadgets
  isRecordEdit : app'.addVehicleVC.isRecordEdit = app.addVehicleVC.isRecordEdit

theorem viewWillAppear_addVehicle_of_ok (h : (viewWillAppear P .addVehicle).run app = .ok () app') :
    ∃ form, app.addVehicleVC.viewWillAppear P = .ok form ∧ app' = { app with addVehicleVC := form } := by
  rw [viewWillAppear, Program.run_get_bind] at h
  obtain ⟨form, mid, hAppearRun, hSet⟩ := Program.bind_eq_ok.mp h
  obtain ⟨hAppear, rfl⟩ := Program.ofExcept_eq_ok.mp hAppearRun
  exact ⟨form, hAppear, Program.set_eq_ok.mp hSet⟩

theorem AddVehicleVC.viewWillAppear_isRecordEdit {form form' : AddVehicleVC}
    (h : form.viewWillAppear P = .ok form') : form'.isRecordEdit = form.isRecordEdit := by
  unfold AddVehicleVC.viewWillAppear at h
  split at h
  · exact (AddVehicleVC.sameRecord_cellForRowAt h).isRecordEdit
  · cases h
    rfl

theorem viewWillAppear_refreshed {tab : Tab} (h : (viewWillAppear P tab).run app = .ok () app') :
    Refreshed app app' := by
  cases tab with
  | allVehicles =>
      obtain ⟨arrVehicles, _, rfl⟩ := AllVehiclesVC.viewWillAppear_of_ok h
      exact ⟨rfl, rfl, rfl, rfl, rfl, rfl, rfl, rfl, rfl⟩
  | history =>
      obtain ⟨arrVehicles, _, rfl⟩ := HistoryPresenter.getAllVehicles_eq_ok.mp h
      exact ⟨rfl, rfl, rfl, rfl, rfl, rfl, rfl, rfl, rfl⟩
  | addVehicle =>
      obtain ⟨form, hAppear, rfl⟩ := viewWillAppear_addVehicle_of_ok h
      exact ⟨rfl, rfl, rfl, rfl, rfl, rfl, rfl, rfl, AddVehicleVC.viewWillAppear_isRecordEdit hAppear⟩

end Runs

end ServiceBook

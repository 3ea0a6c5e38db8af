import ServiceBook.General.Transition
import ServiceBook.AddEditVehicle.Presenter

/-! The app as a machine: what the user, the clock, Firestore and the
notification center can do to it. An action that is not offered, or that
traps, has no successor. -/
namespace ServiceBook

inductive Action where
  | clock (now : Date)
  | storage (storage : Storage)
  | selectTab (tab : Tab)
  | snapshot (documents : List (String × KeyedCoding.JsonObject))
  | allVehiclesCellForRow (row : Nat)
  | allVehiclesCommitDelete (row : Nat)
  | allVehiclesDidSelectRow (row : Nat)
  | historyCellForRow (row : Nat)
  | historyCommitDelete (row : Nat)
  | historyDidSelectRow (row : Nat)
  | form (e : AddVehicleVC.Event)
  | clkSave (uuid : String)
  | clkBack
  | notification (request : UNNotificationRequest)
  | relaunch

/-- The form that is on the screen. The editor covers the tabs. -/
def App.activeForm (app : App) : Option FormSlot :=
  match app.editor with
  | some _ => some .editor
  | none => if app.selectedTab = .addVehicle then some .addTab else none

/-- A list tab is on the screen. -/
def App.Shows (app : App) (tab : Tab) : Prop := app.selectedTab = tab ∧ app.editor = none

instance (app : App) (tab : Tab) : Decidable (app.Shows tab) := by
  unfold App.Shows
  infer_instance

/-- A table asks only for rows below the count of its last reload. -/
def Action.Offered (app : App) : Action → Prop
  | .clock now => app.now ≤ now
  | .storage _ => True
  | .selectTab tab => app.editor = none ∧ app.selectedTab ≠ tab
  | .snapshot _ => 0 < app.allVehiclesVC.listeners
  | .allVehiclesCellForRow row => row < app.allVehiclesVC.tableAllVehicles.rowCount
  | .allVehiclesCommitDelete row =>
      app.Shows .allVehicles ∧ row < app.allVehiclesVC.tableAllVehicles.rowCount
  | .allVehiclesDidSelectRow row =>
      app.Shows .allVehicles ∧ row < app.allVehiclesVC.tableAllVehicles.rowCount
  | .historyCellForRow row => row < app.historyVC.tableAllVehicles.rowCount
  | .historyCommitDelete row => app.Shows .history ∧ row < app.historyVC.tableAllVehicles.rowCount
  | .historyDidSelectRow row => app.Shows .history ∧ row < app.historyVC.tableAllVehicles.rowCount
  | .form e => app.activeForm.isSome ∧ e.Offered
  | .clkSave _ => app.activeForm.isSome
  | .clkBack => app.editor.isSome
  | .notification _ => True
  | .relaunch => True

instance (app : App) (action : Action) : Decidable (action.Offered app) := by
  cases action <;> unfold Action.Offered <;> infer_instance

section Handlers

variable (P : Platform)

def formEvent (slot : FormSlot) (e : AddVehicleVC.Event) : AppM Unit := do
  let app ← get
  match app.form slot with
  | none => pure ()
  | some form => do
      let form ← Program.ofExcept (AddVehicleVC.handle P form e)
      set (app.setForm form slot)

/-- The app terminates, which saves the context, and is launched again from the
store. What Firestore and the notification center hold survives. -/
def relaunch : AppM Unit := do
  let app ← get
  let context ← Program.ofExcept (saveContext app.storage.write app.context)
  set { App.created context.loadPersistentStores app.pendingRequests app.now with
    storage := app.storage, outbox := app.outbox, told := app.told }
  viewWillAppear P .allVehicles

def handle : Action → AppM Unit
  | .clock now => modify fun app =>
      { app with now := now, pendingRequests := app.pendingRequests.advance now }
  | .storage storage => modify fun app => { app with storage := storage }
  | .selectTab tab => do
      modify fun app => { app with selectedTab := tab }
      viewWillAppear P tab
  | .snapshot documents =>
      modify fun app => { app with allVehiclesVC := app.allVehiclesVC.snapshot documents }
  | .allVehiclesCellForRow row => AllVehiclesVC.cellForRowAt row
  | .allVehiclesCommitDelete row => AllVehiclesVC.commitDelete row
  | .allVehiclesDidSelectRow row => AllVehiclesVC.didSelectRowAt P row
  | .historyCellForRow row => HistoryVC.cellForRowAt row
  | .historyCommitDelete row => HistoryVC.commitDelete row
  | .historyDidSelectRow row => HistoryVC.didSelectRowAt P row
  | .form e => do
      let app ← get
      match app.activeForm with
      | none => pure ()
      | some slot => formEvent P slot e
  | .clkSave uuid => do
      let app ← get
      match app.activeForm with
      | none => pure ()
      | some slot => AddVehicleVC.clkSave P slot uuid
  | .clkBack => AddVehicleVC.clkBack P
  | .notification request =>
      AllVehiclesVC.methodOfReceivedNotification P (some request.content.userInfo)
  | .relaunch => relaunch P

def App.step (app : App) (action : Action) : Option App :=
  if action.Offered app then
    match (handle P action).run app with
    | .ok _ app' => some app'
    | .error _ _ => none
  else none

/-- A fresh installation: an empty store, and the Due Services tab on the screen. -/
def App.installed (now : Date) : App :=
  Program.finalState (AllVehiclesVC.viewWillAppear.run (App.created .empty [] now))

end Handlers

section Step

variable {P : Platform} {app app' : App} {action : Action}

theorem step_eq_some :
    app.step P action = some app' ↔ action.Offered app ∧ (handle P action).run app = .ok () app' := by
  unfold App.step
  split
  · next hOffered =>
      cases hRun : (handle P action).run app with
      | ok u next => simp [hOffered]
      | error t next => simp
  · next hOffered => simp [hOffered]

theorem activeForm_eq_editor : app.activeForm = some .editor ↔ app.editor.isSome := by
  unfold App.activeForm
  cases app.editor with
  | some form => simp
  | none => by_cases h : app.selectedTab = .addVehicle <;> simp [h]

theorem activeForm_eq_addTab :
    app.activeForm = some .addTab ↔ app.Shows .addVehicle := by
  unfold App.activeForm App.Shows
  cases app.editor with
  | some form => simp
  | none => by_cases h : app.selectedTab = .addVehicle <;> simp [h]

/-- A completed event changes the form on the screen only. -/
theorem formEvent_of_ok {slot : FormSlot} {e : AddVehicleVC.Event}
    (h : (formEvent P slot e).run app = .ok () app') :
    (app.form slot = none ∧ app' = app) ∨
      ∃ form form', app.form slot = some form ∧ AddVehicleVC.handle P form e = .ok form' ∧
        app' = app.setForm form' slot := by
  rw [formEvent, Program.run_get_bind] at h
  cases hForm : app.form slot with
  | none =>
      rw [hForm] at h
      exact Or.inl ⟨rfl, (Program.pure_eq_ok.mp h).2⟩
  | some form =>
      rw [hForm] at h
      obtain ⟨form', mid, hHandleRun, hSet⟩ := Program.bind_eq_ok.mp h
      obtain ⟨hHandle, rfl⟩ := Program.ofExcept_eq_ok.mp hHandleRun
      exact Or.inr ⟨form, form', rfl, hHandle, Program.set_eq_ok.mp hSet⟩

/-- An event goes to the form on the screen. -/
theorem form_step {e : AddVehicleVC.Event} (h : app.step P (.form e) = some app') :
    ∃ slot form form', app.activeForm = some slot ∧ app.form slot = some form ∧ e.Offered ∧
      AddVehicleVC.handle P form e = .ok form' ∧ app' = app.setForm form' slot := by
  obtain ⟨⟨hActive, hOffered⟩, hRun⟩ := step_eq_some.mp h
  obtain ⟨slot, hSlot⟩ := Option.isSome_iff_exists.mp hActive
  rw [handle, Program.run_get_bind, hSlot] at hRun
  rcases formEvent_of_ok hRun with ⟨hNone, -⟩ | ⟨form, form', hForm, hHandle, rfl⟩
  · cases slot with
    | addTab => cases hNone
    | editor =>
        have hEditor := activeForm_eq_editor.mp hSlot
        rw [show app.editor = none from hNone] at hEditor
        cases hEditor
  · exact ⟨slot, form, form', hSlot, hForm, hOffered, hHandle, rfl⟩

/-- A relaunch saves the context and starts from empty screens. -/
theorem relaunch_of_ok (h : (relaunch P).run app = .ok () app') :
    ∃ context, saveContext app.storage.write app.context = .ok context ∧
      (viewWillAppear P .allVehicles).run
        { App.created context.loadPersistentStores app.pendingRequests app.now with
          storage := app.storage, outbox := app.outbox, told := app.told } = .ok () app' := by
  rw [relaunch, Program.run_get_bind] at h
  obtain ⟨context, mid, hSaveRun, h⟩ := Program.bind_eq_ok.mp h
  obtain ⟨hSave, rfl⟩ := Program.ofExcept_eq_ok.mp hSaveRun
  exact ⟨context, hSave, h⟩

/-- The form of the Add tab adds, and an editor edits. -/
structure FormsPlaced (app : App) : Prop where
  addTab : app.addVehicleVC.isRecordEdit = false
  editor : ∀ form, app.editor = some form → form.isRecordEdit = true

/-- Everything a completed action can have done. -/
inductive Stepped (P : Platform) (app : App) : Action → App → Prop where
  | clock (now : Date) (hLater : app.now ≤ now) :
      Stepped P app (.clock now)
        { app with now := now, pendingRequests := app.pendingRequests.advance now }
  | storage (storage : Storage) : Stepped P app (.storage storage) { app with storage := storage }
  | selectTab (tab : Tab) (app' : App) (hEditor : app.editor = none)
      (hAppear : (viewWillAppear P tab).run { app with selectedTab := tab } = .ok () app') :
      Stepped P app (.selectTab tab) app'
  | snapshot (documents : List (String × KeyedCoding.JsonObject)) :
      Stepped P app (.snapshot documents)
        { app with allVehiclesVC := app.allVehiclesVC.snapshot documents }
  | noCell (row : Nat) (hEmpty : app.allVehiclesVC.arrGadgets = []) :
      Stepped P app (.allVehiclesCellForRow row) app
  | allVehiclesCell (row : Nat) (gadgetObj : Gadget)
      (hGadget : app.allVehiclesVC.arrGadgets[row]? = some gadgetObj) :
      Stepped P app (.allVehiclesCellForRow row)
        { app with allVehiclesVC := { app.allVehiclesVC with
            tableAllVehicles := app.allVehiclesVC.tableAllVehicles.show row gadgetObj } }
  | allVehiclesDelete (row : Nat) (objVehicle : AllVehiclesI) (gadgetObj : Gadget)
      (context : ManagedObjectContext) (success : Bool) (arrVehicles : List AllVehiclesI)
      (hShows : app.Shows .allVehicles)
      (hVehicle : app.allVehiclesVC.arrAllVehicles[row]? = some objVehicle)
      (hGadget : app.allVehiclesVC.arrGadgets[row]? = some gadgetObj)
      (hDelete : DatabaseManager.deleteRecord app.storage.write app.context objVehicle.vehicleID =
        .ok (context, [success]))
      (hList : DatabaseManager.getAllRecords app.storage.list context
        (some (DatabaseManager.onServiceDueDate (upcoming app.now))) = .ok arrVehicles) :
      Stepped P app (.allVehiclesCommitDelete row) { app with
        context := context
        outbox := app.outbox ++ FIRFireStoreService.delete gadgetObj
        pendingRequests := app.pendingRequests.remove [objVehicle.vehicleID]
        allVehiclesVC :=
          AllVehiclesVC.allVehiclesReceives { app.allVehiclesVC with objVehicle := objVehicle } arrVehicles }
  | allVehiclesSelect (row : Nat) (vehicleObj : AllVehiclesI) (gadgetObj : Gadget) (form : AddVehicleVC)
      (hShows : app.Shows .allVehicles)
      (hVehicle : app.allVehiclesVC.arrAllVehicles[row]? = some vehicleObj)
      (hGadget : app.allVehiclesVC.arrGadgets[row]? = some gadgetObj)
      (hAppear : AddVehicleVC.appear P (AddVehicleVC.editForm app.now vehicleObj (some gadgetObj)) =
        .ok form) :
      Stepped P app (.allVehiclesDidSelectRow row) { app with editor := some form }
  | historyCell (row : Nat) (vehicleObj : AllVehiclesI)
      (hVehicle : app.historyVC.arrAllVehicles[row]? = some vehicleObj) :
      Stepped P app (.historyCellForRow row)
        { app with historyVC := { app.historyVC with
            tableAllVehicles := app.historyVC.tableAllVehicles.show row vehicleObj } }
  | historyDelete (row : Nat) (objVehicle : AllVehiclesI)
      (context : ManagedObjectContext) (success : Bool) (arrVehicles : List AllVehiclesI)
      (hShows : app.Shows .history)
      (hVehicle : app.historyVC.arrAllVehicles[row]? = some objVehicle)
      (hDelete : DatabaseManager.deleteRecord app.storage.write app.context objVehicle.vehicleID =
        .ok (context, [success]))
      (hList : DatabaseManager.getAllRecords app.storage.list context
        (some (DatabaseManager.onServiceDueDate (pastDue app.now))) = .ok arrVehicles) :
      Stepped P app (.historyCommitDelete row) { app with
        context := context
        historyVC :=
          HistoryVC.allVehiclesReceives { app.historyVC with objVehicle := objVehicle } arrVehicles }
  | historySelect (row : Nat) (vehicleObj : AllVehiclesI) (form : AddVehicleVC)
      (hShows : app.Shows .history)
      (hVehicle : app.historyVC.arrAllVehicles[row]? = some vehicleObj)
      (hAppear : AddVehicleVC.appear P (AddVehicleVC.editForm app.now vehicleObj none) = .ok form) :
      Stepped P app (.historyDidSelectRow row) { app with editor := some form }
  | form (slot : FormSlot) (e : AddVehicleVC.Event) (form form' : AddVehicleVC)
      (hForm : app.form slot = some form) (hHandle : AddVehicleVC.handle P form e = .ok form') :
      Stepped P app (.form e) (app.setForm form' slot)
  | saveAdd (uuid : String) (objVehicle : AllVehiclesI) (text : String)
      (context : ManagedObjectContext) (success : Bool) (gadget : Gadget) (serviceDueDate : Date)
      (request : UNNotificationRequest) (form : AddVehicleVC)
      (hShows : app.Shows .addVehicle)
      (hRule : AppSharedInstance.getServiceDueDate P (app.addVehicleVC.populate P uuid) =
        .ok (objVehicle, text))
      (hAdd : DatabaseManager.addRecord app.storage.write app.context objVehicle = .ok (context, [success]))
      (hGadget : gadgetInfo objVehicle = .ok gadget)
      (hDue : objVehicle.serviceDueDate = some serviceDueDate)
      (hRequest : AppSharedInstance.notificationRequest objVehicle serviceDueDate = .ok request)
      (hReload : AddVehicleVC.reloadData P
        { app.addVehicleVC with objVehicle := objVehicle.resetData, dtLastService := none } = .ok form) :
      Stepped P app (.clkSave uuid) { app with
        context := context
        outbox := app.outbox ++ FIRFireStoreService.create gadget
        told := app.told ++ [.newVehicleAdded true]
        pendingRequests := app.pendingRequests.add app.now request
        addVehicleVC := form }
  | saveEdit (uuid : String) (form : AddVehicleVC) (objVehicle : AllVehiclesI) (text : String)
      (gadgetObj : Gadget) (context : ManagedObjectContext) (success : Bool) (gadget : Gadget)
      (serviceDueDate : Date) (request : UNNotificationRequest) (app' : App)
      (hForm : app.editor = some form)
      (hRule : AppSharedInstance.getServiceDueDate P (form.populate P uuid) = .ok (objVehicle, text))
      (hGadget : form.gadgetToUpdate = some gadgetObj)
      (hEdit : DatabaseManager.editRecord app.storage.write app.context objVehicle = .ok (context, [success]))
      (hUpdate : gadgetObjToUpdate gadgetObj objVehicle = .ok gadget)
      (hDue : objVehicle.serviceDueDate = some serviceDueDate)
      (hRequest : AppSharedInstance.notificationRequest objVehicle serviceDueDate = .ok request)
      (hAppear : (viewWillAppear P app.selectedTab).run { app with
        context := context
        outbox := app.outbox ++ FIRFireStoreService.update gadget
        told := app.told ++ [.vehicleInfoUpdated true]
        pendingRequests :=
          (app.pendingRequests.remove [objVehicle.vehicleID]).add app.now request
        editor := none } = .ok () app') :
      Stepped P app (.clkSave uuid) app'
  | back (form : AddVehicleVC) (app' : App) (hForm : app.editor = some form)
      (hAppear : (viewWillAppear P app.selectedTab).run { app with editor := none } = .ok () app') :
      Stepped P app .clkBack app'
  | relaunch (context : ManagedObjectContext) (app' : App)
      (hSave : saveContext app.storage.write app.context = .ok context)
      (hAppear : (viewWillAppear P .allVehicles).run
        { App.created context.loadPersistentStores app.pendingRequests app.now with
          storage := app.storage, outbox := app.outbox, told := app.told } = .ok () app') :
      Stepped P app .relaunch app'

/-- The steps of the machine, taken apart once. There is no case for a
notification: handling one never completes. -/
theorem step_stepped (hPlaced : FormsPlaced app) (h : app.step P action = some app') :
    Stepped P app action app' := by
  obtain ⟨hOffered, hRun⟩ := step_eq_some.mp h
  cases action with
  | clock now =>
      rw [Program.modify_eq_ok.mp hRun]
      exact .clock now hOffered
  | storage storage =>
      rw [Program.modify_eq_ok.mp hRun]
      exact .storage storage
  | selectTab tab => exact .selectTab tab app' hOffered.1 hRun
  | snapshot documents =>
      rw [Program.modify_eq_ok.mp hRun]
      exact .snapshot documents
  | allVehiclesCellForRow row =>
      rcases AllVehiclesVC.cellForRowAt_of_ok hRun with ⟨hEmpty, rfl⟩ | ⟨gadgetObj, hGadget, rfl⟩
      · exact .noCell row hEmpty
      · exact .allVehiclesCell row gadgetObj hGadget
  | allVehiclesCommitDelete row =>
      obtain ⟨objVehicle, gadgetObj, context, success, arrVehicles, hVehicle, hGadget, hDelete, hList,
        rfl⟩ := AllVehiclesVC.commitDelete_of_ok hRun
      exact .allVehiclesDelete row objVehicle gadgetObj context success arrVehicles hOffered.1 hVehicle
        hGadget hDelete hList
  | allVehiclesDidSelectRow row =>
      obtain ⟨vehicleObj, gadgetObj, form, hVehicle, hGadget, hAppear, rfl⟩ :=
        AllVehiclesVC.didSelectRowAt_of_ok hRun
      exact .allVehiclesSelect row vehicleObj gadgetObj form hOffered.1 hVehicle hGadget hAppear
  | historyCellForRow row =>
      obtain ⟨vehicleObj, hVehicle, rfl⟩ := HistoryVC.cellForRowAt_of_ok hRun
      exact .historyCell row vehicleObj hVehicle
  | historyCommitDelete row =>
      obtain ⟨objVehicle, context, success, arrVehicles, hVehicle, hDelete, hList, rfl⟩ :=
        HistoryVC.commitDelete_of_ok hRun
      exact .historyDelete row objVehicle context success arrVehicles hOffered.1 hVehicle hDelete hList
  | historyDidSelectRow row =>
      obtain ⟨vehicleObj, form, hVehicle, hAppear, rfl⟩ := HistoryVC.didSelectRowAt_of_ok hRun
      exact .historySelect row vehicleObj form hOffered.1 hVehicle hAppear
  | form e =>
      obtain ⟨slot, form, form', _, hForm, _, hHandle, rfl⟩ := form_step h
      exact .form slot e form form' hForm hHandle
  | clkSave uuid =>
      obtain ⟨slot, hSlot⟩ := Option.isSome_iff_exists.mp hOffered
      rw [handle, Program.run_get_bind, hSlot] at hRun
      cases slot with
      | addTab =>
          obtain ⟨objVehicle, text, context, success, gadget, serviceDueDate, request, form, hRule, hAdd,
            hGadget, hDue, hRequest, hReload, rfl⟩ := clkSave_addTab_of_ok hPlaced.addTab hRun
          exact .saveAdd uuid objVehicle text context success gadget serviceDueDate request form
            (activeForm_eq_addTab.mp hSlot) hRule hAdd hGadget hDue hRequest hReload
      | editor =>
          obtain ⟨form, hForm⟩ := Option.isSome_iff_exists.mp (activeForm_eq_editor.mp hSlot)
          obtain ⟨objVehicle, text, gadgetObj, context, success, gadget, serviceDueDate, request, hRule,
            hGadget, hEdit, hUpdate, hDue, hRequest, hAppear⟩ :=
            clkSave_editor_of_ok hForm (hPlaced.editor form hForm) hRun
          exact .saveEdit uuid form objVehicle text gadgetObj context success gadget serviceDueDate
            request app' hForm hRule hGadget hEdit hUpdate hDue hRequest hAppear
  | clkBack =>
      obtain ⟨form, hForm⟩ := Option.isSome_iff_exists.mp hOffered
      exact .back form app' hForm (clkBack_of_ok hForm hRun)
  | notification request =>
      rw [handle, AllVehiclesVC.methodOfReceivedNotification_run] at hRun
      cases hRun
  | relaunch =>
      obtain ⟨context, hSave, hAppear⟩ := relaunch_of_ok hRun
      exact .relaunch context app' hSave hAppear

/-- A tab that comes up without an editor leaves the forms in their places. -/
theorem formsPlaced_of_appear {tab : Tab} (hAppear : (viewWillAppear P tab).run app = .ok () app')
    (hTab : app.addVehicleVC.isRecordEdit = false) (hNone : app.editor = none) : FormsPlaced app' := by
  have hSame := viewWillAppear_refreshed hAppear
  refine ⟨hSame.isRecordEdit.trans hTab, fun form hForm => ?_⟩
  rw [hSame.editor, hNone] at hForm
  cases hForm

/-- The forms stay where they belong. -/
theorem FormsPlaced.step (hPlaced : FormsPlaced app) (h : app.step P action = some app') :
    FormsPlaced app' := by
  obtain ⟨hTab, hEditor⟩ := hPlaced
  cases step_stepped ⟨hTab, hEditor⟩ h with
  | selectTab tab _ hNone hAppear => exact formsPlaced_of_appear hAppear hTab hNone
  | allVehiclesSelect row vehicleObj gadgetObj form _ _ _ hAppear =>
      refine ⟨hTab, fun form' hForm => ?_⟩
      obtain rfl := Option.some.inj hForm
      exact (AddVehicleVC.sameRecord_appear hAppear rfl).isRecordEdit
  | historySelect row vehicleObj form _ _ hAppear =>
      refine ⟨hTab, fun form' hForm => ?_⟩
      obtain rfl := Option.some.inj hForm
      exact (AddVehicleVC.sameRecord_appear hAppear rfl).isRecordEdit
  | form slot e form form' hForm hHandle =>
      have hSame := (AddVehicleVC.handle_sameRecord hHandle).isRecordEdit
      cases slot with
      | addTab =>
          obtain rfl := Option.some.inj hForm
          exact ⟨hSame.trans hTab, hEditor⟩
      | editor =>
          refine ⟨hTab, fun other hOther => ?_⟩
          obtain rfl := Option.some.inj hOther
          exact hSame.trans (hEditor form hForm)
  | saveAdd uuid objVehicle text context success gadget due request form _ _ _ _ _ _ hReload =>
      exact ⟨(AddVehicleVC.sameRecord_cellForRowAt hReload).isRecordEdit.trans hTab, hEditor⟩
  | saveEdit uuid form objVehicle text gadgetObj context success gadget due request _ _ _ _ _ _ _ _ hAppear =>
      exact formsPlaced_of_appear hAppear hTab rfl
  | back form _ _ hAppear => exact formsPlaced_of_appear hAppear hTab rfl
  | relaunch context _ _ hAppear => exact formsPlaced_of_appear hAppear rfl rfl
  | _ => exact ⟨hTab, hEditor⟩

end Step

/-- The actions that add a vehicle: the Add tab is opened, filled in and saved. -/
def addingActions (distance run : String) (date : Date) (uuid : String) : List Action :=
  [.selectTab .addVehicle, .form (.becomeFirstResponder .serviceRequired), .form (.type distance),
    .form (.becomeFirstResponder .weeklyRun), .form (.type run), .form .endEditing,
    .form (.selectDate date), .form .clkDone, .clkSave uuid]

/-- The same before Save is pressed. -/
def fillingActions (distance run : String) (date : Date) : List Action :=
  [.selectTab .addVehicle, .form (.becomeFirstResponder .serviceRequired), .form (.type distance),
    .form (.becomeFirstResponder .weeklyRun), .form (.type run), .form .endEditing,
    .form (.selectDate date), .form .clkDone]

/-- A condition on the steps of an addition, for the filling and for the Save. -/
theorem throughout_adding {P : Platform} {C : App → Action → Prop} {app : App} {distance run uuid : String}
    {date : Date} (hFilling : ∀ action ∈ fillingActions distance run date, ∀ app, C app action)
    (hSave : ∀ filled, Transition.run (App.step P) app (fillingActions distance run date) = some filled →
      C filled (.clkSave uuid)) :
    Transition.Throughout (App.step P) C app (addingActions distance run date uuid) := by
  change Transition.Throughout _ _ _ (fillingActions distance run date ++ [.clkSave uuid])
  rw [Transition.throughout_append]
  exact ⟨Transition.throughout_of_forall hFilling, fun filled hRun _ _ => ⟨hSave filled hRun, trivial⟩⟩

/-- A fresh installation shows an empty Due Services list. -/
theorem installed_eq (now : Date) :
    App.installed now =
      { App.created .empty [] now with allVehiclesVC := { listeners := 1 } } := by
  rfl

theorem formsPlaced_installed (now : Date) : FormsPlaced (App.installed now) := by
  rw [installed_eq]
  exact ⟨rfl, fun form hForm => by cases hForm⟩

/-- The actions that lead to a form and fill it in. -/
def Action.Fills : Action → Prop
  | .selectTab _ => True
  | .form _ => True
  | _ => False

section Fills

variable {P : Platform} {app filled : App} {action : Action} {actions : List Action}

theorem context_of_fills (hPlaced : FormsPlaced app) (hFills : action.Fills)
    (hStep : app.step P action = some filled) : filled.context = app.context := by
  cases step_stepped hPlaced hStep with
  | selectTab tab _ _ hAppear => exact (viewWillAppear_refreshed hAppear).context
  | form slot e form form' _ _ => exact App.setForm_context app form' slot
  | _ => exact hFills.elim

/-- Filling a form in leaves the store alone. -/
theorem context_of_filling (hPlaced : FormsPlaced app) (hFills : ∀ action ∈ actions, action.Fills)
    (hRun : Transition.run (App.step P) app actions = some filled) : filled.context = app.context := by
  induction actions generalizing app with
  | nil =>
      obtain rfl := Option.some.inj hRun
      rfl
  | cons action rest ih =>
      obtain ⟨app', hStep, hRest⟩ := Transition.run_cons_eq_some.mp hRun
      rw [ih (hPlaced.step hStep) (fun action hAction => hFills action (List.mem_cons_of_mem _ hAction)) hRest,
        context_of_fills hPlaced (hFills action (List.mem_cons_self ..)) hStep]

/-- So the store is still empty when the first vehicle is saved. -/
theorem filled_context {now date : Date} {distance run : String}
    (hRun : Transition.run (App.step P) (App.installed now) (fillingActions distance run date) = some filled) :
    filled.context = .empty := by
  rw [context_of_filling (formsPlaced_installed now) (by simp [fillingActions, Action.Fills]) hRun, installed_eq]
  rfl

end Fills

end ServiceBook

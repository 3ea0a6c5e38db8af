import ServiceBook.AllVehicles.AllVehiclesCell
import ServiceBook.App.Services

/-! The Due Services screen: `AllVehiclesPresenter` and `AllVehiclesVC`. The
rows are counted and displayed from the gadgets of the last snapshot, while a
tap or a deletion also indexes the locally fetched vehicles. -/
namespace ServiceBook

/-- `serviceDueDate >= Date()` -/
def upcoming (now : Date) : Option Date → Bool
  | some serviceDueDate => decide (now ≤ serviceDueDate)
  | none => false

namespace AllVehiclesVC

def numberOfRows (vc : AllVehiclesVC) : Nat := vc.arrGadgets.length

def reloadData (vc : AllVehiclesVC) : AllVehiclesVC :=
  { vc with tableAllVehicles := vc.tableAllVehicles.reloadData vc.numberOfRows }

def allVehiclesReceives (vc : AllVehiclesVC) (arrVehicles : List AllVehiclesI) : AllVehiclesVC :=
  reloadData { vc with arrAllVehicles := arrVehicles }

/-- The completion handler of the snapshot listener. -/
def snapshot (vc : AllVehiclesVC) (documents : List (String × KeyedCoding.JsonObject)) : AllVehiclesVC :=
  match FIRFireStoreService.read documents with
  | some gadgets => { vc with arrGadgets := gadgets }
  | none => vc

@[simp]
theorem snapshot_arrAllVehicles (vc : AllVehiclesVC) (documents : List (String × KeyedCoding.JsonObject)) :
    (vc.snapshot documents).arrAllVehicles = vc.arrAllVehicles := by
  unfold snapshot
  split <;> rfl

end AllVehiclesVC

namespace AllVehiclesPresenter

def getAllVehicles : AppM Unit := do
  let app ← get
  let arrVehicles ← VehicleManager.getAllVehicles
    (some (DatabaseManager.onServiceDueDate (upcoming app.now)))
  modify fun app =>
    { app with allVehiclesVC := app.allVehiclesVC.allVehiclesReceives arrVehicles }

def deleteRecordOnServer (gadgetObj : Gadget) : AppM Unit :=
  FIRFireStoreService.send (FIRFireStoreService.delete gadgetObj)

end AllVehiclesPresenter

namespace AllVehiclesVC

def vehicleDeleted : AppM Unit := do
  let app ← get
  AppSharedInstance.removeNotification [app.allVehiclesVC.objVehicle.vehicleID]
  AllVehiclesPresenter.getAllVehicles

end AllVehiclesVC

namespace AllVehiclesPresenter

/-- The completion handler ignores whether the deletion succeeded. -/
def deleteVehicle (vehicleID : String) (gadgetObj : Gadget) : AppM Unit := do
  let calls ← VehicleManager.deleteVehicle vehicleID
  calls.forM fun _success => do
    deleteRecordOnServer gadgetObj
    AllVehiclesVC.vehicleDeleted

def addNewVehicle (objVehicle : AllVehiclesI) : AppM Unit := do
  let calls ← VehicleManager.addNewVehicle objVehicle
  calls.forM fun _success => do
    addNewRecordOnFirebase objVehicle
    getAllVehicles

end AllVehiclesPresenter

namespace AllVehiclesVC

/-- Register one more snapshot listener. -/
def getAllRecords : AppM Unit :=
  modify fun app =>
    { app with allVehiclesVC :=
        { app.allVehiclesVC with listeners := app.allVehiclesVC.listeners + 1 } }

def viewWillAppear : AppM Unit := do
  AllVehiclesPresenter.getAllVehicles
  getAllRecords

/-- `commit editingStyle` for a deletion. -/
def commitDelete (row : Nat) : AppM Unit := do
  let app ← get
  match app.allVehiclesVC.arrAllVehicles[row]? with
  | none => throw .indexOutOfRange
  | some objVehicle => do
      set { app with allVehiclesVC := { app.allVehiclesVC with objVehicle := objVehicle } }
      match app.allVehiclesVC.arrGadgets[row]? with
      | none => throw .indexOutOfRange
      | some gadgetObj => AllVehiclesPresenter.deleteVehicle objVehicle.vehicleID gadgetObj

def cellForRowAt (row : Nat) : AppM Unit := do
  let app ← get
  let vc := app.allVehiclesVC
  if vc.arrGadgets.length > 0 then
    match vc.arrGadgets[row]? with
    | none => throw .indexOutOfRange
    | some gadgetObj => do
        Program.ofExcept (AllVehiclesCell.setData gadgetObj)
        set { app with allVehiclesVC := { vc with tableAllVehicles := vc.tableAllVehicles.show row gadgetObj } }

/-- A posted notification. The due-date rule is applied to the new vehicle
before any of its fields is set. -/
def methodOfReceivedNotification (P : Platform) (userInfo : Option UserInfo) : AppM Unit :=
  match userInfo with
  | none => pure ()
  | some dict => do
      let allVehicleObj : AllVehiclesI := {}
      let (allVehicleObj, strDate) ← Program.ofExcept (AppSharedInstance.getServiceDueDate P allVehicleObj)
      let newDueDatetObj ← AppSharedInstance.getFormattedDate P strDate
      let app ← get
      AllVehiclesPresenter.addNewVehicle { allVehicleObj with
        vehicleType := some ((dict.string "type").getD "")
        vehicleName := some ((dict.string "name").getD "")
        vehicleNo := some ((dict.string "no").getD "")
        serviceRequiredAfter := dict.int "serviceReqAfter"
        averageRun := some ((dict.int "averageRun").getD 0)
        notes := some ((dict.string "notes").getD "")
        lastServiceDate := some ((dict.date "serviceDueDate").getD app.now)
        serviceDueDate := some newDueDatetObj }

end AllVehiclesVC

/-! What each program does when it completes. -/

section Runs

variable {app app' : App}

/-- A refetch replaces the listed vehicles and reloads the table; nothing else changes. -/
theorem AllVehiclesPresenter.getAllVehicles_eq_ok :
    AllVehiclesPresenter.getAllVehicles.run app = .ok () app' ↔
      ∃ arrVehicles, DatabaseManager.getAllRecords app.storage.list app.context
          (some (DatabaseManager.onServiceDueDate (upcoming app.now))) = .ok arrVehicles ∧
        app' = { app with allVehiclesVC := app.allVehiclesVC.allVehiclesReceives arrVehicles } :=
  VehicleManager.refetch_eq_ok (fun now => DatabaseManager.onServiceDueDate (upcoming now))
    fun arrVehicles app => { app with allVehiclesVC := app.allVehiclesVC.allVehiclesReceives arrVehicles }

theorem AllVehiclesVC.viewWillAppear_of_ok (h : AllVehiclesVC.viewWillAppear.run app = .ok () app') :
    ∃ arrVehicles, DatabaseManager.getAllRecords app.storage.list app.context
        (some (DatabaseManager.onServiceDueDate (upcoming app.now))) = .ok arrVehicles ∧
      app' = { app with allVehiclesVC :=
        { app.allVehiclesVC.allVehiclesReceives arrVehicles with
          listeners := app.allVehiclesVC.listeners + 1 } } := by
  obtain ⟨_, mid, hFetch, hListen⟩ := Program.bind_eq_ok.mp h
  obtain ⟨arrVehicles, hOk, rfl⟩ := AllVehiclesPresenter.getAllVehicles_eq_ok.mp hFetch
  exact ⟨arrVehicles, hOk, Program.modify_eq_ok.mp hListen⟩

/-- A completed deletion of a row has written to the store, sent its request,
removed the notification of the row's vehicle and refetched the list. -/
theorem AllVehiclesVC.commitDelete_of_ok {row : Nat}
    (h : (AllVehiclesVC.commitDelete row).run app = .ok () app') :
    ∃ objVehicle gadgetObj context success arrVehicles,
      app.allVehiclesVC.arrAllVehicles[row]? = some objVehicle ∧
      app.allVehiclesVC.arrGadgets[row]? = some gadgetObj ∧
      DatabaseManager.deleteRecord app.storage.write app.context objVehicle.vehicleID =
        .ok (context, [success]) ∧
      DatabaseManager.getAllRecords app.storage.list context
        (some (DatabaseManager.onServiceDueDate (upcoming app.now))) = .ok arrVehicles ∧
      app' = { app with
        context := context
        outbox := app.outbox ++ FIRFireStoreService.delete gadgetObj
        pendingRequests := app.pendingRequests.remove [objVehicle.vehicleID]
        allVehiclesVC :=
          AllVehiclesVC.allVehiclesReceives { app.allVehiclesVC with objVehicle := objVehicle } arrVehicles } := by
  rw [AllVehiclesVC.commitDelete, Program.run_get_bind] at h
  split at h
  · exact absurd h Program.throw_ne_ok
  · next objVehicle hVehicle =>
      rw [Program.run_set_bind] at h
      split at h
      · exact absurd h Program.throw_ne_ok
      · next gadgetObj hGadget =>
          obtain ⟨context, success, hDelete, hRest⟩ := VehicleManager.perform_forM_of_ok h
          -- the request is sent and the notification removed before the refetch
          obtain ⟨arrVehicles, hList, hEnd⟩ := AllVehiclesPresenter.getAllVehicles_eq_ok.mp hRest
          exact ⟨objVehicle, gadgetObj, context, success, arrVehicles, hVehicle, hGadget, hDelete, hList, hEnd⟩

/-- A cell is loaded from the current gadgets, if there are any. -/
theorem AllVehiclesVC.cellForRowAt_of_ok {row : Nat}
    (h : (AllVehiclesVC.cellForRowAt row).run app = .ok () app') :
    (app.allVehiclesVC.arrGadgets = [] ∧ app' = app) ∨
      ∃ gadgetObj, app.allVehiclesVC.arrGadgets[row]? = some gadgetObj ∧
        app' = { app with allVehiclesVC := { app.allVehiclesVC with
          tableAllVehicles := app.allVehiclesVC.tableAllVehicles.show row gadgetObj } } := by
  rw [AllVehiclesVC.cellForRowAt, Program.run_get_bind] at h
  dsimp only at h
  split at h
  · split at h
    · exact absurd h Program.throw_ne_ok
    · next gadgetObj hGadget =>
        obtain ⟨_, mid, hData, hSet⟩ := Program.bind_eq_ok.mp h
        obtain ⟨_, rfl⟩ := Program.ofExcept_eq_ok.mp hData
        exact Or.inr ⟨gadgetObj, hGadget, Program.set_eq_ok.mp hSet⟩
  · next hEmpty =>
      exact Or.inl ⟨List.eq_nil_of_length_eq_zero (by omega), (Program.pure_eq_ok.mp h).2⟩

/-- Handling a notification always traps: the new vehicle has no weekly run
when the due-date rule is applied to it. -/
theorem AllVehiclesVC.methodOfReceivedNotification_run (P : Platform) (dict : UserInfo) :
    (AllVehiclesVC.methodOfReceivedNotification P (some dict)).run app =
      .error .unexpectedlyFoundNil app := by
  rw [AllVehiclesVC.methodOfReceivedNotification,
    AppSharedInstance.getServiceDueDate_of_averageRun_none P rfl]
  rfl

end Runs

end ServiceBook

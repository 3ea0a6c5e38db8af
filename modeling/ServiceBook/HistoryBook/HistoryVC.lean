import ServiceBook.AllVehicles.AllVehiclesCell
import ServiceBook.App.Services

/-! The History screen: `HistoryPresenter` and `HistoryVC`. Its rows are the
locally fetched vehicles, and its deletions stay local. -/
namespace ServiceBook

/-- `serviceDueDate < Date()` -/
def pastDue (now : Date) : Option Date → Bool
  | some serviceDueDate => decide (serviceDueDate < now)
  | none => false

theorem pastDue_mono {t₁ t₂ : Date} {due : Option Date} (hLater : t₁ ≤ t₂) (h : pastDue t₁ due = true) :
    pastDue t₂ due = true := by
  cases due with
  | none => exact h
  | some serviceDueDate => simpa [pastDue] using (of_decide_eq_true h).trans_le hLater

namespace HistoryVC

def numberOfRows (vc : HistoryVC) : Nat := vc.arrAllVehicles.length

def reloadData (vc : HistoryVC) : HistoryVC :=
  { vc with tableAllVehicles := vc.tableAllVehicles.reloadData vc.numberOfRows }

def allVehiclesReceives (vc : HistoryVC) (arrVehicles : List AllVehiclesI) : HistoryVC :=
  reloadData { vc with arrAllVehicles := arrVehicles }

end HistoryVC

namespace HistoryPresenter

def getAllVehicles : AppM Unit := do
  let app ← get
  let arrVehicles ← VehicleManager.getAllVehicles
    (some (DatabaseManager.onServiceDueDate (pastDue app.now)))
  modify fun app => { app with historyVC := app.historyVC.allVehiclesReceives arrVehicles }

end HistoryPresenter

namespace HistoryVC

def vehicleDeleted : AppM Unit := HistoryPresenter.getAllVehicles

end HistoryVC

namespace HistoryPresenter

def deleteVehicle (vehicleID : String) : AppM Unit := do
  let calls ← VehicleManager.deleteVehicle vehicleID
  calls.forM fun _success => HistoryVC.vehicleDeleted

end HistoryPresenter

namespace HistoryVC

def viewWillAppear : AppM Unit := HistoryPresenter.getAllVehicles

/-- `commit editingStyle` for a deletion. -/
def commitDelete (row : Nat) : AppM Unit := do
  let app ← get
  match app.historyVC.arrAllVehicles[row]? with
  | none => throw .indexOutOfRange
  | some objVehicle => do
      set { app with historyVC := { app.historyVC with objVehicle := objVehicle } }
      HistoryPresenter.deleteVehicle objVehicle.vehicleID

def cellForRowAt (row : Nat) : AppM Unit := do
  let app ← get
  let vc := app.historyVC
  match vc.arrAllVehicles[row]? with
  | none => throw .indexOutOfRange
  | some vehicleObj => do
      Program.ofExcept (AllVehiclesCell.setVehicle vehicleObj)
      set { app with historyVC := { vc with tableAllVehicles := vc.tableAllVehicles.show row vehicleObj } }

end HistoryVC

section Runs

variable {app app' : App}

theorem HistoryPresenter.getAllVehicles_eq_ok :
    HistoryPresenter.getAllVehicles.run app = .ok () app' ↔
      ∃ arrVehicles, DatabaseManager.getAllRecords app.storage.list app.context
          (some (DatabaseManager.onServiceDueDate (pastDue app.now))) = .ok arrVehicles ∧
        app' = { app with historyVC := app.historyVC.allVehiclesReceives arrVehicles } :=
  VehicleManager.refetch_eq_ok (fun now => DatabaseManager.onServiceDueDate (pastDue now))
    fun arrVehicles app => { app with historyVC := app.historyVC.allVehiclesReceives arrVehicles }

/-- A completed deletion has written to the store and refetched the list. It
sends no request and removes no notification. -/
theorem HistoryVC.commitDelete_of_ok {row : Nat}
    (h : (HistoryVC.commitDelete row).run app = .ok () app') :
    ∃ objVehicle context success arrVehicles,
      app.historyVC.arrAllVehicles[row]? = some objVehicle ∧
      DatabaseManager.deleteRecord app.storage.write app.context objVehicle.vehicleID =
        .ok (context, [success]) ∧
      DatabaseManager.getAllRecords app.storage.list context
        (some (DatabaseManager.onServiceDueDate (pastDue app.now))) = .ok arrVehicles ∧
      app' = { app with
        context := context
        historyVC :=
          HistoryVC.allVehiclesReceives { app.historyVC with objVehicle := objVehicle } arrVehicles } := by
  rw [HistoryVC.commitDelete, Program.run_get_bind] at h
  split at h
  · exact absurd h Program.throw_ne_ok
  · next objVehicle hVehicle =>
      rw [Program.run_set_bind] at h
      obtain ⟨context, success, hDelete, hRest⟩ := VehicleManager.perform_forM_of_ok h
      obtain ⟨arrVehicles, hList, hEnd⟩ := HistoryPresenter.getAllVehicles_eq_ok.mp hRest
      exact ⟨objVehicle, context, success, arrVehicles, hVehicle, hDelete, hList, hEnd⟩

theorem HistoryVC.cellForRowAt_of_ok {row : Nat}
    (h : (HistoryVC.cellForRowAt row).run app = .ok () app') :
    ∃ vehicleObj, app.historyVC.arrAllVehicles[row]? = some vehicleObj ∧
      app' = { app with historyVC := { app.historyVC with
        tableAllVehicles := app.historyVC.tableAllVehicles.show row vehicleObj } } := by
  rw [HistoryVC.cellForRowAt, Program.run_get_bind] at h
  dsimp only at h
  split at h
  · exact absurd h Program.throw_ne_ok
  · next vehicleObj hVehicle =>
      obtain ⟨_, mid, hData, hSet⟩ := Program.bind_eq_ok.mp h
      obtain ⟨_, rfl⟩ := Program.ofExcept_eq_ok.mp hData
      exact ⟨vehicleObj, hVehicle, Program.set_eq_ok.mp hSet⟩

end Runs

end ServiceBook

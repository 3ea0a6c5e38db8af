import ServiceBook.General.Program
import ServiceBook.Database.Refinement
import ServiceBook.FirebaseIntegration.FIRFireStoreService
import ServiceBook.AddEditVehicle.AddVehicleVC
import ServiceBook.Utilities.Notifications

/-! The state of one running app: its store, its pending notifications, the
requests it has handed to Firestore, and its screens. Handlers are programs
over this state that may trap. -/
namespace ServiceBook

/-- A table view knows the row count of its last reload and shows the cells
it has loaded since. -/
structure UITableView (α : Type) where
  rowCount : Nat := 0
  cells : List (Nat × α) := []
deriving DecidableEq

def UITableView.reloadData {α : Type} (_table : UITableView α) (numberOfRows : Nat) : UITableView α :=
  { rowCount := numberOfRows }

def UITableView.show {α : Type} (table : UITableView α) (row : Nat) (shown : α) : UITableView α :=
  { table with cells := (row, shown) :: table.cells.filter fun cell => cell.1 ≠ row }

structure AllVehiclesVC where
  arrAllVehicles : List AllVehiclesI := []
  objVehicle : AllVehiclesI := {}
  arrGadgets : List Gadget := []
  tableAllVehicles : UITableView Gadget := {}
  /-- Snapshot listeners registered so far; none is ever removed. -/
  listeners : Nat := 0
deriving DecidableEq

structure HistoryVC where
  arrAllVehicles : List AllVehiclesI := []
  objVehicle : AllVehiclesI := {}
  tableAllVehicles : UITableView AllVehiclesI := {}
deriving DecidableEq

inductive Tab where
  | allVehicles
  | addVehicle
  | history
deriving DecidableEq, Repr

/-- The two places a form can be: the Add tab, and the editor pushed over the tabs. -/
inductive FormSlot where
  | addTab
  | editor
deriving DecidableEq, Repr

/-- The calls of `AddVehicleView` that report success. -/
inductive ViewCall where
  | newVehicleAdded (isSuccess : Bool)
  | vehicleInfoUpdated (isSuccess : Bool)
deriving DecidableEq, Repr

def ViewCall.isSuccess : ViewCall → Bool
  | .newVehicleAdded isSuccess => isSuccess
  | .vehicleInfoUpdated isSuccess => isSuccess

/-- How the store answers the write and the list query of one handler. -/
structure Storage where
  write : StoreOutcome := .success
  list : StoreOutcome := .success
deriving DecidableEq

structure App where
  context : ManagedObjectContext
  storage : Storage
  now : Date
  pendingRequests : PendingRequests
  /-- Requests to Firestore, oldest first, that the server has not seen. -/
  outbox : List FirestoreWrite
  /-- The view calls made so far. -/
  told : List ViewCall
  selectedTab : Tab
  allVehiclesVC : AllVehiclesVC
  addVehicleVC : AddVehicleVC
  historyVC : HistoryVC
  editor : Option AddVehicleVC

/-- The app at launch, before its first screen appears. -/
def App.created (context : ManagedObjectContext) (pendingRequests : PendingRequests) (now : Date) : App where
  context := context
  storage := {}
  now := now
  pendingRequests := pendingRequests
  outbox := []
  told := []
  selectedTab := .allVehicles
  allVehiclesVC := {}
  addVehicleVC := AddVehicleVC.addForm now
  historyVC := {}
  editor := none

/-- The form in a slot, if its view is there. -/
def App.form (app : App) : FormSlot → Option AddVehicleVC
  | .addTab => some app.addVehicleVC
  | .editor => app.editor

@[simp] theorem App.form_addTab (app : App) : app.form .addTab = some app.addVehicleVC := rfl

@[simp] theorem App.form_editor (app : App) : app.form .editor = app.editor := rfl

def App.setForm (app : App) (form : AddVehicleVC) : FormSlot → App
  | .addTab => { app with addVehicleVC := form }
  | .editor => { app with editor := some form }

@[simp] theorem App.setForm_context (app : App) (form : AddVehicleVC) (slot : FormSlot) :
    (app.setForm form slot).context = app.context := by
  cases slot <;> rfl

@[simp] theorem App.setForm_storage (app : App) (form : AddVehicleVC) (slot : FormSlot) :
    (app.setForm form slot).storage = app.storage := by
  cases slot <;> rfl

@[simp] theorem App.setForm_outbox (app : App) (form : AddVehicleVC) (slot : FormSlot) :
    (app.setForm form slot).outbox = app.outbox := by
  cases slot <;> rfl

@[simp] theorem App.setForm_allVehiclesVC (app : App) (form : AddVehicleVC) (slot : FormSlot) :
    (app.setForm form slot).allVehiclesVC = app.allVehiclesVC := by
  cases slot <;> rfl

abbrev AppM := EStateM Trap App

end ServiceBook

import ServiceBook.App.State

/-! What the presenters and screens call: the vehicle manager over the shared
database, the Firestore service and the notification center. -/
namespace ServiceBook

namespace VehicleManager

/-- Forward one write to the database manager. The result is the list of
arguments its completion handler is called with. -/
def perform (operation : DatabaseManager.Write) : AppM (List Bool) := do
  let app ← get
  let (context, calls) ← Program.ofExcept (operation.perform app.storage.write app.context)
  set { app with context := context }
  return calls

def addNewVehicle (objVehicle : AllVehiclesI) : AppM (List Bool) := perform (.addRecord objVehicle)

def editVehicalInfo (objVehicle : AllVehiclesI) : AppM (List Bool) := perform (.editRecord objVehicle)

def deleteVehicle (vehicelID : String) : AppM (List Bool) := perform (.deleteRecord vehicelID)

def getAllVehicles (predicate : Option NSPredicate) : AppM (List AllVehiclesI) := do
  let app ← get
  Program.ofExcept (DatabaseManager.getAllRecords app.storage.list app.context predicate)

end VehicleManager

/-- Hand requests to Firestore. -/
def FIRFireStoreService.send (requests : List FirestoreWrite) : AppM Unit :=
  modify fun app => { app with outbox := app.outbox ++ requests }

namespace AppSharedInstance

def setLocalNotification (vehicleObj : AllVehiclesI) (notificationDate : Date) : AppM Unit := do
  let request ← Program.ofExcept (notificationRequest vehicleObj notificationDate)
  modify fun app => { app with pendingRequests := app.pendingRequests.add app.now request }

def removeNotification (arrNotificationID : List String) : AppM Unit :=
  modify fun app => { app with pendingRequests := app.pendingRequests.remove arrNotificationID }

/-- A text that is not a date stands for the current one. -/
def getFormattedDate (P : Platform) (text : String) : AppM Date := do
  let app ← get
  return (P.dateFromString text).getD app.now

end AppSharedInstance

/-- Both ways to make a gadget of a vehicle unwrap its two dates. -/
def withDates (objVehicle : AllVehiclesI) (make : BinaryFloat.Value → BinaryFloat.Value → Gadget) :
    Except Trap Gadget := do
  let lastServiceDate ← unwrap objVehicle.lastServiceDate
  let serviceDueDate ← unwrap objVehicle.serviceDueDate
  return make (.finite lastServiceDate) (.finite serviceDueDate)

/-- The gadget that `addNewRecordOnFirebase` creates. -/
def gadgetInfo (objVehicle : AllVehiclesI) : Except Trap Gadget :=
  withDates objVehicle fun lastServiceDate serviceDueDate =>
    Gadget.init (objVehicle.vehicleName.getD "") (objVehicle.vehicleType.getD "")
      (objVehicle.vehicleNo.getD "") (objVehicle.notes.getD "")
      (objVehicle.serviceRequiredAfter.getD 0) (objVehicle.averageRun.getD 0)
      lastServiceDate serviceDueDate

/-- The gadget that `updateRecordOnServer` writes. Its name has no default. -/
def gadgetObjToUpdate (gadgetObj : Gadget) (objVehicle : AllVehiclesI) : Except Trap Gadget :=
  withDates objVehicle fun lastServiceDate serviceDueDate =>
    { gadgetObj with
      vehicleName := objVehicle.vehicleName
      vehicleType := some (objVehicle.vehicleType.getD "")
      vehicleNo := some (objVehicle.vehicleNo.getD "")
      notes := some (objVehicle.notes.getD "")
      serviceRequiredAfter := some (objVehicle.serviceRequiredAfter.getD 0)
      averageRun := some (objVehicle.averageRun.getD 0)
      lastServiceDate := some lastServiceDate
      serviceDueDate := some serviceDueDate }

/-- `addNewRecordOnFirebase`, which two presenters have in the same words. -/
def addNewRecordOnFirebase (objVehicle : AllVehiclesI) : AppM Unit := do
  let gadget ← Program.ofExcept (gadgetInfo objVehicle)
  FIRFireStoreService.send (FIRFireStoreService.create gadget)

section Services

variable {app app' : App} {objVehicle : AllVehiclesI}

/-- Every completed write calls its completion handler once. -/
theorem DatabaseManager.Write.perform_calls {operation : DatabaseManager.Write}
    {outcome : StoreOutcome} {context context' : ManagedObjectContext} {calls : List Bool}
    (h : operation.perform outcome context = .ok (context', calls)) : ∃ success, calls = [success] := by
  cases operation with
  | addRecord objVehicle =>
      obtain ⟨_, hResult⟩ := DatabaseManager.addRecord_eq_ok.mp h
      exact ⟨_, (Prod.mk.inj hResult).2⟩
  | editRecord objVehicle =>
      change DatabaseManager.editRecord outcome context objVehicle = _ at h
      unfold DatabaseManager.editRecord at h
      split at h
      · cases h
        exact ⟨_, rfl⟩
      · cases h
        exact ⟨_, rfl⟩
      · obtain ⟨_, _, h⟩ := bind_eq_ok.mp h
        cases h
        exact ⟨_, rfl⟩
  | deleteRecord recordID =>
      obtain ⟨_, _, h⟩ := bind_eq_ok.mp h
      cases h
      exact ⟨_, rfl⟩

/-- A write changes nothing but the context. -/
theorem VehicleManager.perform_eq_ok {operation : DatabaseManager.Write} {calls : List Bool} :
    (VehicleManager.perform operation).run app = .ok calls app' ↔
      ∃ context, operation.perform app.storage.write app.context = .ok (context, calls) ∧
        app' = { app with context := context } := by
  simp only [VehicleManager.perform, Program.bind_eq_ok, Program.get_eq_ok, Program.ofExcept_eq_ok,
    Program.set_eq_ok]
  constructor
  · rintro ⟨_, _, ⟨rfl, rfl⟩, ⟨context, calls'⟩, _, ⟨hOk, rfl⟩, _, _, rfl, hEnd⟩
    cases hEnd
    exact ⟨context, hOk, rfl⟩
  · rintro ⟨context, hOk, rfl⟩
    exact ⟨_, _, ⟨rfl, rfl⟩, _, _, ⟨hOk, rfl⟩, ⟨⟩, _, rfl, rfl⟩

/-- The completion handler runs once, after the write. -/
theorem VehicleManager.perform_forM_run {operation : DatabaseManager.Write} {handler : Bool → AppM Unit}
    {context : ManagedObjectContext} {success : Bool}
    (h : operation.perform app.storage.write app.context = .ok (context, [success])) :
    (VehicleManager.perform operation >>= fun calls => calls.forM handler).run app =
      (handler success).run { app with context := context } := by
  rw [Program.run_bind_of_ok (VehicleManager.perform_eq_ok.mpr ⟨context, h, rfl⟩), Program.run_forM_singleton]

theorem VehicleManager.perform_forM_of_ok {operation : DatabaseManager.Write} {handler : Bool → AppM Unit}
    (h : (VehicleManager.perform operation >>= fun calls => calls.forM handler).run app = .ok () app') :
    ∃ context success, operation.perform app.storage.write app.context = .ok (context, [success]) ∧
      (handler success).run { app with context := context } = .ok () app' := by
  obtain ⟨calls, mid, hWrite, hRest⟩ := Program.bind_eq_ok.mp h
  obtain ⟨context, hOk, rfl⟩ := VehicleManager.perform_eq_ok.mp hWrite
  obtain ⟨success, rfl⟩ := DatabaseManager.Write.perform_calls hOk
  rw [Program.run_forM_singleton] at hRest
  exact ⟨context, success, hOk, hRest⟩

/-- A write that traps leaves everything as it is. -/
theorem VehicleManager.perform_bind_of_error {operation : DatabaseManager.Write} {t : Trap}
    {rest : List Bool → AppM Unit} (h : operation.perform app.storage.write app.context = .error t) :
    (VehicleManager.perform operation >>= rest).run app = .error t app := by
  apply Program.run_bind_of_error
  rw [VehicleManager.perform, Program.run_get_bind, h]
  rfl

theorem VehicleManager.getAllVehicles_eq_ok {predicate : Option NSPredicate}
    {arrVehicles : List AllVehiclesI} :
    (VehicleManager.getAllVehicles predicate).run app = .ok arrVehicles app' ↔
      DatabaseManager.getAllRecords app.storage.list app.context predicate = .ok arrVehicles ∧
        app' = app := by
  simp only [VehicleManager.getAllVehicles, Program.bind_eq_ok, Program.get_eq_ok, Program.ofExcept_eq_ok]
  constructor
  · rintro ⟨_, _, ⟨rfl, rfl⟩, hOk⟩
    exact hOk
  · exact fun hOk => ⟨_, _, ⟨rfl, rfl⟩, hOk⟩

/-- A list screen queries with the current time and takes the answer over. -/
theorem VehicleManager.refetch_eq_ok (predicate : Date → NSPredicate)
    (receive : List AllVehiclesI → App → App) :
    (do
      let app ← get
      let arrVehicles ← VehicleManager.getAllVehicles (some (predicate app.now))
      modify (receive arrVehicles) : AppM Unit).run app = .ok () app' ↔
      ∃ arrVehicles, DatabaseManager.getAllRecords app.storage.list app.context
          (some (predicate app.now)) = .ok arrVehicles ∧ app' = receive arrVehicles app := by
  simp only [Program.bind_eq_ok, Program.get_eq_ok, VehicleManager.getAllVehicles_eq_ok, Program.modify_eq_ok]
  constructor
  · rintro ⟨_, _, ⟨hApp, hSame⟩, arrVehicles, _, ⟨hOk, hMid⟩, hEnd⟩
    subst hApp hSame hMid hEnd
    exact ⟨arrVehicles, hOk, rfl⟩
  · rintro ⟨arrVehicles, hOk, hEnd⟩
    exact ⟨app, app, ⟨rfl, rfl⟩, arrVehicles, app, ⟨hOk, rfl⟩, hEnd⟩

/-- The two dates that a gadget is made from. -/
def HasDates (objVehicle : AllVehiclesI) : Prop :=
  objVehicle.lastServiceDate.isSome ∧ objVehicle.serviceDueDate.isSome

variable {make : BinaryFloat.Value → BinaryFloat.Value → Gadget}

theorem withDates_eq_ok {gadget : Gadget} :
    withDates objVehicle make = .ok gadget ↔
      ∃ lastServiceDate serviceDueDate, objVehicle.lastServiceDate = some lastServiceDate ∧
        objVehicle.serviceDueDate = some serviceDueDate ∧
        gadget = make (.finite lastServiceDate) (.finite serviceDueDate) := by
  simp only [withDates, bind_eq_ok, unwrap_eq_ok, pure_eq_ok, Except.ok.injEq]
  constructor
  · rintro ⟨last, hLast, due, hDue, rfl⟩
    exact ⟨last, due, hLast, hDue, rfl⟩
  · rintro ⟨last, due, hLast, hDue, rfl⟩
    exact ⟨last, hLast, due, hDue, rfl⟩

/-- A missing date traps. -/
theorem withDates_of_not_hasDates (h : ¬ HasDates objVehicle) :
    withDates objVehicle make = .error .unexpectedlyFoundNil := by
  unfold withDates
  cases hLast : objVehicle.lastServiceDate with
  | none => rfl
  | some last =>
      cases hDue : objVehicle.serviceDueDate with
      | none => rfl
      | some due => exact absurd ⟨by rw [hLast]; rfl, by rw [hDue]; rfl⟩ h

theorem withDates_of_hasDates (h : HasDates objVehicle) :
    ∃ lastServiceDate serviceDueDate : Date,
      withDates objVehicle make = .ok (make (.finite lastServiceDate) (.finite serviceDueDate)) := by
  obtain ⟨last, hLast⟩ := Option.isSome_iff_exists.mp h.1
  obtain ⟨due, hDue⟩ := Option.isSome_iff_exists.mp h.2
  exact ⟨last, due, withDates_eq_ok.mpr ⟨last, due, hLast, hDue, rfl⟩⟩

/-- Either gadget carries the two dates, which are finite numbers. -/
theorem gadgetInfo_of_hasDates (h : HasDates objVehicle) :
    ∃ gadget, gadgetInfo objVehicle = .ok gadget ∧ gadget.Finite := by
  obtain ⟨last, due, hGadget⟩ := withDates_of_hasDates h
  exact ⟨_, hGadget, by simp [Gadget.init, BinaryFloat.Value.IsFinite],
    by simp [Gadget.init, BinaryFloat.Value.IsFinite]⟩

theorem gadgetObjToUpdate_of_hasDates (gadgetObj : Gadget) (h : HasDates objVehicle) :
    ∃ gadget, gadgetObjToUpdate gadgetObj objVehicle = .ok gadget ∧ gadget.Finite ∧
      gadget.id = gadgetObj.id := by
  obtain ⟨last, due, hGadget⟩ := withDates_of_hasDates h
  exact ⟨_, hGadget, ⟨by simp [BinaryFloat.Value.IsFinite], by simp [BinaryFloat.Value.IsFinite]⟩, rfl⟩

theorem send_run (requests : List FirestoreWrite) :
    (FIRFireStoreService.send requests).run app =
      .ok () { app with outbox := app.outbox ++ requests } := rfl

theorem addNewRecordOnFirebase_run {gadget : Gadget} (app : App) (h : gadgetInfo objVehicle = .ok gadget)
    (hFinite : gadget.Finite) : (addNewRecordOnFirebase objVehicle).run app =
      .ok () { app with outbox := app.outbox ++ [.addDocument gadget.document] } := by
  rw [addNewRecordOnFirebase, h, Program.run_bind_of_ok Program.run_ofExcept_ok, send_run,
    FIRFireStoreService.create_eq hFinite]

/-- With both dates a document is created, and without them the unwrapping
traps before anything is sent. -/
theorem addNewRecordOnFirebase_of_hasDates (app : App) (h : HasDates objVehicle) :
    ∃ json, (addNewRecordOnFirebase objVehicle).run app =
      .ok () { app with outbox := app.outbox ++ [.addDocument json] } := by
  obtain ⟨gadget, hGadget, hFinite⟩ := gadgetInfo_of_hasDates h
  exact ⟨gadget.document, addNewRecordOnFirebase_run app hGadget hFinite⟩

theorem addNewRecordOnFirebase_of_not_hasDates (h : ¬ HasDates objVehicle) :
    (addNewRecordOnFirebase objVehicle).run app = .error .unexpectedlyFoundNil app := by
  rw [addNewRecordOnFirebase, gadgetInfo, withDates_of_not_hasDates h,
    Program.run_bind_of_error Program.run_ofExcept_error]

end Services

end ServiceBook

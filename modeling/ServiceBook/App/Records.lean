import ServiceBook.App.Shown

/-! The records of an app whose local writes all succeed and whose new ids are
fresh: the store is a list of vehicles with distinct ids, and every step is at
most one change of that list, together with one of the pending requests. -/
namespace ServiceBook

open DatabaseManager

/-- The local writes succeed. The list queries may fail. -/
def WritesSucceed : Action → Prop
  | .storage storage => storage.write = .success
  | _ => True

/-- The id of a new record is not the id of a stored one. -/
def FreshID (app : App) : Action → Prop
  | .clkSave uuid => app.activeForm = some .addTab →
      ∀ obj ∈ app.context.objects.rows, obj.value.vehicleID ≠ some uuid
  | _ => True

structure KeepsRecords (app : App) (records : List AllVehiclesI) : Prop where
  placed : FormsPlaced app
  write : app.storage.write = .success
  holds : Holds app.context records
  shown : Shown app

/-- The request reminds of the vehicle when it is due. -/
def Reminds (request : UNNotificationRequest) (objVehicle : AllVehiclesI) : Prop :=
  request.identifier = objVehicle.vehicleID ∧ objVehicle.serviceDueDate = some request.trigger

/-- What one step does to the records and to the pending requests. -/
inductive Recorded (app app' : App) (records : List AllVehiclesI) : List AllVehiclesI → Prop where
  | quiet (hNow : app'.now = app.now) (hPending : app'.pendingRequests = app.pendingRequests) :
      Recorded app app' records records
  | clock (hLater : app.now ≤ app'.now)
      (hPending : app'.pendingRequests = app.pendingRequests.advance app'.now) :
      Recorded app app' records records
  | add (objVehicle : AllVehiclesI) (request : UNNotificationRequest) (hNow : app'.now = app.now)
      (hFresh : ∀ old ∈ records, old.vehicleID ≠ objVehicle.vehicleID) (hReminds : Reminds request objVehicle)
      (hPending : app'.pendingRequests = app.pendingRequests.add app.now request) :
      Recorded app app' records (records ++ [objVehicle])
  | edit (objVehicle old : AllVehiclesI) (request : UNNotificationRequest) (hNow : app'.now = app.now)
      (hOld : old ∈ records) (hID : old.vehicleID = objVehicle.vehicleID) (hReminds : Reminds request objVehicle)
      (hPending : app'.pendingRequests =
        (app.pendingRequests.remove [objVehicle.vehicleID]).add app.now request) :
      Recorded app app' records (KeyedList.replace AllVehiclesI.vehicleID records objVehicle)
  | delete (objVehicle : AllVehiclesI) (hNow : app'.now = app.now)
      (hPending : app'.pendingRequests = app.pendingRequests.remove [objVehicle.vehicleID]) :
      Recorded app app' records (KeyedList.remove AllVehiclesI.vehicleID records objVehicle.vehicleID)
  | deletePast (objVehicle : AllVehiclesI) (hNow : app'.now = app.now) (hMem : objVehicle ∈ records)
      (hPast : pastDue app.now objVehicle.serviceDueDate = true)
      (hPending : app'.pendingRequests = app.pendingRequests) :
      Recorded app app' records (KeyedList.remove AllVehiclesI.vehicleID records objVehicle.vehicleID)

section Records

variable {P : Platform} {app app' : App} {action : Action} {records : List AllVehiclesI}
  {objVehicle : AllVehiclesI}

/-- A vehicle in a list is one of the records. -/
theorem KeepsRecords.mem_of_listed (h : KeepsRecords app records)
    (hListed : AddVehicleVC.Listed app.context objVehicle) : objVehicle ∈ records := by
  obtain ⟨outcome, predicate, vehicles, hList, hMem⟩ := hListed
  obtain ⟨obj, hObj, hCopy⟩ := mem_getAllRecords hList hMem
  have hValue : obj.value ∈ records.map stored := h.holds.objects_values ▸ List.mem_map_of_mem hObj
  obtain ⟨record, hRecord, hStored⟩ := List.mem_map.mp hValue
  have hStorable := h.holds.storable record hRecord
  rw [← hStored, allVehicleOf_stored hStorable.typed hStorable.narrow] at hCopy
  rwa [← Except.ok.inj hCopy]

/-- A record under the id of the editor. -/
theorem KeepsRecords.edited (h : KeepsRecords app records) {form : AddVehicleVC}
    (hForm : app.editor = some form) : ∃ old ∈ records, old.vehicleID = form.objVehicle.vehicleID := by
  have hSome := h.shown.editor form hForm
  rw [← Option.isSome_map (f := Table.Row.value), h.holds.firstUnder_eq, Option.isSome_map] at hSome
  obtain ⟨old, hFind⟩ := Option.isSome_iff_exists.mp hSome
  exact ⟨old, KeyedList.mem_of_find hFind, KeyedList.key_of_find hFind⟩

theorem KeepsRecords.deleted_holds (h : KeepsRecords app records) {recordID : String}
    {context : ManagedObjectContext} {calls : List Bool}
    (hDelete : deleteRecord app.storage.write app.context recordID = .ok (context, calls)) :
    Holds context (KeyedList.remove AllVehiclesI.vehicleID records recordID) := by
  rw [h.write] at hDelete
  exact h.holds.of_deleteRecord hDelete

theorem KeepsRecords.added_holds (h : KeepsRecords app records) {context : ManagedObjectContext}
    {calls : List Bool} (hType : objVehicle.vehicleType.isSome) (hDue : objVehicle.serviceDueDate.isSome)
    (hFresh : ∀ old ∈ records, old.vehicleID ≠ objVehicle.vehicleID)
    (hAdd : addRecord app.storage.write app.context objVehicle = .ok (context, calls)) :
    Holds context (records ++ [objVehicle]) := by
  rw [h.write] at hAdd
  exact h.holds.of_addRecord hType hDue hFresh hAdd

theorem KeepsRecords.edited_holds (h : KeepsRecords app records) {context : ManagedObjectContext}
    {calls : List Bool} (hType : objVehicle.vehicleType.isSome) (hDue : objVehicle.serviceDueDate.isSome)
    (hStored : (firstUnder app.context objVehicle.vehicleID).isSome)
    (hEdit : editRecord app.storage.write app.context objVehicle = .ok (context, calls)) :
    Holds context (KeyedList.replace AllVehiclesI.vehicleID records objVehicle) := by
  rw [h.write] at hEdit
  exact h.holds.of_editRecord hType hDue hStored hEdit

theorem reminds_of_request {request : UNNotificationRequest} {serviceDueDate : Date}
    (hDue : objVehicle.serviceDueDate = some serviceDueDate)
    (hRequest : AppSharedInstance.notificationRequest objVehicle serviceDueDate = .ok request) :
    Reminds request objVehicle := by
  simp only [AppSharedInstance.notificationRequest, bind_eq_ok, pure_eq_ok, Except.ok.injEq] at hRequest
  obtain ⟨_, _, _, _, _, _, _, _, rfl⟩ := hRequest
  exact ⟨rfl, hDue⟩

/-- Showing a tab reads the records and changes none. -/
theorem KeepsRecords.refreshed (h : KeepsRecords app records) {before : App} (hSame : Refreshed before app')
    (hContext : before.context = app.context) (hStorage : before.storage = app.storage)
    (hPlaced : FormsPlaced app') (hShown : Shown app') : KeepsRecords app' records where
  placed := hPlaced
  write := by
    rw [hSame.storage, hStorage]
    exact h.write
  holds := by
    rw [hSame.context, hContext]
    exact h.holds
  shown := hShown

/-- One step is one change of the records. -/
theorem KeepsRecords.step (h : KeepsRecords app records) (hWrites : WritesSucceed action)
    (hFresh : FreshID app action) (hStep : app.step P action = some app') :
    ∃ records', Recorded app app' records records' ∧ KeepsRecords app' records' := by
  have hPlaced := h.placed.step hStep
  have hShown := h.shown.step h.placed hStep
  cases step_stepped h.placed hStep with
  | clock now hLater => exact ⟨records, .clock hLater rfl, hPlaced, h.write, h.holds, hShown⟩
  | storage storage => exact ⟨records, .quiet rfl rfl, hPlaced, hWrites, h.holds, hShown⟩
  | selectTab tab _ _ hAppear =>
      have hSame := viewWillAppear_refreshed hAppear
      exact ⟨records, .quiet hSame.now hSame.pendingRequests, h.refreshed hSame rfl rfl hPlaced hShown⟩
  | allVehiclesDelete row objVehicle gadgetObj context success arrVehicles _ _ _ hDelete _ =>
      exact ⟨_, .delete objVehicle rfl rfl, hPlaced, h.write, h.deleted_holds hDelete, hShown⟩
  | historyDelete row objVehicle context success arrVehicles hShows hVehicle hDelete _ =>
      obtain ⟨hListed, hPast⟩ := h.shown.history hShows objVehicle (List.mem_of_getElem? hVehicle)
      exact ⟨_, .deletePast objVehicle rfl (h.mem_of_listed hListed) hPast rfl, hPlaced, h.write,
        h.deleted_holds hDelete, hShown⟩
  | form slot e form form' _ _ =>
      cases slot with
      | addTab => exact ⟨records, .quiet rfl rfl, hPlaced, h.write, h.holds, hShown⟩
      | editor => exact ⟨records, .quiet rfl rfl, hPlaced, h.write, h.holds, hShown⟩
  | saveAdd uuid objVehicle text context success gadget due request form hShows hRule hAdd _ hDue hRequest _ =>
      obtain ⟨_, hVehicle⟩ := AppSharedInstance.getServiceDueDate_sets hRule
      have hID : objVehicle.vehicleID = uuid := by
        rw [hVehicle]
        exact if_neg (Bool.eq_false_iff.mp h.placed.addTab)
      have hNew : ∀ old ∈ records, old.vehicleID ≠ objVehicle.vehicleID := by
        intro old hOld hSame
        have hValue : stored old ∈ app.context.objects.values :=
          h.holds.objects_values ▸ List.mem_map_of_mem hOld
        obtain ⟨obj, hObj, hEq⟩ := List.mem_map.mp hValue
        apply hFresh (activeForm_eq_addTab.mpr hShows) obj hObj
        rw [hEq, stored_vehicleID, hSame, hID]
      exact ⟨_, .add objVehicle request rfl hNew (reminds_of_request hDue hRequest) rfl, hPlaced, h.write,
        h.added_holds (by rw [hVehicle]; rfl) (by rw [hDue]; rfl) hNew hAdd, hShown⟩
  | saveEdit uuid form objVehicle text gadgetObj context success gadget due request _ hForm hRule _ hEdit _ hDue
      hRequest hAppear =>
      have hSame := viewWillAppear_refreshed hAppear
      obtain ⟨_, hVehicle⟩ := AppSharedInstance.getServiceDueDate_sets hRule
      have hID : objVehicle.vehicleID = form.objVehicle.vehicleID := by
        rw [hVehicle]
        exact if_pos (h.placed.editor form hForm)
      obtain ⟨old, hOld, hOldID⟩ := h.edited hForm
      refine ⟨_, .edit objVehicle old request hSame.now hOld (hOldID.trans hID.symm)
        (reminds_of_request hDue hRequest) hSame.pendingRequests, hPlaced, ?_, ?_, hShown⟩
      · rw [hSame.storage]
        exact h.write
      · rw [hSame.context]
        exact h.edited_holds (by rw [hVehicle]; rfl) (by rw [hDue]; rfl)
          (hID.symm ▸ h.shown.editor form hForm) hEdit
  | back form _ _ hAppear =>
      have hSame := viewWillAppear_refreshed hAppear
      exact ⟨records, .quiet hSame.now hSame.pendingRequests, h.refreshed hSame rfl rfl hPlaced hShown⟩
  | relaunch context _ hSave hAppear =>
      have hSame := viewWillAppear_refreshed hAppear
      have hContext := h.holds.of_saveContext hSave
      exact ⟨records, .quiet hSame.now hSame.pendingRequests, h.refreshed hSame hContext rfl hPlaced hShown⟩
  | _ => exact ⟨records, .quiet rfl rfl, hPlaced, h.write, h.holds, hShown⟩

theorem keepsRecords_installed (now : Date) : KeepsRecords (App.installed now) [] where
  placed := formsPlaced_installed now
  write := rfl
  holds := holds_empty
  shown := shown_installed now

end Records

end ServiceBook

import ServiceBook.App.Records

/-! The rows of the History table. Its list is refetched whenever the screen
comes up and after every deletion in it, and nothing else changes the store
while it is on the screen, so a row stands for one record. -/
namespace ServiceBook

open DatabaseManager

/-- All fetches and saves succeed. -/
def StorageSucceeds : Action → Prop
  | .storage storage => storage = {}
  | _ => True

/-- The row is deleted: one record goes from the store, the one the row shows,
and the list is what a query now returns. -/
def DeletesShown (P : Platform) (app : App) (row : Nat) : Prop :=
  ∃ app' shown record, app.step P (.historyCommitDelete row) = some app' ∧
    app.historyVC.arrAllVehicles[row]? = some shown ∧
    record ∈ app.context.persisted.rows ∧ allVehicleOf record.value = .ok shown ∧
    app'.context.persisted.rows = app.context.persisted.rows.erase record ∧
    getAllRecords .success app'.context (some (onServiceDueDate (pastDue app'.now))) =
      .ok app'.historyVC.arrAllVehicles

/-- Every row the table offers has an element of the list, a loaded cell shows
it, and while the screen is up its deletion deletes what is shown. -/
structure RowsFaithful (P : Platform) (app : App) : Prop where
  offered : ∀ row < app.historyVC.tableAllVehicles.rowCount, row < app.historyVC.arrAllVehicles.length
  cells : ∀ cell ∈ app.historyVC.tableAllVehicles.cells, app.historyVC.arrAllVehicles[cell.1]? = some cell.2
  delete : app.Shows .history → ∀ row < app.historyVC.tableAllVehicles.rowCount, DeletesShown P app row

section Rows

variable {P : Platform} {app app' : App} {records : List AllVehiclesI} {objVehicle : AllVehiclesI}

/-- How a deletion completes. -/
theorem HistoryVC.commitDelete_run {row : Nat} {context : ManagedObjectContext} {success : Bool}
    {arrVehicles : List AllVehiclesI} (hVehicle : app.historyVC.arrAllVehicles[row]? = some objVehicle)
    (hDelete : deleteRecord app.storage.write app.context objVehicle.vehicleID = .ok (context, [success]))
    (hList : getAllRecords app.storage.list context (some (onServiceDueDate (pastDue app.now))) =
      .ok arrVehicles) :
    (HistoryVC.commitDelete row).run app = .ok () { app with
      context := context
      historyVC :=
        HistoryVC.allVehiclesReceives { app.historyVC with objVehicle := objVehicle } arrVehicles } := by
  let selected : App := { app with historyVC := { app.historyVC with objVehicle := objVehicle } }
  have hWrite : (Write.deleteRecord objVehicle.vehicleID).perform selected.storage.write selected.context =
      .ok (context, [success]) := hDelete
  rw [HistoryVC.commitDelete, Program.run_get_bind, hVehicle]
  dsimp only
  rw [Program.run_set_bind]
  refine (VehicleManager.perform_forM_run hWrite).trans ?_
  exact HistoryPresenter.getAllVehicles_eq_ok.mpr ⟨arrVehicles, hList, rfl⟩

/-- The row of the store that holds a record, and no other row has its id. -/
theorem exists_row (h : Holds app.context records) (hMem : objVehicle ∈ records) :
    ∃ record ∈ app.context.persisted.rows, record.value = stored objVehicle ∧
      ∀ other ∈ app.context.persisted.rows, other.value.vehicleID = some objVehicle.vehicleID →
        other = record := by
  have hValue : stored objVehicle ∈ app.context.persisted.values := h.values ▸ List.mem_map_of_mem hMem
  obtain ⟨record, hRecord, hStored⟩ := List.mem_map.mp hValue
  have hKeys : (app.context.persisted.rows.map fun row => row.value.vehicleID).Nodup := by
    have hIDs := (KeyedList.distinct_map (Option.some_injective String) stored_vehicleID).mpr h.distinct
    rw [← h.values] at hIDs
    simpa [KeyedList.Distinct, Table.Rows.values, Function.comp_def] using hIDs
  refine ⟨record, hRecord, hStored, fun other hOther hID => ?_⟩
  apply List.inj_on_of_nodup_map hKeys hOther hRecord
  rw [hID, hStored, stored_vehicleID]

/-- Deleting the records under the id of a row erases that row. -/
theorem deleteRecord_rows (h : Holds app.context records) {record : Table.Row Vehicle}
    (hStored : record.value = stored objVehicle)
    (hOnly : ∀ other ∈ app.context.persisted.rows, other.value.vehicleID = some objVehicle.vehicleID →
      other = record) {context : ManagedObjectContext} {calls : List Bool}
    (hDelete : deleteRecord .success app.context objVehicle.vehicleID = .ok (context, calls)) :
    context.persisted.rows = app.context.persisted.rows.erase record := by
  rw [deleteRecord_eq rfl, ManagedObjectContext.save_success] at hDelete
  obtain ⟨rfl, -⟩ := Prod.mk.inj (Except.ok.inj hDelete)
  rw [objects_deleteObjects, objectsUnder, h.objects_eq]
  apply Table.Rows.deleteAll_filter_erase
  · simp [hStored]
  · intro other hOther hID
    exact hOnly other hOther (of_decide_eq_true hID)

theorem KeepsRecords.deletesShown (h : KeepsRecords app records) (hStorage : app.storage = {}) {row : Nat}
    (hShows : app.Shows .history) (hRow : row < app.historyVC.tableAllVehicles.rowCount) :
    DeletesShown P app row := by
  have hLength := hRow
  rw [h.shown.rows] at hLength
  have hVehicle := List.getElem?_eq_getElem hLength
  generalize app.historyVC.arrAllVehicles[row] = objVehicle at hVehicle
  have hMem := h.mem_of_listed (h.shown.history hShows objVehicle (List.mem_of_getElem? hVehicle)).1
  have hStorable := h.holds.storable objVehicle hMem
  obtain ⟨record, hRecord, hStored, hOnly⟩ := exists_row h.holds hMem
  obtain ⟨context, hOk, hHolds⟩ := deleteRecord_holds h.holds objVehicle.vehicleID
  have hDelete : deleteRecord app.storage.write app.context objVehicle.vehicleID = .ok (context, [true]) := by
    rw [hStorage]
    exact hOk
  have hQuery := getAllRecords_of_holds hHolds (some (pastDue app.now))
  have hOutcome : app.storage.list = .success := by rw [hStorage]
  have hList := hQuery
  rw [← hOutcome] at hList
  have hRun := HistoryVC.commitDelete_run hVehicle hDelete hList
  refine ⟨_, objVehicle, record, step_eq_some.mpr ⟨⟨hShows, hRow⟩, hRun⟩, hVehicle, hRecord, ?_,
    deleteRecord_rows h.holds hStored hOnly hOk, hQuery⟩
  rw [hStored]
  exact allVehicleOf_stored hStorable.typed hStorable.narrow

theorem KeepsRecords.rowsFaithful (h : KeepsRecords app records) (hStorage : app.storage = {}) :
    RowsFaithful P app where
  offered := fun _ hRow => h.shown.rows ▸ hRow
  cells := h.shown.cells
  delete := fun hShows _ hRow => h.deletesShown hStorage hShows hRow

theorem storage_step {action : Action} (h : app.storage = {}) (hPlaced : FormsPlaced app)
    (hSucceeds : StorageSucceeds action) (hStep : app.step P action = some app') : app'.storage = {} := by
  cases step_stepped hPlaced hStep with
  | storage storage => exact hSucceeds
  | selectTab tab _ _ hAppear => exact (viewWillAppear_refreshed hAppear).storage.trans h
  | form slot e form form' _ _ => simpa using h
  | saveEdit uuid form objVehicle text gadgetObj context success gadget due request _ _ _ _ _ _ _ _ hAppear =>
      exact (viewWillAppear_refreshed hAppear).storage.trans h
  | back form _ _ hAppear => exact (viewWillAppear_refreshed hAppear).storage.trans h
  | relaunch context _ _ hAppear => exact (viewWillAppear_refreshed hAppear).storage.trans h
  | _ => exact h

theorem StorageSucceeds.writesSucceed {action : Action} (h : StorageSucceeds action) :
    WritesSucceed action := by
  cases action with
  | storage storage =>
      rw [show storage = {} from h]
      rfl
  | _ => trivial

/-- In every run in which the storage succeeds and new ids are fresh, the rows
of the History table are faithful in every state. -/
theorem history_rows_faithful (P : Platform) {now : Date} {actions : List Action}
    (hRun : Transition.Throughout (App.step P) (fun app action => StorageSucceeds action ∧ FreshID app action)
      (App.installed now) actions) :
    Transition.Always (App.step P) (RowsFaithful P) (App.installed now) actions := by
  have hStart : App.storage (App.installed now) = {} ∧ ∃ records, KeepsRecords (App.installed now) records :=
    ⟨rfl, [], keepsRecords_installed now⟩
  refine (Transition.always_of_throughout
    (I := fun app => app.storage = {} ∧ ∃ records, KeepsRecords app records)
    (fun app action app' hInv hMeets hStep => ?_) hStart hRun).mono fun app hInv => ?_
  · obtain ⟨hStorage, records, hKeeps⟩ := hInv
    obtain ⟨records', _, hNext⟩ := hKeeps.step hMeets.1.writesSucceed hMeets.2 hStep
    exact ⟨storage_step hStorage hKeeps.placed hMeets.1 hStep, records', hNext⟩
  · obtain ⟨hStorage, records, hKeeps⟩ := hInv
    exact hKeeps.rowsFaithful hStorage

/-- One vehicle is added, which is past due at once. -/
theorem history_rows_faithful_added :
    Transition.Always (App.step UTC.platform) (RowsFaithful UTC.platform) (App.installed 1700000000)
      (addingActions "10" "200" 1700000000 "A1") := by
  refine history_rows_faithful UTC.platform (throughout_adding ?_ fun filled hRun => ⟨trivial, fun _ => ?_⟩)
  · simp [fillingActions, StorageSucceeds, FreshID]
  · rw [filled_context hRun]
    simp

end Rows

end ServiceBook

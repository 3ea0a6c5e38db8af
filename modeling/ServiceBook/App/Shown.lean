import ServiceBook.App.Step

/-! What the screens show comes from the store. A list on the screen was
fetched after the last change of the store, and an editor covers the lists
until it is left, so what is shown can be acted on. -/
namespace ServiceBook

open DatabaseManager

/-- The lists on the screen show stored vehicles, the editor edits one, and the
rows of the History table are the rows of its list. -/
structure Shown (app : App) : Prop where
  due : app.Shows .allVehicles →
    ∀ objVehicle ∈ app.allVehiclesVC.arrAllVehicles, AddVehicleVC.Listed app.context objVehicle
  history : app.Shows .history → ∀ objVehicle ∈ app.historyVC.arrAllVehicles,
    AddVehicleVC.Listed app.context objVehicle ∧ pastDue app.now objVehicle.serviceDueDate = true
  editor : ∀ form, app.editor = some form → (firstUnder app.context form.objVehicle.vehicleID).isSome
  rows : app.historyVC.tableAllVehicles.rowCount = app.historyVC.arrAllVehicles.length
  cells : ∀ cell ∈ app.historyVC.tableAllVehicles.cells, app.historyVC.arrAllVehicles[cell.1]? = some cell.2

section Shown

variable {P : Platform} {app app' : App} {action : Action} {context : ManagedObjectContext}

theorem allVehicleOf_serviceDueDate {vehicle : Vehicle} {objVehicle : AllVehiclesI}
    (h : allVehicleOf vehicle = .ok objVehicle) : objVehicle.serviceDueDate = vehicle.serviceDueDate := by
  simp only [allVehicleOf, bind_eq_ok, unwrap_eq_ok, pure_eq_ok, Except.ok.injEq] at h
  obtain ⟨_, _, _, _, rfl⟩ := h
  rfl

/-- What a query by due date returns has a due date of that kind. -/
theorem serviceDueDate_of_listed {outcome : StoreOutcome} {predicate : Option Date → Bool}
    {arrVehicles : List AllVehiclesI} {objVehicle : AllVehiclesI}
    (hList : getAllRecords outcome context (some (onServiceDueDate predicate)) = .ok arrVehicles)
    (hMem : objVehicle ∈ arrVehicles) : predicate objVehicle.serviceDueDate = true := by
  cases hFetch : outcome.fetch with
  | false =>
      rw [getAllRecords, ManagedObjectContext.fetchSorted, ManagedObjectContext.fetch, hFetch] at hList
      cases hList
      cases hMem
  | true =>
      rw [getAllRecords_eq hFetch] at hList
      obtain ⟨obj, hObj, hCopy⟩ := mem_of_mapM_eq_ok hList hMem
      rw [allVehicleOf_serviceDueDate hCopy]
      exact (List.mem_filter.mp ((List.mem_insertionSort _).mp hObj)).2

/-- A cell that is loaded shows the element of the list. -/
theorem cells_show {arrVehicles : List AllVehiclesI} {table : UITableView AllVehiclesI} {row : Nat}
    {vehicleObj : AllVehiclesI} (hCells : ∀ cell ∈ table.cells, arrVehicles[cell.1]? = some cell.2)
    (hRow : arrVehicles[row]? = some vehicleObj) :
    ∀ cell ∈ (table.show row vehicleObj).cells, arrVehicles[cell.1]? = some cell.2 := by
  intro cell hCell
  rcases List.mem_cons.mp hCell with rfl | hOld
  · exact hRow
  · exact hCells cell (List.mem_filter.mp hOld).1

/-- When a tab comes on top its list is fetched, and nothing else changes. -/
theorem shown_of_appear {tab : Tab} (hAppear : (viewWillAppear P tab).run app = .ok () app')
    (hTab : app.selectedTab = tab) (hEditor : app.editor = none)
    (hRows : app.historyVC.tableAllVehicles.rowCount = app.historyVC.arrAllVehicles.length)
    (hCells : ∀ cell ∈ app.historyVC.tableAllVehicles.cells,
      app.historyVC.arrAllVehicles[cell.1]? = some cell.2) : Shown app' := by
  have hSame := viewWillAppear_refreshed hAppear
  have hShows : ∀ shown, app'.Shows shown → shown = tab := fun shown hShown =>
    hShown.1.symm.trans (hSame.selectedTab.trans hTab)
  have hNoEditor : ∀ form, app'.editor = some form →
      (firstUnder app'.context form.objVehicle.vehicleID).isSome := by
    intro form hForm
    rw [hSame.editor, hEditor] at hForm
    cases hForm
  cases tab with
  | allVehicles =>
      obtain ⟨arrVehicles, hList, rfl⟩ := AllVehiclesVC.viewWillAppear_of_ok hAppear
      refine ⟨fun _ objVehicle hMem => ⟨_, _, arrVehicles, hList, hMem⟩, fun hHistory => ?_, hNoEditor, hRows,
        hCells⟩
      cases hShows _ hHistory
  | history =>
      obtain ⟨arrVehicles, hList, rfl⟩ := HistoryPresenter.getAllVehicles_eq_ok.mp hAppear
      refine ⟨fun hDue => ?_, fun _ objVehicle hMem =>
        ⟨⟨_, _, arrVehicles, hList, hMem⟩, serviceDueDate_of_listed hList hMem⟩, hNoEditor, rfl,
        fun cell hNone => by cases hNone⟩
      cases hShows _ hDue
  | addVehicle =>
      obtain ⟨form, _, rfl⟩ := viewWillAppear_addVehicle_of_ok hAppear
      refine ⟨fun hDue => ?_, fun hHistory => ?_, hNoEditor, hRows, hCells⟩
      · cases hShows _ hDue
      · cases hShows _ hHistory

/-- An editor that comes up covers the lists. -/
theorem Shown.of_editor (h : Shown app) {form : AddVehicleVC}
    (hStored : (firstUnder app.context form.objVehicle.vehicleID).isSome) :
    Shown { app with editor := some form } where
  due := fun hDue => by cases hDue.2
  history := fun hHistory => by cases hHistory.2
  editor := fun other hOther => by
    obtain rfl := Option.some.inj hOther
    exact hStored
  rows := h.rows
  cells := h.cells

/-- Every step keeps it that way, whatever the store answers. -/
theorem Shown.step (h : Shown app) (hPlaced : FormsPlaced app) (hStep : app.step P action = some app') :
    Shown app' := by
  obtain ⟨hDue, hHistory, hEditor, hRows, hCells⟩ := h
  cases step_stepped hPlaced hStep with
  | clock now hLater =>
      refine ⟨hDue, fun hShows objVehicle hMem => ?_, hEditor, hRows, hCells⟩
      obtain ⟨hListed, hPast⟩ := hHistory hShows objVehicle hMem
      exact ⟨hListed, pastDue_mono hLater hPast⟩
  | selectTab tab _ hNone hAppear => exact shown_of_appear hAppear rfl hNone hRows hCells
  | snapshot documents =>
      have hList := app.allVehiclesVC.snapshot_arrAllVehicles documents
      exact ⟨fun hShows => hList.symm ▸ hDue hShows, hHistory, hEditor, hRows, hCells⟩
  | allVehiclesDelete row objVehicle gadgetObj context success arrVehicles hShows _ _ _ hList =>
      refine ⟨fun _ v hMem => ⟨_, _, arrVehicles, hList, hMem⟩, fun hOther => ?_, fun form hForm => ?_, hRows,
        hCells⟩
      · cases hShows.1.symm.trans hOther.1
      · cases hShows.2.symm.trans hForm
  | allVehiclesSelect row vehicleObj gadgetObj form hShows hVehicle _ hAppear =>
      have hListed := hDue hShows vehicleObj (List.mem_of_getElem? hVehicle)
      apply Shown.of_editor ⟨hDue, hHistory, hEditor, hRows, hCells⟩
      rw [(AddVehicleVC.sameRecord_appear hAppear rfl).vehicleID]
      exact hListed.stored
  | historyCell row vehicleObj hVehicle => exact ⟨hDue, hHistory, hEditor, hRows, cells_show hCells hVehicle⟩
  | historyDelete row objVehicle context success arrVehicles hShows _ _ hList =>
      refine ⟨fun hOther => ?_, fun _ v hMem =>
        ⟨⟨_, _, arrVehicles, hList, hMem⟩, serviceDueDate_of_listed hList hMem⟩, fun form hForm => ?_, rfl,
        fun cell hNone => by cases hNone⟩
      · cases hShows.1.symm.trans hOther.1
      · cases hShows.2.symm.trans hForm
  | historySelect row vehicleObj form hShows hVehicle hAppear =>
      have hListed := (hHistory hShows vehicleObj (List.mem_of_getElem? hVehicle)).1
      apply Shown.of_editor ⟨hDue, hHistory, hEditor, hRows, hCells⟩
      rw [(AddVehicleVC.sameRecord_appear hAppear rfl).vehicleID]
      exact hListed.stored
  | form slot e form form' hForm hHandle =>
      cases slot with
      | addTab => exact ⟨hDue, hHistory, hEditor, hRows, hCells⟩
      | editor =>
          apply Shown.of_editor ⟨hDue, hHistory, hEditor, hRows, hCells⟩
          rw [(AddVehicleVC.handle_sameRecord hHandle).vehicleID]
          exact hEditor form hForm
  | saveAdd uuid objVehicle text context success gadget due request form hShows _ _ _ _ _ _ =>
      refine ⟨fun hOther => ?_, fun hOther => ?_, fun other hOther => ?_, hRows, hCells⟩
      · cases hShows.1.symm.trans hOther.1
      · cases hShows.1.symm.trans hOther.1
      · cases hShows.2.symm.trans hOther
  | saveEdit uuid form objVehicle text gadgetObj context success gadget due request _ _ _ _ _ _ _ _ hAppear =>
      exact shown_of_appear hAppear rfl rfl hRows hCells
  | back form _ _ hAppear => exact shown_of_appear hAppear rfl rfl hRows hCells
  | relaunch context _ _ hAppear => exact shown_of_appear hAppear rfl rfl rfl (fun cell hNone => by cases hNone)
  | _ => exact ⟨hDue, hHistory, hEditor, hRows, hCells⟩

theorem shown_installed (now : Date) : Shown (App.installed now) := by
  rw [installed_eq]
  refine ⟨fun _ objVehicle hNone => (by cases hNone), fun hHistory => (by cases hHistory.1),
    fun form hNone => (by cases hNone), rfl, fun cell hNone => by cases hNone⟩

end Shown

end ServiceBook

import ServiceBook.App.Step

/-! The Due Services table against the gadgets it is drawn from. Reloading is
left to the local refetches, so a snapshot changes the gadgets under a table
that still has the rows of its last reload. -/
namespace ServiceBook

/-- The table has one row for each gadget, and every cell it has loaded shows
the gadget of its row. -/
structure TableCurrent (app : App) : Prop where
  rowCount : app.allVehiclesVC.tableAllVehicles.rowCount = app.allVehiclesVC.arrGadgets.length
  cells : ∀ cell ∈ app.allVehiclesVC.tableAllVehicles.cells,
    app.allVehiclesVC.arrGadgets[cell.1]? = some cell.2

/-- A snapshot whose gadgets match the rows of the table, and the cells it has
loaded. All other actions are fine, and so is a snapshot that does not decode. -/
def Action.KeepsTable (app : App) : Action → Prop
  | .snapshot documents => ∀ gadgets, FIRFireStoreService.read documents = some gadgets →
      gadgets.length = app.allVehiclesVC.tableAllVehicles.rowCount ∧
      ∀ cell ∈ app.allVehiclesVC.tableAllVehicles.cells, gadgets[cell.1]? = some cell.2
  | _ => True

section Table

variable {P : Platform} {app app' : App} {action : Action}

theorem TableCurrent.of_vc_eq (h : TableCurrent app) (hVC : app'.allVehiclesVC = app.allVehiclesVC) :
    TableCurrent app' := by
  refine ⟨?_, ?_⟩
  · rw [hVC]
    exact h.rowCount
  · rw [hVC]
    exact h.cells

/-- Reloading makes the table current. -/
theorem tableCurrent_of_reload (vc : AllVehiclesVC)
    (hTable : app.allVehiclesVC.tableAllVehicles = vc.tableAllVehicles.reloadData vc.numberOfRows)
    (hGadgets : app.allVehiclesVC.arrGadgets = vc.arrGadgets) : TableCurrent app := by
  refine ⟨?_, ?_⟩
  · rw [hTable, hGadgets]
    rfl
  · rw [hTable]
    intro cell hCell
    cases hCell

theorem TableCurrent.viewWillAppear {tab : Tab} (h : TableCurrent app)
    (hAppear : (viewWillAppear P tab).run app = .ok () app') : TableCurrent app' := by
  cases tab with
  | allVehicles =>
      obtain ⟨arrVehicles, _, rfl⟩ := AllVehiclesVC.viewWillAppear_of_ok hAppear
      exact tableCurrent_of_reload app.allVehiclesVC rfl rfl
  | history =>
      obtain ⟨arrVehicles, _, rfl⟩ := HistoryPresenter.getAllVehicles_eq_ok.mp hAppear
      exact h.of_vc_eq rfl
  | addVehicle =>
      obtain ⟨form, _, rfl⟩ := viewWillAppear_addVehicle_of_ok hAppear
      exact h.of_vc_eq rfl

/-- Loading a cell from the current gadgets. -/
theorem TableCurrent.show (h : TableCurrent app) {row : Nat} {gadgetObj : Gadget}
    (hGadget : app.allVehiclesVC.arrGadgets[row]? = some gadgetObj) :
    TableCurrent { app with allVehiclesVC := { app.allVehiclesVC with
      tableAllVehicles := app.allVehiclesVC.tableAllVehicles.show row gadgetObj } } := by
  refine ⟨h.rowCount, fun cell hCell => ?_⟩
  rcases List.mem_cons.mp hCell with rfl | hCell
  · exact hGadget
  · exact h.cells cell (List.mem_filter.mp hCell).1

/-- A snapshot leaves the table current exactly if its gadgets match it. -/
theorem tableCurrent_snapshot_iff (h : TableCurrent app)
    (documents : List (String × KeyedCoding.JsonObject)) :
    TableCurrent { app with allVehiclesVC := app.allVehiclesVC.snapshot documents } ↔
      (Action.snapshot documents).KeepsTable app := by
  unfold AllVehiclesVC.snapshot Action.KeepsTable
  cases hRead : FIRFireStoreService.read documents with
  | none =>
      refine iff_of_true (h.of_vc_eq rfl) fun gadgets hGadgets => ?_
      rw [hRead] at hGadgets
      cases hGadgets
  | some gadgets =>
      constructor
      · intro hNext other hOther
        obtain rfl := Option.some.inj (hRead.symm.trans hOther)
        exact ⟨hNext.rowCount.symm, hNext.cells⟩
      · intro hKeeps
        obtain ⟨hLength, hCells⟩ := hKeeps gadgets hRead
        exact ⟨hLength.symm, hCells⟩

/-- One step leaves a current table current exactly if it is no snapshot, or
one that matches. -/
theorem tableCurrent_step_iff (hPlaced : FormsPlaced app) (h : TableCurrent app)
    (hStep : app.step P action = some app') : TableCurrent app' ↔ action.KeepsTable app := by
  cases step_stepped hPlaced hStep with
  | snapshot documents => exact tableCurrent_snapshot_iff h documents
  | selectTab tab _ _ hAppear =>
      refine iff_of_true (TableCurrent.viewWillAppear ?_ hAppear) trivial
      exact h.of_vc_eq rfl
  | allVehiclesCell row gadgetObj hGadget => exact iff_of_true (h.show hGadget) trivial
  | allVehiclesDelete row objVehicle _ _ _ _ _ _ _ _ _ =>
      exact iff_of_true
        (tableCurrent_of_reload { app.allVehiclesVC with objVehicle := objVehicle } rfl rfl) trivial
  | form slot e form form' _ _ =>
      exact iff_of_true (h.of_vc_eq (by simp)) trivial
  | saveEdit uuid form objVehicle text gadgetObj context success gadget due request _ _ _ _ _ _ _ _ hAppear =>
      refine iff_of_true (TableCurrent.viewWillAppear ?_ hAppear) trivial
      exact h.of_vc_eq rfl
  | back form _ _ hAppear =>
      refine iff_of_true (TableCurrent.viewWillAppear ?_ hAppear) trivial
      exact h.of_vc_eq rfl
  | relaunch context _ _ hAppear =>
      have hCreated : TableCurrent { App.created context.loadPersistentStores app.pendingRequests app.now with
          storage := app.storage, outbox := app.outbox, told := app.told } :=
        ⟨rfl, fun cell hCell => by cases hCell⟩
      exact iff_of_true (hCreated.viewWillAppear hAppear) trivial
  | _ => exact iff_of_true (h.of_vc_eq rfl) trivial

end Table

theorem tableCurrent_installed (now : Date) : TableCurrent (App.installed now) := by
  rw [installed_eq]
  exact ⟨rfl, fun cell hCell => by cases hCell⟩

/-- Over any run of the app the table is current in every state exactly if
every snapshot that is delivered matches the table it finds. -/
theorem table_current_iff (P : Platform) (now : Date) (actions : List Action) :
    Transition.Always (App.step P) TableCurrent (App.installed now) actions ↔
      Transition.Throughout (App.step P) (fun app action => action.KeepsTable app)
        (App.installed now) actions :=
  Transition.always_iff_throughout (I := FormsPlaced) (fun _ _ _ hPlaced hStep => hPlaced.step hStep)
    (fun _ _ _ hPlaced hTable hStep => tableCurrent_step_iff hPlaced hTable hStep)
    (formsPlaced_installed now) (tableCurrent_installed now)

/-- The first snapshot that is not empty already finds a table without rows. -/
theorem table_not_current :
    ¬ ∀ (P : Platform) (now : Date) (actions : List Action),
      Transition.Always (App.step P) TableCurrent (App.installed now) actions := by
  intro h
  have hSnapshot := (h UTC.platform 0 [.snapshot [("d1", .empty)]]).2
    { App.installed 0 with allVehiclesVC := (App.installed 0).allVehiclesVC.snapshot [("d1", .empty)] }
    rfl
  have hCount := hSnapshot.rowCount
  revert hCount
  decide +kernel

end ServiceBook

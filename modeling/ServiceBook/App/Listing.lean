import ServiceBook.App.Step
import ServiceBook.Utilities.UTC

/-! The list of the Due Services screen. Snapshots replace it, a launch empties
it, and nothing else that happens in the app changes it. A snapshot that does
not decode as a whole is dropped as a whole. -/
namespace ServiceBook

/-- What an action makes of the list. -/
def Action.lists (gadgets : List Gadget) : Action → List Gadget
  | .snapshot documents => (FIRFireStoreService.read documents).getD gadgets
  | .relaunch => []
  | _ => gadgets

section Listing

variable {P : Platform} {app app' : App} {action : Action}

theorem lists_of_step (hPlaced : FormsPlaced app) (hStep : app.step P action = some app') :
    app'.allVehiclesVC.arrGadgets = action.lists app.allVehiclesVC.arrGadgets := by
  cases step_stepped hPlaced hStep with
  | selectTab tab _ _ hAppear => exact (viewWillAppear_refreshed hAppear).arrGadgets
  | snapshot documents =>
      show (app.allVehiclesVC.snapshot documents).arrGadgets =
        (FIRFireStoreService.read documents).getD app.allVehiclesVC.arrGadgets
      unfold AllVehiclesVC.snapshot
      cases FIRFireStoreService.read documents <;> rfl
  | form slot e form form' _ _ =>
      rw [App.setForm_allVehiclesVC]
      rfl
  | saveEdit uuid form objVehicle text gadgetObj context success gadget due request _ _ _ _ _ _ _ _ hAppear =>
      exact (viewWillAppear_refreshed hAppear).arrGadgets
  | back form _ _ hAppear => exact (viewWillAppear_refreshed hAppear).arrGadgets
  | relaunch context _ _ hAppear => exact (viewWillAppear_refreshed hAppear).arrGadgets
  | _ => rfl

/-- A tab that comes up removes no listener. -/
theorem listeners_of_appear {tab : Tab} (hAppear : (viewWillAppear P tab).run app = .ok () app') :
    app.allVehiclesVC.listeners ≤ app'.allVehiclesVC.listeners := by
  cases tab with
  | allVehicles =>
      obtain ⟨arrVehicles, _, rfl⟩ := AllVehiclesVC.viewWillAppear_of_ok hAppear
      exact Nat.le_succ _
  | history =>
      obtain ⟨arrVehicles, _, rfl⟩ := HistoryPresenter.getAllVehicles_eq_ok.mp hAppear
      exact Nat.le_refl _
  | addVehicle =>
      obtain ⟨form, _, rfl⟩ := viewWillAppear_addVehicle_of_ok hAppear
      exact Nat.le_refl _

/-- Once the app listens to the collection, it does so for good. -/
theorem listeners_step (hPlaced : FormsPlaced app) (h : 0 < app.allVehiclesVC.listeners)
    (hStep : app.step P action = some app') : 0 < app'.allVehiclesVC.listeners := by
  cases step_stepped hPlaced hStep with
  | selectTab tab _ _ hAppear =>
      have hMore := listeners_of_appear hAppear
      exact h.trans_le hMore
  | snapshot documents =>
      show 0 < (app.allVehiclesVC.snapshot documents).listeners
      unfold AllVehiclesVC.snapshot
      split <;> exact h
  | form slot e form form' _ _ => simpa using h
  | saveEdit uuid form objVehicle text gadgetObj context success gadget due request _ _ _ _ _ _ _ _ hAppear =>
      have hMore := listeners_of_appear hAppear
      exact h.trans_le hMore
  | back form _ _ hAppear =>
      have hMore := listeners_of_appear hAppear
      exact h.trans_le hMore
  | relaunch context _ _ hAppear =>
      obtain ⟨arrVehicles, _, rfl⟩ := AllVehiclesVC.viewWillAppear_of_ok hAppear
      exact Nat.succ_pos _
  | _ => exact h

/-- The list after a run: the gadgets of the last snapshot since the launch of
which every document decodes, or none. -/
theorem arrGadgets_of_run {now : Date} {actions : List Action}
    (hRun : Transition.run (App.step P) (App.installed now) actions = some app) :
    app.allVehiclesVC.arrGadgets = actions.foldl Action.lists [] := by
  have hFold (start : App) (hPlaced : FormsPlaced start)
      (hRest : Transition.run (App.step P) start actions = some app) :
      app.allVehiclesVC.arrGadgets = actions.foldl Action.lists start.allVehiclesVC.arrGadgets := by
    clear hRun
    induction actions generalizing start with
    | nil => rw [Option.some.inj hRest, List.foldl_nil]
    | cons action rest ih =>
        obtain ⟨next, hStep, hRest⟩ := Transition.run_cons_eq_some.mp hRest
        rw [ih next (hPlaced.step hStep) hRest, lists_of_step hPlaced hStep, List.foldl_cons]
  exact hFold (App.installed now) (formsPlaced_installed now) hRun

/-- The second of two snapshots has a document with a number for a name. -/
private def twoSnapshots : List Action :=
  [.snapshot [("d1", .empty)],
    .snapshot [("d1", .empty), ("d2", SortedMap.Map.set .empty "vehicleName" (.number 7))],
    .selectTab .history]

private theorem twoSnapshots_complete :
    (Transition.run (App.step UTC.platform) (App.installed 0) twoSnapshots).isSome := by
  decide +kernel

theorem arrGadgets_of_run_two :
    ((Transition.run (App.step UTC.platform) (App.installed 0) twoSnapshots).get
      twoSnapshots_complete).allVehiclesVC.arrGadgets = [{ id := some "d1" }] :=
  (arrGadgets_of_run (Option.some_get twoSnapshots_complete).symm).trans (by decide +kernel)

end Listing

end ServiceBook

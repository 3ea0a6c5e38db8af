import ServiceBook.App.Records
import ServiceBook.App.Written

/-! With fresh ids for new records the ids of the stored objects stay distinct,
whatever the store answers. A vehicle on a list then stands for one object. -/
namespace ServiceBook

open DatabaseManager

/-- What every step keeps when new ids are fresh. -/
structure Identified (app : App) : Prop where
  placed : FormsPlaced app
  shown : Shown app
  distinct : DistinctIDs app.context

section Identity

variable {P : Platform} {app app' : App} {action : Action}

theorem DatabaseManager.DistinctIDs.step (h : DistinctIDs app.context) (hPlaced : FormsPlaced app)
    (hFresh : FreshID app action) (hStep : app.step P action = some app') : DistinctIDs app'.context := by
  have hWritten := written_of_step hPlaced hStep
  generalize app'.context = context at hWritten ⊢
  cases hWritten with
  | quiet => exact h
  | delete recordID calls hDelete => exact h.deleteRecord hDelete
  | add uuid objVehicle text calls hShows hRule hAdd =>
      refine h.addRecord (fun vehicle hVehicle => ?_) hAdd
      obtain ⟨obj, hObj, rfl⟩ := List.mem_map.mp hVehicle
      obtain ⟨_, rfl⟩ := AppSharedInstance.getServiceDueDate_sets hRule
      have hID : (app.addVehicleVC.populate P uuid).vehicleID = uuid := if_neg (by simp [hPlaced.addTab])
      change _ ≠ some (app.addVehicleVC.populate P uuid).vehicleID
      rw [hID]
      exact hFresh (activeForm_eq_addTab.mpr hShows) obj hObj
  | edit uuid form objVehicle text calls hForm hRule hEdit => exact h.editRecord hEdit
  | terminate hSave => exact h.saveContext hSave

theorem Identified.step (h : Identified app) (hFresh : FreshID app action)
    (hStep : app.step P action = some app') : Identified app' where
  placed := h.placed.step hStep
  shown := h.shown.step h.placed hStep
  distinct := h.distinct.step h.placed hFresh hStep

theorem identified_installed (now : Date) : Identified (App.installed now) where
  placed := formsPlaced_installed now
  shown := shown_installed now
  distinct := distinctIDs_empty

/-- In every run whose new ids are fresh. -/
theorem identified_run {now : Date} {actions : List Action}
    (hFresh : Transition.Throughout (App.step P) FreshID (App.installed now) actions) :
    Transition.Always (App.step P) Identified (App.installed now) actions :=
  Transition.always_of_throughout (fun _ _ _ h hMeets hStep => h.step hMeets hStep) (identified_installed now)
    hFresh

end Identity

end ServiceBook

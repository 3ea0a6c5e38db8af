import ServiceBook.App.Step
import ServiceBook.Database.Contents

/-! What Save writes is what the store contains: a property of every vehicle
that a Save passes to the database is a property of all stored values, in every
state of the app and whatever the store has answered so far. -/
namespace ServiceBook

/-- The action is a Save, and this is the vehicle it passes to the database. -/
def Saves (P : Platform) (app : App) (action : Action) (objVehicle : AllVehiclesI) : Prop :=
  ∃ uuid slot form text, action = .clkSave uuid ∧ app.activeForm = some slot ∧ app.form slot = some form ∧
    AppSharedInstance.getServiceDueDate P (form.populate P uuid) = .ok (objVehicle, text)

section Written

open DatabaseManager

/-- What a step does to the context: nothing, one operation of the database, or
the save at termination. -/
inductive Written (P : Platform) (app : App) : Action → ManagedObjectContext → Prop
  | quiet {action : Action} : Written P app action app.context
  | delete {action : Action} {context : ManagedObjectContext} (recordID : String) (calls : List Bool)
      (hDelete : deleteRecord app.storage.write app.context recordID = .ok (context, calls)) :
      Written P app action context
  | add {context : ManagedObjectContext} (uuid : String) (objVehicle : AllVehiclesI) (text : String)
      (calls : List Bool) (hShows : app.Shows .addVehicle)
      (hRule : AppSharedInstance.getServiceDueDate P (app.addVehicleVC.populate P uuid) =
        .ok (objVehicle, text))
      (hAdd : addRecord app.storage.write app.context objVehicle = .ok (context, calls)) :
      Written P app (.clkSave uuid) context
  | edit {context : ManagedObjectContext} (uuid : String) (form : AddVehicleVC) (objVehicle : AllVehiclesI)
      (text : String) (calls : List Bool) (hForm : app.editor = some form)
      (hRule : AppSharedInstance.getServiceDueDate P (form.populate P uuid) = .ok (objVehicle, text))
      (hEdit : editRecord app.storage.write app.context objVehicle = .ok (context, calls)) :
      Written P app (.clkSave uuid) context
  | terminate {context : ManagedObjectContext}
      (hSave : saveContext app.storage.write app.context = .ok context) :
      Written P app .relaunch context.loadPersistentStores

variable {P : Platform} {Q : AllVehiclesI → Prop} {app app' : App} {action : Action}

theorem Saves.addTab {uuid text : String} {objVehicle : AllVehiclesI} (hShows : app.Shows .addVehicle)
    (hRule : AppSharedInstance.getServiceDueDate P (app.addVehicleVC.populate P uuid) = .ok (objVehicle, text)) :
    Saves P app (.clkSave uuid) objVehicle :=
  ⟨uuid, .addTab, app.addVehicleVC, text, rfl, activeForm_eq_addTab.mpr hShows, rfl, hRule⟩

theorem Saves.editor {uuid text : String} {form : AddVehicleVC} {objVehicle : AllVehiclesI}
    (hForm : app.editor = some form)
    (hRule : AppSharedInstance.getServiceDueDate P (form.populate P uuid) = .ok (objVehicle, text)) :
    Saves P app (.clkSave uuid) objVehicle :=
  ⟨uuid, .editor, form, text, rfl, activeForm_eq_editor.mpr (Option.isSome_iff_exists.mpr ⟨form, hForm⟩),
    hForm, hRule⟩

theorem written_of_step (hPlaced : FormsPlaced app) (hStep : app.step P action = some app') :
    Written P app action app'.context := by
  cases step_stepped hPlaced hStep with
  | selectTab tab _ _ hAppear =>
      rw [(viewWillAppear_refreshed hAppear).context]
      exact .quiet
  | allVehiclesDelete row objVehicle gadgetObj context success arrVehicles _ _ _ hDelete _ =>
      exact .delete objVehicle.vehicleID [success] hDelete
  | historyDelete row objVehicle context success arrVehicles _ _ hDelete _ =>
      exact .delete objVehicle.vehicleID [success] hDelete
  | form slot e form form' _ _ =>
      rw [App.setForm_context]
      exact .quiet
  | saveAdd uuid objVehicle text context success gadget due request form hShows hRule hAdd _ _ _ _ =>
      exact .add uuid objVehicle text [success] hShows hRule hAdd
  | saveEdit uuid form objVehicle text gadgetObj context success gadget due request _ hForm hRule _ hEdit _ _ _
      hAppear =>
      rw [(viewWillAppear_refreshed hAppear).context]
      exact .edit uuid form objVehicle text [success] hForm hRule hEdit
  | back form _ _ hAppear =>
      rw [(viewWillAppear_refreshed hAppear).context]
      exact .quiet
  | relaunch context _ hSave hAppear =>
      rw [(viewWillAppear_refreshed hAppear).context]
      exact .terminate hSave
  | _ => exact .quiet

/-- A step adds only what its Save writes. -/
theorem DatabaseManager.Contains.step (hPlaced : FormsPlaced app) (h : Contains Q app.context)
    (hStep : app.step P action = some app')
    (hSaves : ∀ objVehicle, Saves P app action objVehicle → Narrow objVehicle → Q objVehicle) :
    Contains Q app'.context := by
  have hWritten := written_of_step hPlaced hStep
  generalize app'.context = context at hWritten ⊢
  cases hWritten with
  | quiet => exact h
  | delete recordID calls hDelete => exact h.deleteRecord hDelete
  | add uuid objVehicle text calls hShows hRule hAdd =>
      exact h.addRecord (hSaves objVehicle (.addTab hShows hRule)) hAdd
  | edit uuid form objVehicle text calls hForm hRule hEdit =>
      exact h.editRecord (hSaves objVehicle (.editor hForm hRule)) hEdit
  | terminate hSave => exact (h.saveContext hSave).loadPersistentStores

/-- In every run whose Saves write vehicles with the property, the store
contains nothing else. -/
theorem contains_run {now : Date} {actions : List Action}
    (hSaves : Transition.Throughout (App.step P) (fun app action =>
      ∀ objVehicle, Saves P app action objVehicle → Narrow objVehicle → Q objVehicle)
      (App.installed now) actions) :
    Transition.Always (App.step P) (fun app => Contains Q app.context) (App.installed now) actions := by
  have hStart : FormsPlaced (App.installed now) ∧ Contains Q (App.installed now).context :=
    ⟨formsPlaced_installed now, contains_empty⟩
  refine (Transition.always_of_throughout (I := fun app => FormsPlaced app ∧ Contains Q app.context)
    (fun app action app' hInv hMeets hStep => ?_) hStart hSaves).mono fun app hInv => hInv.2
  exact ⟨hInv.1.step hStep, hInv.2.step hInv.1 hStep hMeets⟩

end Written

end ServiceBook

import Mathlib.Data.List.Forall2
import ServiceBook.App.Step
import ServiceBook.Database.Contents
import ServiceBook.Utilities.UTC

/-! Whether the store can save is not to be seen on the screens. A failed save
leaves its changes in the context, every fetch sees them there, and no completion
handler looks at the outcome, so until the process ends the app goes on exactly
as if all its saves had succeeded. -/
namespace ServiceBook

open Program

/-- The apps differ at most in which of their changes are persisted, and in what
the store answers to saves. -/
def SameButSaves (app app' : App) : Prop :=
  ∃ context storage, context.objects = app.context.objects ∧
    storage.write.fetch = app.storage.write.fetch ∧ storage.list.fetch = app.storage.list.fetch ∧
    app' = { app with context := context, storage := storage }

/-- The same action, or two answers of the store that differ at most in the saves. -/
inductive SameButSaveFlags : Action → Action → Prop where
  | same (action : Action) (hStays : ∀ storage, action ≠ .storage storage) (hLives : action ≠ .relaunch) :
      SameButSaveFlags action action
  | storage (storage storage' : Storage) (hWrite : storage'.write.fetch = storage.write.fetch)
      (hList : storage'.list.fetch = storage.list.fetch) :
      SameButSaveFlags (.storage storage) (.storage storage')

/-- A change of the app that neither reads nor changes the store. -/
def OffStore (g : App → App) : Prop :=
  ∀ app context storage, g { app with context := context, storage := storage } =
    { g app with context := context, storage := storage }

namespace DatabaseManager

variable {outcome outcome' : StoreOutcome} {context context' : ManagedObjectContext}

theorem fetch_of_objects (hObjects : context'.objects = context.objects) (hFetch : outcome'.fetch = outcome.fetch)
    (predicate : NSPredicate) : context'.fetch outcome' predicate = context.fetch outcome predicate := by
  simp only [ManagedObjectContext.fetch, hObjects, hFetch]

theorem getAllRecords_of_objects (hObjects : context'.objects = context.objects)
    (hFetch : outcome'.fetch = outcome.fetch) (predicate : Option NSPredicate) :
    getAllRecords outcome' context' predicate = getAllRecords outcome context predicate := by
  simp only [getAllRecords, ManagedObjectContext.fetchSorted, fetch_of_objects hObjects hFetch]

/-- A write finds the same objects and leaves the same objects, or traps in the
same way, whatever becomes of its save. -/
theorem Write.perform_of_objects (hObjects : context'.objects = context.objects)
    (hFetch : outcome'.fetch = outcome.fetch) (operation : Write) :
    (∃ t, operation.perform outcome context = .error t ∧ operation.perform outcome' context' = .error t) ∨
      ∃ next next' success success', operation.perform outcome context = .ok (next, [success]) ∧
        operation.perform outcome' context' = .ok (next', [success']) ∧ next'.objects = next.objects := by
  have hSaved (start start' : ManagedObjectContext) (hSame : start'.objects = start.objects) :
      (start'.save outcome').1.objects = (start.save outcome).1.objects := by
    rw [objects_save, objects_save, hSame]
  have hChanged (change : Table.Change Vehicle) :
      (context'.perform change).objects = (context.perform change).objects := by
    rw [ManagedObjectContext.objects_perform, ManagedObjectContext.objects_perform, hObjects]
  cases operation with
  | addRecord objVehicle =>
      simp only [Write.perform, DatabaseManager.addRecord]
      cases unwrap objVehicle.serviceRequiredAfter with
      | error t => exact .inl ⟨t, rfl, rfl⟩
      | ok distance =>
          simp only [ok_bind]
          cases int32OfInt distance with
          | error t => exact .inl ⟨t, rfl, rfl⟩
          | ok distance' =>
              simp only [ok_bind]
              cases unwrap objVehicle.averageRun with
              | error t => exact .inl ⟨t, rfl, rfl⟩
              | ok run =>
                  simp only [ok_bind]
                  cases int16OfInt run with
                  | error t => exact .inl ⟨t, rfl, rfl⟩
                  | ok run' => exact .inr ⟨_, _, _, _, rfl, rfl, hSaved _ _ (hChanged _)⟩
  | editRecord objVehicle =>
      have hFetched : context'.fetchSorted outcome' (hasVehicleID objVehicle.vehicleID) =
          context.fetchSorted outcome (hasVehicleID objVehicle.vehicleID) := by
        simp only [ManagedObjectContext.fetchSorted, fetch_of_objects hObjects hFetch]
      simp only [Write.perform, DatabaseManager.editRecord, hFetched]
      cases context.fetchSorted outcome (hasVehicleID objVehicle.vehicleID) with
      | none => exact .inr ⟨_, _, _, _, rfl, rfl, hObjects⟩
      | some found =>
          cases found with
          | nil => exact .inr ⟨_, _, _, _, rfl, rfl, hSaved _ _ hObjects⟩
          | cons obj rest =>
              cases editedVehicle objVehicle with
              | error t => exact .inl ⟨t, rfl, rfl⟩
              | ok vehicle => exact .inr ⟨_, _, _, _, rfl, rfl, hSaved _ _ (hChanged _)⟩
  | deleteRecord recordID =>
      simp only [Write.perform, DatabaseManager.deleteRecord, fetch_of_objects hObjects hFetch]
      cases context.fetch outcome (hasVehicleID recordID) with
      | none => exact .inl ⟨_, rfl, rfl⟩
      | some found =>
          refine .inr ⟨_, _, _, _, rfl, rfl, hSaved _ _ ?_⟩
          rw [objects_deleteObjects, objects_deleteObjects, hObjects]

end DatabaseManager

section Alike

variable {P : Platform} {app app' : App}

theorem SameButSaves.refl (app : App) : SameButSaves app app := ⟨app.context, app.storage, rfl, rfl, rfl, rfl⟩

theorem SameButSaves.map {g : App → App} (hOff : OffStore g) (h : SameButSaves app app') :
    SameButSaves (g app) (g app') := by
  obtain ⟨context, storage, hObjects, hWrite, hList, rfl⟩ := h
  have hKept := hOff app app.context app.storage
  have hContext : (g app).context = app.context := by
    have hPart := congrArg App.context hKept
    exact hPart
  have hStorage : (g app).storage = app.storage := by
    have hPart := congrArg App.storage hKept
    exact hPart
  exact ⟨context, storage, by rw [hContext, hObjects], by rw [hStorage, hWrite], by rw [hStorage, hList],
    hOff app context storage⟩

theorem alike_modify_off {g : App → App} (hOff : OffStore g) (h : SameButSaves app app') :
    Alike SameButSaves ((modify g : AppM Unit).run app) ((modify g : AppM Unit).run app') :=
  alike_modify (h.map hOff)

/-- The completion handler runs on both sides after a write. -/
theorem alike_perform {rest : AppM Unit} (operation : DatabaseManager.Write)
    (hRest : ∀ app app', SameButSaves app app' → Alike SameButSaves (rest.run app) (rest.run app'))
    (h : SameButSaves app app') :
    Alike SameButSaves
      ((VehicleManager.perform operation >>= fun calls => calls.forM fun _ => rest).run app)
      ((VehicleManager.perform operation >>= fun calls => calls.forM fun _ => rest).run app') := by
  obtain ⟨context, storage, hObjects, hWrite, hList, hApp⟩ := h
  have hStorage : app'.storage = storage := by rw [hApp]
  have hContext : app'.context = context := by rw [hApp]
  rcases operation.perform_of_objects hObjects hWrite with
    ⟨t, hTrap, hTrap'⟩ | ⟨next, next', success, success', hNext, hNext', hSame⟩
  · rw [← hStorage, ← hContext] at hTrap'
    rw [VehicleManager.perform_bind_of_error hTrap, VehicleManager.perform_bind_of_error hTrap']
    exact .error t ⟨context, storage, hObjects, hWrite, hList, hApp⟩
  · rw [← hStorage, ← hContext] at hNext'
    rw [VehicleManager.perform_forM_run hNext, VehicleManager.perform_forM_run hNext']
    refine hRest _ _ ⟨next', storage, hSame, hWrite, hList, ?_⟩
    rw [hApp]

theorem alike_refetch (predicate : Date → NSPredicate) (receive : List AllVehiclesI → App → App)
    (hOff : ∀ arrVehicles, OffStore (receive arrVehicles)) (h : SameButSaves app app') :
    Alike SameButSaves
      ((do
        let app ← get
        let arrVehicles ← VehicleManager.getAllVehicles (some (predicate app.now))
        modify (receive arrVehicles) : AppM Unit).run app)
      ((do
        let app ← get
        let arrVehicles ← VehicleManager.getAllVehicles (some (predicate app.now))
        modify (receive arrVehicles) : AppM Unit).run app') := by
  have hSame := h
  obtain ⟨context, storage, hObjects, hWrite, hList, rfl⟩ := h
  rw [run_get_bind, run_get_bind]
  refine Alike.bind ?_ fun arrVehicles _ _ hNext => alike_modify_off (hOff arrVehicles) hNext
  rw [VehicleManager.getAllVehicles, run_get_bind, run_get_bind]
  have hRecords : DatabaseManager.getAllRecords storage.list context (some (predicate app.now)) =
      DatabaseManager.getAllRecords app.storage.list app.context (some (predicate app.now)) :=
    DatabaseManager.getAllRecords_of_objects hObjects hList _
  show Alike _ _ ((ofExcept (DatabaseManager.getAllRecords storage.list context _)).run _)
  rw [hRecords]
  exact alike_ofExcept _ hSame

theorem AllVehiclesPresenter.alike_getAllVehicles (h : SameButSaves app app') :
    Alike SameButSaves (AllVehiclesPresenter.getAllVehicles.run app)
      (AllVehiclesPresenter.getAllVehicles.run app') :=
  alike_refetch (fun now => DatabaseManager.onServiceDueDate (upcoming now)) _ (fun _ _ _ _ => rfl) h

theorem HistoryPresenter.alike_getAllVehicles (h : SameButSaves app app') :
    Alike SameButSaves (HistoryPresenter.getAllVehicles.run app) (HistoryPresenter.getAllVehicles.run app') :=
  alike_refetch (fun now => DatabaseManager.onServiceDueDate (pastDue now)) _ (fun _ _ _ _ => rfl) h

theorem alike_viewWillAppear (tab : Tab) (h : SameButSaves app app') :
    Alike SameButSaves ((viewWillAppear P tab).run app) ((viewWillAppear P tab).run app') := by
  cases tab with
  | allVehicles =>
      exact Alike.bind (AllVehiclesPresenter.alike_getAllVehicles h) fun _ _ _ hNext =>
        alike_modify_off (fun _ _ _ => rfl) hNext
  | history => exact HistoryPresenter.alike_getAllVehicles h
  | addVehicle =>
      have hSame := h
      obtain ⟨context, storage, _, _, _, rfl⟩ := h
      rw [viewWillAppear, run_get_bind, run_get_bind]
      exact Alike.bind (alike_ofExcept _ hSame) fun form _ _ _ =>
        alike_set (hSame.map (g := fun app => { app with addVehicleVC := form }) fun _ _ _ => rfl)

theorem form_offStore (app : App) (context : ManagedObjectContext) (storage : Storage) (slot : FormSlot) :
    App.form { app with context := context, storage := storage } slot = app.form slot := by
  cases slot <;> rfl

theorem offStore_setForm (form : AddVehicleVC) (slot : FormSlot) : OffStore fun app => app.setForm form slot := by
  intro app context storage
  cases slot <;> rfl

theorem alike_setLocalNotification (vehicleObj : AllVehiclesI) (notificationDate : Date)
    (h : SameButSaves app app') :
    Alike SameButSaves ((AppSharedInstance.setLocalNotification vehicleObj notificationDate).run app)
      ((AppSharedInstance.setLocalNotification vehicleObj notificationDate).run app') :=
  Alike.bind (alike_ofExcept _ h) fun _ _ _ hNext => alike_modify_off (fun _ _ _ => rfl) hNext

theorem alike_addNewRecordOnFirebase (objVehicle : AllVehiclesI) (h : SameButSaves app app') :
    Alike SameButSaves ((addNewRecordOnFirebase objVehicle).run app)
      ((addNewRecordOnFirebase objVehicle).run app') :=
  Alike.bind (alike_ofExcept _ h) fun _ _ _ hNext => alike_modify_off (fun _ _ _ => rfl) hNext

theorem alike_updateRecordOnServer (gadgetObj : Gadget) (objVehicle : AllVehiclesI)
    (h : SameButSaves app app') :
    Alike SameButSaves ((AddVehiclePresenter.updateRecordOnServer gadgetObj objVehicle).run app)
      ((AddVehiclePresenter.updateRecordOnServer gadgetObj objVehicle).run app') :=
  Alike.bind (alike_ofExcept _ h) fun _ _ _ hNext => alike_modify_off (fun _ _ _ => rfl) hNext

theorem alike_popViewController (h : SameButSaves app app') :
    Alike SameButSaves ((popViewController P).run app) ((popViewController P).run app') := by
  have hCovered : app'.editor = app.editor ∧ app'.selectedTab = app.selectedTab := by
    obtain ⟨_, _, _, _, _, rfl⟩ := h
    exact ⟨rfl, rfl⟩
  rw [popViewController, run_get_bind, run_get_bind, hCovered.1]
  cases app.editor with
  | none => exact alike_pure _ h
  | some form =>
      refine Alike.bind (alike_set (h.map (g := fun app => { app with editor := none }) fun _ _ _ => rfl))
        fun _ _ _ hNext => ?_
      rw [hCovered.2]
      exact alike_viewWillAppear app.selectedTab hNext

theorem alike_newVehicleAdded (slot : FormSlot) (isSuccess : Bool) (h : SameButSaves app app') :
    Alike SameButSaves ((AddVehicleVC.newVehicleAdded P slot isSuccess).run app)
      ((AddVehicleVC.newVehicleAdded P slot isSuccess).run app') := by
  have hSame := h
  obtain ⟨context, storage, _, _, _, rfl⟩ := h
  rw [AddVehicleVC.newVehicleAdded, run_get_bind, run_get_bind]
  simp only [form_offStore]
  cases app.form slot with
  | none => exact alike_pure _ hSame
  | some form =>
      refine Alike.bind (alike_set (hSame.map
        (g := fun app => { app with told := app.told ++ [.newVehicleAdded isSuccess] }) fun _ _ _ => rfl))
        fun _ _ _ hTold => ?_
      refine Alike.bind (alike_ofExcept _ hTold) fun serviceDueDate _ _ hDue => ?_
      refine Alike.bind (alike_setLocalNotification _ _ hDue) fun _ _ _ hScheduled => ?_
      refine Alike.bind (alike_ofExcept _ hScheduled) fun form _ _ hReloaded => ?_
      exact alike_modify_off (offStore_setForm form slot) hReloaded

theorem alike_vehicleInfoUpdated (slot : FormSlot) (isSuccess : Bool) (h : SameButSaves app app') :
    Alike SameButSaves ((AddVehicleVC.vehicleInfoUpdated P slot isSuccess).run app)
      ((AddVehicleVC.vehicleInfoUpdated P slot isSuccess).run app') := by
  have hSame := h
  obtain ⟨context, storage, _, _, _, rfl⟩ := h
  rw [AddVehicleVC.vehicleInfoUpdated, run_get_bind, run_get_bind]
  simp only [form_offStore]
  cases app.form slot with
  | none => exact alike_pure _ hSame
  | some form =>
      refine Alike.bind (alike_set (hSame.map
        (g := fun app => { app with told := app.told ++ [.vehicleInfoUpdated isSuccess] }) fun _ _ _ => rfl))
        fun _ _ _ hTold => ?_
      refine Alike.bind (alike_modify_off (fun _ _ _ => rfl) hTold) fun _ _ _ hRemoved => ?_
      refine Alike.bind (alike_ofExcept _ hRemoved) fun serviceDueDate _ _ hDue => ?_
      refine Alike.bind (alike_setLocalNotification _ _ hDue) fun _ _ _ hScheduled => ?_
      exact alike_popViewController hScheduled

theorem alike_clkSave (slot : FormSlot) (uuid : String) (h : SameButSaves app app') :
    Alike SameButSaves ((AddVehicleVC.clkSave P slot uuid).run app)
      ((AddVehicleVC.clkSave P slot uuid).run app') := by
  have hSame := h
  obtain ⟨context, storage, _, _, _, rfl⟩ := h
  rw [AddVehicleVC.clkSave, run_get_bind, run_get_bind]
  simp only [form_offStore]
  cases app.form slot with
  | none => exact alike_pure _ hSame
  | some form =>
      refine Alike.bind (alike_ofExcept _ hSame) fun result _ _ _ => ?_
      obtain ⟨objVehicle, text⟩ := result
      refine Alike.bind (alike_set (hSame.map (offStore_setForm _ slot))) fun _ _ _ hPopulated => ?_
      by_cases hEdit : form.isRecordEdit = true
      · rw [if_pos hEdit]
        refine Alike.bind (alike_ofExcept _ hPopulated) fun gadgetObj _ _ hGadget => ?_
        exact alike_perform (.editRecord objVehicle) (fun _ _ hWritten =>
          Alike.bind (alike_updateRecordOnServer gadgetObj objVehicle hWritten) fun _ _ _ hSent =>
            alike_vehicleInfoUpdated slot true hSent) hGadget
      · rw [if_neg hEdit]
        exact alike_perform (.addRecord objVehicle) (fun _ _ hWritten =>
          Alike.bind (alike_addNewRecordOnFirebase objVehicle hWritten) fun _ _ _ hSent =>
            alike_newVehicleAdded slot true hSent) hPopulated

theorem AllVehiclesVC.alike_commitDelete (row : Nat) (h : SameButSaves app app') :
    Alike SameButSaves ((AllVehiclesVC.commitDelete row).run app) ((AllVehiclesVC.commitDelete row).run app') := by
  have hSame := h
  obtain ⟨context, storage, _, _, _, rfl⟩ := h
  rw [AllVehiclesVC.commitDelete, run_get_bind, run_get_bind]
  dsimp only
  cases app.allVehiclesVC.arrAllVehicles[row]? with
  | none => exact alike_throw _ hSame
  | some objVehicle =>
      refine Alike.bind (alike_set (hSame.map (g := fun app => { app with
        allVehiclesVC := { app.allVehiclesVC with objVehicle := objVehicle } }) fun _ _ _ => rfl))
        fun _ _ _ hChosen => ?_
      cases app.allVehiclesVC.arrGadgets[row]? with
      | none => exact alike_throw _ hChosen
      | some gadgetObj =>
          refine alike_perform (.deleteRecord objVehicle.vehicleID) (fun _ _ hWritten => ?_) hChosen
          refine Alike.bind (alike_modify_off (fun _ _ _ => rfl) hWritten) fun _ _ _ hSent => ?_
          obtain ⟨context, storage, hObjects, hWrite, hList, rfl⟩ := hSent
          rw [AllVehiclesVC.vehicleDeleted, run_get_bind, run_get_bind]
          exact Alike.bind
            (alike_modify_off (fun _ _ _ => rfl) ⟨context, storage, hObjects, hWrite, hList, rfl⟩)
            fun _ _ _ hRemoved => AllVehiclesPresenter.alike_getAllVehicles hRemoved

theorem HistoryVC.alike_commitDelete (row : Nat) (h : SameButSaves app app') :
    Alike SameButSaves ((HistoryVC.commitDelete row).run app) ((HistoryVC.commitDelete row).run app') := by
  have hSame := h
  obtain ⟨context, storage, _, _, _, rfl⟩ := h
  rw [HistoryVC.commitDelete, run_get_bind, run_get_bind]
  dsimp only
  cases app.historyVC.arrAllVehicles[row]? with
  | none => exact alike_throw _ hSame
  | some objVehicle =>
      refine Alike.bind (alike_set (hSame.map (g := fun app => { app with
        historyVC := { app.historyVC with objVehicle := objVehicle } }) fun _ _ _ => rfl))
        fun _ _ _ hChosen => ?_
      exact alike_perform (.deleteRecord objVehicle.vehicleID)
        (fun _ _ hWritten => HistoryPresenter.alike_getAllVehicles hWritten) hChosen

theorem AllVehiclesVC.alike_cellForRowAt (row : Nat) (h : SameButSaves app app') :
    Alike SameButSaves ((AllVehiclesVC.cellForRowAt row).run app) ((AllVehiclesVC.cellForRowAt row).run app') := by
  have hSame := h
  obtain ⟨context, storage, _, _, _, rfl⟩ := h
  rw [AllVehiclesVC.cellForRowAt, run_get_bind, run_get_bind]
  dsimp only
  split
  · cases app.allVehiclesVC.arrGadgets[row]? with
    | none => exact alike_throw _ hSame
    | some gadgetObj =>
        refine Alike.bind (alike_ofExcept _ hSame) fun _ _ _ _ => ?_
        exact alike_set (hSame.map (g := fun app => { app with allVehiclesVC := { app.allVehiclesVC with
          tableAllVehicles := app.allVehiclesVC.tableAllVehicles.show row gadgetObj } }) fun _ _ _ => rfl)
  · exact alike_pure _ hSame

theorem HistoryVC.alike_cellForRowAt (row : Nat) (h : SameButSaves app app') :
    Alike SameButSaves ((HistoryVC.cellForRowAt row).run app) ((HistoryVC.cellForRowAt row).run app') := by
  have hSame := h
  obtain ⟨context, storage, _, _, _, rfl⟩ := h
  rw [HistoryVC.cellForRowAt, run_get_bind, run_get_bind]
  dsimp only
  cases app.historyVC.arrAllVehicles[row]? with
  | none => exact alike_throw _ hSame
  | some vehicleObj =>
      refine Alike.bind (alike_ofExcept _ hSame) fun _ _ _ _ => ?_
      exact alike_set (hSame.map (g := fun app => { app with historyVC := { app.historyVC with
        tableAllVehicles := app.historyVC.tableAllVehicles.show row vehicleObj } }) fun _ _ _ => rfl)

theorem alike_pushEditor (objVehicle : AllVehiclesI) (gadgetToUpdate : Option Gadget)
    (h : SameButSaves app app') :
    Alike SameButSaves ((pushEditor P objVehicle gadgetToUpdate).run app)
      ((pushEditor P objVehicle gadgetToUpdate).run app') := by
  have hSame := h
  obtain ⟨context, storage, _, _, _, rfl⟩ := h
  rw [pushEditor, run_get_bind, run_get_bind]
  exact Alike.bind (alike_ofExcept _ hSame) fun form _ _ _ =>
    alike_set (hSame.map (g := fun app => { app with editor := some form }) fun _ _ _ => rfl)

theorem AllVehiclesVC.alike_didSelectRowAt (row : Nat) (h : SameButSaves app app') :
    Alike SameButSaves ((AllVehiclesVC.didSelectRowAt P row).run app)
      ((AllVehiclesVC.didSelectRowAt P row).run app') := by
  have hSame := h
  obtain ⟨context, storage, _, _, _, rfl⟩ := h
  rw [AllVehiclesVC.didSelectRowAt, run_get_bind, run_get_bind]
  dsimp only
  cases app.allVehiclesVC.arrAllVehicles[row]? with
  | none => exact alike_throw _ hSame
  | some vehicleObj =>
      cases app.allVehiclesVC.arrGadgets[row]? with
      | none => exact alike_throw _ hSame
      | some gadgetObj => exact alike_pushEditor vehicleObj (some gadgetObj) hSame

theorem HistoryVC.alike_didSelectRowAt (row : Nat) (h : SameButSaves app app') :
    Alike SameButSaves ((HistoryVC.didSelectRowAt P row).run app)
      ((HistoryVC.didSelectRowAt P row).run app') := by
  have hSame := h
  obtain ⟨context, storage, _, _, _, rfl⟩ := h
  rw [HistoryVC.didSelectRowAt, run_get_bind, run_get_bind]
  dsimp only
  cases app.historyVC.arrAllVehicles[row]? with
  | none => exact alike_throw _ hSame
  | some vehicleObj => exact alike_pushEditor vehicleObj none hSame

theorem alike_formEvent (slot : FormSlot) (e : AddVehicleVC.Event) (h : SameButSaves app app') :
    Alike SameButSaves ((formEvent P slot e).run app) ((formEvent P slot e).run app') := by
  have hSame := h
  obtain ⟨context, storage, _, _, _, rfl⟩ := h
  rw [formEvent, run_get_bind, run_get_bind]
  simp only [form_offStore]
  cases app.form slot with
  | none => exact alike_pure _ hSame
  | some form =>
      exact Alike.bind (alike_ofExcept _ hSame) fun form' _ _ _ =>
        alike_set (hSame.map (offStore_setForm form' slot))

/-- What the screens offer does not depend on the store. -/
theorem SameButSaves.offered (h : SameButSaves app app') (action : Action) :
    action.Offered app' ↔ action.Offered app := by
  obtain ⟨_, _, _, _, _, rfl⟩ := h
  cases action <;> exact Iff.rfl

theorem SameButSaves.activeForm (h : SameButSaves app app') : app'.activeForm = app.activeForm := by
  obtain ⟨_, _, _, _, _, rfl⟩ := h
  rfl

theorem alike_handle {action action' : Action} (hFlags : SameButSaveFlags action action')
    (h : SameButSaves app app') :
    Alike SameButSaves ((handle P action).run app) ((handle P action').run app') := by
  cases hFlags with
  | storage storage storage' hWrite hList =>
      obtain ⟨context, _, hObjects, _, _, rfl⟩ := h
      exact alike_modify ⟨context, storage', hObjects, hWrite, hList, rfl⟩
  | same action hStays hLives =>
      cases action with
      | clock now => exact alike_modify_off (fun _ _ _ => rfl) h
      | storage storage => exact absurd rfl (hStays storage)
      | selectTab tab =>
          exact Alike.bind (alike_modify_off (fun _ _ _ => rfl) h) fun _ _ _ hNext =>
            alike_viewWillAppear tab hNext
      | snapshot documents => exact alike_modify_off (fun _ _ _ => rfl) h
      | allVehiclesCellForRow row => exact AllVehiclesVC.alike_cellForRowAt row h
      | allVehiclesCommitDelete row => exact AllVehiclesVC.alike_commitDelete row h
      | allVehiclesDidSelectRow row => exact AllVehiclesVC.alike_didSelectRowAt row h
      | historyCellForRow row => exact HistoryVC.alike_cellForRowAt row h
      | historyCommitDelete row => exact HistoryVC.alike_commitDelete row h
      | historyDidSelectRow row => exact HistoryVC.alike_didSelectRowAt row h
      | form e =>
          rw [handle, run_get_bind, run_get_bind, h.activeForm]
          cases app.activeForm with
          | none => exact alike_pure _ h
          | some slot => exact alike_formEvent slot e h
      | clkSave uuid =>
          rw [handle, run_get_bind, run_get_bind, h.activeForm]
          cases app.activeForm with
          | none => exact alike_pure _ h
          | some slot => exact alike_clkSave slot uuid h
      | clkBack => exact alike_popViewController h
      | notification request =>
          rw [handle, AllVehiclesVC.methodOfReceivedNotification_run,
            AllVehiclesVC.methodOfReceivedNotification_run]
          exact .error _ h
      | relaunch => exact absurd rfl hLives

theorem step_sameButSaves {action action' : Action} (h : SameButSaves app app')
    (hFlags : SameButSaveFlags action action') :
    Option.Rel SameButSaves (app.step P action) (app'.step P action') := by
  have hOffered : action'.Offered app' ↔ action.Offered app := by
    cases hFlags with
    | same action _ _ => exact h.offered action
    | storage storage storage' _ _ => exact Iff.rfl
  have hRuns := alike_handle (P := P) hFlags h
  unfold App.step
  by_cases hAction : action.Offered app
  · rw [if_pos hAction, if_pos (hOffered.mpr hAction)]
    generalize (handle P action).run app = left at hRuns
    generalize (handle P action').run app' = right at hRuns
    cases hRuns with
    | ok _ hNext => exact .some hNext
    | error _ _ => exact .none
  · rw [if_neg hAction, if_neg fun hAction' => hAction (hOffered.mp hAction')]
    exact .none

/-- Two runs of the same actions, in which the store may answer differently to
saves only, end on the same screens, with the same requests and notifications, or
trap at the same action. -/
theorem saves_unseen (P : Platform) (now : Date) {actions actions' : List Action}
    (hFlags : List.Forall₂ SameButSaveFlags actions actions') :
    Option.Rel SameButSaves (Transition.run (App.step P) (App.installed now) actions)
      (Transition.run (App.step P) (App.installed now) actions') := by
  have hStep (app app' : App) (action action' : Action) (hSame : SameButSaves app app')
      (hFlags : SameButSaveFlags action action') :
      Option.Rel SameButSaves (app.step P action) (app'.step P action') := step_sameButSaves hSame hFlags
  exact Transition.run_rel hStep hFlags (.refl _)

/-- A vehicle is added while the store answers the saves like this. -/
private def addedWhile (save : Bool) : List Action :=
  .storage { write := ⟨true, save⟩ } :: addingActions "5000" "200" 1700000000 "A1"

private theorem addedWhile_run :
    [false, true].map (fun save =>
      (Transition.run (App.step UTC.platform) (App.installed 1700000000) (addedWhile save)).map fun app =>
        app.context.persisted.values.length) = [some 0, some 1] := by
  decide +kernel

/-- Both runs complete, and only in one of them the vehicle is persisted. -/
theorem saves_unseen_added :
    ∃ unsaved saved,
      Transition.run (App.step UTC.platform) (App.installed 1700000000) (addedWhile false) = some unsaved ∧
      Transition.run (App.step UTC.platform) (App.installed 1700000000) (addedWhile true) = some saved ∧
      unsaved.context.persisted.values.length = 0 ∧ saved.context.persisted.values.length = 1 ∧
      SameButSaves unsaved saved := by
  have hRuns := addedWhile_run
  simp only [List.map_cons, List.map_nil, List.cons.injEq, Option.map_eq_some_iff, and_true] at hRuns
  obtain ⟨⟨unsaved, hUnsaved, hNone⟩, saved, hSaved, hOne⟩ := hRuns
  have hFlags : List.Forall₂ SameButSaveFlags (addedWhile false) (addedWhile true) := by
    refine .cons (.storage _ _ rfl rfl) (List.forall₂_same.mpr fun action hAction => .same action ?_ ?_)
    · rintro storage rfl
      simp [addingActions] at hAction
    · rintro rfl
      simp [addingActions] at hAction
  have hSame := saves_unseen UTC.platform 1700000000 hFlags
  rw [hUnsaved, hSaved] at hSame
  refine ⟨unsaved, saved, hUnsaved, hSaved, hNone, hOne, ?_⟩
  cases hSame with
  | some h => exact h

end Alike

end ServiceBook

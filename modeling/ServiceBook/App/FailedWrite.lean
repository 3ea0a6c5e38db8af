import ServiceBook.AddEditVehicle.Presenter

/-! What the presenters do when the database completes with `false`: the
completion handlers do not look at their argument, so everything that should
follow a success follows a failure too. -/
namespace ServiceBook

/-- The four presenter operations that write to the store. -/
inductive Operation where
  | addVehicle (slot : FormSlot) (objVehicle : AllVehiclesI)
  | editVehicalInfo (slot : FormSlot) (objVehicle : AllVehiclesI) (gadgetObj : Gadget)
  | deleteVehicle (vehicleID : String) (gadgetObj : Gadget)
  | addNewVehicle (objVehicle : AllVehiclesI)

namespace Operation

def perform (P : Platform) : Operation → AppM Unit
  | .addVehicle slot objVehicle => AddVehiclePresenter.addVehicle P slot objVehicle
  | .editVehicalInfo slot objVehicle gadgetObj =>
      AddVehiclePresenter.editVehicalInfo P slot objVehicle gadgetObj
  | .deleteVehicle vehicleID gadgetObj => AllVehiclesPresenter.deleteVehicle vehicleID gadgetObj
  | .addNewVehicle objVehicle => AllVehiclesPresenter.addNewVehicle objVehicle

/-- The write it asks the database for. -/
def write : Operation → DatabaseManager.Write
  | .addVehicle _ objVehicle => .addRecord objVehicle
  | .editVehicalInfo _ objVehicle _ => .editRecord objVehicle
  | .deleteVehicle vehicleID _ => .deleteRecord vehicleID
  | .addNewVehicle objVehicle => .addRecord objVehicle

/-- Its completion handler. -/
def completion (P : Platform) : Operation → AppM Unit
  | .addVehicle slot objVehicle => do
      addNewRecordOnFirebase objVehicle
      AddVehicleVC.newVehicleAdded P slot true
  | .editVehicalInfo slot objVehicle gadgetObj => do
      AddVehiclePresenter.updateRecordOnServer gadgetObj objVehicle
      AddVehicleVC.vehicleInfoUpdated P slot true
  | .deleteVehicle _ gadgetObj => do
      AllVehiclesPresenter.deleteRecordOnServer gadgetObj
      AllVehiclesVC.vehicleDeleted
  | .addNewVehicle objVehicle => do
      addNewRecordOnFirebase objVehicle
      AllVehiclesPresenter.getAllVehicles

/-- The completion handler happens to have nothing to do: a missing date stops
it before the first effect, or there is no document to address and no view or
request left to touch. -/
def Silent (app : App) : Operation → Prop
  | .addVehicle _ objVehicle => ¬ HasDates objVehicle
  | .editVehicalInfo slot objVehicle gadgetObj =>
      ¬ HasDates objVehicle ∨ (gadgetObj.id = none ∧ app.form slot = none)
  | .deleteVehicle _ gadgetObj =>
      gadgetObj.id = none ∧ ∀ request ∈ app.pendingRequests,
        request.identifier ≠ app.allVehiclesVC.objVehicle.vehicleID
  | .addNewVehicle objVehicle => ¬ HasDates objVehicle

end Operation

/-- No request to Firestore, no change of the pending notifications, no report
of success, and both forms are as they were. -/
structure NoOutsideEffect (app app' : App) : Prop where
  outbox : app'.outbox = app.outbox
  pendingRequests : app'.pendingRequests = app.pendingRequests
  told : ∃ calls, app'.told = app.told ++ calls ∧ ∀ call ∈ calls, call.isSuccess = false
  addVehicleVC : app'.addVehicleVC = app.addVehicleVC
  editor : app'.editor = app.editor

open Program

section Leaves

variable {P : Platform} {app : App} {γ : Type} {part : App → γ}

/-- A refetch touches the list screen only. -/
theorem AllVehiclesPresenter.leaves_getAllVehicles
    (hPart : ∀ (app : App) vc, part { app with allVehiclesVC := vc } = part app) :
    Leaves part app AllVehiclesPresenter.getAllVehicles := by
  refine leaves_get (Leaves.bind (leaves_get (leaves_ofExcept _)) fun arrVehicles mid _ => ?_)
  exact leaves_modify (hPart mid _)

theorem HistoryPresenter.leaves_getAllVehicles
    (hPart : ∀ (app : App) vc, part { app with historyVC := vc } = part app) :
    Leaves part app HistoryPresenter.getAllVehicles := by
  refine leaves_get (Leaves.bind (leaves_get (leaves_ofExcept _)) fun arrVehicles mid _ => ?_)
  exact leaves_modify (hPart mid _)

/-- A part of the state that the screens of the tab bar do not hold. -/
structure OffScreen (part : App → γ) : Prop where
  allVehiclesVC : ∀ (app : App) vc, part { app with allVehiclesVC := vc } = part app
  historyVC : ∀ (app : App) vc, part { app with historyVC := vc } = part app
  addVehicleVC : ∀ (app : App) vc, part { app with addVehicleVC := vc } = part app
  editor : ∀ (app : App) vc, part { app with editor := vc } = part app

theorem offScreen_outbox : OffScreen App.outbox := ⟨fun _ _ => rfl, fun _ _ => rfl, fun _ _ => rfl, fun _ _ => rfl⟩

theorem offScreen_told : OffScreen App.told := ⟨fun _ _ => rfl, fun _ _ => rfl, fun _ _ => rfl, fun _ _ => rfl⟩

theorem leaves_viewWillAppear (h : OffScreen part) (tab : Tab) :
    Leaves part app (viewWillAppear P tab) := by
  cases tab with
  | allVehicles =>
      refine Leaves.bind (AllVehiclesPresenter.leaves_getAllVehicles h.allVehiclesVC) fun _ mid _ => ?_
      exact leaves_modify (h.allVehiclesVC mid _)
  | history => exact HistoryPresenter.leaves_getAllVehicles h.historyVC
  | addVehicle =>
      refine leaves_get (Leaves.bind (leaves_ofExcept _) fun form mid hRun => ?_)
      obtain ⟨_, hSame⟩ := ofExcept_eq_ok.mp hRun
      rw [hSame]
      exact leaves_set (h.addVehicleVC app form)

theorem leaves_popViewController (h : OffScreen part) : Leaves part app (popViewController P) := by
  apply leaves_get
  cases app.editor with
  | none => exact leaves_pure _
  | some form =>
      refine Leaves.bind (leaves_set (h.editor app none)) fun _ mid hRun => ?_
      exact leaves_viewWillAppear h _

theorem leaves_setForm (h : OffScreen part) (form : AddVehicleVC) (slot : FormSlot) :
    part (app.setForm form slot) = part app := by
  cases slot with
  | addTab => exact h.addVehicleVC app form
  | editor => exact h.editor app (some form)

/-- Scheduling a notification touches the pending requests only. -/
theorem leaves_setLocalNotification (vehicleObj : AllVehiclesI) (notificationDate : Date)
    (hPart : ∀ (app : App) pending, part { app with pendingRequests := pending } = part app) :
    Leaves part app (AppSharedInstance.setLocalNotification vehicleObj notificationDate) := by
  refine Leaves.bind (leaves_ofExcept _) fun request mid _ => ?_
  exact leaves_modify (hPart mid _)

theorem outbox_newVehicleAdded (slot : FormSlot) (isSuccess : Bool) :
    Leaves App.outbox app (AddVehicleVC.newVehicleAdded P slot isSuccess) := by
  apply leaves_get
  cases app.form slot with
  | none => exact leaves_pure _
  | some form =>
      refine Leaves.bind (leaves_set rfl) fun _ told _ => ?_
      refine Leaves.bind (leaves_ofExcept _) fun serviceDueDate mid _ => ?_
      refine Leaves.bind (leaves_setLocalNotification _ _ fun _ _ => rfl) fun _ scheduled _ => ?_
      refine Leaves.bind (leaves_ofExcept _) fun form' mid' _ => ?_
      exact leaves_modify (leaves_setForm offScreen_outbox form' slot)

/-- A view that is there is told, and stays told whatever comes after. -/
theorem told_vehicleInfoUpdated (P : Platform) (app : App) {slot : FormSlot} {form : AddVehicleVC}
    (hForm : app.form slot = some form) (isSuccess : Bool) :
    (finalState ((AddVehicleVC.vehicleInfoUpdated P slot isSuccess).run app)).told =
      app.told ++ [.vehicleInfoUpdated isSuccess] := by
  simp only [AddVehicleVC.vehicleInfoUpdated, run_get_bind, hForm, run_set_bind]
  refine Leaves.bind (leaves_modify rfl) fun _ removed _ => ?_
  refine Leaves.bind (leaves_ofExcept _) fun serviceDueDate mid _ => ?_
  refine Leaves.bind (leaves_setLocalNotification _ _ fun _ _ => rfl) fun _ scheduled _ => ?_
  exact leaves_popViewController offScreen_told

/-- Without a view there is nothing to tell. -/
theorem vehicleInfoUpdated_of_none (P : Platform) (app : App) {slot : FormSlot}
    (hForm : app.form slot = none) (isSuccess : Bool) :
    (AddVehicleVC.vehicleInfoUpdated P slot isSuccess).run app = .ok () app := by
  simp only [AddVehicleVC.vehicleInfoUpdated, run_get_bind, hForm, EStateM.run_pure]

end Leaves

namespace Operation

variable {P : Platform} {app : App}

theorem noOutsideEffect_refl (app : App) : NoOutsideEffect app app :=
  ⟨rfl, rfl, ⟨[], by simp, by simp⟩, rfl, rfl⟩

/-- Creating a document and then anything that takes no request back. -/
theorem create_silent_iff {objVehicle : AllVehiclesI} {rest : AppM Unit}
    (hRest : ∀ app, Leaves App.outbox app rest) :
    NoOutsideEffect app (finalState ((do addNewRecordOnFirebase objVehicle; rest).run app)) ↔
      ¬ HasDates objVehicle := by
  by_cases hDates : HasDates objVehicle
  · obtain ⟨json, hRun⟩ := addNewRecordOnFirebase_of_hasDates app hDates
    have hOutbox := hRest { app with outbox := app.outbox ++ [.addDocument json] }
    rw [run_bind_of_ok hRun]
    constructor
    · intro h _
      have hSent := hOutbox.symm.trans h.outbox
      simp at hSent
    · exact fun h => absurd hDates h
  · rw [run_bind_of_error (addNewRecordOnFirebase_of_not_hasDates hDates)]
    exact iff_of_true (noOutsideEffect_refl app) hDates

/-- An edit with both dates tells its view, and writes if the gadget has an id. -/
theorem update_silent_iff {slot : FormSlot} {objVehicle : AllVehiclesI} {gadgetObj : Gadget} :
    NoOutsideEffect app
        (finalState ((completion P (.editVehicalInfo slot objVehicle gadgetObj)).run app)) ↔
      Silent app (.editVehicalInfo slot objVehicle gadgetObj) := by
  by_cases hDates : HasDates objVehicle
  · obtain ⟨gadget, hGadget, hFinite, hID⟩ := gadgetObjToUpdate_of_hasDates gadgetObj hDates
    rw [completion, run_bind_of_ok (updateRecordOnServer_run app hGadget)]
    cases hForm : app.form slot with
    | some form =>
        -- the view is told of a success
        have hTold := told_vehicleInfoUpdated P
          { app with outbox := app.outbox ++ FIRFireStoreService.update gadget }
          (show App.form _ slot = some form by cases slot <;> exact hForm) true
        refine iff_of_false (fun h => ?_) (by simp [Silent, hDates, hForm])
        obtain ⟨calls, hCalls, hFalse⟩ := h.told
        rw [hTold] at hCalls
        obtain rfl := List.append_cancel_left hCalls
        exact absurd (hFalse _ (List.mem_singleton_self _)) (by decide)
    | none =>
        have hNone := vehicleInfoUpdated_of_none P
          { app with outbox := app.outbox ++ FIRFireStoreService.update gadget }
          (show App.form _ slot = none by cases slot <;> exact hForm) true
        rw [hNone]
        cases hOld : gadgetObj.id with
        | none =>
            have hNothing : FIRFireStoreService.update gadget = [] := by
              rw [FIRFireStoreService.update, FIRFireStoreService.toJson_document hFinite, hID, hOld]
            rw [hNothing]
            refine iff_of_true ⟨by simp [finalState], rfl, ⟨[], by simp [finalState], by simp⟩, rfl, rfl⟩ ?_
            exact Or.inr ⟨hOld, hForm⟩
        | some id =>
            rw [FIRFireStoreService.update_eq hFinite (hID.trans hOld)]
            refine iff_of_false (fun h => ?_) (by simp [Silent, hDates, hOld])
            have hSent := h.outbox
            simp [finalState] at hSent
  · have hRun : (AddVehiclePresenter.updateRecordOnServer gadgetObj objVehicle).run app =
        .error .unexpectedlyFoundNil app := by
      rw [AddVehiclePresenter.updateRecordOnServer, gadgetObjToUpdate, withDates_of_not_hasDates hDates,
        run_bind_of_error run_ofExcept_error]
    rw [completion, run_bind_of_error hRun]
    exact iff_of_true (noOutsideEffect_refl app) (Or.inl hDates)

/-- A deletion sends its request, if there is a document to address, and
removes the notification of the vehicle that the view holds. -/
theorem delete_silent_iff {vehicleID : String} {gadgetObj : Gadget} :
    NoOutsideEffect app (finalState ((completion P (.deleteVehicle vehicleID gadgetObj)).run app)) ↔
      Silent app (.deleteVehicle vehicleID gadgetObj) := by
  let sent : App := { app with outbox := app.outbox ++ FIRFireStoreService.delete gadgetObj }
  let removed : App :=
    { sent with pendingRequests := app.pendingRequests.remove [app.allVehiclesVC.objVehicle.vehicleID] }
  have hRun : (completion P (.deleteVehicle vehicleID gadgetObj)).run app =
      AllVehiclesPresenter.getAllVehicles.run removed := rfl
  have hKept {γ : Type} (part : App → γ)
      (hPart : ∀ (app : App) vc, part { app with allVehiclesVC := vc } = part app) :
      part (finalState (AllVehiclesPresenter.getAllVehicles.run removed)) = part removed :=
    AllVehiclesPresenter.leaves_getAllVehicles hPart
  have hOutbox := hKept App.outbox fun _ _ => rfl
  have hPending := hKept App.pendingRequests fun _ _ => rfl
  have hUnchanged : app.pendingRequests.remove [app.allVehiclesVC.objVehicle.vehicleID] =
      app.pendingRequests ↔ ∀ request ∈ app.pendingRequests,
        request.identifier ≠ app.allVehiclesVC.objVehicle.vehicleID := by
    simp [PendingRequests.remove]
  rw [hRun]
  constructor
  · intro h
    refine ⟨?_, hUnchanged.mp (hPending.symm.trans h.pendingRequests)⟩
    have hSent : app.outbox ++ FIRFireStoreService.delete gadgetObj = app.outbox :=
      hOutbox.symm.trans h.outbox
    cases hID : gadgetObj.id with
    | none => rfl
    | some id =>
        rw [FIRFireStoreService.delete_eq hID] at hSent
        simp at hSent
  · rintro ⟨hID, hNone⟩
    have hNothing : FIRFireStoreService.delete gadgetObj = [] := by
      rw [FIRFireStoreService.delete, hID]
    refine ⟨?_, hPending.trans (hUnchanged.mpr hNone), ⟨[], ?_, by simp⟩,
      hKept App.addVehicleVC fun _ _ => rfl, hKept App.editor fun _ _ => rfl⟩
    · calc _ = app.outbox ++ FIRFireStoreService.delete gadgetObj := hOutbox
        _ = app.outbox := by rw [hNothing, List.append_nil]
    · rw [hKept App.told fun _ _ => rfl, List.append_nil]

theorem completion_silent_iff (op : Operation) :
    NoOutsideEffect app (finalState ((op.completion P).run app)) ↔ op.Silent app := by
  cases op with
  | addVehicle slot objVehicle => exact create_silent_iff fun _ => outbox_newVehicleAdded slot true
  | editVehicalInfo slot objVehicle gadgetObj => exact update_silent_iff
  | deleteVehicle vehicleID gadgetObj => exact delete_silent_iff
  | addNewVehicle objVehicle =>
      exact create_silent_iff fun _ => AllVehiclesPresenter.leaves_getAllVehicles fun _ _ => rfl

/-- The operation is its write followed by its completion handler, whatever
the handler is told. -/
theorem perform_run (op : Operation) {context : ManagedObjectContext} {success : Bool}
    (hWrite : op.write.perform app.storage.write app.context = .ok (context, [success])) :
    (op.perform P).run app = (op.completion P).run { app with context := context } := by
  have hShape : op.perform P = (do
      let calls ← VehicleManager.perform op.write
      calls.forM fun _ => op.completion P) := by
    cases op <;> rfl
  rw [hShape]
  exact VehicleManager.perform_forM_run hWrite

/-- What the handler does has nothing to do with the store. -/
theorem silent_context (context : ManagedObjectContext) (op : Operation) :
    op.Silent { app with context := context } ↔ op.Silent app := by
  cases op with
  | editVehicalInfo slot objVehicle gadgetObj => cases slot <;> exact Iff.rfl
  | _ => exact Iff.rfl

/-- After a write that completes with `false` there is no outside effect
exactly if the completion handler had nothing to do. -/
theorem failed_write_silent_iff (op : Operation) {context : ManagedObjectContext}
    (hFail : op.write.perform app.storage.write app.context = .ok (context, [false])) :
    NoOutsideEffect app (finalState ((op.perform P).run app)) ↔ op.Silent app := by
  rw [op.perform_run hFail, ← silent_context context op, ← completion_silent_iff]
  exact ⟨fun h => ⟨h.outbox, h.pendingRequests, h.told, h.addVehicleVC, h.editor⟩,
    fun h => ⟨h.outbox, h.pendingRequests, h.told, h.addVehicleVC, h.editor⟩⟩

private def moped : AllVehiclesI :=
  { vehicleID := "B7", vehicleType := some "Bike", serviceRequiredAfter := some 2000
    averageRun := some 100, lastServiceDate := some 0, serviceDueDate := some 12096000 }

/-- An app whose store can be read but not saved. -/
private def diskFull : App :=
  { App.created .empty [] 0 with storage := { write := ⟨true, false⟩ } }

private theorem moped_add_fails :
    (Operation.addVehicle .addTab moped).write.perform diskFull.storage.write diskFull.context =
      .ok (ManagedObjectContext.empty.perform (.insert (DatabaseManager.stored moped)), [false]) := by
  have hNarrow : DatabaseManager.Narrow moped := ⟨2000, 100, rfl, by decide, rfl, by decide⟩
  show DatabaseManager.addRecord ⟨true, false⟩ .empty moped = _
  exact DatabaseManager.addRecord_eq_ok.mpr ⟨hNarrow, rfl⟩

/-- The moped is not added, and has two dates. -/
theorem failed_write_silent_iff_moped :
    NoOutsideEffect diskFull
        (finalState (((addVehicle .addTab moped).perform UTC.platform).run diskFull)) ↔
      (addVehicle .addTab moped).Silent diskFull :=
  failed_write_silent_iff (addVehicle .addTab moped) moped_add_fails

/-- A failed write has outside effects. -/
theorem failed_write_not_silent :
    ¬ ∀ (P : Platform) (app : App) (op : Operation) (context : ManagedObjectContext),
      op.write.perform app.storage.write app.context = .ok (context, [false]) →
        NoOutsideEffect app (finalState ((op.perform P).run app)) := by
  intro h
  have hSent := (h UTC.platform diskFull (addVehicle .addTab moped) _ moped_add_fails).outbox
  rw [perform_run _ moped_add_fails] at hSent
  have hLength := congrArg List.length hSent
  revert hLength
  decide +kernel

end Operation

end ServiceBook

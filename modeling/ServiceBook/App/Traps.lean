import ServiceBook.App.Sound

/-! When the app crashes. In a reachable state an offered action completes, or it
traps under a condition that can be read off the state before it, and then it has
not stored, sent or scheduled anything yet. -/
namespace ServiceBook

open DatabaseManager

/-- What a trap leaves as it was: everything but the screens. -/
structure NothingDone (app app' : App) : Prop where
  context : app'.context = app.context
  storage : app'.storage = app.storage
  now : app'.now = app.now
  pendingRequests : app'.pendingRequests = app.pendingRequests
  outbox : app'.outbox = app.outbox
  told : app'.told = app.told

/-- The form can be saved: both numbers and a date have been entered, the due-date
rule gets through with them, and an editor has its gadget. The numbers fit the
store, unless the fetch of an edit fails and they are not written. -/
def AddVehicleVC.Savable (P : Platform) (fetch : Bool) (form : AddVehicleVC) : Prop :=
  (form.isRecordEdit = true → form.gadgetToUpdate.isSome) ∧
    ∃ averageRun serviceRequiredAfter days lastServiceDate,
      enteredNumber P form.cell.txtWeeklyRun form.objVehicle.averageRun = some averageRun ∧
      enteredNumber P form.cell.txtServiceRequired form.objVehicle.serviceRequiredAfter =
        some serviceRequiredAfter ∧
      intOfFloat (AppSharedInstance.noOfDays serviceRequiredAfter averageRun) = .ok days ∧
      form.objVehicle.lastServiceDate = some lastServiceDate ∧
      (P.dateByAddingDays days lastServiceDate).isSome ∧
      (form.isRecordEdit = true ∧ fetch = false ∨ InInt32 serviceRequiredAfter ∧ InInt16 averageRun)

/-- The actions that trap, by the state before them. -/
def Action.Traps (P : Platform) (app : App) : Action → Prop
  | .allVehiclesCellForRow row => app.allVehiclesVC.arrGadgets ≠ [] ∧
      ∀ gadgetObj ∈ app.allVehiclesVC.arrGadgets[row]?, ¬ gadgetObj.HasFields ∨ gadgetObj.notes = some ""
  | .allVehiclesCommitDelete row => app.allVehiclesVC.arrAllVehicles.length ≤ row ∨
      app.allVehiclesVC.arrGadgets.length ≤ row ∨ app.storage.write.fetch = false
  | .allVehiclesDidSelectRow row => app.allVehiclesVC.arrAllVehicles.length ≤ row ∨
      app.allVehiclesVC.arrGadgets.length ≤ row
  | .historyCellForRow row => ∃ vehicleObj ∈ app.historyVC.arrAllVehicles[row]?, vehicleObj.notes = some ""
  | .historyCommitDelete _ => app.storage.write.fetch = false
  | .clkSave _ => ∃ slot form, app.activeForm = some slot ∧ app.form slot = some form ∧
      ¬ form.Savable P app.storage.write.fetch
  | .notification _ => True
  | .relaunch => app.context.hasChanges = true ∧ app.storage.write.save = false
  | _ => False

/-- The program completes unless it traps, and if it traps nothing has been done. -/
structure Ends (app : App) (program : AppM Unit) (traps : Prop) : Prop where
  completes : ¬ traps → ∃ app', program.run app = .ok () app'
  stops : traps → ∃ t app', program.run app = .error t app' ∧ NothingDone app app'

section Ends

variable {P : Platform} {app app' : App} {program : AppM Unit} {traps : Prop}

theorem NothingDone.refl (app : App) : NothingDone app app := ⟨rfl, rfl, rfl, rfl, rfl, rfl⟩

theorem nothingDone_setForm (app : App) (form : AddVehicleVC) (slot : FormSlot) :
    NothingDone app (app.setForm form slot) := by
  cases slot <;> exact ⟨rfl, rfl, rfl, rfl, rfl, rfl⟩

theorem Ends.of_ok (h : ∃ app', program.run app = .ok () app') (hNot : ¬ traps) : Ends app program traps :=
  ⟨fun _ => h, fun hTraps => absurd hTraps hNot⟩

theorem Ends.of_error {t : Trap} (h : program.run app = .error t app') (hSame : NothingDone app app')
    (hTraps : traps) : Ends app program traps :=
  ⟨fun hNot => absurd hTraps hNot, fun _ => ⟨t, app', h, hSame⟩⟩

/-- A deletion traps exactly if its fetch fails. -/
theorem deleteRecord_fails_iff {outcome : StoreOutcome} (context : ManagedObjectContext) (recordID : String) :
    (∃ t, deleteRecord outcome context recordID = .error t) ↔ outcome.fetch = false := by
  cases hFetch : outcome.fetch with
  | false =>
      refine iff_of_true ⟨.unexpectedlyFoundNil, ?_⟩ rfl
      rw [deleteRecord, ManagedObjectContext.fetch, hFetch]
      rfl
  | true =>
      rw [deleteRecord_eq hFetch]
      refine iff_of_false ?_ (by decide)
      rintro ⟨_, hError⟩
      cases hError

theorem AllVehiclesVC.cellForRowAt_run_empty {row : Nat} (hEmpty : app.allVehiclesVC.arrGadgets = []) :
    (AllVehiclesVC.cellForRowAt row).run app = .ok () app := by
  rw [AllVehiclesVC.cellForRowAt, Program.run_get_bind]
  simp only [hEmpty]
  rfl

theorem AllVehiclesVC.cellForRowAt_run {row : Nat} {gadgetObj : Gadget}
    (hRow : app.allVehiclesVC.arrGadgets[row]? = some gadgetObj) :
    (AllVehiclesVC.cellForRowAt row).run app = (do
      Program.ofExcept (AllVehiclesCell.setData gadgetObj)
      set { app with allVehiclesVC := { app.allVehiclesVC with
        tableAllVehicles := app.allVehiclesVC.tableAllVehicles.show row gadgetObj } } : AppM Unit).run app := by
  have hSome : app.allVehiclesVC.arrGadgets.length > 0 :=
    List.length_pos_of_mem (List.mem_of_getElem? hRow)
  rw [AllVehiclesVC.cellForRowAt, Program.run_get_bind]
  dsimp only
  rw [if_pos hSome, hRow]

theorem AllVehiclesVC.cellForRowAt_ends (row : Nat) :
    Ends app (AllVehiclesVC.cellForRowAt row) (Action.Traps P app (.allVehiclesCellForRow row)) := by
  by_cases hEmpty : app.allVehiclesVC.arrGadgets = []
  · exact Ends.of_ok ⟨app, cellForRowAt_run_empty hEmpty⟩ fun hTraps => hTraps.1 hEmpty
  · cases hRow : app.allVehiclesVC.arrGadgets[row]? with
    | none =>
        have hRun : (AllVehiclesVC.cellForRowAt row).run app = .error .indexOutOfRange app := by
          rw [AllVehiclesVC.cellForRowAt, Program.run_get_bind]
          dsimp only
          rw [if_pos (List.length_pos_iff.mpr hEmpty), hRow]
          rfl
        refine Ends.of_error hRun (.refl app) ⟨hEmpty, ?_⟩
        simp [hRow]
    | some gadgetObj =>
        have hRun := cellForRowAt_run hRow
        cases hData : AllVehiclesCell.setData gadgetObj with
        | error t =>
            rw [hData] at hRun
            refine Ends.of_error hRun (.refl app) ⟨hEmpty, fun other hOther => ?_⟩
            obtain rfl := Option.some.inj (hRow.symm.trans hOther)
            by_contra hFills
            rw [not_or, not_not] at hFills
            cases hData.symm.trans (AllVehiclesCell.setData_eq_ok.mpr hFills)
        | ok u =>
            rw [hData] at hRun
            obtain ⟨hFields, hNotes⟩ := AllVehiclesCell.setData_eq_ok.mp hData
            exact Ends.of_ok ⟨_, hRun⟩ fun hTraps => (hTraps.2 gadgetObj hRow).elim (· hFields) hNotes

theorem pushEditor_total (app : App) {objVehicle : AllVehiclesI} (h : SavedVehicle P objVehicle)
    (gadget : Option Gadget) : ∃ app', (pushEditor P objVehicle gadget).run app = .ok () app' := by
  obtain ⟨form, hAppear⟩ := h.opens app.now gadget
  refine ⟨{ app with editor := some form }, ?_⟩
  rw [pushEditor, Program.run_get_bind, hAppear]
  rfl

/-- A tap on a Due Services row needs a vehicle and a gadget in that place. -/
theorem AllVehiclesVC.didSelectRowAt_ends (h : Sound P app) (row : Nat) :
    Ends app (AllVehiclesVC.didSelectRowAt P row) (Action.Traps P app (.allVehiclesDidSelectRow row)) := by
  cases hVehicle : app.allVehiclesVC.arrAllVehicles[row]? with
  | none =>
      have hRun : (AllVehiclesVC.didSelectRowAt P row).run app = .error .indexOutOfRange app := by
        rw [AllVehiclesVC.didSelectRowAt, Program.run_get_bind, hVehicle]
        rfl
      exact Ends.of_error hRun (.refl app) (.inl (List.getElem?_eq_none_iff.mp hVehicle))
  | some vehicleObj =>
      cases hGadget : app.allVehiclesVC.arrGadgets[row]? with
      | none =>
          have hRun : (AllVehiclesVC.didSelectRowAt P row).run app = .error .indexOutOfRange app := by
            rw [AllVehiclesVC.didSelectRowAt, Program.run_get_bind, hVehicle]
            dsimp only
            rw [hGadget]
            rfl
          exact Ends.of_error hRun (.refl app) (.inr (List.getElem?_eq_none_iff.mp hGadget))
      | some gadgetObj =>
          obtain ⟨app', hPush⟩ :=
            pushEditor_total app (h.lists.due vehicleObj (List.mem_of_getElem? hVehicle)) (some gadgetObj)
          refine Ends.of_ok ⟨app', ?_⟩ ?_
          · rw [AllVehiclesVC.didSelectRowAt, Program.run_get_bind, hVehicle]
            dsimp only
            rw [hGadget]
            exact hPush
          · have hRow := (List.getElem?_eq_some_iff.mp hVehicle).1
            have hRow' := (List.getElem?_eq_some_iff.mp hGadget).1
            rintro (hShort | hShort)
            · omega
            · omega

/-- A swipe on a Due Services row also needs the fetch of the store. -/
theorem AllVehiclesVC.commitDelete_run {row : Nat} {objVehicle : AllVehiclesI} {gadgetObj : Gadget}
    (hVehicle : app.allVehiclesVC.arrAllVehicles[row]? = some objVehicle)
    (hGadget : app.allVehiclesVC.arrGadgets[row]? = some gadgetObj) :
    (AllVehiclesVC.commitDelete row).run app =
      (AllVehiclesPresenter.deleteVehicle objVehicle.vehicleID gadgetObj).run
        { app with allVehiclesVC := { app.allVehiclesVC with objVehicle := objVehicle } } := by
  rw [AllVehiclesVC.commitDelete, Program.run_get_bind, hVehicle]
  dsimp only
  rw [Program.run_set_bind, hGadget]

/-- A deletion whose fetch succeeds goes through to the list. -/
theorem AllVehiclesVC.commitDelete_total (h : Sound P app) {row : Nat} {objVehicle : AllVehiclesI}
    {gadgetObj : Gadget} (hVehicle : app.allVehiclesVC.arrAllVehicles[row]? = some objVehicle)
    (hGadget : app.allVehiclesVC.arrGadgets[row]? = some gadgetObj) (hFetch : app.storage.write.fetch = true) :
    ∃ app', (AllVehiclesVC.commitDelete row).run app = .ok () app' := by
  let chosen : App := { app with allVehiclesVC := { app.allVehiclesVC with objVehicle := objVehicle } }
  have hDelete : (DatabaseManager.Write.deleteRecord objVehicle.vehicleID).perform
      chosen.storage.write chosen.context = _ := deleteRecord_eq hFetch objVehicle.vehicleID
  obtain ⟨app', hList⟩ := AllVehiclesPresenter.getAllVehicles_total { chosen with
    context := _
    outbox := app.outbox ++ FIRFireStoreService.delete gadgetObj
    pendingRequests := app.pendingRequests.remove [objVehicle.vehicleID] } (h.contains.deleteRecord hDelete)
  have hRun := AllVehiclesVC.commitDelete_run hVehicle hGadget
  exact ⟨app', hRun.trans ((VehicleManager.perform_forM_run hDelete).trans hList)⟩

theorem AllVehiclesVC.commitDelete_ends (h : Sound P app) (row : Nat) :
    Ends app (AllVehiclesVC.commitDelete row) (Action.Traps P app (.allVehiclesCommitDelete row)) := by
  cases hVehicle : app.allVehiclesVC.arrAllVehicles[row]? with
  | none =>
      have hRun : (AllVehiclesVC.commitDelete row).run app = .error .indexOutOfRange app := by
        rw [AllVehiclesVC.commitDelete, Program.run_get_bind, hVehicle]
        rfl
      exact Ends.of_error hRun (.refl app) (.inl (List.getElem?_eq_none_iff.mp hVehicle))
  | some objVehicle =>
      let chosen : App := { app with allVehiclesVC := { app.allVehiclesVC with objVehicle := objVehicle } }
      have hSame : NothingDone app chosen := ⟨rfl, rfl, rfl, rfl, rfl, rfl⟩
      cases hGadget : app.allVehiclesVC.arrGadgets[row]? with
      | none =>
          have hRun : (AllVehiclesVC.commitDelete row).run app = .error .indexOutOfRange chosen := by
            rw [AllVehiclesVC.commitDelete, Program.run_get_bind, hVehicle]
            dsimp only
            rw [Program.run_set_bind, hGadget]
            rfl
          exact Ends.of_error hRun hSame (.inr (.inl (List.getElem?_eq_none_iff.mp hGadget)))
      | some gadgetObj =>
          cases hFetch : app.storage.write.fetch with
          | false =>
              obtain ⟨t, hFails⟩ := (deleteRecord_fails_iff app.context objVehicle.vehicleID).mpr hFetch
              have hRun := AllVehiclesVC.commitDelete_run hVehicle hGadget
              exact Ends.of_error (hRun.trans (VehicleManager.perform_bind_of_error hFails)) hSame
                (.inr (.inr hFetch))
          | true =>
              refine Ends.of_ok (AllVehiclesVC.commitDelete_total h hVehicle hGadget hFetch) ?_
              have hRow := (List.getElem?_eq_some_iff.mp hVehicle).1
              have hRow' := (List.getElem?_eq_some_iff.mp hGadget).1
              rintro (hShort | hShort | hFails)
              · omega
              · omega
              · exact Bool.noConfusion (hFetch.symm.trans hFails)

/-- The rows of the History table are the rows of its list. -/
theorem Sound.historyRow (h : Sound P app) {row : Nat}
    (hRow : row < app.historyVC.tableAllVehicles.rowCount) :
    ∃ vehicleObj, app.historyVC.arrAllVehicles[row]? = some vehicleObj ∧ SavedVehicle P vehicleObj := by
  rw [h.shown.rows] at hRow
  exact ⟨_, List.getElem?_eq_getElem hRow, h.lists.history _ (List.getElem_mem hRow)⟩

theorem HistoryVC.cellForRowAt_run {row : Nat} {vehicleObj : AllVehiclesI}
    (hVehicle : app.historyVC.arrAllVehicles[row]? = some vehicleObj) :
    (HistoryVC.cellForRowAt row).run app = (do
      Program.ofExcept (AllVehiclesCell.setVehicle vehicleObj)
      set { app with historyVC := { app.historyVC with
        tableAllVehicles := app.historyVC.tableAllVehicles.show row vehicleObj } } : AppM Unit).run app := by
  rw [HistoryVC.cellForRowAt, Program.run_get_bind]
  dsimp only
  rw [hVehicle]

theorem HistoryVC.cellForRowAt_ends (h : Sound P app) {row : Nat}
    (hRow : row < app.historyVC.tableAllVehicles.rowCount) :
    Ends app (HistoryVC.cellForRowAt row) (Action.Traps P app (.historyCellForRow row)) := by
  obtain ⟨vehicleObj, hVehicle, hSaved⟩ := h.historyRow hRow
  have hRun := cellForRowAt_run hVehicle
  cases hData : AllVehiclesCell.setVehicle vehicleObj with
  | error t =>
      rw [hData] at hRun
      refine Ends.of_error hRun (.refl app) ⟨vehicleObj, hVehicle, ?_⟩
      by_contra hNotes
      cases hData.symm.trans (AllVehiclesCell.setVehicle_eq_ok.mpr ⟨hSaved.hasFields, hNotes⟩)
  | ok u =>
      rw [hData] at hRun
      refine Ends.of_ok ⟨_, hRun⟩ ?_
      rintro ⟨other, hOther, hNotes⟩
      obtain rfl := Option.some.inj (hVehicle.symm.trans hOther)
      exact (AllVehiclesCell.setVehicle_eq_ok.mp hData).2 hNotes

theorem HistoryVC.didSelectRowAt_ends (h : Sound P app) {row : Nat}
    (hRow : row < app.historyVC.tableAllVehicles.rowCount) :
    Ends app (HistoryVC.didSelectRowAt P row) (Action.Traps P app (.historyDidSelectRow row)) := by
  obtain ⟨vehicleObj, hVehicle, hSaved⟩ := h.historyRow hRow
  obtain ⟨app', hPush⟩ := pushEditor_total app hSaved none
  refine Ends.of_ok ⟨app', ?_⟩ id
  rw [HistoryVC.didSelectRowAt, Program.run_get_bind, hVehicle]
  exact hPush

theorem HistoryVC.commitDelete_ends (h : Sound P app) {row : Nat}
    (hRow : row < app.historyVC.tableAllVehicles.rowCount) :
    Ends app (HistoryVC.commitDelete row) (Action.Traps P app (.historyCommitDelete row)) := by
  obtain ⟨objVehicle, hVehicle, hSaved⟩ := h.historyRow hRow
  let chosen : App := { app with historyVC := { app.historyVC with objVehicle := objVehicle } }
  have hRun : (HistoryVC.commitDelete row).run app =
      (HistoryPresenter.deleteVehicle objVehicle.vehicleID).run chosen := by
    rw [HistoryVC.commitDelete, Program.run_get_bind, hVehicle]
    dsimp only
    rw [Program.run_set_bind]
  cases hFetch : app.storage.write.fetch with
  | false =>
      obtain ⟨t, hFails⟩ := (deleteRecord_fails_iff app.context objVehicle.vehicleID).mpr hFetch
      exact Ends.of_error (hRun.trans (VehicleManager.perform_bind_of_error hFails))
        ⟨rfl, rfl, rfl, rfl, rfl, rfl⟩ hFetch
  | true =>
      have hDelete : (DatabaseManager.Write.deleteRecord objVehicle.vehicleID).perform
          chosen.storage.write chosen.context = _ := deleteRecord_eq hFetch objVehicle.vehicleID
      obtain ⟨app', hList⟩ := HistoryPresenter.getAllVehicles_total { chosen with context := _ }
        (h.contains.deleteRecord hDelete)
      exact Ends.of_ok ⟨app', hRun.trans ((VehicleManager.perform_forM_run hDelete).trans hList)⟩
        fun hFails => Bool.noConfusion (hFetch.symm.trans hFails)

/-- An event of a form in step is handled. -/
theorem form_ends (h : Sound P app) (e : AddVehicleVC.Event) :
    Ends app (handle P (.form e)) (Action.Traps P app (.form e)) := by
  refine Ends.of_ok ?_ id
  rw [handle, Program.run_get_bind]
  cases hSlot : app.activeForm with
  | none => exact ⟨app, rfl⟩
  | some slot =>
      dsimp only
      rw [formEvent, Program.run_get_bind]
      cases hForm : app.form slot with
      | none => exact ⟨app, rfl⟩
      | some form =>
          obtain ⟨form', hHandle⟩ := (h.forms slot form hForm).handles e
          dsimp only
          rw [hHandle]
          exact ⟨_, rfl⟩

/-- In terms of the vehicle that Save makes of the form. -/
theorem AddVehicleVC.savable_iff {form : AddVehicleVC} {fetch : Bool} (uuid : String) :
    form.Savable P fetch ↔ (form.isRecordEdit = true → form.gadgetToUpdate.isSome) ∧
      ∃ objVehicle text, AppSharedInstance.getServiceDueDate P (form.populate P uuid) = .ok (objVehicle, text) ∧
        (form.isRecordEdit = true ∧ fetch = false ∨ Narrow objVehicle) := by
  refine and_congr_right fun _ => ⟨?_, ?_⟩
  · rintro ⟨run, distance, days, last, hRun, hDistance, hDays, hLast, hDate, hFits⟩
    obtain ⟨due, hDue⟩ := Option.isSome_iff_exists.mp hDate
    refine ⟨_, _, AppSharedInstance.getServiceDueDate_eq_ok.mpr
      ⟨run, distance, days, last, due, hRun, hDistance, hDays, hLast, hDue, rfl⟩, hFits.imp_right ?_⟩
    exact fun hNarrow => ⟨distance, run, hDistance, hNarrow.1, hRun, hNarrow.2⟩
  · rintro ⟨objVehicle, text, hRule, hFits⟩
    obtain ⟨run, distance, days, last, due, hRun, hDistance, hDays, hLast, hDue, hResult⟩ :=
      AppSharedInstance.getServiceDueDate_eq_ok.mp hRule
    obtain ⟨rfl, -⟩ := Prod.mk.inj hResult
    refine ⟨run, distance, days, last, hRun, hDistance, hDays, hLast, by rw [hDue]; rfl, hFits.imp_right ?_⟩
    rintro ⟨distance', run', hDistance', hDistance32, hRun', hRun16⟩
    obtain rfl := Option.some.inj (hDistance.symm.trans hDistance')
    obtain rfl := Option.some.inj (hRun.symm.trans hRun')
    exact ⟨hDistance32, hRun16⟩

/-- How the Save of the Add tab runs. -/
theorem clkSave_addTab_run {uuid text : String} {objVehicle : AllVehiclesI} {gadget : Gadget}
    {context : ManagedObjectContext} {success : Bool} {serviceDueDate : Date} {request : UNNotificationRequest}
    {form : AddVehicleVC} (hTab : app.addVehicleVC.isRecordEdit = false)
    (hRule : AppSharedInstance.getServiceDueDate P (app.addVehicleVC.populate P uuid) = .ok (objVehicle, text))
    (hWrite : addRecord app.storage.write app.context objVehicle = .ok (context, [success]))
    (hGadget : gadgetInfo objVehicle = .ok gadget) (hDue : objVehicle.serviceDueDate = some serviceDueDate)
    (hRequest : AppSharedInstance.notificationRequest objVehicle serviceDueDate = .ok request)
    (hReload : AddVehicleVC.reloadData P
      { app.addVehicleVC with objVehicle := objVehicle.resetData, dtLastService := none } = .ok form) :
    (AddVehicleVC.clkSave P .addTab uuid).run app = .ok () { app with
      context := context
      outbox := app.outbox ++ FIRFireStoreService.create gadget
      told := app.told ++ [.newVehicleAdded true]
      pendingRequests := app.pendingRequests.add app.now request
      addVehicleVC := form } := by
  let filled : App := { app with addVehicleVC := { app.addVehicleVC with objVehicle := objVehicle } }
  have hAdded : (DatabaseManager.Write.addRecord objVehicle).perform filled.storage.write filled.context =
      .ok (context, [success]) := hWrite
  rw [AddVehicleVC.clkSave, Program.run_get_bind, App.form_addTab]
  dsimp only
  rw [hRule, Program.run_bind_of_ok Program.run_ofExcept_ok]
  dsimp only
  rw [Program.run_set_bind, if_neg (Bool.eq_false_iff.mp hTab)]
  refine (VehicleManager.perform_forM_run hAdded).trans ?_
  rw [addNewRecordOnFirebase, hGadget, AddVehicleVC.newVehicleAdded]
  -- the view is told, schedules the notification and starts over
  change (do
    let serviceDueDate ← Program.ofExcept (unwrap objVehicle.serviceDueDate)
    AppSharedInstance.setLocalNotification objVehicle serviceDueDate
    let form ← Program.ofExcept (AddVehicleVC.reloadData P
      { app.addVehicleVC with objVehicle := objVehicle.resetData, dtLastService := none })
    modify fun app => app.setForm form .addTab : AppM Unit).run _ = _
  rw [hDue, unwrap_some, Program.run_bind_of_ok Program.run_ofExcept_ok, AppSharedInstance.setLocalNotification,
    hRequest, hReload]
  rfl

theorem error_of_ne_ok {ε α : Type} {r : Except ε α} (h : ∀ a, r ≠ .ok a) : ∃ e, r = .error e := by
  cases r with
  | ok a => exact absurd rfl (h a)
  | error e => exact ⟨e, rfl⟩

/-- A form that the due-date rule stops has not been touched. -/
theorem clkSave_of_rule_error {slot : FormSlot} {form : AddVehicleVC} {uuid : String} {t : Trap}
    (hForm : app.form slot = some form)
    (hRule : AppSharedInstance.getServiceDueDate P (form.populate P uuid) = .error t) :
    (AddVehicleVC.clkSave P slot uuid).run app = .error t app := by
  rw [AddVehicleVC.clkSave, Program.run_get_bind, hForm]
  dsimp only
  rw [hRule]
  rfl

/-- Save enters what the due-date rule returns into the form before it goes on. -/
theorem clkSave_run_of_rule {slot : FormSlot} {form : AddVehicleVC} {uuid text : String}
    {objVehicle : AllVehiclesI} (hForm : app.form slot = some form)
    (hRule : AppSharedInstance.getServiceDueDate P (form.populate P uuid) = .ok (objVehicle, text)) :
    (AddVehicleVC.clkSave P slot uuid).run app = (if form.isRecordEdit then do
        let gadgetObj ← Program.ofExcept (unwrap form.gadgetToUpdate)
        AddVehiclePresenter.editVehicalInfo P slot objVehicle gadgetObj
      else AddVehiclePresenter.addVehicle P slot objVehicle : AppM Unit).run
        (app.setForm { form with objVehicle := objVehicle } slot) := by
  rw [AddVehicleVC.clkSave, Program.run_get_bind, hForm]
  dsimp only
  rw [hRule, Program.run_bind_of_ok Program.run_ofExcept_ok]
  dsimp only
  rw [Program.run_set_bind]

theorem clkSave_addTab_ends (h : Sound P app) (uuid : String) :
    Ends app (AddVehicleVC.clkSave P .addTab uuid) (¬ app.addVehicleVC.Savable P app.storage.write.fetch) := by
  have hTab := h.placed.addTab
  rw [AddVehicleVC.savable_iff uuid]
  cases hRule : AppSharedInstance.getServiceDueDate P (app.addVehicleVC.populate P uuid) with
  | error t =>
      refine Ends.of_error (clkSave_of_rule_error rfl hRule) (.refl app) ?_
      rintro ⟨_, _, _, hOk, _⟩
      cases hOk
  | ok result =>
      obtain ⟨objVehicle, text⟩ := result
      by_cases hNarrow : Narrow objVehicle
      · have hSaved := savedVehicle_of_rule hRule
        obtain ⟨gadget, hGadget, _⟩ := gadgetInfo_of_hasDates hSaved.hasDates
        obtain ⟨due, hDue⟩ := Option.isSome_iff_exists.mp hSaved.hasDates.2
        obtain ⟨request, hRequest⟩ := hSaved.request due
        obtain ⟨form, hReload⟩ : ∃ form, AddVehicleVC.reloadData P
            { app.addVehicleVC with objVehicle := objVehicle.resetData, dtLastService := none } = .ok form :=
          cellForRowAt_total rfl rfl rfl
        refine Ends.of_ok ⟨_, clkSave_addTab_run hTab hRule (addRecord_eq_ok.mpr ⟨hNarrow, rfl⟩) hGadget hDue
          hRequest hReload⟩ (not_not.mpr ⟨fun hEdit => ?_, objVehicle, text, rfl, .inr hNarrow⟩)
        rw [hTab] at hEdit
        cases hEdit
      · obtain ⟨t, hFails⟩ : ∃ t, addRecord app.storage.write app.context objVehicle = .error t :=
          error_of_ne_ok fun _ hOk => hNarrow (addRecord_eq_ok.mp hOk).1
        have hRun : (AddVehicleVC.clkSave P .addTab uuid).run app = .error t
            (app.setForm { app.addVehicleVC with objVehicle := objVehicle } .addTab) := by
          rw [clkSave_run_of_rule (App.form_addTab app) hRule, if_neg (Bool.eq_false_iff.mp hTab)]
          exact VehicleManager.perform_bind_of_error hFails
        refine Ends.of_error hRun (nothingDone_setForm ..) ?_
        rintro ⟨_, objVehicle', text', hOk, ⟨hEdit, _⟩ | hFits⟩
        · exact Bool.noConfusion (hTab.symm.trans hEdit)
        · cases hOk
          exact hNarrow hFits

/-- The edit of a stored id gets through unless it writes numbers that do not fit. -/
theorem editRecord_traps_iff (outcome : StoreOutcome) {context : ManagedObjectContext}
    {objVehicle : AllVehiclesI} (hStored : (firstUnder context objVehicle.vehicleID).isSome)
    (hType : objVehicle.vehicleType.isSome) :
    (∃ t, editRecord outcome context objVehicle = .error t) ↔ outcome.fetch = true ∧ ¬ Narrow objVehicle := by
  obtain ⟨obj, hFirst⟩ := Option.isSome_iff_exists.mp hStored
  cases hFetch : outcome.fetch with
  | false =>
      refine iff_of_false ?_ (by simp)
      rintro ⟨t, hFails⟩
      rw [editRecord, ManagedObjectContext.fetchSorted, ManagedObjectContext.fetch, hFetch] at hFails
      cases hFails
  | true =>
      constructor
      · rintro ⟨t, hFails⟩
        refine ⟨rfl, fun hNarrow => ?_⟩
        cases ((editRecord_of_present hFetch hFirst).mpr ⟨hType, hNarrow, rfl⟩).symm.trans hFails
      · exact fun h => error_of_ne_ok fun _ hOk => h.2 ((editRecord_of_present hFetch hFirst).mp hOk).2.1

/-- An edit that is written is sent and told, and the editor is left. -/
theorem clkSave_editor_total (h : Sound P app) {form : AddVehicleVC} {uuid text : String}
    {objVehicle : AllVehiclesI} {gadgetObj : Gadget} {context : ManagedObjectContext} {calls : List Bool}
    (hForm : app.editor = some form)
    (hRule : AppSharedInstance.getServiceDueDate P (form.populate P uuid) = .ok (objVehicle, text))
    (hGadget : form.gadgetToUpdate = some gadgetObj)
    (hWrite : editRecord app.storage.write app.context objVehicle = .ok (context, calls)) :
    ∃ app', (AddVehicleVC.clkSave P .editor uuid).run app = .ok () app' := by
  have hSaved := savedVehicle_of_rule hRule
  have hPerformed : (DatabaseManager.Write.editRecord objVehicle).perform app.storage.write app.context =
      .ok (context, calls) := hWrite
  obtain ⟨success, rfl⟩ := DatabaseManager.Write.perform_calls hPerformed
  obtain ⟨gadget, hUpdate, _⟩ := gadgetObjToUpdate_of_hasDates gadgetObj hSaved.hasDates
  obtain ⟨due, hDue⟩ := Option.isSome_iff_exists.mp hSaved.hasDates.2
  obtain ⟨request, hRequest⟩ := hSaved.request due
  obtain ⟨app', hAppear⟩ := viewWillAppear_total { app with
    context := context
    outbox := app.outbox ++ FIRFireStoreService.update gadget
    told := app.told ++ [.vehicleInfoUpdated true]
    pendingRequests := (app.pendingRequests.remove [objVehicle.vehicleID]).add app.now request
    editor := none } (h.contains.editRecord (fun _ => hSaved) hWrite) app.selectedTab
  have hRun := clkSave_editor_run hForm (h.placed.editor form hForm) hRule hGadget hWrite hUpdate hDue hRequest
  exact ⟨app', hRun.trans hAppear⟩

theorem clkSave_editor_ends (h : Sound P app) {form : AddVehicleVC} (hForm : app.editor = some form)
    (uuid : String) :
    Ends app (AddVehicleVC.clkSave P .editor uuid) (¬ form.Savable P app.storage.write.fetch) := by
  have hEdit := h.placed.editor form hForm
  rw [AddVehicleVC.savable_iff uuid]
  cases hRule : AppSharedInstance.getServiceDueDate P (form.populate P uuid) with
  | error t =>
      refine Ends.of_error (clkSave_of_rule_error hForm hRule) (.refl app) ?_
      rintro ⟨_, _, _, hOk, _⟩
      cases hOk
  | ok result =>
      obtain ⟨objVehicle, text⟩ := result
      have hSaved := savedVehicle_of_rule hRule
      have hStored : (firstUnder app.context objVehicle.vehicleID).isSome := by
        obtain ⟨_, rfl⟩ := AppSharedInstance.getServiceDueDate_sets hRule
        have hID : (form.populate P uuid).vehicleID = form.objVehicle.vehicleID := if_pos hEdit
        exact hID ▸ h.shown.editor form hForm
      have hSlot : app.form .editor = some form := hForm
      have hFilled := clkSave_run_of_rule hSlot hRule
      rw [if_pos hEdit] at hFilled
      cases hGadget : form.gadgetToUpdate with
      | none =>
          rw [hGadget] at hFilled
          refine Ends.of_error hFilled (nothingDone_setForm ..) fun hSavable => ?_
          cases hSavable.1 hEdit
      | some gadgetObj =>
          rw [hGadget, unwrap_some, Program.run_bind_of_ok Program.run_ofExcept_ok] at hFilled
          have hTraps := editRecord_traps_iff app.storage.write hStored hSaved.vehicleType
          cases hWrite : editRecord app.storage.write app.context objVehicle with
          | error t =>
              obtain ⟨hFetch, hWide⟩ := hTraps.mp ⟨t, hWrite⟩
              refine Ends.of_error (hFilled.trans (VehicleManager.perform_bind_of_error hWrite))
                (nothingDone_setForm ..) ?_
              rintro ⟨_, _, _, hOk, ⟨_, hFails⟩ | hFits⟩
              · exact Bool.noConfusion (hFetch.symm.trans hFails)
              · cases hOk
                exact hWide hFits
          | ok written =>
              obtain ⟨context, calls⟩ := written
              obtain ⟨app', hRun⟩ := clkSave_editor_total h hForm hRule hGadget hWrite
              refine Ends.of_ok ⟨app', hRun⟩ (not_not.mpr ⟨fun _ => rfl, objVehicle, text, rfl, ?_⟩)
              by_cases hFetch : app.storage.write.fetch = true
              · refine .inr (not_not.mp fun hWide => ?_)
                obtain ⟨t, hFails⟩ := hTraps.mpr ⟨hFetch, hWide⟩
                cases hWrite.symm.trans hFails
              · exact .inl ⟨hEdit, Bool.eq_false_iff.mpr hFetch⟩

theorem clkSave_ends (h : Sound P app) (uuid : String) :
    Ends app (handle P (.clkSave uuid)) (Action.Traps P app (.clkSave uuid)) := by
  have hRun (slot : FormSlot) (form : AddVehicleVC) (hSlot : app.activeForm = some slot)
      (hForm : app.form slot = some form)
      (hEnds : Ends app (AddVehicleVC.clkSave P slot uuid) (¬ form.Savable P app.storage.write.fetch)) :
      Ends app (handle P (.clkSave uuid)) (Action.Traps P app (.clkSave uuid)) := by
    have hHandle : (handle P (.clkSave uuid)).run app = (AddVehicleVC.clkSave P slot uuid).run app := by
      rw [handle, Program.run_get_bind, hSlot]
    have hTraps : Action.Traps P app (.clkSave uuid) ↔ ¬ form.Savable P app.storage.write.fetch := by
      refine ⟨?_, fun hNot => ⟨slot, form, hSlot, hForm, hNot⟩⟩
      rintro ⟨slot', form', hSlot', hForm', hNot⟩
      obtain rfl := Option.some.inj (hSlot.symm.trans hSlot')
      obtain rfl := Option.some.inj (hForm.symm.trans hForm')
      exact hNot
    exact ⟨fun hNot => hHandle ▸ hEnds.completes (mt hTraps.mpr hNot),
      fun hTrap => hHandle ▸ hEnds.stops (hTraps.mp hTrap)⟩
  cases hSlot : app.activeForm with
  | none =>
      refine Ends.of_ok ⟨app, ?_⟩ ?_
      · rw [handle, Program.run_get_bind, hSlot]
        rfl
      · rintro ⟨_, _, hSome, _⟩
        cases hSlot.symm.trans hSome
  | some slot =>
      cases slot with
      | addTab => exact hRun .addTab app.addVehicleVC hSlot rfl (clkSave_addTab_ends h uuid)
      | editor =>
          obtain ⟨form, hForm⟩ := Option.isSome_iff_exists.mp (activeForm_eq_editor.mp hSlot)
          exact hRun .editor form hSlot hForm (clkSave_editor_ends h hForm uuid)

theorem clkBack_ends (h : Sound P app) :
    Ends app (AddVehicleVC.clkBack P) (Action.Traps P app .clkBack) := by
  refine Ends.of_ok ?_ id
  rw [AddVehicleVC.clkBack, popViewController, Program.run_get_bind]
  cases app.editor with
  | none => exact ⟨app, rfl⟩
  | some form => exact viewWillAppear_total { app with editor := none } h.contains app.selectedTab

/-- Termination is fatal exactly if there is something to save and the save fails. -/
theorem relaunch_ends (h : Sound P app) : Ends app (relaunch P) (Action.Traps P app .relaunch) := by
  have hFails : (∃ t, saveContext app.storage.write app.context = .error t) ↔
      app.context.hasChanges = true ∧ app.storage.write.save = false := by
    cases hChanges : app.context.hasChanges <;> cases hSave : app.storage.write.save <;>
      simp [saveContext, ManagedObjectContext.save, hChanges, hSave]
  cases hSave : saveContext app.storage.write app.context with
  | error t =>
      have hRun : (relaunch P).run app = .error t app := by
        rw [relaunch, Program.run_get_bind, hSave]
        rfl
      exact Ends.of_error hRun (.refl app) (hFails.mp ⟨t, hSave⟩)
  | ok context =>
      let next : App :=
        { App.created context.loadPersistentStores app.pendingRequests app.now with
          storage := app.storage, outbox := app.outbox, told := app.told }
      have hContains : Contains _ next.context := (h.contains.saveContext hSave).loadPersistentStores
      obtain ⟨app', hAppear⟩ := viewWillAppear_total next hContains .allVehicles
      refine Ends.of_ok ⟨app', ?_⟩ fun hTraps => ?_
      · rw [relaunch, Program.run_get_bind, hSave]
        exact hAppear
      · obtain ⟨t, hError⟩ := hFails.mpr hTraps
        cases hSave.symm.trans hError

/-- Every offered action completes, or traps as described. -/
theorem handle_ends (h : Sound P app) {action : Action} (hOffered : action.Offered app) :
    Ends app (handle P action) (action.Traps P app) := by
  cases action with
  | clock now => exact Ends.of_ok ⟨_, rfl⟩ id
  | storage storage => exact Ends.of_ok ⟨_, rfl⟩ id
  | selectTab tab => exact Ends.of_ok (viewWillAppear_total { app with selectedTab := tab } h.contains tab) id
  | snapshot documents => exact Ends.of_ok ⟨_, rfl⟩ id
  | allVehiclesCellForRow row => exact AllVehiclesVC.cellForRowAt_ends row
  | allVehiclesCommitDelete row => exact AllVehiclesVC.commitDelete_ends h row
  | allVehiclesDidSelectRow row => exact AllVehiclesVC.didSelectRowAt_ends h row
  | historyCellForRow row => exact HistoryVC.cellForRowAt_ends h hOffered
  | historyCommitDelete row => exact HistoryVC.commitDelete_ends h hOffered.2
  | historyDidSelectRow row => exact HistoryVC.didSelectRowAt_ends h hOffered.2
  | form e => exact form_ends h e
  | clkSave uuid => exact clkSave_ends h uuid
  | clkBack => exact clkBack_ends h
  | notification request =>
      exact Ends.of_error (AllVehiclesVC.methodOfReceivedNotification_run P _) (.refl app) trivial
  | relaunch => exact relaunch_ends h

end Ends

end ServiceBook

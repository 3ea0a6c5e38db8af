import ServiceBook.AddEditVehicle.Reopen

/-! What holds of every state the app can reach, however the store has answered:
the forms are in step with their vehicles, and everything that is stored, or was
listed at some time, has been written by a Save. A reload of a form and a list
query therefore never trap. -/
namespace ServiceBook

open DatabaseManager

structure Sound (P : Platform) (app : App) : Prop where
  placed : FormsPlaced app
  shown : Shown app
  forms : OnForms (AddVehicleVC.InStep P) app
  contains : Contains (SavedVehicle P) app.context
  lists : OnLists (SavedVehicle P) app

section Sound

variable {P : Platform} {Q : AllVehiclesI → Prop} {app app' : App} {action : Action}
  {context : ManagedObjectContext} {objVehicle : AllVehiclesI}

theorem mem_of_query (h : Contains Q context) (hTyped : ∀ objVehicle, Q objVehicle → objVehicle.vehicleType.isSome)
    {outcome : StoreOutcome} {predicate : Option NSPredicate} {arrVehicles : List AllVehiclesI}
    (hList : getAllRecords outcome context predicate = .ok arrVehicles) :
    ∀ objVehicle ∈ arrVehicles, Q objVehicle := by
  intro objVehicle hMem
  obtain ⟨obj, hObj, hCopy⟩ := mem_getAllRecords hList hMem
  exact (h.of_copied hTyped hObj hCopy).2.1

/-- A tab that comes up lists stored vehicles. -/
theorem onLists_of_appear {tab : Tab} (hAppear : (viewWillAppear P tab).run app = .ok () app')
    (hContains : Contains Q app.context) (hTyped : ∀ objVehicle, Q objVehicle → objVehicle.vehicleType.isSome)
    (h : OnLists Q app) : OnLists Q app' := by
  cases tab with
  | allVehicles =>
      obtain ⟨arrVehicles, hList, rfl⟩ := AllVehiclesVC.viewWillAppear_of_ok hAppear
      exact ⟨mem_of_query hContains hTyped hList, h.history⟩
  | history =>
      obtain ⟨arrVehicles, hList, rfl⟩ := HistoryPresenter.getAllVehicles_eq_ok.mp hAppear
      exact ⟨h.due, mem_of_query hContains hTyped hList⟩
  | addVehicle =>
      obtain ⟨form, _, rfl⟩ := viewWillAppear_addVehicle_of_ok hAppear
      exact ⟨h.due, h.history⟩

/-- A list that a step fetches was fetched from the store it leaves. -/
theorem OnLists.step (h : OnLists Q app) (hPlaced : FormsPlaced app) (hContains : Contains Q app.context)
    (hNext : Contains Q app'.context) (hTyped : ∀ objVehicle, Q objVehicle → objVehicle.vehicleType.isSome)
    (hStep : app.step P action = some app') : OnLists Q app' := by
  cases step_stepped hPlaced hStep with
  | selectTab tab _ _ hAppear => exact onLists_of_appear hAppear hContains hTyped ⟨h.due, h.history⟩
  | snapshot documents =>
      have hList := app.allVehiclesVC.snapshot_arrAllVehicles documents
      exact ⟨fun objVehicle hMem => h.due objVehicle (hList ▸ hMem), h.history⟩
  | allVehiclesDelete row objVehicle gadgetObj context success arrVehicles _ _ _ _ hList =>
      exact ⟨mem_of_query hNext hTyped hList, h.history⟩
  | historyDelete row objVehicle context success arrVehicles _ _ _ hList =>
      exact ⟨h.due, mem_of_query hNext hTyped hList⟩
  | form slot e form form' _ _ =>
      cases slot with
      | addTab => exact ⟨h.due, h.history⟩
      | editor => exact ⟨h.due, h.history⟩
  | saveEdit uuid form objVehicle text gadgetObj context success gadget due request _ _ _ _ _ _ _ _ hAppear =>
      rw [(viewWillAppear_refreshed hAppear).context] at hNext
      exact onLists_of_appear hAppear hNext hTyped ⟨h.due, h.history⟩
  | back form _ _ hAppear => exact onLists_of_appear hAppear hContains hTyped ⟨h.due, h.history⟩
  | relaunch context _ _ hAppear =>
      rw [(viewWillAppear_refreshed hAppear).context] at hNext
      exact onLists_of_appear hAppear hNext hTyped
        ⟨fun _ hNone => (by cases hNone), fun _ hNone => (by cases hNone)⟩
  | _ => exact ⟨h.due, h.history⟩

theorem Saves.saved (h : Saves P app action objVehicle) : SavedVehicle P objVehicle := by
  obtain ⟨_, _, _, _, _, _, _, hRule⟩ := h
  exact savedVehicle_of_rule hRule

theorem Sound.contains_step (h : Sound P app) (hStep : app.step P action = some app') :
    Contains (SavedVehicle P) app'.context :=
  h.contains.step h.placed hStep fun _ hSaves _ => hSaves.saved

theorem Sound.step (h : Sound P app) (hStep : app.step P action = some app') : Sound P app' where
  placed := h.placed.step hStep
  shown := h.shown.step h.placed hStep
  forms := inStep_rule.step h.placed h.forms (onLists_any app)
    (formMeets_of_forall (fun _ _ _ _ => trivial) action) hStep
  contains := h.contains_step hStep
  lists := h.lists.step h.placed h.contains (h.contains_step hStep) (fun _ hSaved => hSaved.vehicleType) hStep

theorem onLists_installed (now : Date) : OnLists Q (App.installed now) :=
  ⟨fun _ hNone => (by cases hNone), fun _ hNone => (by cases hNone)⟩

theorem sound_installed (now : Date) : Sound P (App.installed now) where
  placed := formsPlaced_installed now
  shown := shown_installed now
  forms := inStep_rule.installed now
  contains := contains_empty
  lists := onLists_installed now

/-! What can therefore not trap. -/

theorem cellForRowAt_total {form : AddVehicleVC} (hName : form.objVehicle.vehicleName.isSome)
    (hType : form.objVehicle.vehicleType.isSome) (hNo : form.objVehicle.vehicleNo.isSome) :
    ∃ form', AddVehicleVC.cellForRowAt P form = .ok form' := by
  obtain ⟨name, hName⟩ := Option.isSome_iff_exists.mp hName
  obtain ⟨type, hType⟩ := Option.isSome_iff_exists.mp hType
  obtain ⟨number, hNo⟩ := Option.isSome_iff_exists.mp hNo
  exact ⟨_, AddVehicleVC.cellForRowAt_eq_ok.mpr ⟨name, type, number, hName, hType, hNo, rfl⟩⟩

/-- No event of a form that is in step traps. -/
theorem AddVehicleVC.InStep.handles {form : AddVehicleVC} (h : AddVehicleVC.InStep P form)
    (e : AddVehicleVC.Event) : ∃ form', AddVehicleVC.handle P form e = .ok form' := by
  have hType : form.objVehicle.vehicleType.isSome := by
    rw [h.vehicleType]
    rfl
  cases e with
  | clkPickerDone =>
      obtain ⟨strVehicleType, hRow⟩ : ∃ strVehicleType,
          AddVehicleVC.vehicleTypes[form.slectedPickerRow.getD 0]? = some strVehicleType :=
        ⟨_, List.getElem?_eq_getElem h.slectedPickerRow⟩
      rw [AddVehicleVC.handle, AddVehicleVC.clkPickerDone, hRow, unwrap_some, ok_bind]
      exact cellForRowAt_total h.vehicleName.1 rfl h.vehicleNo.1
  | clkDone => exact cellForRowAt_total h.vehicleName.1 hType h.vehicleNo.1
  | reloadData => exact cellForRowAt_total h.vehicleName.1 hType h.vehicleNo.1
  | _ => exact ⟨_, rfl⟩

theorem AllVehiclesPresenter.getAllVehicles_total (app : App) (h : Contains (SavedVehicle P) app.context) :
    ∃ app', AllVehiclesPresenter.getAllVehicles.run app = .ok () app' := by
  obtain ⟨arrVehicles, hQuery⟩ := h.getAllRecords (fun _ hSaved => hSaved.vehicleType)
    app.storage.list (upcoming app.now)
  exact ⟨_, AllVehiclesPresenter.getAllVehicles_eq_ok.mpr ⟨arrVehicles, hQuery, rfl⟩⟩

theorem HistoryPresenter.getAllVehicles_total (app : App) (h : Contains (SavedVehicle P) app.context) :
    ∃ app', HistoryPresenter.getAllVehicles.run app = .ok () app' := by
  obtain ⟨arrVehicles, hQuery⟩ := h.getAllRecords (fun _ hSaved => hSaved.vehicleType)
    app.storage.list (pastDue app.now)
  exact ⟨_, HistoryPresenter.getAllVehicles_eq_ok.mpr ⟨arrVehicles, hQuery, rfl⟩⟩

/-- Every tab comes up. -/
theorem viewWillAppear_total (app : App) (h : Contains (SavedVehicle P) app.context) (tab : Tab) :
    ∃ app', (viewWillAppear P tab).run app = .ok () app' := by
  cases tab with
  | allVehicles =>
      obtain ⟨_, hFetch⟩ := AllVehiclesPresenter.getAllVehicles_total app h
      exact ⟨_, Program.run_bind_of_ok hFetch⟩
  | history => exact HistoryPresenter.getAllVehicles_total app h
  | addVehicle =>
      have hReset : ∃ form, app.addVehicleVC.viewWillAppear P = .ok form := by
        unfold AddVehicleVC.viewWillAppear
        split
        · exact cellForRowAt_total rfl rfl rfl
        · exact ⟨_, rfl⟩
      obtain ⟨form, hReset⟩ := hReset
      refine ⟨{ app with addVehicleVC := form }, ?_⟩
      rw [viewWillAppear, Program.run_get_bind, hReset]
      rfl

/-- A saved vehicle can be opened in an editor. -/
theorem SavedVehicle.opens (h : SavedVehicle P objVehicle) (now : Date) (gadget : Option Gadget) :
    ∃ form, AddVehicleVC.appear P (AddVehicleVC.editForm now objVehicle gadget) = .ok form := by
  obtain ⟨lastServiceDate, hLast⟩ := Option.isSome_iff_exists.mp h.hasDates.1
  obtain ⟨form, hCell⟩ : ∃ form, AddVehicleVC.cellForRowAt P
      { AddVehicleVC.editForm now objVehicle gadget with pickerDate := lastServiceDate } = .ok form :=
    cellForRowAt_total h.vehicleName h.vehicleType h.vehicleNo
  exact ⟨form, (AddVehicleVC.appear_edit rfl).mpr ⟨lastServiceDate, hLast, hCell⟩⟩

/-- It has what a row of the History table unwraps. -/
theorem SavedVehicle.hasFields (h : SavedVehicle P objVehicle) : objVehicle.HasFields := by
  obtain ⟨notes, hNotes, _⟩ := h.notes
  exact ⟨h.hasDates.2, by rw [hNotes]; rfl, h.vehicleNo, h.vehicleName, h.vehicleType⟩

end Sound

end ServiceBook

import ServiceBook.App.Step
import ServiceBook.AddEditVehicle.InStep

/-! Properties of the forms. A form starts empty or as the editor of a vehicle,
and from then on it changes by its events and by the reset of the Add tab, so
what these keep holds of every form in every state of the app. -/
namespace ServiceBook

/-- The property holds of the form of the Add tab and of the editor, if there is one. -/
def OnForms (F : AddVehicleVC → Prop) (app : App) : Prop :=
  ∀ slot form, app.form slot = some form → F form

/-- An event meets the condition in the form it goes to. -/
def FormMeets (C : AddVehicleVC → AddVehicleVC.Event → Prop) (app : App) : Action → Prop
  | .form e => ∀ slot form, app.activeForm = some slot → app.form slot = some form → C form e
  | _ => True

/-- What the lists hold has the property. -/
structure OnLists (Q : AllVehiclesI → Prop) (app : App) : Prop where
  due : ∀ objVehicle ∈ app.allVehiclesVC.arrAllVehicles, Q objVehicle
  history : ∀ objVehicle ∈ app.historyVC.arrAllVehicles, Q objVehicle

/-- The property is kept by everything that happens to a form, as long as it is
opened with vehicles of a kind and its events meet the condition. -/
structure FormRule (P : Platform) (F : AddVehicleVC → Prop) (Q : AllVehiclesI → Prop)
    (C : AddVehicleVC → AddVehicleVC.Event → Prop) : Prop where
  added : ∀ now, F (AddVehicleVC.addForm now)
  reset : ∀ form form', F form → form.isRecordEdit = false →
    AddVehicleVC.reloadData P { form with objVehicle := {}, dtLastService := none } = .ok form' → F form'
  opened : ∀ now objVehicle gadget form', Q objVehicle →
    AddVehicleVC.appear P (AddVehicleVC.editForm now objVehicle gadget) = .ok form' → F form'
  handled : ∀ form e form', F form → C form e → e.Offered →
    AddVehicleVC.handle P form e = .ok form' → F form'

section Forms

variable {P : Platform} {F : AddVehicleVC → Prop} {Q : AllVehiclesI → Prop}
  {C : AddVehicleVC → AddVehicleVC.Event → Prop} {app app' : App} {action : Action}

theorem formMeets_of_forall (h : ∀ slot form e, app.form slot = some form → C form e) (action : Action) :
    FormMeets C app action := by
  cases action with
  | form e => exact fun slot form _ hForm => h slot form e hForm
  | _ => trivial

theorem OnForms.setForm (h : OnForms F app) {form : AddVehicleVC} (hForm : F form) (slot : FormSlot) :
    OnForms F (app.setForm form slot) := by
  intro other shown hShown
  cases slot with
  | addTab =>
      cases other with
      | addTab =>
          obtain rfl := Option.some.inj hShown
          exact hForm
      | editor => exact h .editor shown hShown
  | editor =>
      cases other with
      | addTab => exact h .addTab shown hShown
      | editor =>
          obtain rfl := Option.some.inj hShown
          exact hForm

/-- The same forms, or no editor any more. -/
theorem OnForms.of_eq (h : OnForms F app) (hTab : app'.addVehicleVC = app.addVehicleVC)
    (hEditor : app'.editor = none ∨ app'.editor = app.editor) : OnForms F app' := by
  intro slot form hForm
  cases slot with
  | addTab => exact h .addTab form ((congrArg some hTab).symm.trans hForm)
  | editor =>
      rcases hEditor with hNone | hSame
      · cases hNone.symm.trans hForm
      · exact h .editor form (hSame.symm.trans hForm)

/-- An app that has just been created has the fresh form of the Add tab only. -/
theorem FormRule.launched (h : FormRule P F Q C) {now : Date} (hTab : app.addVehicleVC = AddVehicleVC.addForm now)
    (hEditor : app.editor = none) : OnForms F app := by
  intro slot form hForm
  cases slot with
  | addTab =>
      obtain rfl := hTab.symm.trans (Option.some.inj hForm)
      exact h.added now
  | editor => cases hEditor.symm.trans hForm

/-- A tab that comes on top resets its form or keeps it. -/
theorem FormRule.appears (h : FormRule P F Q C) {tab : Tab}
    (hAppear : (viewWillAppear P tab).run app = .ok () app') (hTab : app.addVehicleVC.isRecordEdit = false)
    (hForms : OnForms F app) : OnForms F app' := by
  cases tab with
  | allVehicles =>
      obtain ⟨arrVehicles, _, rfl⟩ := AllVehiclesVC.viewWillAppear_of_ok hAppear
      exact hForms.of_eq rfl (.inr rfl)
  | history =>
      obtain ⟨arrVehicles, _, rfl⟩ := HistoryPresenter.getAllVehicles_eq_ok.mp hAppear
      exact hForms.of_eq rfl (.inr rfl)
  | addVehicle =>
      obtain ⟨form, hReset, rfl⟩ := viewWillAppear_addVehicle_of_ok hAppear
      rw [AddVehicleVC.viewWillAppear, if_pos (by simp [hTab])] at hReset
      exact hForms.setForm (h.reset app.addVehicleVC form (hForms .addTab _ rfl) hTab hReset) .addTab

/-- Every step of the app keeps the property of its forms. -/
theorem FormRule.step (h : FormRule P F Q C) (hPlaced : FormsPlaced app) (hForms : OnForms F app)
    (hLists : OnLists Q app) (hMeets : FormMeets C app action) (hStep : app.step P action = some app') :
    OnForms F app' := by
  have hAddTab := hPlaced.addTab
  cases step_stepped hPlaced hStep with
  | selectTab tab _ _ hAppear => exact h.appears hAppear hAddTab (hForms.of_eq rfl (.inr rfl))
  | allVehiclesSelect row vehicleObj gadgetObj form _ hVehicle _ hAppear =>
      have hListed := hLists.due vehicleObj (List.mem_of_getElem? hVehicle)
      exact hForms.setForm (h.opened app.now vehicleObj (some gadgetObj) form hListed hAppear) .editor
  | historySelect row vehicleObj form _ hVehicle hAppear =>
      have hListed := hLists.history vehicleObj (List.mem_of_getElem? hVehicle)
      exact hForms.setForm (h.opened app.now vehicleObj none form hListed hAppear) .editor
  | form _ e _ _ _ _ =>
      obtain ⟨slot, form, form', hSlot, hForm, hOffered, hHandle, hEnd⟩ := form_step hStep
      rw [hEnd]
      have hKept := h.handled form e form' (hForms slot form hForm) (hMeets slot form hSlot hForm) hOffered hHandle
      exact hForms.setForm hKept slot
  | saveAdd uuid objVehicle text context success gadget due request form _ _ _ _ _ _ hReload =>
      have hKept := h.reset app.addVehicleVC form (hForms .addTab _ rfl) hAddTab hReload
      exact (hForms.setForm hKept .addTab).of_eq rfl (.inr rfl)
  | saveEdit uuid form objVehicle text gadgetObj context success gadget due request _ _ _ _ _ _ _ _ hAppear =>
      exact h.appears hAppear hAddTab (hForms.of_eq rfl (.inl rfl))
  | back form _ _ hAppear => exact h.appears hAppear hAddTab (hForms.of_eq rfl (.inl rfl))
  | relaunch context _ _ hAppear => exact h.appears hAppear rfl (h.launched rfl rfl)
  | _ => exact hForms.of_eq rfl (.inr rfl)

theorem FormRule.installed (h : FormRule P F Q C) (now : Date) : OnForms F (App.installed now) := by
  rw [installed_eq]
  exact h.launched rfl rfl

theorem onLists_any (app : App) : OnLists (fun _ => True) app := ⟨fun _ _ => trivial, fun _ _ => trivial⟩

/-- In every run whose form events meet the condition, the forms have the property. -/
theorem FormRule.run (h : FormRule P F (fun _ => True) C) {now : Date} {actions : List Action}
    (hMeets : Transition.Throughout (App.step P) (FormMeets C) (App.installed now) actions) :
    Transition.Always (App.step P) (fun app => FormsPlaced app ∧ OnForms F app) (App.installed now) actions :=
  Transition.always_of_throughout (I := fun app => FormsPlaced app ∧ OnForms F app)
    (fun _ _ _ hInv hMeets hStep => ⟨hInv.1.step hStep, h.step hInv.1 hInv.2 (onLists_any _) hMeets hStep⟩)
    ⟨formsPlaced_installed now, h.installed now⟩ hMeets

/-- The forms are in step with their vehicles, whatever the events. -/
theorem inStep_rule : FormRule P (AddVehicleVC.InStep P) (fun _ => True) fun _ _ => True where
  added := AddVehicleVC.inStep_addForm
  reset := by
    intro form form' h hTab hReload
    apply AddVehicleVC.inStep_cellForRowAt _ _ _ _ hReload
    · exact fun _ => rfl
    · exact h.editing
    · exact h.slectedPickerRow
    · exact h.previousPickerRow
  opened := by
    intro now objVehicle gadget form' _ hAppear
    obtain ⟨lastServiceDate, _, hCell⟩ := (AddVehicleVC.appear_edit rfl).mp hAppear
    apply AddVehicleVC.inStep_cellForRowAt _ _ _ _ hCell
    · exact fun hAdd => by cases hAdd
    · simp [AddVehicleVC.editForm]
    · simp [AddVehicleVC.editForm, AddVehicleVC.vehicleTypes]
    · rfl
  handled := fun _ _ _ h _ hOffered hHandle => h.handle hOffered hHandle

end Forms

end ServiceBook

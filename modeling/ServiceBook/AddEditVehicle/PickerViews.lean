import ServiceBook.AddEditVehicle.Pickers

/-! The views of the two pickers, which are hidden and shown by the callbacks of
the fields. An event of a picker needs its view to be on the screen. -/
namespace ServiceBook

/-- Which of the two views are shown. -/
structure PickerViews where
  viewPicker : Bool := false
  viewDatePicker : Bool := false
deriving DecidableEq

namespace PickerViews

/-- `textFieldShouldBeginEditing` and `textFieldDidBeginEditing`. The text view leaves both as they are. -/
def beginEditing (views : PickerViews) : Responder → PickerViews
  | .vehicleType => { views with viewPicker := true }
  | .lastServiceDate => { views with viewDatePicker := true }
  | .notes => views
  | _ => {}

/-- `textFieldShouldReturn` of the first responder. -/
def returnKey (views : PickerViews) : Option Responder → PickerViews
  | some .vehicleName => { views with viewPicker := true }
  | some .vehicleType => views.beginEditing .serviceRequired
  | some .serviceRequired => { views with viewDatePicker := true }
  | some .lastServiceDate => views.beginEditing .weeklyRun
  | some .weeklyRun => views.beginEditing .vehicleNo
  | some .vehicleNo => views.beginEditing .notes
  | some .notes => views
  | none => views

def after (views : PickerViews) (form : AddVehicleVC) : AddVehicleVC.Event → PickerViews
  | .becomeFirstResponder responder =>
      if form.editing = some responder then views else views.beginEditing responder
  | .returnKey => views.returnKey form.editing
  | .clkPickerDone => { views with viewPicker := false }
  | .clkPickerCancel => { views with viewPicker := false }
  | .clkDone => { views with viewDatePicker := false }
  | .clkCancel => {}
  | _ => views

/-- The event does not need a view that is hidden. -/
def reaches (views : PickerViews) : AddVehicleVC.Event → Bool
  | .didSelectRow _ => views.viewPicker
  | .clkPickerDone => views.viewPicker
  | .clkPickerCancel => views.viewPicker
  | .selectDate _ => views.viewDatePicker
  | .clkDone => views.viewDatePicker
  | .clkCancel => views.viewDatePicker
  | _ => true

end PickerViews

namespace AddVehicleVC

/-- The numbers have been taken over in plain digits, and the notes are those the form came with. -/
structure TakenOver (form : AddVehicleVC) : Prop where
  serviceRequired : Plain form.cell.txtServiceRequired form.objVehicle.serviceRequiredAfter
  weeklyRun : Plain form.cell.txtWeeklyRun form.objVehicle.averageRun
  notes : NotesShown form.cell.txtNotes form.objVehicle.notes

/-- A text field that is being edited has hidden both views. -/
def Calm (form : AddVehicleVC) (views : PickerViews) : Prop :=
  ∀ field, form.editing = some field → field ≠ .notes → views = {}

section Calm

variable {P : Platform} {form form' : AddVehicleVC} {views : PickerViews}

theorem calm_of_none (h : form.editing = none) : Calm form views := by
  intro field hField
  cases h.symm.trans hField

theorem Calm.hidden (h : Calm form views) {views' : PickerViews} (hSame : form'.editing = form.editing)
    (hHidden : views = {} → views' = {}) : Calm form' views' :=
  fun field hField hNotes => hHidden (h field (hSame ▸ hField) hNotes)

theorem editing_cellForRowAt (h : cellForRowAt P form = .ok form') : form'.editing = form.editing := by
  obtain ⟨_, _, _, _, _, _, rfl⟩ := cellForRowAt_eq_ok.mp h
  rfl

/-- A field that begins editing hides both views; otherwise no field is being edited. -/
theorem calm_becomeFirstResponder (views : PickerViews) {responder : Responder}
    (hNew : form.editing ≠ some responder) :
    Calm (becomeFirstResponder P form responder) (views.beginEditing responder) := by
  unfold AddVehicleVC.becomeFirstResponder
  rw [if_neg hNew]
  cases responder with
  | vehicleType => exact calm_of_none endEditing_editing
  | lastServiceDate => exact calm_of_none endEditing_editing
  | notes => exact fun field hField hNotes => absurd (Option.some.inj hField).symm hNotes
  | _ => exact fun _ _ _ => rfl

theorem Calm.type (h : Calm form views) (text : String) : Calm (AddVehicleVC.type form text) views := by
  unfold AddVehicleVC.type
  split
  · exact h
  · split
    · exact calm_of_none rfl
    · exact h.hidden rfl id
  · exact h.hidden rfl id

theorem Calm.returnKey (h : Calm form views) :
    Calm (AddVehicleVC.returnKey P form) (views.returnKey form.editing) := by
  unfold AddVehicleVC.returnKey
  split
  · next hNone =>
      rw [hNone]
      exact h
  · exact calm_of_none endEditing_editing
  · next hField =>
      rw [hField]
      exact calm_becomeFirstResponder views (by simp)
  · exact calm_of_none endEditing_editing
  · next hField =>
      rw [hField]
      exact calm_becomeFirstResponder views (by simp [hField])
  · next hField =>
      rw [hField]
      exact calm_becomeFirstResponder views (by simp [hField, AddVehicleVC.textFieldDidEndEditing])
  · next hField =>
      rw [hField]
      exact calm_becomeFirstResponder views (by simp [hField, AddVehicleVC.textFieldDidEndEditing])
  · exact calm_of_none endEditing_editing

theorem Calm.handle (h : Calm form views) {e : Event} (hHandle : AddVehicleVC.handle P form e = .ok form') :
    Calm form' (views.after form e) := by
  cases e with
  | becomeFirstResponder responder =>
      cases hHandle
      by_cases hSame : form.editing = some responder
      · have hForm : AddVehicleVC.becomeFirstResponder P form responder = form := if_pos hSame
        have hViews : views.after form (.becomeFirstResponder responder) = views := if_pos hSame
        rw [hForm, hViews]
        exact h
      · have hViews : views.after form (.becomeFirstResponder responder) = views.beginEditing responder :=
          if_neg hSame
        rw [hViews]
        exact calm_becomeFirstResponder views hSame
  | type text =>
      cases hHandle
      exact h.type text
  | returnKey =>
      cases hHandle
      exact h.returnKey
  | endEditing =>
      cases hHandle
      exact calm_of_none endEditing_editing
  | didSelectRow row =>
      cases hHandle
      exact h.hidden rfl id
  | clkPickerDone =>
      obtain ⟨_, _, hReload⟩ := bind_eq_ok.mp hHandle
      have hEditing := editing_cellForRowAt hReload
      refine h.hidden hEditing ?_
      rintro rfl
      rfl
  | clkPickerCancel =>
      cases hHandle
      refine h.hidden ?_ ?_
      · unfold AddVehicleVC.clkPickerCancel
        split <;> rfl
      · rintro rfl
        rfl
  | selectDate date =>
      cases hHandle
      exact h.hidden rfl id
  | clkDone =>
      have hEditing := editing_cellForRowAt hHandle
      refine h.hidden hEditing ?_
      rintro rfl
      rfl
  | clkCancel =>
      cases hHandle
      exact h.hidden rfl fun _ => rfl
  | reloadData => exact h.hidden (editing_cellForRowAt hHandle) id

end Calm

end AddVehicleVC

/-- The app with the picker views of its two forms. -/
structure Screen where
  app : App
  addTab : PickerViews := {}
  editor : PickerViews := {}

namespace Screen

def views (screen : Screen) : FormSlot → PickerViews
  | .addTab => screen.addTab
  | .editor => screen.editor

def setViews (screen : Screen) (views : PickerViews) : FormSlot → Screen
  | .addTab => { screen with addTab := views }
  | .editor => { screen with editor := views }

/-- The action does not need a view that is hidden. -/
def reaches (screen : Screen) : Action → Bool
  | .form e => screen.app.activeForm.all fun slot => (screen.views slot).reaches e
  | _ => true

/-- The views after an action. A form that is loaded hides both. -/
def turned (screen : Screen) : Action → Screen
  | .form e =>
      (screen.app.activeForm.bind fun slot => (screen.app.form slot).map fun form =>
        screen.setViews ((screen.views slot).after form e) slot).getD screen
  | .allVehiclesDidSelectRow _ => { screen with editor := {} }
  | .historyDidSelectRow _ => { screen with editor := {} }
  | .relaunch => { screen with addTab := {}, editor := {} }
  | _ => screen

def step (P : Platform) (screen : Screen) (action : Action) : Option Screen :=
  if screen.reaches action then
    (screen.app.step P action).map fun app => { screen.turned action with app := app }
  else none

def installed (now : Date) : Screen := { app := App.installed now }

/-- Whether a field is being edited has not changed, or it is not any more. -/
structure EditingKept (app app' : App) : Prop where
  addTab : app'.addVehicleVC.editing = none ∨ app'.addVehicleVC.editing = app.addVehicleVC.editing
  editor : ∀ form, app'.editor = some form → form.editing = none ∨ app.editor = some form

/-- What the Done buttons of the views do to the other fields of the form. Nothing
has to be asked about the name and the number of the vehicle. -/
structure PickersKeep (P : Platform) (form : AddVehicleVC) (views : PickerViews) : Prop where
  calm : form.Calm views
  clkPickerDone : views.viewPicker = true →
    (AddVehicleVC.OnlyChanges P form .clkPickerDone .vehicleType ↔ form.TakenOver ∧ AddVehicleVC.PickShown P form)
  clkDone : views.viewDatePicker = true →
    (AddVehicleVC.OnlyChanges P form .clkDone .lastServiceDate ↔ form.TakenOver)

/-- The forms are in step with their vehicles and calm. -/
structure Settled (P : Platform) (screen : Screen) : Prop where
  placed : FormsPlaced screen.app
  forms : OnForms (AddVehicleVC.InStep P) screen.app
  calm : ∀ slot form, screen.app.form slot = some form → form.Calm (screen.views slot)

section Screen

variable {P : Platform} {screen screen' : Screen} {app app' : App} {action : Action}

theorem editing_of_appear {tab : Tab} (hAppear : (viewWillAppear P tab).run app = .ok () app') :
    app'.addVehicleVC.editing = app.addVehicleVC.editing ∧ app'.editor = app.editor := by
  cases tab with
  | allVehicles =>
      obtain ⟨arrVehicles, _, rfl⟩ := AllVehiclesVC.viewWillAppear_of_ok hAppear
      exact ⟨rfl, rfl⟩
  | history =>
      obtain ⟨arrVehicles, _, rfl⟩ := HistoryPresenter.getAllVehicles_eq_ok.mp hAppear
      exact ⟨rfl, rfl⟩
  | addVehicle =>
      obtain ⟨form, hReset, rfl⟩ := viewWillAppear_addVehicle_of_ok hAppear
      refine ⟨?_, rfl⟩
      unfold AddVehicleVC.viewWillAppear at hReset
      split at hReset
      · have hEditing := AddVehicleVC.editing_cellForRowAt hReset
        exact hEditing
      · cases hReset
        rfl

theorem editingKept_of_step (hPlaced : FormsPlaced app) (hStep : app.step P action = some app')
    (hOther : ∀ e, action ≠ .form e) : EditingKept app app' := by
  cases step_stepped hPlaced hStep with
  | selectTab tab _ _ hAppear =>
      obtain ⟨hTab, hEditor⟩ := editing_of_appear hAppear
      exact ⟨.inr hTab, fun form hForm => .inr (hEditor ▸ hForm)⟩
  | allVehiclesSelect row vehicleObj gadgetObj form _ _ _ hAppear =>
      obtain ⟨_, _, hCell⟩ := (AddVehicleVC.appear_edit rfl).mp hAppear
      refine ⟨.inr rfl, fun other hOther => .inl ?_⟩
      obtain rfl := Option.some.inj hOther
      exact AddVehicleVC.editing_cellForRowAt hCell
  | historySelect row vehicleObj form _ _ hAppear =>
      obtain ⟨_, _, hCell⟩ := (AddVehicleVC.appear_edit rfl).mp hAppear
      refine ⟨.inr rfl, fun other hOther => .inl ?_⟩
      obtain rfl := Option.some.inj hOther
      exact AddVehicleVC.editing_cellForRowAt hCell
  | form slot e _ _ _ _ => exact absurd rfl (hOther e)
  | saveAdd uuid objVehicle text context success gadget due request form _ _ _ _ _ _ hReload =>
      have hEditing := AddVehicleVC.editing_cellForRowAt hReload
      exact ⟨.inr hEditing, fun _ hForm => .inr hForm⟩
  | saveEdit uuid form objVehicle text gadgetObj context success gadget due request _ _ _ _ _ _ _ _ hAppear =>
      obtain ⟨hTab, hEditor⟩ := editing_of_appear hAppear
      exact ⟨.inr hTab, fun form hForm => by cases hEditor.symm.trans hForm⟩
  | back form _ _ hAppear =>
      obtain ⟨hTab, hEditor⟩ := editing_of_appear hAppear
      exact ⟨.inr hTab, fun form hForm => by cases hEditor.symm.trans hForm⟩
  | relaunch context _ _ hAppear =>
      obtain ⟨hTab, hEditor⟩ := editing_of_appear hAppear
      exact ⟨.inl hTab, fun form hForm => by cases hEditor.symm.trans hForm⟩
  | _ => exact ⟨.inr rfl, fun _ hForm => .inr hForm⟩

/-- Other actions leave the views of a form as they are, or hide them. -/
theorem views_turned (hOther : ∀ e, action ≠ .form e) (slot : FormSlot) :
    (screen.turned action).views slot = screen.views slot ∨ (screen.turned action).views slot = {} := by
  cases action with
  | form e => exact absurd rfl (hOther e)
  | allVehiclesDidSelectRow row => cases slot <;> simp [turned, views]
  | historyDidSelectRow row => cases slot <;> simp [turned, views]
  | relaunch => cases slot <;> simp [turned, views]
  | _ => exact .inl rfl

theorem step_eq_some :
    screen.step P action = some screen' ↔ screen.reaches action = true ∧
      ∃ app, screen.app.step P action = some app ∧ { screen.turned action with app := app } = screen' := by
  rw [Screen.step]
  split
  · next hReaches => simp [hReaches]
  · next hReaches => simp [hReaches]

theorem Settled.calm_of_form (h : Settled P screen) {e : AddVehicleVC.Event}
    (hApp : screen.app.step P (.form e) = some app) (slot : FormSlot) (form : AddVehicleVC)
    (hForm : app.form slot = some form) : form.Calm ((screen.turned (.form e)).views slot) := by
  obtain ⟨active, before, after, hActive, hBefore, _, hHandle, rfl⟩ := form_step hApp
  have hTurned : screen.turned (.form e) = screen.setViews ((screen.views active).after before e) active := by
    rw [turned, hActive, Option.bind_some, hBefore]
    rfl
  have hCalm := (h.calm active before hBefore).handle hHandle
  rw [hTurned]
  cases active with
  | addTab =>
      cases slot with
      | addTab =>
          obtain rfl := Option.some.inj hForm
          exact hCalm
      | editor => exact h.calm .editor form hForm
  | editor =>
      cases slot with
      | addTab => exact h.calm .addTab form hForm
      | editor =>
          obtain rfl := Option.some.inj hForm
          exact hCalm

theorem Settled.calm_of_other (h : Settled P screen) (hOther : ∀ e, action ≠ .form e)
    (hApp : screen.app.step P action = some app) (slot : FormSlot) (form : AddVehicleVC)
    (hForm : app.form slot = some form) : form.Calm ((screen.turned action).views slot) := by
  rcases views_turned hOther slot with hSame | hHidden
  · have hKept := editingKept_of_step h.placed hApp hOther
    rw [hSame]
    cases slot with
    | addTab =>
        obtain rfl := Option.some.inj hForm
        rcases hKept.addTab with hNone | hEditing
        · exact AddVehicleVC.calm_of_none hNone
        · exact (h.calm .addTab screen.app.addVehicleVC rfl).hidden hEditing id
    | editor =>
        rcases hKept.editor form hForm with hNone | hEditor
        · exact AddVehicleVC.calm_of_none hNone
        · exact h.calm .editor form hEditor
  · exact fun _ _ _ => hHidden

theorem Settled.step (h : Settled P screen) (hStep : screen.step P action = some screen') :
    Settled P screen' := by
  obtain ⟨_, app, hApp, rfl⟩ := step_eq_some.mp hStep
  have hForms := inStep_rule.step h.placed h.forms (onLists_any _)
    (formMeets_of_forall (fun _ _ _ _ => trivial) action) hApp
  refine ⟨h.placed.step hApp, hForms, fun slot form hForm => ?_⟩
  · have hViews : ({ screen.turned action with app := app } : Screen).views slot =
        (screen.turned action).views slot := by cases slot <;> rfl
    rw [hViews]
    by_cases hAction : ∃ e, action = .form e
    · obtain ⟨e, rfl⟩ := hAction
      exact h.calm_of_form hApp slot form hForm
    · exact h.calm_of_other (fun e hSame => hAction ⟨e, hSame⟩) hApp slot form hForm

theorem settled_installed (now : Date) : Settled P (installed now) where
  placed := formsPlaced_installed now
  forms := inStep_rule.installed now
  calm := by
    intro slot form hForm
    cases slot with
    | addTab =>
        obtain rfl := Option.some.inj hForm
        exact AddVehicleVC.calm_of_none rfl
    | editor => cases hForm

/-- While a view is on the screen, a form is settled as soon as it has been taken over. -/
theorem settled_iff_takenOver {form : AddVehicleVC} {views : PickerViews} (h : form.Calm views)
    (hShown : views ≠ {}) : form.Settled ↔ form.TakenOver := by
  have hField (field : Responder) (hNotes : field ≠ .notes) : form.editing ≠ some field :=
    fun hField => hShown (h field hField hNotes)
  constructor
  · exact fun hSettled => ⟨hSettled.serviceRequired, hSettled.weeklyRun, hSettled.notes⟩
  · intro hTaken
    exact ⟨fun hName => absurd hName (hField .vehicleName (by simp)),
      fun hNo => absurd hNo (hField .vehicleNo (by simp)),
      hTaken.serviceRequired, hTaken.weeklyRun, hTaken.notes⟩

theorem Settled.pickersKeep (h : Settled P screen) {slot : FormSlot} {form : AddVehicleVC}
    (hForm : screen.app.form slot = some form) : PickersKeep P form (screen.views slot) where
  calm := h.calm slot form hForm
  clkPickerDone := by
    intro hShown
    have hViews : screen.views slot ≠ {} := fun hHidden => by rw [hHidden] at hShown; cases hShown
    rw [(h.forms slot form hForm).clkPickerDone_iff, settled_iff_takenOver (h.calm slot form hForm) hViews]
  clkDone := by
    intro hShown
    have hViews : screen.views slot ≠ {} := fun hHidden => by rw [hHidden] at hShown; cases hShown
    rw [(h.forms slot form hForm).clkDone_iff, settled_iff_takenOver (h.calm slot form hForm) hViews]

/-- In every run in which the pickers are used only while they are on the screen, no
text field is being edited while they are, and their Done buttons leave the other
fields alone exactly if the numbers and the notes have been taken over. -/
theorem always_pickersKeep (P : Platform) (now : Date) (actions : List Action) :
    Transition.Always (step P)
      (fun screen => ∀ slot form, screen.app.form slot = some form → PickersKeep P form (screen.views slot))
      (installed now) actions :=
  (Transition.always_of_invariant (fun _ _ _ h hStep => Settled.step h hStep) (settled_installed now)).mono
    fun (screen : Screen) (h : Settled P screen) (slot : FormSlot) (form : AddVehicleVC)
        (hForm : screen.app.form slot = some form) => h.pickersKeep hForm

end Screen

end Screen

end ServiceBook

import ServiceBook.AddEditVehicle.StoredForm
import ServiceBook.App.Process

/-! What a stored record looks like, in every life of the process. A form starts
empty or from a record, its events put only certain things into it, and a Save
writes what it holds. -/
namespace ServiceBook

open DatabaseManager

/-- Forms that start from vehicles of a kind end in vehicles of that kind. -/
structure RoundRule (P : Platform) (F : AddVehicleVC → Prop) (Q : AllVehiclesI → Prop) : Prop where
  typed : ∀ objVehicle, Q objVehicle → objVehicle.vehicleType.isSome
  forms : FormRule P F Q fun form _ => AddVehicleVC.InStep P form
  saved : ∀ form uuid objVehicle text, F form →
    AppSharedInstance.getServiceDueDate P (form.populate P uuid) = .ok (objVehicle, text) → Q objVehicle

/-- The forms and the vehicles, stored or listed, are of their kinds. -/
structure Around (P : Platform) (F : AddVehicleVC → Prop) (Q : AllVehiclesI → Prop) (app : App) : Prop where
  sound : Sound P app
  forms : OnForms F app
  contains : Contains Q app.context
  lists : OnLists Q app

section RoundRule

variable {P : Platform} {F : AddVehicleVC → Prop} {Q : AllVehiclesI → Prop} {app app' : App} {action : Action}
  {e : ProcessEvent}

theorem Around.saves (h : Around P F Q app) (hRule : RoundRule P F Q) {objVehicle : AllVehiclesI}
    (hSaves : Saves P app action objVehicle) : Q objVehicle := by
  obtain ⟨uuid, slot, form, text, _, _, hForm, hDue⟩ := hSaves
  exact hRule.saved form uuid objVehicle text (h.forms slot form hForm) hDue

theorem Around.step (h : Around P F Q app) (hRule : RoundRule P F Q) (hStep : app.step P action = some app') :
    Around P F Q app' := by
  obtain ⟨hContains, hLists⟩ := h.sound.records_step hRule.typed (fun _ hSaves => h.saves hRule hSaves)
    ⟨h.contains, h.lists⟩ hStep
  have hForms := hRule.forms.step h.sound.placed h.forms h.lists
    (formMeets_of_forall (fun slot form _ => h.sound.forms slot form) action) hStep
  exact ⟨h.sound.step hStep, hForms, hContains, hLists⟩

theorem Around.live (h : Around P F Q app) (hRule : RoundRule P F Q) (hLive : app.live P e = some app') :
    Around P F Q app' := by
  rcases h.sound.live_eq_some hLive with ⟨action, rfl, hStep⟩ | ⟨_, hLaunch⟩
  · exact h.step hRule hStep
  · rw [launched_eq_step] at hLaunch
    exact Around.step ⟨h.sound.ended, hRule.forms.launched rfl rfl,
      h.contains.loadPersistentStores, onLists_ended⟩ hRule hLaunch

theorem around_installed (hRule : RoundRule P F Q) (now : Date) : Around P F Q (App.installed now) where
  sound := sound_installed now
  forms := hRule.forms.installed now
  contains := contains_empty
  lists := onLists_installed now

end RoundRule

namespace AddVehicleVC

/-- What only the Done buttons change: the type on the screen, and three parts of the vehicle. -/
def picked (form : AddVehicleVC) : String × Option Date × Option String × Option Date :=
  (form.cell.txtVehicleType, form.objVehicle.lastServiceDate, form.objVehicle.notes, form.objVehicle.serviceDueDate)

section Picked

variable {P : Platform} {form form' : AddVehicleVC}

theorem picked_eq {type : String} {lastServiceDate serviceDueDate : Option Date} {notes : Option String} :
    form.picked = (type, lastServiceDate, notes, serviceDueDate) ↔
      form.cell.txtVehicleType = type ∧ form.objVehicle.lastServiceDate = lastServiceDate ∧
        form.objVehicle.notes = notes ∧ form.objVehicle.serviceDueDate = serviceDueDate := by
  simp [picked]

theorem picked_of_untyped (hSame : form'.untyped = form.untyped) : form'.picked = form.picked :=
  congrArg Prod.snd hSame

/-- Only the two Done buttons change any of it: one takes a type of the picker,
the other a date that has been formatted and read back. -/
theorem InStep.picked_handle (h : InStep P form) {e : Event} (hHandle : AddVehicleVC.handle P form e = .ok form') :
    form'.picked = form.picked ∨
      (∃ vehicleType ∈ vehicleTypes, form'.picked = (vehicleType, form.picked.2)) ∨
      ∃ picked, form'.picked =
        (form.picked.1, P.dateFromString (P.stringFromDate picked), form.picked.2.2) := by
  cases e with
  | becomeFirstResponder responder =>
      cases hHandle
      exact .inl (picked_of_untyped (untyped_becomeFirstResponder responder))
  | type text =>
      cases hHandle
      exact .inl (picked_of_untyped (h.untyped_type text))
  | returnKey =>
      cases hHandle
      exact .inl (picked_of_untyped untyped_returnKey)
  | endEditing =>
      cases hHandle
      exact .inl (picked_of_untyped untyped_endEditing)
  | didSelectRow row =>
      cases hHandle
      exact .inl rfl
  | clkPickerDone =>
      have hRow := List.getElem?_eq_getElem h.slectedPickerRow
      rw [AddVehicleVC.handle, AddVehicleVC.clkPickerDone, hRow, unwrap_some, ok_bind] at hHandle
      obtain ⟨_, vehicleType, _, _, hType, _, rfl⟩ := cellForRowAt_eq_ok.mp hHandle
      obtain rfl := Option.some.inj hType
      exact .inr (.inl ⟨_, List.getElem_mem h.slectedPickerRow, rfl⟩)
  | clkPickerCancel =>
      cases hHandle
      rw [AddVehicleVC.clkPickerCancel, h.previousPickerRow]
      exact .inl rfl
  | selectDate date =>
      cases hHandle
      exact .inl rfl
  | clkDone =>
      obtain ⟨_, vehicleType, _, _, hType, _, rfl⟩ := cellForRowAt_eq_ok.mp hHandle
      obtain rfl := Option.some.inj (h.vehicleType.symm.trans hType)
      exact .inr (.inr ⟨_, rfl⟩)
  | clkCancel =>
      cases hHandle
      exact .inl rfl
  | reloadData =>
      obtain ⟨_, vehicleType, _, _, hType, _, rfl⟩ := cellForRowAt_eq_ok.mp hHandle
      obtain rfl := Option.some.inj (h.vehicleType.symm.trans hType)
      exact .inl rfl

end Picked

end AddVehicleVC

/-- The type is one of the picker or blank, and the date of the last service has
been formatted and read back. -/
structure WellFormed (P : Platform) (objVehicle : AllVehiclesI) : Prop where
  saved : SavedVehicle P objVehicle
  vehicleType : ∃ type ∈ "" :: AddVehicleVC.vehicleTypes, objVehicle.vehicleType = some type
  lastServiceDate : ∃ picked, objVehicle.lastServiceDate = P.dateFromString (P.stringFromDate picked)

/-- The same of a form. A new one has no date yet. -/
structure AddVehicleVC.WellFormed (P : Platform) (form : AddVehicleVC) : Prop where
  vehicleType : form.cell.txtVehicleType ∈ "" :: AddVehicleVC.vehicleTypes
  lastServiceDate : form.objVehicle.lastServiceDate = none ∨
    ∃ picked, form.objVehicle.lastServiceDate = P.dateFromString (P.stringFromDate picked)

section WellFormed

variable {P : Platform} {form form' : AddVehicleVC}

/-- A reload shows the type of the vehicle. -/
theorem AddVehicleVC.wellFormed_cellForRowAt {vehicleType : String} (hType : vehicleType ∈ "" :: vehicleTypes)
    (hVehicle : form.objVehicle.vehicleType = some vehicleType)
    (hDate : form.objVehicle.lastServiceDate = none ∨
      ∃ picked, form.objVehicle.lastServiceDate = P.dateFromString (P.stringFromDate picked))
    (h : cellForRowAt P form = .ok form') : form'.WellFormed P := by
  obtain ⟨_, shown, _, _, hShown, _, rfl⟩ := cellForRowAt_eq_ok.mp h
  obtain rfl := Option.some.inj (hVehicle.symm.trans hShown)
  exact ⟨hType, hDate⟩

theorem AddVehicleVC.WellFormed.handle (h : form.WellFormed P) (hInStep : InStep P form) {e : Event}
    (hHandle : AddVehicleVC.handle P form e = .ok form') : form'.WellFormed P := by
  rcases hInStep.picked_handle hHandle with hSame | ⟨vehicleType, hType, hSame⟩ | ⟨picked, hSame⟩
  · obtain ⟨hShown, hDate, -, -⟩ := picked_eq.mp hSame
    exact ⟨hShown ▸ h.vehicleType, hDate ▸ h.lastServiceDate⟩
  · obtain ⟨hShown, hDate, -, -⟩ := picked_eq.mp hSame
    exact ⟨hShown ▸ List.mem_cons_of_mem _ hType, hDate ▸ h.lastServiceDate⟩
  · obtain ⟨hShown, hDate, -, -⟩ := picked_eq.mp hSame
    exact ⟨hShown ▸ h.vehicleType, .inr ⟨picked, hDate⟩⟩

/-- The Save rule sets the due date only. -/
theorem AddVehicleVC.WellFormed.saves (h : form.WellFormed P) {uuid text : String} {objVehicle : AllVehiclesI}
    (hRule : AppSharedInstance.getServiceDueDate P (form.populate P uuid) = .ok (objVehicle, text)) :
    ServiceBook.WellFormed P objVehicle := by
  have hSaved := savedVehicle_of_rule hRule
  obtain ⟨due, rfl⟩ := AppSharedInstance.getServiceDueDate_sets hRule
  refine ⟨hSaved, ⟨form.cell.txtVehicleType, h.vehicleType, rfl⟩, ?_⟩
  rcases h.lastServiceDate with hNone | hPicked
  · have hDate : form.objVehicle.lastServiceDate.isSome := hSaved.hasDates.1
    rw [hNone] at hDate
    cases hDate
  · exact hPicked

theorem wellFormed_rule : RoundRule P (AddVehicleVC.WellFormed P) (WellFormed P) where
  typed := fun _ h => h.saved.vehicleType
  forms :=
    { added := fun now => ⟨by simp [AddVehicleVC.addForm], .inl rfl⟩
      reset := fun _ _ _ _ hReload =>
        AddVehicleVC.wellFormed_cellForRowAt (List.mem_cons_self ..) rfl (.inl rfl) hReload
      opened := by
        intro now objVehicle gadget form' h hAppear
        obtain ⟨_, _, hCell⟩ := (AddVehicleVC.appear_edit rfl).mp hAppear
        obtain ⟨vehicleType, hType, hVehicle⟩ := h.vehicleType
        exact AddVehicleVC.wellFormed_cellForRowAt hType hVehicle (.inr h.lastServiceDate) hCell
      handled := fun _ _ _ h hInStep _ hHandle => h.handle hInStep hHandle }
  saved := fun _ _ _ _ h hRule => h.saves hRule

/-- In every state of the process, whatever has failed or crashed before, the
stored and the listed vehicles are well formed. -/
theorem always_wellFormed (P : Platform) (now : Date) (events : List ProcessEvent) :
    Transition.Always (App.live P)
      (fun app => Contains (WellFormed P) app.context ∧ OnLists (WellFormed P) app) (App.installed now) events :=
  (Transition.always_of_invariant (I := Around P (AddVehicleVC.WellFormed P) (WellFormed P))
    (fun _ _ _ h hLive => h.live wellFormed_rule hLive) (around_installed wellFormed_rule now)).mono
    fun _ h => ⟨h.contains, h.lists⟩

end WellFormed

end ServiceBook

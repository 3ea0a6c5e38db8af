import ServiceBook.General.Transition
import ServiceBook.Utilities.UTC
import ServiceBook.Database.DatabaseManager
import ServiceBook.AddEditVehicle.AddVehicleVC

/-! Pressing Save: what the form must hold for `clkSave` to get through the
due-date rule and the call of the database without a trap. -/
namespace ServiceBook

namespace AddVehicleVC

open DatabaseManager

variable (P : Platform)

/-- One event of the form. An event that traps ends the run. -/
def step (form : AddVehicleVC) (e : Event) : Option AddVehicleVC :=
  if e.Offered then (handle P form e).toOption else none

/-- `clkSave` up to the return of `addRecord` or `editRecord`. -/
def saveRecord (uuid : String) (outcome : StoreOutcome) (context : ManagedObjectContext)
    (form : AddVehicleVC) : Except Trap (ManagedObjectContext × List Bool) := do
  let (objVehicle, _) ← AppSharedInstance.getServiceDueDate P (form.populate P uuid)
  if form.isRecordEdit then
    let _ ← unwrap form.gadgetToUpdate
    editRecord outcome context objVehicle
  else addRecord outcome context objVehicle

/-- A vehicle in a row of a list, which a query of the store has put there. -/
def Listed (context : ManagedObjectContext) (objVehicle : AllVehiclesI) : Prop :=
  ∃ outcome predicate vehicles,
    getAllRecords outcome context predicate = .ok vehicles ∧ objVehicle ∈ vehicles

/-- The ways the form comes on the screen: as the Add tab, whatever it held
before, or as the editor of a row of the Due Services or the History list. -/
inductive Opened (context : ManagedObjectContext) : AddVehicleVC → Prop where
  | addTab (form form' : AddVehicleVC) (hTab : form.isRecordEdit = false)
      (hAppear : viewWillAppear P form = .ok form') : Opened context form'
  | dueRow (now : Date) (objVehicle : AllVehiclesI) (gadget : Gadget) (form' : AddVehicleVC)
      (hListed : Listed context objVehicle)
      (hAppear : appear P (editForm now objVehicle (some gadget)) = .ok form') : Opened context form'
  | historyRow (now : Date) (objVehicle : AllVehiclesI) (form' : AddVehicleVC)
      (hListed : Listed context objVehicle)
      (hAppear : appear P (editForm now objVehicle none) = .ok form') : Opened context form'

/-- The number fields hold numbers that fit the store, the weekly run is not
zero, a last service date has been committed, and an editor has its gadget. -/
structure SaveReady (form : AddVehicleVC) : Prop where
  distance : ∃ n, enteredNumber P form.cell.txtServiceRequired form.objVehicle.serviceRequiredAfter =
    some n ∧ InInt32 n
  run : ∃ n, enteredNumber P form.cell.txtWeeklyRun form.objVehicle.averageRun =
    some n ∧ InInt16 n ∧ n ≠ 0
  date : form.objVehicle.lastServiceDate.isSome
  gadget : form.isRecordEdit → form.gadgetToUpdate.isSome

variable {P}

section Frame

/-- What the events of the form leave alone. -/
structure SameRecord (form form' : AddVehicleVC) : Prop where
  isRecordEdit : form'.isRecordEdit = form.isRecordEdit
  gadgetToUpdate : form'.gadgetToUpdate = form.gadgetToUpdate
  vehicleID : form'.objVehicle.vehicleID = form.objVehicle.vehicleID

variable {form form' form'' : AddVehicleVC}

theorem SameRecord.refl (form : AddVehicleVC) : SameRecord form form := ⟨rfl, rfl, rfl⟩

theorem SameRecord.trans (h : SameRecord form form') (h' : SameRecord form' form'') :
    SameRecord form form'' where
  isRecordEdit := h'.isRecordEdit.trans h.isRecordEdit
  gadgetToUpdate := h'.gadgetToUpdate.trans h.gadgetToUpdate
  vehicleID := h'.vehicleID.trans h.vehicleID

theorem sameRecord_cellForRowAt (h : cellForRowAt P form = .ok form') : SameRecord form form' := by
  simp only [cellForRowAt, bind_eq_ok, pure_eq_ok, Except.ok.injEq] at h
  obtain ⟨_, _, _, _, _, _, rfl⟩ := h
  exact ⟨rfl, rfl, rfl⟩

theorem sameRecord_textFieldDidEndEditing (field : Responder) :
    SameRecord form (textFieldDidEndEditing P form field) := by
  cases field <;> exact ⟨rfl, rfl, rfl⟩

theorem sameRecord_endEditing : SameRecord form (endEditing P form) := by
  have hNotes : SameRecord form (textViewDidEndEditing form) := by
    unfold textViewDidEndEditing
    split <;> exact ⟨rfl, rfl, rfl⟩
  unfold endEditing
  split
  · exact .refl form
  · exact ⟨hNotes.isRecordEdit, hNotes.gadgetToUpdate, hNotes.vehicleID⟩
  · next field _ _ =>
      have hField : SameRecord form (textFieldDidEndEditing P form field) :=
        sameRecord_textFieldDidEndEditing field
      exact ⟨hField.isRecordEdit, hField.gadgetToUpdate, hField.vehicleID⟩

theorem sameRecord_becomeFirstResponder (responder : Responder) :
    SameRecord form (becomeFirstResponder P form responder) := by
  have hField : SameRecord form { endEditing P form with editing := some responder } :=
    ⟨sameRecord_endEditing.isRecordEdit, sameRecord_endEditing.gadgetToUpdate,
      sameRecord_endEditing.vehicleID⟩
  have hBegin : SameRecord form (textViewShouldBeginEditing form) := by
    unfold textViewShouldBeginEditing
    split <;> exact ⟨rfl, rfl, rfl⟩
  have hNotes := hBegin.trans (sameRecord_endEditing (P := P))
  unfold becomeFirstResponder
  split
  · exact .refl form
  · cases responder with
    | vehicleType => exact sameRecord_endEditing
    | lastServiceDate => exact sameRecord_endEditing
    | notes => exact ⟨hNotes.isRecordEdit, hNotes.gadgetToUpdate, hNotes.vehicleID⟩
    | _ => exact hField

theorem sameRecord_returnKey : SameRecord form (returnKey P form) := by
  unfold returnKey
  split
  · exact .refl form
  · exact sameRecord_endEditing
  · exact (sameRecord_textFieldDidEndEditing (P := P) .vehicleType).trans (sameRecord_becomeFirstResponder _)
  · exact sameRecord_endEditing.trans (sameRecord_textFieldDidEndEditing _)
  · exact sameRecord_becomeFirstResponder _
  · exact (sameRecord_textFieldDidEndEditing _).trans (sameRecord_becomeFirstResponder _)
  · exact (sameRecord_textFieldDidEndEditing _).trans (sameRecord_becomeFirstResponder _)
  · exact sameRecord_endEditing

theorem sameRecord_type (text : String) : SameRecord form (type form text) := by
  unfold type
  split
  · exact .refl form
  · split <;> exact ⟨rfl, rfl, rfl⟩
  · exact ⟨rfl, rfl, rfl⟩

/-- No event of the form changes the kind of the form, its gadget or the id of its vehicle. -/
theorem handle_sameRecord {e : Event} (h : handle P form e = .ok form') : SameRecord form form' := by
  cases e with
  | becomeFirstResponder responder =>
      cases h
      exact sameRecord_becomeFirstResponder responder
  | type text =>
      cases h
      exact sameRecord_type text
  | returnKey =>
      cases h
      exact sameRecord_returnKey
  | endEditing =>
      cases h
      exact sameRecord_endEditing
  | didSelectRow row =>
      cases h
      exact ⟨rfl, rfl, rfl⟩
  | clkPickerDone =>
      obtain ⟨strVehicleType, _, hReload⟩ := bind_eq_ok.mp h
      have hCell := sameRecord_cellForRowAt hReload
      exact ⟨hCell.isRecordEdit, hCell.gadgetToUpdate, hCell.vehicleID⟩
  | clkPickerCancel =>
      cases h
      unfold clkPickerCancel
      split <;> exact ⟨rfl, rfl, rfl⟩
  | selectDate date =>
      cases h
      exact ⟨rfl, rfl, rfl⟩
  | clkDone =>
      have hCell := sameRecord_cellForRowAt h
      exact ⟨hCell.isRecordEdit, hCell.gadgetToUpdate, hCell.vehicleID⟩
  | clkCancel =>
      cases h
      exact .refl form
  | reloadData => exact sameRecord_cellForRowAt h

end Frame

section Save

variable {context : ManagedObjectContext} {form form' : AddVehicleVC}

theorem step_eq_some {e : Event} : step P form e = some form' ↔ e.Offered ∧ handle P form e = .ok form' := by
  unfold step
  split
  · next hOffered =>
      cases hHandle : handle P form e with
      | error t => simp [Except.toOption]
      | ok next => simp [Except.toOption, hOffered]
  · next hOffered => simp [hOffered]

/-- The edited record is stored, if the form edits one. -/
def EditsStored (context : ManagedObjectContext) (form : AddVehicleVC) : Prop :=
  form.isRecordEdit → (firstUnder context form.objVehicle.vehicleID).isSome

theorem EditsStored.of_sameRecord (h : EditsStored context form) (hSame : SameRecord form form') :
    EditsStored context form' := by
  intro hEdit
  rw [hSame.isRecordEdit] at hEdit
  rw [hSame.vehicleID]
  exact h hEdit

theorem Listed.stored {objVehicle : AllVehiclesI} (h : Listed context objVehicle) :
    (firstUnder context objVehicle.vehicleID).isSome := by
  obtain ⟨outcome, predicate, vehicles, hList, hMem⟩ := h
  obtain ⟨obj, hObj, hCopy⟩ := mem_getAllRecords hList hMem
  exact firstUnder_isSome hObj (allVehicleOf_eq_ok hCopy).1

/-- An editor comes on the screen as the reload of its vehicle. -/
theorem appear_edit (hEdit : form.isRecordEdit = true) :
    appear P form = .ok form' ↔ ∃ lastServiceDate, form.objVehicle.lastServiceDate = some lastServiceDate ∧
      cellForRowAt P { form with pickerDate := lastServiceDate } = .ok form' := by
  rw [appear, viewDidLoad, if_pos hEdit]
  cases hDate : form.objVehicle.lastServiceDate with
  | none => simp
  | some lastServiceDate => simp [viewWillAppear, hEdit]

theorem sameRecord_appear (h : appear P form = .ok form') (hEdit : form.isRecordEdit = true) :
    SameRecord form form' := by
  obtain ⟨lastServiceDate, _, hCell⟩ := (appear_edit hEdit).mp h
  have hSame := sameRecord_cellForRowAt hCell
  exact ⟨hSame.isRecordEdit, hSame.gadgetToUpdate, hSame.vehicleID⟩

/-- However the form is opened, what it edits is stored. -/
theorem Opened.editsStored (h : Opened P context form) : EditsStored context form := by
  cases h with
  | addTab before _ hTab hAppear =>
      intro hEdit
      rw [viewWillAppear, hTab] at hAppear
      rw [(sameRecord_cellForRowAt hAppear).isRecordEdit] at hEdit
      exact Bool.noConfusion (show false = true from hEdit)
  | dueRow now objVehicle gadget _ hListed hAppear =>
      intro _
      rw [(sameRecord_appear hAppear rfl).vehicleID]
      exact hListed.stored
  | historyRow now objVehicle _ hListed hAppear =>
      intro _
      rw [(sameRecord_appear hAppear rfl).vehicleID]
      exact hListed.stored

/-- The events of the form keep it that way. -/
theorem Opened.run_editsStored {events : List Event} (h : Opened P context form)
    (hRun : Transition.run (step P) form events = some form') : EditsStored context form' :=
  Transition.run_invariant
    (fun _ _ _ hStored hStep => hStored.of_sameRecord (handle_sameRecord (step_eq_some.mp hStep).2))
    h.editsStored hRun

/-- A form that is ready is saved, or its save fails, but nothing traps. -/
theorem SaveReady.saveRecord (hCalendar : ∀ days date, (P.dateByAddingDays days date).isSome)
    (h : SaveReady P form) (uuid : String) (outcome : StoreOutcome) :
    ∃ result, saveRecord P uuid outcome context form = .ok result := by
  obtain ⟨distance, hDistance, hDistance32⟩ := h.distance
  obtain ⟨run, hRun, hRun16, hRunZero⟩ := h.run
  obtain ⟨date, hDate⟩ := Option.isSome_iff_exists.mp h.date
  obtain ⟨days, hDays⟩ := AppSharedInstance.noOfDays_int hDistance32 hRunZero
  obtain ⟨due, hDue⟩ := Option.isSome_iff_exists.mp (hCalendar days date)
  have hRule : AppSharedInstance.getServiceDueDate P (form.populate P uuid) =
      .ok ({ form.populate P uuid with serviceDueDate := some due }, P.stringFromDate due) :=
    AppSharedInstance.getServiceDueDate_eq_ok.mpr
      ⟨run, distance, days, date, due, hRun, hDistance, hDays, hDate, hDue, rfl⟩
  have hNarrow : Narrow { form.populate P uuid with serviceDueDate := some due } :=
    ⟨distance, run, hDistance, hDistance32, hRun, hRun16⟩
  rw [AddVehicleVC.saveRecord, hRule, ok_bind]
  by_cases hEdit : form.isRecordEdit = true
  · obtain ⟨gadget, hGadget⟩ := Option.isSome_iff_exists.mp (h.gadget hEdit)
    simp only [if_pos hEdit, hGadget, unwrap_some, ok_bind]
    unfold editRecord
    split
    · exact ⟨_, rfl⟩
    · exact ⟨_, rfl⟩
    · next obj _ _ =>
        have hEdited := editedVehicle_eq_ok.mpr ⟨rfl, hNarrow, rfl⟩
        exact ⟨_, by rw [hEdited, ok_bind]; rfl⟩
  · simp only [if_neg hEdit]
    exact ⟨_, addRecord_eq_ok.mpr ⟨hNarrow, rfl⟩⟩

/-- A save that succeeds was made from a form that was ready. -/
theorem saveReady_of_saveRecord (hStored : EditsStored context form) {uuid : String}
    {result : ManagedObjectContext × List Bool}
    (h : saveRecord P uuid .success context form = .ok result) : SaveReady P form := by
  obtain ⟨⟨objVehicle, text⟩, hRule, hSave⟩ := bind_eq_ok.mp h
  obtain ⟨run, distance, days, date, due, hRun, hDistance, hDays, hDate, hDue, hObj⟩ :=
    AppSharedInstance.getServiceDueDate_eq_ok.mp hRule
  obtain ⟨rfl, -⟩ := Prod.mk.inj hObj
  have hNarrowGadget : Narrow { form.populate P uuid with serviceDueDate := some due } ∧
      (form.isRecordEdit → form.gadgetToUpdate.isSome) := by
    by_cases hEdit : form.isRecordEdit = true
    · simp only [if_pos hEdit, bind_eq_ok, unwrap_eq_ok] at hSave
      obtain ⟨gadget, hGadget, hSave⟩ := hSave
      obtain ⟨obj, hFirst⟩ := Option.isSome_iff_exists.mp (hStored hEdit)
      have hFirst' : firstUnder context
          ({ form.populate P uuid with serviceDueDate := some due } : AllVehiclesI).vehicleID =
            some obj := by
        rw [← hFirst]
        exact congrArg (firstUnder context) (if_pos hEdit)
      obtain ⟨_, hNarrow, _⟩ := (editRecord_of_present rfl hFirst').mp hSave
      exact ⟨hNarrow, fun _ => by rw [hGadget]; rfl⟩
    · simp only [if_neg hEdit] at hSave
      exact ⟨(addRecord_eq_ok.mp hSave).1, fun hTrue => absurd hTrue hEdit⟩
  obtain ⟨⟨distance', run', hDistance', hDistance32, hRun', hRun16⟩, hGadget⟩ := hNarrowGadget
  obtain rfl : distance = distance' := Option.some.inj (hDistance.symm.trans hDistance')
  obtain rfl : run = run' := Option.some.inj (hRun.symm.trans hRun')
  exact ⟨⟨distance, hDistance, hDistance32⟩,
    ⟨run, hRun, hRun16, AppSharedInstance.averageRun_ne_zero_of_int hDays⟩,
    Option.isSome_iff_exists.mpr ⟨date, hDate⟩, hGadget⟩

/-- Save is safe exactly from forms that are ready: for every way to open the
form, every sequence of events in it and every answer of the store. -/
theorem save_safe_iff (hCalendar : ∀ days date, (P.dateByAddingDays days date).isSome)
    {events : List Event} (hOpen : Opened P context form)
    (hRun : Transition.run (step P) form events = some form') (uuid : String) :
    (∀ outcome, ∃ result, saveRecord P uuid outcome context form' = .ok result) ↔
      SaveReady P form' := by
  constructor
  · intro h
    obtain ⟨result, hSave⟩ := h .success
    exact saveReady_of_saveRecord (hOpen.run_editsStored hRun) hSave
  · exact fun h outcome => h.saveRecord hCalendar uuid outcome

/-- The Add tab with a distance, a weekly run and a date. -/
private def filledEvents : List Event :=
  [.becomeFirstResponder .serviceRequired, .type "5000", .becomeFirstResponder .weeklyRun,
    .type "200", .endEditing, .selectDate 1700000000, .clkDone]

private def filledForm : AddVehicleVC where
  dtLastService := some 1700000000
  objVehicle :=
    { serviceRequiredAfter := some 5000, averageRun := some 200
      lastServiceDate := some 1699920000 }
  pickerDate := 1700000000
  cell :=
    { txtServiceRequired := "5000", txtLastServiceDate := "14 Nov 2023", txtWeeklyRun := "200"
      txtNotes := "Notes" }

private def emptyForm : AddVehicleVC := { pickerDate := 0, cell := { txtNotes := "Notes" } }

private theorem emptyForm_opened (context : ManagedObjectContext) :
    Opened UTC.platform context emptyForm :=
  .addTab (addForm 0) emptyForm rfl (by decide)

theorem save_safe_iff_filled :
    (∀ outcome, ∃ result, saveRecord UTC.platform "A1" outcome .empty filledForm = .ok result) ↔
      SaveReady UTC.platform filledForm :=
  save_safe_iff UTC.dateByAddingDays_isSome (emptyForm_opened .empty)
    (by decide +kernel : Transition.run (step UTC.platform) emptyForm filledEvents = some filledForm)
    "A1"

/-- Save on the untouched Add tab traps: no weekly run has been entered. -/
theorem save_can_trap :
    ¬ ∀ (P : Platform), (∀ days date, (P.dateByAddingDays days date).isSome) →
      ∀ (context : ManagedObjectContext) (form form' : AddVehicleVC) (events : List Event),
        Opened P context form → Transition.run (step P) form events = some form' →
          ∀ uuid outcome, ∃ result, saveRecord P uuid outcome context form' = .ok result := by
  intro h
  obtain ⟨result, hSave⟩ := h UTC.platform UTC.dateByAddingDays_isSome .empty emptyForm emptyForm []
    (emptyForm_opened .empty) rfl "A1" .success
  rw [saveRecord, AppSharedInstance.getServiceDueDate_of_averageRun_none _ (by decide)] at hSave
  cases hSave

end Save

end AddVehicleVC

end ServiceBook

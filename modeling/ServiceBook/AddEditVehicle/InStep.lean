import ServiceBook.AddEditVehicle.Save

/-! What a form shows and what its vehicle holds. The callbacks keep the texts
of the name, the type and the number in step with the vehicle, except while one
of them is being edited. Nothing does so for the notes and the two numbers. -/
namespace ServiceBook

namespace AddVehicleVC

/-- The state of a form between two events, as far as its reloads rely on it. -/
structure InStep (P : Platform) (form : AddVehicleVC) : Prop where
  vehicleName : form.objVehicle.vehicleName.isSome ∧ (form.editing ≠ some .vehicleName →
    form.objVehicle.vehicleName = some form.cell.txtVehicleName)
  vehicleType : form.objVehicle.vehicleType = some form.cell.txtVehicleType
  vehicleNo : form.objVehicle.vehicleNo.isSome ∧ (form.editing ≠ some .vehicleNo →
    form.objVehicle.vehicleNo = some form.cell.txtVehicleNo)
  notes : form.isRecordEdit = false → form.objVehicle.notes = some ""
  date : form.isRecordEdit = true →
    form.cell.txtLastServiceDate = (form.objVehicle.lastServiceDate.map P.stringFromDate).getD ""
  editing : form.editing ≠ some .vehicleType ∧ form.editing ≠ some .lastServiceDate
  slectedPickerRow : form.slectedPickerRow.getD 0 < vehicleTypes.length
  previousPickerRow : form.previousPickerRow = none

/-- What no typing changes: the texts that the pickers enter, and three parts of the vehicle. -/
def untyped (form : AddVehicleVC) : String × String × Option Date × Option String × Option Date :=
  (form.cell.txtLastServiceDate, form.cell.txtVehicleType, form.objVehicle.lastServiceDate,
    form.objVehicle.notes, form.objVehicle.serviceDueDate)

section InStep

variable {P : Platform} {form form' : AddVehicleVC}

/-- The cell after a reload. -/
theorem cellForRowAt_eq_ok :
    cellForRowAt P form = .ok form' ↔
      ∃ vehicleName vehicleType vehicleNo,
        form.objVehicle.vehicleName = some vehicleName ∧ form.objVehicle.vehicleType = some vehicleType ∧
        form.objVehicle.vehicleNo = some vehicleNo ∧
        form' = { form with
          dtLastService := if form.isRecordEdit then form.objVehicle.lastServiceDate else form.dtLastService
          cell :=
            { txtVehicleName := vehicleName
              txtVehicleType := vehicleType
              txtServiceRequired := (form.objVehicle.serviceRequiredAfter.map toString).getD ""
              txtLastServiceDate :=
                ((if form.isRecordEdit then form.objVehicle.lastServiceDate else form.dtLastService).map
                  P.stringFromDate).getD ""
              txtWeeklyRun := (form.objVehicle.averageRun.map toString).getD ""
              txtVehicleNo := vehicleNo
              txtNotes :=
                if form.objVehicle.notes = some "" then "Notes" else form.objVehicle.notes.getD "" } } := by
  simp only [cellForRowAt, bind_eq_ok, unwrap_eq_ok, pure_eq_ok, Except.ok.injEq]
  constructor
  · rintro ⟨vehicleName, hName, vehicleType, hType, vehicleNo, hNo, rfl⟩
    exact ⟨vehicleName, vehicleType, vehicleNo, hName, hType, hNo, rfl⟩
  · rintro ⟨vehicleName, vehicleType, vehicleNo, hName, hType, hNo, rfl⟩
    exact ⟨vehicleName, hName, vehicleType, hType, vehicleNo, hNo, rfl⟩

/-- A reload brings all the texts in step. -/
theorem inStep_cellForRowAt (hNotes : form.isRecordEdit = false → form.objVehicle.notes = some "")
    (hEditing : form.editing ≠ some .vehicleType ∧ form.editing ≠ some .lastServiceDate)
    (hRow : form.slectedPickerRow.getD 0 < vehicleTypes.length) (hPrevious : form.previousPickerRow = none)
    (h : cellForRowAt P form = .ok form') : InStep P form' := by
  obtain ⟨vehicleName, vehicleType, vehicleNo, hName, hType, hNo, rfl⟩ := cellForRowAt_eq_ok.mp h
  refine ⟨⟨by simp [hName], fun _ => hName⟩, hType, ⟨by simp [hNo], fun _ => hNo⟩, hNotes, fun hEdit => ?_,
    hEditing, hRow, hPrevious⟩
  simp [show form.isRecordEdit = true from hEdit]

theorem InStep.reloadData (h : InStep P form) (hReload : reloadData P form = .ok form') : InStep P form' :=
  inStep_cellForRowAt h.notes h.editing h.slectedPickerRow h.previousPickerRow hReload

theorem InStep.textFieldDidEndEditing (h : InStep P form) (field : Responder) :
    InStep P (textFieldDidEndEditing P form field) := by
  cases field with
  | vehicleName => exact { h with vehicleName := ⟨rfl, fun _ => rfl⟩ }
  | vehicleType => exact { h with vehicleType := rfl }
  | vehicleNo => exact { h with vehicleNo := ⟨rfl, fun _ => rfl⟩ }
  | _ => exact { h with }

/-- What holds of a field that is not being edited holds at all if it holds of
the field while it is edited. -/
theorem held_iff {field : Responder} {held : Prop} (h : form.editing ≠ some field → held) :
    (form.editing = some field → held) ↔ held := by
  constructor
  · intro hEdited
    by_cases hEditing : form.editing = some field
    · exact hEdited hEditing
    · exact h hEditing
  · exact fun hHeld _ => hHeld

/-- The first responder resigns, and what it shows has been copied. -/
theorem InStep.resigned (h : InStep P form)
    (hName : form.editing = some .vehicleName → form.objVehicle.vehicleName = some form.cell.txtVehicleName)
    (hNo : form.editing = some .vehicleNo → form.objVehicle.vehicleNo = some form.cell.txtVehicleNo) :
    InStep P { form with editing := none } where
  vehicleName := ⟨h.vehicleName.1, fun _ => (held_iff h.vehicleName.2).mp hName⟩
  vehicleType := h.vehicleType
  vehicleNo := ⟨h.vehicleNo.1, fun _ => (held_iff h.vehicleNo.2).mp hNo⟩
  notes := h.notes
  date := h.date
  editing := by simp
  slectedPickerRow := h.slectedPickerRow
  previousPickerRow := h.previousPickerRow

theorem InStep.setNotes (h : InStep P form) (text : String) :
    InStep P { form with cell := { form.cell with txtNotes := text } } := { h with }

theorem InStep.textViewDidEndEditing (h : InStep P form) : InStep P (textViewDidEndEditing form) := by
  unfold AddVehicleVC.textViewDidEndEditing
  split
  · exact h.setNotes "Notes"
  · exact h

theorem InStep.endEditing (h : InStep P form) : InStep P (endEditing P form) := by
  unfold AddVehicleVC.endEditing
  split
  · exact h
  · next hNotes =>
      have hSame : (AddVehicleVC.textViewDidEndEditing form).editing = some .notes := by
        unfold AddVehicleVC.textViewDidEndEditing
        split <;> exact hNotes
      exact h.textViewDidEndEditing.resigned (by simp [hSame]) (by simp [hSame])
  · next field _ hField =>
      apply (h.textFieldDidEndEditing field).resigned
      · intro hName
        cases field <;> first | rfl | cases hField.symm.trans hName
      · intro hNo
        cases field <;> first | rfl | cases hField.symm.trans hNo

theorem endEditing_editing : (endEditing P form).editing = none := by
  unfold endEditing
  split
  · next hNone => exact hNone
  · rfl
  · rfl

/-- Another responder takes over after the old one has resigned. -/
theorem InStep.taken (h : InStep P form) (hNone : form.editing = none) {responder : Responder}
    (hType : responder ≠ .vehicleType) (hDate : responder ≠ .lastServiceDate) :
    InStep P { form with editing := some responder } :=
  { h with
    vehicleName := ⟨h.vehicleName.1, fun _ => h.vehicleName.2 (by simp [hNone])⟩
    vehicleNo := ⟨h.vehicleNo.1, fun _ => h.vehicleNo.2 (by simp [hNone])⟩
    editing := by simp [hType, hDate] }

theorem InStep.becomeFirstResponder (h : InStep P form) (responder : Responder) :
    InStep P (becomeFirstResponder P form responder) := by
  have hBegin : InStep P (textViewShouldBeginEditing form) := by
    unfold textViewShouldBeginEditing
    split
    · exact h.setNotes ""
    · exact h
  unfold AddVehicleVC.becomeFirstResponder
  split
  · exact h
  · cases responder with
    | vehicleType => exact h.endEditing
    | lastServiceDate => exact h.endEditing
    | notes => exact hBegin.endEditing.taken endEditing_editing (by simp) (by simp)
    | _ => exact h.endEditing.taken endEditing_editing (by simp) (by simp)

theorem InStep.type (h : InStep P form) (text : String) : InStep P (type form text) := by
  unfold AddVehicleVC.type
  split
  · exact h
  · next hNotes =>
      split
      · exact (h.setNotes "Notes").resigned (by simp [hNotes]) (by simp [hNotes])
      · exact h.setNotes text
  · next field _ hField =>
      obtain ⟨hNotType, hNotDate⟩ := h.editing
      cases field with
      | vehicleName => exact { h with vehicleName := ⟨h.vehicleName.1, fun hNot => absurd hField hNot⟩ }
      | vehicleType => exact absurd hField hNotType
      | lastServiceDate => exact absurd hField hNotDate
      | vehicleNo => exact { h with vehicleNo := ⟨h.vehicleNo.1, fun hNot => absurd hField hNot⟩ }
      | _ => exact { h with }

theorem InStep.returnKey (h : InStep P form) : InStep P (returnKey P form) := by
  unfold AddVehicleVC.returnKey
  split
  · exact h
  · exact h.endEditing
  · next hType => exact absurd hType h.editing.1
  · exact h.endEditing.textFieldDidEndEditing .serviceRequired
  · next hDate => exact absurd hDate h.editing.2
  · exact (h.textFieldDidEndEditing .weeklyRun).becomeFirstResponder .vehicleNo
  · exact (h.textFieldDidEndEditing .vehicleNo).becomeFirstResponder .notes
  · exact h.endEditing

/-- Done in the type picker reloads the form with a type of the picker. -/
theorem InStep.clkPickerDone_eq (h : InStep P form) :
    ∃ strVehicleType, clkPickerDone P form = AddVehicleVC.reloadData P { form with
      slectedPickerRow := some (form.slectedPickerRow.getD 0)
      objVehicle := { form.objVehicle with vehicleType := some strVehicleType } } := by
  have hRow := List.getElem?_eq_getElem h.slectedPickerRow
  exact ⟨_, by rw [clkPickerDone, hRow]; rfl⟩

/-- Every event of the form keeps it that way. -/
theorem InStep.handle (h : InStep P form) {e : Event} (hOffered : e.Offered)
    (hHandle : handle P form e = .ok form') : InStep P form' := by
  cases e with
  | becomeFirstResponder responder =>
      cases hHandle
      exact h.becomeFirstResponder responder
  | type text =>
      cases hHandle
      exact h.type text
  | returnKey =>
      cases hHandle
      exact h.returnKey
  | endEditing =>
      cases hHandle
      exact h.endEditing
  | didSelectRow row =>
      cases hHandle
      exact { h with slectedPickerRow := hOffered }
  | clkPickerDone =>
      obtain ⟨strVehicleType, hDone⟩ := h.clkPickerDone_eq
      rw [AddVehicleVC.handle, hDone] at hHandle
      apply inStep_cellForRowAt _ _ _ _ hHandle
      · exact h.notes
      · exact h.editing
      · exact h.slectedPickerRow
      · exact h.previousPickerRow
  | clkPickerCancel =>
      cases hHandle
      rw [clkPickerCancel, h.previousPickerRow]
      exact h
  | selectDate date =>
      cases hHandle
      exact { h with }
  | clkDone =>
      apply inStep_cellForRowAt _ _ _ _ hHandle
      · exact h.notes
      · exact h.editing
      · exact h.slectedPickerRow
      · exact h.previousPickerRow
  | clkCancel =>
      cases hHandle
      exact h
  | reloadData => exact h.reloadData hHandle

@[simp] theorem untyped_textFieldDidEndEditing (field : Responder) :
    (textFieldDidEndEditing P form field).untyped = form.untyped := by
  cases field <;> rfl

@[simp] theorem untyped_endEditing : (endEditing P form).untyped = form.untyped := by
  unfold endEditing
  split
  · rfl
  · unfold textViewDidEndEditing
    split <;> rfl
  · next field _ _ => exact untyped_textFieldDidEndEditing field

@[simp] theorem untyped_becomeFirstResponder (responder : Responder) :
    (becomeFirstResponder P form responder).untyped = form.untyped := by
  have hField : ({ endEditing P form with editing := some responder } : AddVehicleVC).untyped = form.untyped :=
    untyped_endEditing
  have hNotes : (endEditing P (textViewShouldBeginEditing form)).untyped = form.untyped := by
    rw [untyped_endEditing]
    unfold textViewShouldBeginEditing
    split <;> rfl
  unfold becomeFirstResponder
  split
  · rfl
  · cases responder with
    | vehicleType => exact untyped_endEditing
    | lastServiceDate => exact untyped_endEditing
    | notes => exact hNotes
    | _ => exact hField

theorem untyped_returnKey : (returnKey P form).untyped = form.untyped := by
  unfold returnKey
  split
  · rfl
  · simp
  · rw [untyped_becomeFirstResponder]
    rfl
  · simp
  · simp
  · simp
  · simp
  · simp

/-- Nothing can be typed into the fields of the pickers. -/
theorem InStep.untyped_type (h : InStep P form) (text : String) :
    (AddVehicleVC.type form text).untyped = form.untyped := by
  unfold AddVehicleVC.type
  split
  · rfl
  · split <;> rfl
  · next field _ hField =>
      cases field with
      | vehicleType => exact absurd hField h.editing.1
      | lastServiceDate => exact absurd hField h.editing.2
      | _ => rfl

theorem inStep_addForm (now : Date) : InStep P (addForm now) where
  vehicleName := ⟨rfl, fun _ => rfl⟩
  vehicleType := rfl
  vehicleNo := ⟨rfl, fun _ => rfl⟩
  notes := fun _ => rfl
  date := fun hEdit => by cases hEdit
  editing := by simp [addForm]
  slectedPickerRow := by simp [addForm, vehicleTypes]
  previousPickerRow := rfl

end InStep

end AddVehicleVC

end ServiceBook

import ServiceBook.App.Forms

/-! The Done buttons of the two pickers. Both reload the cell from the vehicle,
so whatever the cell shows and the vehicle does not hold is lost. -/
namespace ServiceBook

namespace AddVehicleVC

/-- The event completes, and no text changes but the one of this field. -/
def OnlyChanges (P : Platform) (form : AddVehicleVC) (e : Event) (field : Responder) : Prop :=
  ∃ form', handle P form e = .ok form' ∧ ∀ other, other ≠ field → form'.cell.text other = form.cell.text other

/-- The number is there in plain decimal digits, or there is no number and no text. -/
def Plain (text : String) : Option Int64 → Prop
  | some n => text = toString n
  | none => text = ""

/-- The notes of the vehicle are there, or the placeholder for empty ones. -/
def NotesShown (text : String) : Option String → Prop
  | some notes => text = if notes = "" then "Notes" else notes
  | none => text = ""

/-- Nothing has been entered that the vehicle does not hold in the same words:
a name or number under the cursor has not been changed, the numeric texts are
plain numbers that have been taken over, and the notes are those the form came with. -/
structure Settled (form : AddVehicleVC) : Prop where
  vehicleName : form.editing = some .vehicleName →
    form.objVehicle.vehicleName = some form.cell.txtVehicleName
  vehicleNo : form.editing = some .vehicleNo → form.objVehicle.vehicleNo = some form.cell.txtVehicleNo
  serviceRequired : Plain form.cell.txtServiceRequired form.objVehicle.serviceRequiredAfter
  weeklyRun : Plain form.cell.txtWeeklyRun form.objVehicle.averageRun
  notes : NotesShown form.cell.txtNotes form.objVehicle.notes

/-- A form that adds shows the date that was picked last. -/
def PickShown (P : Platform) (form : AddVehicleVC) : Prop :=
  form.isRecordEdit = false →
    form.cell.txtLastServiceDate = (form.dtLastService.map P.stringFromDate).getD ""

section Pickers

variable {P : Platform} {form form' : AddVehicleVC}

theorem plain_iff {text : String} {value : Option Int64} :
    Plain text value ↔ (value.map toString).getD "" = text := by
  cases value <;> exact eq_comm

theorem notesShown_iff {text : String} {notes : Option String} :
    NotesShown text notes ↔ (if notes = some "" then "Notes" else notes.getD "") = text := by
  cases notes with
  | none => simp [NotesShown, eq_comm]
  | some notes => simp [NotesShown, eq_comm]

/-- A reload of the vehicle, whatever its type and date are by then, keeps the
five other texts exactly if the form is settled. -/
theorem InStep.settled_iff (h : InStep P form) {reloading : AddVehicleVC}
    {vehicleType : Option String} {lastServiceDate : Option Date}
    (hReload : cellForRowAt P reloading = .ok form') (hVehicle : reloading.objVehicle =
      { form.objVehicle with vehicleType := vehicleType, lastServiceDate := lastServiceDate }) :
    Settled form ↔ ∀ other : Responder, other ≠ .vehicleType → other ≠ .lastServiceDate →
      form'.cell.text other = form.cell.text other := by
  obtain ⟨name, type, number, hName, _, hNo, rfl⟩ := cellForRowAt_eq_ok.mp hReload
  rw [hVehicle] at hName hNo ⊢
  have hNameIff : (form.objVehicle.vehicleName = some form.cell.txtVehicleName) ↔
      name = form.cell.txtVehicleName := by
    rw [show form.objVehicle.vehicleName = some name from hName, Option.some.injEq]
  have hNoIff : (form.objVehicle.vehicleNo = some form.cell.txtVehicleNo) ↔ number = form.cell.txtVehicleNo := by
    rw [show form.objVehicle.vehicleNo = some number from hNo, Option.some.injEq]
  constructor
  · intro hSettled other hType hDate
    cases other with
    | vehicleName => exact hNameIff.mp ((held_iff h.vehicleName.2).mp hSettled.vehicleName)
    | vehicleType => exact absurd rfl hType
    | serviceRequired => exact plain_iff.mp hSettled.serviceRequired
    | lastServiceDate => exact absurd rfl hDate
    | weeklyRun => exact plain_iff.mp hSettled.weeklyRun
    | vehicleNo => exact hNoIff.mp ((held_iff h.vehicleNo.2).mp hSettled.vehicleNo)
    | notes => exact notesShown_iff.mp hSettled.notes
  · intro hSame
    refine ⟨fun _ => hNameIff.mpr (hSame .vehicleName ?_ ?_), fun _ => hNoIff.mpr (hSame .vehicleNo ?_ ?_),
      plain_iff.mpr (hSame .serviceRequired ?_ ?_), plain_iff.mpr (hSame .weeklyRun ?_ ?_),
      notesShown_iff.mpr (hSame .notes ?_ ?_)⟩ <;> simp

/-- A vehicle with a name, a type and a number can be shown. -/
theorem InStep.reloads (h : InStep P form) (reloading : AddVehicleVC) {vehicleType : String}
    {lastServiceDate : Option Date} (hVehicle : reloading.objVehicle =
      { form.objVehicle with vehicleType := some vehicleType, lastServiceDate := lastServiceDate }) :
    ∃ form', cellForRowAt P reloading = .ok form' := by
  obtain ⟨name, hName⟩ := Option.isSome_iff_exists.mp h.vehicleName.1
  obtain ⟨number, hNo⟩ := Option.isSome_iff_exists.mp h.vehicleNo.1
  exact ⟨_, cellForRowAt_eq_ok.mpr ⟨name, vehicleType, number, by rw [hVehicle]; exact hName,
    by rw [hVehicle], by rw [hVehicle]; exact hNo, rfl⟩⟩

theorem onlyChanges_iff {e : Event} {field : Responder} (hHandle : handle P form e = .ok form') :
    OnlyChanges P form e field ↔
      ∀ other, other ≠ field → form'.cell.text other = form.cell.text other := by
  constructor
  · rintro ⟨other, hOther, hSame⟩
    obtain rfl := Except.ok.inj (hHandle.symm.trans hOther)
    exact hSame
  · exact fun hSame => ⟨form', hHandle, hSame⟩

/-- The fields other than one, with another of them apart. -/
theorem forall_ne_iff {field : Responder} {p : Responder → Prop} (special : Responder)
    (hNe : special ≠ field) : (∀ other, other ≠ field → p other) ↔
      (∀ other, other ≠ field → other ≠ special → p other) ∧ p special := by
  constructor
  · exact fun h => ⟨fun other hField _ => h other hField, h special hNe⟩
  · rintro ⟨h, hSpecial⟩ other hField
    by_cases hSame : other = special
    · exact hSame ▸ hSpecial
    · exact h other hField hSame

/-- The date that a reload for another type shows. -/
theorem InStep.pickShown_iff (h : InStep P form) {reloading : AddVehicleVC}
    (hReload : cellForRowAt P reloading = .ok form') (hEdit : reloading.isRecordEdit = form.isRecordEdit)
    (hPick : reloading.dtLastService = form.dtLastService)
    (hDate : reloading.objVehicle.lastServiceDate = form.objVehicle.lastServiceDate) :
    PickShown P form ↔ form'.cell.txtLastServiceDate = form.cell.txtLastServiceDate := by
  obtain ⟨_, _, _, _, _, _, rfl⟩ := cellForRowAt_eq_ok.mp hReload
  dsimp only
  rw [hEdit, hPick, hDate, PickShown]
  cases hMode : form.isRecordEdit with
  | true => simp [h.date hMode]
  | false => simp [eq_comm]

/-- Done in the type picker changes nothing but the type exactly if the form is
settled and shows the date that was picked last. -/
theorem InStep.clkPickerDone_iff (h : InStep P form) :
    OnlyChanges P form .clkPickerDone .vehicleType ↔ Settled form ∧ PickShown P form := by
  obtain ⟨strVehicleType, hDone⟩ := h.clkPickerDone_eq
  obtain ⟨form', hReload⟩ := h.reloads { form with
    slectedPickerRow := some (form.slectedPickerRow.getD 0)
    objVehicle := { form.objVehicle with vehicleType := some strVehicleType } } rfl
  have hHandle : AddVehicleVC.handle P form .clkPickerDone = .ok form' := hDone.trans hReload
  rw [onlyChanges_iff hHandle, h.settled_iff hReload rfl, h.pickShown_iff hReload rfl rfl rfl]
  exact forall_ne_iff .lastServiceDate (by simp)

/-- Done in the date picker changes nothing but the date exactly if the form is settled. -/
theorem InStep.clkDone_iff (h : InStep P form) :
    OnlyChanges P form .clkDone .lastServiceDate ↔ Settled form := by
  obtain ⟨form', hReload⟩ := h.reloads { form with
    dtLastService := some (form.dtLastService.getD form.pickerDate)
    objVehicle := { form.objVehicle with
      vehicleType := some form.cell.txtVehicleType
      lastServiceDate :=
        P.dateFromString (P.stringFromDate (form.dtLastService.getD form.pickerDate)) } } rfl
  have hHandle : AddVehicleVC.handle P form .clkDone = .ok form' := by
    rw [← hReload, ← h.vehicleType]
    rfl
  have hType : form'.cell.text .vehicleType = form.cell.text .vehicleType := by
    obtain ⟨_, _, _, _, hType, _, rfl⟩ := cellForRowAt_eq_ok.mp hReload
    exact (Option.some.inj hType).symm
  rw [onlyChanges_iff hHandle, h.settled_iff hReload rfl, forall_ne_iff .vehicleType (by simp),
    and_iff_left hType]
  exact forall_congr' fun other => forall_comm

end Pickers

end AddVehicleVC

/-- In every state of every run, and for both forms, the Done buttons leave the
other fields alone exactly from settled forms. -/
theorem done_keeps_iff (P : Platform) (now : Date) (actions : List Action) :
    Transition.Always (App.step P) (OnForms fun form =>
      (AddVehicleVC.OnlyChanges P form .clkPickerDone .vehicleType ↔
        AddVehicleVC.Settled form ∧ AddVehicleVC.PickShown P form) ∧
      (AddVehicleVC.OnlyChanges P form .clkDone .lastServiceDate ↔ AddVehicleVC.Settled form))
      (App.installed now) actions := by
  have hMeets : Transition.Throughout (App.step P) (FormMeets fun _ _ => True) (App.installed now) actions :=
    Transition.throughout_of_forall fun action _ _ => formMeets_of_forall (fun _ _ _ _ => trivial) action
  refine (inStep_rule.run hMeets).mono fun app hInv slot form hForm => ?_
  have hInStep := hInv.2 slot form hForm
  exact ⟨hInStep.clkPickerDone_iff, hInStep.clkDone_iff⟩

/-- Notes are typed into the Add tab. -/
private def typedNotes : List Action :=
  [.selectTab .addVehicle, .form (.becomeFirstResponder .notes), .form (.type "Oil leak"), .form .endEditing]

private def notesForm : AddVehicleVC := { pickerDate := 1700000000, cell := { txtNotes := "Oil leak" } }

private theorem typedNotes_run :
    (Transition.run (App.step UTC.platform) (App.installed 1700000000) typedNotes).bind
      (fun app => app.form .addTab) = some notesForm := by
  decide +kernel

/-- Done in the type picker loses the notes. -/
theorem done_can_lose_notes :
    ¬ ∀ (P : Platform) (now : Date) (actions : List Action),
      Transition.Always (App.step P) (OnForms fun form =>
        AddVehicleVC.OnlyChanges P form .clkPickerDone .vehicleType ∧
        AddVehicleVC.OnlyChanges P form .clkDone .lastServiceDate) (App.installed now) actions := by
  intro h
  obtain ⟨app, hRun, hForm⟩ := Option.bind_eq_some_iff.mp typedNotes_run
  obtain ⟨⟨form', hDone, hSame⟩, -⟩ :=
    (h UTC.platform 1700000000 typedNotes).of_run hRun .addTab notesForm hForm
  have hLost := hSame .notes (by decide)
  cases hDone
  exact absurd hLost (by decide)

end ServiceBook

import ServiceBook.Interface.AllVehiclesI
import ServiceBook.FirebaseIntegration.Gadget

/-! The cell of both tables. Its line of notes is an attributed string: the notes
are looked up in the line, to be set apart from the label in front of them, and
attributes cannot be added to a range that was not found. The date is set apart in
the same way, but the text of a date is never empty, and no notes become empty by
being capitalized, so neither is modelled. -/
namespace ServiceBook

/-- The five fields that a cell unwraps. -/
def Gadget.HasFields (gadgetObj : Gadget) : Prop :=
  gadgetObj.serviceDueDate.isSome ∧ gadgetObj.notes.isSome ∧ gadgetObj.vehicleNo.isSome ∧
    gadgetObj.vehicleName.isSome ∧ gadgetObj.vehicleType.isSome

def AllVehiclesI.HasFields (vehicleObj : AllVehiclesI) : Prop :=
  vehicleObj.serviceDueDate.isSome ∧ vehicleObj.notes.isSome ∧ vehicleObj.vehicleNo.isSome ∧
    vehicleObj.vehicleName.isSome ∧ vehicleObj.vehicleType.isSome

namespace AllVehiclesCell

/-- `range(of:)`: the first place where the text occurs. An empty text is not found. -/
def range (mainText text : List Char) : Option Nat :=
  if text = [] then none
  else (List.range (mainText.length + 1)).find? fun location => text.isPrefixOf (mainText.drop location)

def addAttributes : Option Nat → Except Trap Unit
  | some _ => return ()
  | none => throw .indexOutOfRange

def setNotes (notes : String) : Except Trap Unit :=
  addAttributes (range ("Notes : " ++ notes).toList notes.toList)

/-- The fields in the order in which a cell is filled from them. -/
def fill {δ : Type} (serviceDueDate : Option δ) (notes vehicleNo vehicleName vehicleType : Option String) :
    Except Trap Unit := do
  let _ ← unwrap serviceDueDate
  let notes ← unwrap notes
  setNotes notes
  let _ ← unwrap vehicleNo
  let _ ← unwrap vehicleName
  let _ ← unwrap vehicleType
  return ()

def setData (gadgetObj : Gadget) : Except Trap Unit :=
  fill gadgetObj.serviceDueDate gadgetObj.notes gadgetObj.vehicleNo gadgetObj.vehicleName gadgetObj.vehicleType

/-- The same for a row of the History table. -/
def setVehicle (vehicleObj : AllVehiclesI) : Except Trap Unit :=
  fill vehicleObj.serviceDueDate vehicleObj.notes vehicleObj.vehicleNo vehicleObj.vehicleName
    vehicleObj.vehicleType

section Fill

/-- A text is found behind a label exactly if it is not empty. -/
theorem range_append_eq_none {label text : List Char} : range (label ++ text) text = none ↔ text = [] := by
  unfold range
  split
  · next hEmpty => exact iff_of_true rfl hEmpty
  · next hText =>
      refine iff_of_false (fun hNone => ?_) hText
      have hLabel : label.length ∈ List.range ((label ++ text).length + 1) := by
        rw [List.mem_range, List.length_append]
        omega
      have hOccurs := List.find?_eq_none.mp hNone label.length hLabel
      rw [List.drop_left, List.isPrefixOf_iff_prefix] at hOccurs
      exact hOccurs (List.prefix_refl text)

theorem setNotes_eq_ok {notes : String} : setNotes notes = .ok () ↔ notes ≠ "" := by
  have hFound : range ("Notes : " ++ notes).toList notes.toList = none ↔ notes = "" := by
    rw [String.toList_append, range_append_eq_none, String.toList_eq_nil_iff]
  unfold setNotes
  cases hRange : range ("Notes : " ++ notes).toList notes.toList with
  | none => exact iff_of_false (fun hOk => by cases hOk) (not_not.mpr (hFound.mp hRange))
  | some location =>
      refine iff_of_true rfl fun hEmpty => ?_
      cases hRange.symm.trans (hFound.mpr hEmpty)

/-- A cell is filled exactly from five fields and notes that are not empty. -/
theorem fill_eq_ok {δ : Type} {serviceDueDate : Option δ}
    {notes vehicleNo vehicleName vehicleType : Option String} :
    fill serviceDueDate notes vehicleNo vehicleName vehicleType = .ok () ↔
      (serviceDueDate.isSome ∧ notes.isSome ∧ vehicleNo.isSome ∧ vehicleName.isSome ∧ vehicleType.isSome) ∧
        notes ≠ some "" := by
  simp only [fill, bind_eq_ok, unwrap_eq_ok, Option.isSome_iff_exists]
  constructor
  · rintro ⟨due, hDue, text, rfl, _, hSet, no, hNo, name, hName, type, hType, _⟩
    refine ⟨⟨⟨due, hDue⟩, ⟨text, rfl⟩, ⟨no, hNo⟩, ⟨name, hName⟩, ⟨type, hType⟩⟩, fun hEmpty => ?_⟩
    exact setNotes_eq_ok.mp hSet (Option.some.inj hEmpty)
  · rintro ⟨⟨⟨due, hDue⟩, ⟨text, rfl⟩, ⟨no, hNo⟩, ⟨name, hName⟩, ⟨type, hType⟩⟩, hText⟩
    have hSet : setNotes text = .ok () := setNotes_eq_ok.mpr fun hEmpty => hText (congrArg some hEmpty)
    exact ⟨due, hDue, text, rfl, (), hSet, no, hNo, name, hName, type, hType, rfl⟩

theorem setData_eq_ok {gadgetObj : Gadget} :
    setData gadgetObj = .ok () ↔ gadgetObj.HasFields ∧ gadgetObj.notes ≠ some "" :=
  fill_eq_ok

theorem setVehicle_eq_ok {vehicleObj : AllVehiclesI} :
    setVehicle vehicleObj = .ok () ↔ vehicleObj.HasFields ∧ vehicleObj.notes ≠ some "" :=
  fill_eq_ok

/-- With the five fields there, only the notes decide how the cell is filled. -/
theorem setVehicle_congr {vehicleObj other : AllVehiclesI} (h : vehicleObj.HasFields) (hOther : other.HasFields)
    (hNotes : vehicleObj.notes = other.notes) : setVehicle vehicleObj = setVehicle other := by
  have hFill {objVehicle : AllVehiclesI} (hFields : objVehicle.HasFields) :
      setVehicle objVehicle = setNotes (objVehicle.notes.getD "") := by
    obtain ⟨hDue, hNotes, hNo, hName, hType⟩ := hFields
    obtain ⟨due, hDue⟩ := Option.isSome_iff_exists.mp hDue
    obtain ⟨notes, hNotes⟩ := Option.isSome_iff_exists.mp hNotes
    obtain ⟨no, hNo⟩ := Option.isSome_iff_exists.mp hNo
    obtain ⟨name, hName⟩ := Option.isSome_iff_exists.mp hName
    obtain ⟨type, hType⟩ := Option.isSome_iff_exists.mp hType
    rw [setVehicle, hDue, hNotes, hNo, hName, hType, Option.getD_some]
    unfold fill
    simp only [unwrap_some, ok_bind]
    cases setNotes notes <;> rfl
  rw [hFill h, hFill hOther, hNotes]

end Fill

end AllVehiclesCell

end ServiceBook

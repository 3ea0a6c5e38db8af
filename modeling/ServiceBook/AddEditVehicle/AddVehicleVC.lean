import ServiceBook.Utilities.DueDate
import ServiceBook.FirebaseIntegration.Gadget

/-! The form of `AddVehicleVC`: the texts of its one cell, the vehicle behind
them, and the callbacks of its text fields, its text view and its two pickers.
The views of the pickers are hidden and shown in another module, so here any of
these events may come at any time. -/
namespace ServiceBook

/-- The texts of the cell. A text field never returns a nil text. -/
structure AddVehicleCell where
  txtVehicleName : String := ""
  txtVehicleType : String := ""
  txtServiceRequired : String := ""
  txtLastServiceDate : String := ""
  txtWeeklyRun : String := ""
  txtVehicleNo : String := ""
  txtNotes : String := ""
deriving DecidableEq, Repr

/-- The responders of the cell, in the order of their tags 1 to 7. The last
one is a text view. -/
inductive Responder where
  | vehicleName
  | vehicleType
  | serviceRequired
  | lastServiceDate
  | weeklyRun
  | vehicleNo
  | notes
deriving DecidableEq, Repr

def AddVehicleCell.text (cell : AddVehicleCell) : Responder → String
  | .vehicleName => cell.txtVehicleName
  | .vehicleType => cell.txtVehicleType
  | .serviceRequired => cell.txtServiceRequired
  | .lastServiceDate => cell.txtLastServiceDate
  | .weeklyRun => cell.txtWeeklyRun
  | .vehicleNo => cell.txtVehicleNo
  | .notes => cell.txtNotes

def AddVehicleCell.setText (cell : AddVehicleCell) (text : String) : Responder → AddVehicleCell
  | .vehicleName => { cell with txtVehicleName := text }
  | .vehicleType => { cell with txtVehicleType := text }
  | .serviceRequired => { cell with txtServiceRequired := text }
  | .lastServiceDate => { cell with txtLastServiceDate := text }
  | .weeklyRun => { cell with txtWeeklyRun := text }
  | .vehicleNo => { cell with txtVehicleNo := text }
  | .notes => { cell with txtNotes := text }

structure AddVehicleVC where
  slectedPickerRow : Option Nat := none
  previousPickerRow : Option Nat := none
  isRecordEdit : Bool := false
  dtLastService : Option Date := none
  objVehicle : AllVehiclesI := {}
  gadgetToUpdate : Option Gadget := none
  /-- `pickerDate.date` -/
  pickerDate : Date
  cell : AddVehicleCell := {}
  /-- The first responder. -/
  editing : Option Responder := none
deriving DecidableEq

namespace AddVehicleVC

variable (P : Platform)

/-- The integer value of the number that a text denotes, or else the one from before. -/
def enteredNumber (text : String) (before : Option Int64) : Option Int64 :=
  match P.numberFromString text with
  | some myNumber => some (intValue myNumber)
  | none => before

/-- `cellForRowAt`: everything the cell shows comes from the vehicle, but the
date comes from `dtLastService`, which an edit form first sets from it. -/
def cellForRowAt (form : AddVehicleVC) : Except Trap AddVehicleVC := do
  let vehicleName ← unwrap form.objVehicle.vehicleName
  let vehicleType ← unwrap form.objVehicle.vehicleType
  let dtLastService :=
    if form.isRecordEdit then form.objVehicle.lastServiceDate else form.dtLastService
  let vehicleNo ← unwrap form.objVehicle.vehicleNo
  return { form with
    dtLastService := dtLastService
    cell :=
      { txtVehicleName := vehicleName
        txtVehicleType := vehicleType
        txtServiceRequired := (form.objVehicle.serviceRequiredAfter.map toString).getD ""
        txtLastServiceDate := (dtLastService.map P.stringFromDate).getD ""
        txtWeeklyRun := (form.objVehicle.averageRun.map toString).getD ""
        txtVehicleNo := vehicleNo
        txtNotes :=
          if form.objVehicle.notes = some "" then "Notes" else form.objVehicle.notes.getD "" } }

/-- The table has one row, so reloading it configures the cell again. -/
def reloadData (form : AddVehicleVC) : Except Trap AddVehicleVC := cellForRowAt P form

def viewDidLoad (form : AddVehicleVC) : Except Trap AddVehicleVC := do
  if form.isRecordEdit then
    let lastServiceDate ← unwrap form.objVehicle.lastServiceDate
    return { form with pickerDate := lastServiceDate }
  else return form

def viewWillAppear (form : AddVehicleVC) : Except Trap AddVehicleVC :=
  if !form.isRecordEdit then
    reloadData P { form with objVehicle := form.objVehicle.resetData, dtLastService := none }
  else return form

def textFieldDidEndEditing (form : AddVehicleVC) : Responder → AddVehicleVC
  | .vehicleName =>
      { form with objVehicle := { form.objVehicle with vehicleName := some form.cell.txtVehicleName } }
  | .vehicleType =>
      { form with objVehicle := { form.objVehicle with vehicleType := some form.cell.txtVehicleType } }
  | .serviceRequired =>
      { form with objVehicle := { form.objVehicle with
          serviceRequiredAfter :=
            enteredNumber P form.cell.txtServiceRequired form.objVehicle.serviceRequiredAfter } }
  | .weeklyRun =>
      { form with objVehicle := { form.objVehicle with
          averageRun := enteredNumber P form.cell.txtWeeklyRun form.objVehicle.averageRun } }
  | .vehicleNo =>
      { form with objVehicle := { form.objVehicle with vehicleNo := some form.cell.txtVehicleNo } }
  | _ => form

def textViewDidEndEditing (form : AddVehicleVC) : AddVehicleVC :=
  if form.cell.txtNotes = "" then { form with cell := { form.cell with txtNotes := "Notes" } } else form

/-- `view.endEditing(true)`, and what happens when the first responder resigns. -/
def endEditing (form : AddVehicleVC) : AddVehicleVC :=
  match form.editing with
  | none => form
  | some .notes => { textViewDidEndEditing form with editing := none }
  | some field => { textFieldDidEndEditing P form field with editing := none }

def textViewShouldBeginEditing (form : AddVehicleVC) : AddVehicleVC :=
  if form.cell.txtNotes = "Notes" then { form with cell := { form.cell with txtNotes := "" } } else form

/-- A responder is asked to begin editing. The type and date fields open their
pickers instead; any other becomes first responder after the old one resigns. -/
def becomeFirstResponder (form : AddVehicleVC) (responder : Responder) : AddVehicleVC :=
  if form.editing = some responder then form
  else match responder with
    | .vehicleType | .lastServiceDate => endEditing P form
    | .notes => { endEditing P (textViewShouldBeginEditing form) with editing := some .notes }
    | field => { endEditing P form with editing := some field }

/-- The user changes the text of the first responder. Emptying the notes puts
the placeholder back and ends editing. -/
def type (form : AddVehicleVC) (text : String) : AddVehicleVC :=
  match form.editing with
  | none => form
  | some .notes =>
      if text = "" then
        { form with cell := form.cell.setText "Notes" .notes, editing := none }
      else { form with cell := form.cell.setText text .notes }
  | some field => { form with cell := form.cell.setText text field }

/-- The return key, `textFieldShouldReturn`. In the text view it is a newline,
which ends editing. -/
def returnKey (form : AddVehicleVC) : AddVehicleVC :=
  match form.editing with
  | none => form
  | some .vehicleName => endEditing P form
  | some .vehicleType =>
      becomeFirstResponder P
        { form with objVehicle := { form.objVehicle with vehicleType := some form.cell.txtVehicleType } }
        .serviceRequired
  | some .serviceRequired => textFieldDidEndEditing P (endEditing P form) .serviceRequired
  | some .lastServiceDate => becomeFirstResponder P form .weeklyRun
  | some .weeklyRun => becomeFirstResponder P (textFieldDidEndEditing P form .weeklyRun) .vehicleNo
  | some .vehicleNo => becomeFirstResponder P (textFieldDidEndEditing P form .vehicleNo) .notes
  | some .notes => endEditing P form

def vehicleTypes : List String :=
  ["Bicycle", "Bike", "Auto", "Car/Jeep", "Bus/Truck", "Plane", "Helicopter", "Other"]

def didSelectRow (form : AddVehicleVC) (row : Nat) : AddVehicleVC :=
  { form with slectedPickerRow := some row }

def clkPickerCancel (form : AddVehicleVC) : AddVehicleVC :=
  match form.previousPickerRow with
  | some row => { form with slectedPickerRow := some row }
  | none => form

def clkPickerDone (form : AddVehicleVC) : Except Trap AddVehicleVC := do
  let row := form.slectedPickerRow.getD 0
  let strVehicleType ← unwrap vehicleTypes[row]?
  reloadData P { form with
    slectedPickerRow := some row
    objVehicle := { form.objVehicle with vehicleType := some strVehicleType } }

/-- The date picker is moved. -/
def selectDate (form : AddVehicleVC) (date : Date) : AddVehicleVC :=
  { form with pickerDate := date, dtLastService := some date }

def clkDone (form : AddVehicleVC) : Except Trap AddVehicleVC :=
  let dtLastService := form.dtLastService.getD form.pickerDate
  reloadData P { form with
    dtLastService := some dtLastService
    objVehicle := { form.objVehicle with
      lastServiceDate := P.dateFromString (P.stringFromDate dtLastService) } }

/-- What can happen in the form before it is saved or left. `clkCancel` only
hides the pickers. -/
inductive Event where
  | becomeFirstResponder (responder : Responder)
  | type (text : String)
  | returnKey
  | endEditing
  | didSelectRow (row : Nat)
  | clkPickerDone
  | clkPickerCancel
  | selectDate (date : Date)
  | clkDone
  | clkCancel
  | reloadData

/-- The type picker has eight rows. -/
def Event.Offered : Event → Prop
  | .didSelectRow row => row < vehicleTypes.length
  | _ => True

instance (e : Event) : Decidable e.Offered := by
  cases e <;> unfold Event.Offered <;> infer_instance

def handle (form : AddVehicleVC) : Event → Except Trap AddVehicleVC
  | .becomeFirstResponder responder => return becomeFirstResponder P form responder
  | .type text => return type form text
  | .returnKey => return returnKey P form
  | .endEditing => return endEditing P form
  | .didSelectRow row => return didSelectRow form row
  | .clkPickerDone => clkPickerDone P form
  | .clkPickerCancel => return clkPickerCancel form
  | .selectDate date => return selectDate form date
  | .clkDone => clkDone P form
  | .clkCancel => return form
  | .reloadData => reloadData P form

/-- The first part of `clkSave`: the texts of the cell go into the vehicle, and
a new record gets a new id. -/
def populate (uuid : String) (form : AddVehicleVC) : AllVehiclesI :=
  { form.objVehicle with
    vehicleID := if form.isRecordEdit then form.objVehicle.vehicleID else uuid
    vehicleName := some form.cell.txtVehicleName
    vehicleType := some form.cell.txtVehicleType
    serviceRequiredAfter :=
      enteredNumber P form.cell.txtServiceRequired form.objVehicle.serviceRequiredAfter
    averageRun := enteredNumber P form.cell.txtWeeklyRun form.objVehicle.averageRun
    vehicleNo := some form.cell.txtVehicleNo
    notes := some (if form.cell.txtNotes = "Notes" then "No notes available" else form.cell.txtNotes) }

/-- The form of the Add tab before it appears. -/
def addForm (now : Date) : AddVehicleVC := { pickerDate := now }

/-- The editor that a row of a list pushes. -/
def editForm (now : Date) (objVehicle : AllVehiclesI) (gadgetToUpdate : Option Gadget) :
    AddVehicleVC :=
  { isRecordEdit := true, objVehicle := objVehicle, gadgetToUpdate := gadgetToUpdate, pickerDate := now }

/-- The editor comes on the screen. -/
def appear (form : AddVehicleVC) : Except Trap AddVehicleVC := do
  let form ← viewDidLoad form
  let form ← viewWillAppear P form
  cellForRowAt P form

end AddVehicleVC

end ServiceBook

import ServiceBook.App.Services
import ServiceBook.FirebaseIntegration.Refinement

/-! What one installation keeps in two places: the records of its store and the
documents of the collection. Every write of the app is an entry in one of the
two books or in both, and the two books have no common key. -/
namespace ServiceBook

/-- The values of a vehicle that a record and a document share. -/
def Gadget.ofVehicle (objVehicle : AllVehiclesI) : Gadget where
  vehicleType := objVehicle.vehicleType
  vehicleName := objVehicle.vehicleName
  vehicleNo := objVehicle.vehicleNo
  notes := objVehicle.notes
  serviceRequiredAfter := objVehicle.serviceRequiredAfter
  averageRun := objVehicle.averageRun
  lastServiceDate := objVehicle.lastServiceDate.map .finite
  serviceDueDate := objVehicle.serviceDueDate.map .finite

/-- The same values of an object in the store. -/
def Gadget.ofRecord (vehicle : Vehicle) : Gadget where
  vehicleType := vehicle.vehicleType
  vehicleName := vehicle.vehicleName
  vehicleNo := vehicle.vehicleNo
  notes := vehicle.notes
  serviceRequiredAfter := some vehicle.serviceRequiredAfter.toInt64
  averageRun := some vehicle.averageRun.toInt64
  lastServiceDate := vehicle.lastServiceDate.map .finite
  serviceDueDate := vehicle.serviceDueDate.map .finite

def Gadget.anonymous (gadget : Gadget) : Gadget := { gadget with id := none }

def Gadget.identified (gadget : Gadget) (documentID : String) : Gadget :=
  { gadget with id := some documentID }

theorem Gadget.ofVehicle_finite (objVehicle : AllVehiclesI) : (Gadget.ofVehicle objVehicle).Finite := by
  constructor
  · simp [Gadget.ofVehicle, BinaryFloat.Value.IsFinite]
  · simp [Gadget.ofVehicle, BinaryFloat.Value.IsFinite]

theorem Gadget.identified_ofVehicle_finite (objVehicle : AllVehiclesI) (documentID : String) :
    ((Gadget.ofVehicle objVehicle).identified documentID).Finite :=
  ⟨(Gadget.ofVehicle_finite objVehicle).lastServiceDate,
    (Gadget.ofVehicle_finite objVehicle).serviceDueDate⟩

/-- Storing a vehicle that fits keeps the shared values. -/
theorem Gadget.ofRecord_stored {objVehicle : AllVehiclesI} (h : DatabaseManager.Narrow objVehicle) :
    Gadget.ofRecord (DatabaseManager.stored objVehicle) = Gadget.ofVehicle objVehicle := by
  obtain ⟨s, a, hs, hs32, ha, ha16⟩ := h
  simp [Gadget.ofRecord, Gadget.ofVehicle, DatabaseManager.stored, hs, ha, toInt64_toInt32 hs32,
    toInt64_toInt16 ha16]

/-- The records in the order they were added, and the documents by their ids. -/
structure Books where
  records : List AllVehiclesI
  documents : FIRFireStoreService.GadgetMap

namespace Books

def add (books : Books) (documentID : String) (objVehicle : AllVehiclesI) : Books where
  records := books.records ++ [objVehicle]
  documents := books.documents.set documentID ((Gadget.ofVehicle objVehicle).identified documentID)

def edit (books : Books) (documentID : String) (objVehicle : AllVehiclesI) : Books where
  records := KeyedList.replace AllVehiclesI.vehicleID books.records objVehicle
  documents := books.documents.set documentID ((Gadget.ofVehicle objVehicle).identified documentID)

def delete (books : Books) (documentID vehicleID : String) : Books where
  records := KeyedList.remove AllVehiclesI.vehicleID books.records vehicleID
  documents := books.documents.erase documentID

def deleteRecord (books : Books) (vehicleID : String) : Books :=
  { books with records := KeyedList.remove AllVehiclesI.vehicleID books.records vehicleID }

/-- The records with a matching due date, in due-date order. -/
def listed (books : Books) (predicate : Option Date → Bool) : List AllVehiclesI :=
  (books.records.filter fun objVehicle => predicate objVehicle.serviceDueDate).insertionSort
    (byDueDate AllVehiclesI.serviceDueDate)

/-- Up to order, both books have the same entries. -/
def Mirrored (books : Books) : Prop :=
  (books.records.map Gadget.ofVehicle).Perm (books.documents.values.map Gadget.anonymous)

/-- The values of the record under an id, and of the document under one. -/
def record (books : Books) (vehicleID : String) : Option Gadget :=
  (KeyedList.find AllVehiclesI.vehicleID books.records vehicleID).map Gadget.ofVehicle

def document (books : Books) (documentID : String) : Option Gadget :=
  (books.documents.get documentID).map Gadget.anonymous

section Mirrored

variable {books : Books} {documentID vehicleID : String} {objVehicle : AllVehiclesI}

theorem mem_listed {predicate : Option Date → Bool} :
    objVehicle ∈ books.listed predicate ↔
      objVehicle ∈ books.records ∧ predicate objVehicle.serviceDueDate = true := by
  rw [listed, List.mem_insertionSort, List.mem_filter]

/-- Taking one entry out of either book. -/
theorem Mirrored.split (h : books.Mirrored)
    (hDistinct : KeyedList.Distinct AllVehiclesI.vehicleID books.records) (vehicleID documentID : String) :
    ((books.record vehicleID).toList ++
        (KeyedList.remove AllVehiclesI.vehicleID books.records vehicleID).map Gadget.ofVehicle).Perm
      ((books.document documentID).toList ++
        (books.documents.erase documentID).values.map Gadget.anonymous) := by
  have hRecords := (hDistinct.perm_find_remove vehicleID).map Gadget.ofVehicle
  have hDocuments := (books.documents.values_perm_erase documentID).map Gadget.anonymous
  rw [List.map_append, ← Option.toList_map] at hRecords hDocuments
  exact (hRecords.symm.trans h).trans hDocuments

/-- Setting a document under an id puts the new entry in the place of the old. -/
theorem values_set_anonymous (documents : FIRFireStoreService.GadgetMap) (documentID : String)
    (objVehicle : AllVehiclesI) :
    ((documents.set documentID ((Gadget.ofVehicle objVehicle).identified documentID)).values.map
        Gadget.anonymous).Perm
      (Gadget.ofVehicle objVehicle :: (documents.erase documentID).values.map Gadget.anonymous) :=
  (documents.values_set_perm documentID _).map Gadget.anonymous

/-- An addition to both books keeps them alike. -/
theorem Mirrored.add (h : books.Mirrored) (hNew : documentID ∉ books.documents.keys) :
    (books.add documentID objVehicle).Mirrored := by
  have hAbsent : books.documents.get documentID = none := by
    rw [Option.eq_none_iff_forall_ne_some]
    intro gadget hGet
    exact hNew (SortedMap.Map.mem_keys_iff.mpr ⟨gadget, SortedMap.Map.get_eq_some_iff.mp hGet⟩)
  have hRest := (books.documents.values_perm_erase documentID).map Gadget.anonymous
  rw [hAbsent, Option.toList_none, List.nil_append] at hRest
  unfold Mirrored Books.add
  rw [List.map_append]
  calc _ = books.records.map Gadget.ofVehicle ++ [Gadget.ofVehicle objVehicle] := rfl
    List.Perm _ (Gadget.ofVehicle objVehicle :: books.records.map Gadget.ofVehicle) :=
        List.perm_append_singleton _ _
    List.Perm _ (Gadget.ofVehicle objVehicle ::
        (books.documents.erase documentID).values.map Gadget.anonymous) :=
        (h.trans hRest).cons _
    List.Perm _ _ := (values_set_anonymous books.documents documentID objVehicle).symm

/-- A deletion in both books keeps them alike exactly if it deletes equal entries. -/
theorem Mirrored.delete_iff (h : books.Mirrored)
    (hDistinct : KeyedList.Distinct AllVehiclesI.vehicleID books.records) :
    (books.delete documentID vehicleID).Mirrored ↔
      books.record vehicleID = books.document documentID :=
  KeyedList.perm_rest_iff (h.split hDistinct vehicleID documentID)

/-- An edit in both books keeps them alike exactly if it overwrites equal entries. -/
theorem Mirrored.edit_iff (h : books.Mirrored)
    (hDistinct : KeyedList.Distinct AllVehiclesI.vehicleID books.records)
    (hPresent : ∃ old ∈ books.records, old.vehicleID = objVehicle.vehicleID) :
    (books.edit documentID objVehicle).Mirrored ↔
      books.record objVehicle.vehicleID = books.document documentID := by
  obtain ⟨old, hOld, hID⟩ := hPresent
  have hRecords := (hDistinct.replace_perm hOld hID).map Gadget.ofVehicle
  have hDocuments := values_set_anonymous books.documents documentID objVehicle
  rw [← KeyedList.perm_rest_iff (h.split hDistinct objVehicle.vehicleID documentID),
    ← List.perm_cons (Gadget.ofVehicle objVehicle)]
  exact ⟨fun hNext => (hRecords.symm.trans hNext).trans hDocuments,
    fun hNext => (hRecords.trans hNext).trans hDocuments.symm⟩

/-- A deletion in the local book alone never does. -/
theorem Mirrored.not_deleteRecord (h : books.Mirrored)
    (hDistinct : KeyedList.Distinct AllVehiclesI.vehicleID books.records)
    (hPresent : objVehicle ∈ books.records) :
    ¬ (books.deleteRecord objVehicle.vehicleID).Mirrored := by
  intro hNext
  have hRecords := hDistinct.perm_find_remove objVehicle.vehicleID
  rw [hDistinct.find_eq_some_iff.mpr ⟨hPresent, rfl⟩] at hRecords
  have hBefore := h.length_eq
  have hAfter := hNext.length_eq
  have hOne := hRecords.length_eq
  simp only [deleteRecord, List.length_map, List.length_append, Option.toList_some,
    List.length_singleton] at hBefore hAfter hOne
  omega

end Mirrored

end Books

/-- The six values that Save reads from the form. -/
structure Filled (objVehicle : AllVehiclesI) : Prop where
  vehicleType : objVehicle.vehicleType.isSome
  vehicleName : objVehicle.vehicleName.isSome
  vehicleNo : objVehicle.vehicleNo.isSome
  notes : objVehicle.notes.isSome
  serviceRequiredAfter : objVehicle.serviceRequiredAfter.isSome
  averageRun : objVehicle.averageRun.isSome

section Filled

variable {P : Platform} {objVehicle : AllVehiclesI} {gadgetObj gadget : Gadget}

/-- A vehicle that has passed the due-date rule of Save is filled, and due. -/
theorem filled_of_rule {form : AddVehicleVC} {uuid text : String}
    (h : AppSharedInstance.getServiceDueDate P (form.populate P uuid) = .ok (objVehicle, text)) :
    Filled objVehicle ∧ objVehicle.serviceDueDate.isSome ∧
      objVehicle.vehicleID = if form.isRecordEdit then form.objVehicle.vehicleID else uuid := by
  obtain ⟨averageRun, serviceRequiredAfter, _, _, due, hRun, hDistance, _, _, _, hResult⟩ :=
    AppSharedInstance.getServiceDueDate_eq_ok.mp h
  obtain ⟨rfl, -⟩ := Prod.mk.inj hResult
  refine ⟨⟨rfl, rfl, rfl, rfl, ?_, ?_⟩, rfl, rfl⟩
  · exact Option.isSome_iff_exists.mpr ⟨serviceRequiredAfter, hDistance⟩
  · exact Option.isSome_iff_exists.mpr ⟨averageRun, hRun⟩

theorem Filled.some_getD {α : Type} {o : Option α} {a : α} (h : o.isSome) : some (o.getD a) = o := by
  obtain ⟨b, rfl⟩ := Option.isSome_iff_exists.mp h
  rfl

/-- A new document carries the values of the vehicle. -/
theorem gadgetInfo_eq_ofVehicle (hFilled : Filled objVehicle) (h : gadgetInfo objVehicle = .ok gadget) :
    gadget = Gadget.ofVehicle objVehicle := by
  obtain ⟨last, due, hLast, hDue, rfl⟩ := withDates_eq_ok.mp h
  obtain ⟨hType, hName, hNo, hNotes, hDistance, hRun⟩ := hFilled
  simp [Gadget.init, Gadget.ofVehicle, hLast, hDue, Filled.some_getD, hType, hName, hNo, hNotes,
    hDistance, hRun]

/-- An updated document keeps its id and gets the values of the vehicle. -/
theorem gadgetObjToUpdate_eq (hFilled : Filled objVehicle) {id : String} (hID : gadgetObj.id = some id)
    (h : gadgetObjToUpdate gadgetObj objVehicle = .ok gadget) :
    gadget = (Gadget.ofVehicle objVehicle).identified id := by
  obtain ⟨last, due, hLast, hDue, rfl⟩ := withDates_eq_ok.mp h
  obtain ⟨hType, hName, hNo, hNotes, hDistance, hRun⟩ := hFilled
  simp [Gadget.identified, Gadget.ofVehicle, hID, hLast, hDue, Filled.some_getD, hType, hNo, hNotes,
    hDistance, hRun]

end Filled

end ServiceBook

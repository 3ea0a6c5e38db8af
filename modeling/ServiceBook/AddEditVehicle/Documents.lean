import ServiceBook.AddEditVehicle.Presenter

/-! The documents of one vehicle. Creating and updating map its fields in two
separate pieces of code, and both documents are read back by the same cell. -/
namespace ServiceBook

open KeyedCoding

/-- The program sends one request, and once that has arrived the document is in
the collection under this id. Firestore picks `autoID` for a new document. -/
def Stores (program : AppM Unit) (autoID documentID : String) (document : JsonObject) : Prop :=
  ∀ (app : App) (collection : Collection), ∃ request,
    program.run app = .ok () { app with outbox := app.outbox ++ [request] } ∧
      (request.apply autoID collection).get documentID = some document

/-- The document decodes to a gadget with the fields that `AllVehiclesCell` unwraps. -/
def Displayable (documentID : String) (document : JsonObject) : Prop :=
  ∃ gadget, Gadget.decodeDocument documentID document = some gadget ∧ gadget.HasFields

/-- Creating a document for the vehicle and updating the one of the gadget leave
the same members, and either document can be shown. -/
def SameDocument (objVehicle : AllVehiclesI) (gadgetObj : Gadget) (id : String) : Prop :=
  ∀ autoID, ∃ created updated,
    Stores (addNewRecordOnFirebase objVehicle) autoID autoID created ∧
      Stores (AddVehiclePresenter.updateRecordOnServer gadgetObj objVehicle) autoID id updated ∧
      (∀ key, updated.get key = created.get key) ∧ Displayable autoID created ∧ Displayable id updated

section Gadgets

variable {gadget : Gadget}

/-- A member other than the id stands in the document exactly if it is present. -/
theorem Gadget.document_member {α : Type} {codec : Codec α} {key : String} {a : Option α}
    (h : gadget.Finite) (hMem : codec.member key a ∈ gadget.members) (hKey : key ≠ "id") :
    gadget.document.get key = a.bind codec.encode := by
  obtain ⟨json, hJson, hGet⟩ := Gadget.toJson_eq h
  rw [Gadget.document, hJson, Option.getD_some, hGet, Function.update_of_ne hKey]
  exact jsonAt_member gadget.members_keys hMem

theorem Gadget.document_vehicleName (h : gadget.Finite) :
    gadget.document.get "vehicleName" = gadget.vehicleName.bind Codec.string.encode :=
  Gadget.document_member h (by simp [Gadget.members]) (by decide)

/-- A document can be shown exactly if the gadget has the five fields. -/
theorem displayable_document_iff (h : gadget.Finite) (documentID : String) :
    Displayable documentID gadget.document ↔ gadget.HasFields := by
  have hDecode := FIRFireStoreService.decodeDocument_document h documentID
  constructor
  · rintro ⟨decoded, hDecoded, hFields⟩
    obtain rfl := Option.some.inj (hDecode.symm.trans hDecoded)
    exact hFields
  · exact fun hFields => ⟨_, hDecode, hFields⟩

end Gadgets

section Documents

variable {objVehicle : AllVehiclesI} {gadgetObj gadget created updated : Gadget} {program : AppM Unit}
  {autoID id documentID : String} {document document' : JsonObject}

theorem Stores.unique (h : Stores program autoID documentID document)
    (h' : Stores program autoID documentID document') : document = document' := by
  let app := App.created .empty [] 0
  obtain ⟨request, hRun, hGet⟩ := h app .empty
  obtain ⟨request', hRun', hGet'⟩ := h' app .empty
  have hOutbox : app.outbox ++ [request] = app.outbox ++ [request'] := by
    have hSame := hRun.symm.trans hRun'
    injection hSame with _ hApps
    exact congrArg App.outbox hApps
  obtain rfl := List.singleton_inj.mp (List.append_cancel_left hOutbox)
  exact Option.some.inj (hGet.symm.trans hGet')

theorem stores_create (h : gadgetInfo objVehicle = .ok gadget) (hFinite : gadget.Finite) (autoID : String) :
    Stores (addNewRecordOnFirebase objVehicle) autoID autoID gadget.document := by
  intro app collection
  refine ⟨.addDocument gadget.document, addNewRecordOnFirebase_run app h hFinite, ?_⟩
  rw [FirestoreWrite.apply, SortedMap.Map.get_set, Function.update_self]

theorem stores_update (h : gadgetObjToUpdate gadgetObj objVehicle = .ok gadget) (hFinite : gadget.Finite)
    (hID : gadget.id = some id) (autoID : String) :
    Stores (AddVehiclePresenter.updateRecordOnServer gadgetObj objVehicle) autoID id gadget.document := by
  intro app collection
  refine ⟨.setData id gadget.document, ?_, ?_⟩
  · rw [updateRecordOnServer_run app h, FIRFireStoreService.update_eq hFinite hID]
  · rw [FirestoreWrite.apply, SortedMap.Map.get_set, Function.update_self]

/-- Created and updated gadgets differ in the id, and in a name that is missing. -/
theorem updated_eq (hCreated : gadgetInfo objVehicle = .ok created)
    (hUpdated : gadgetObjToUpdate gadgetObj objVehicle = .ok updated) :
    updated = { created with id := gadgetObj.id, vehicleName := objVehicle.vehicleName } := by
  obtain ⟨last, due, hLast, hDue, rfl⟩ := withDates_eq_ok.mp hCreated
  obtain ⟨last', due', hLast', hDue', rfl⟩ := withDates_eq_ok.mp hUpdated
  obtain rfl := Option.some.inj (hLast.symm.trans hLast')
  obtain rfl := Option.some.inj (hDue.symm.trans hDue')
  rfl

theorem created_vehicleName (hCreated : gadgetInfo objVehicle = .ok created) :
    created.vehicleName = some (objVehicle.vehicleName.getD "") := by
  obtain ⟨last, due, _, _, rfl⟩ := withDates_eq_ok.mp hCreated
  rfl

theorem hasFields_created (hCreated : gadgetInfo objVehicle = .ok created) : created.HasFields := by
  obtain ⟨last, due, _, _, rfl⟩ := withDates_eq_ok.mp hCreated
  exact ⟨rfl, rfl, rfl, rfl, rfl⟩

/-- With a name the two documents are the same. -/
theorem sameDocument_of_name (hDates : HasDates objVehicle) (hID : gadgetObj.id = some id)
    (hName : objVehicle.vehicleName.isSome) : SameDocument objVehicle gadgetObj id := by
  intro autoID
  obtain ⟨created, hCreated, hFinite⟩ := gadgetInfo_of_hasDates hDates
  obtain ⟨updated, hUpdated, hFinite', hSameID⟩ := gadgetObjToUpdate_of_hasDates gadgetObj hDates
  have hUpdatedEq : updated = { created with id := some id } := by
    obtain ⟨name, hSome⟩ := Option.isSome_iff_exists.mp hName
    have hCreatedName := created_vehicleName hCreated
    rw [hSome, Option.getD_some] at hCreatedName
    rw [updated_eq hCreated hUpdated, hID, hSome, ← hCreatedName]
  have hDocument : updated.document = created.document := by
    rw [hUpdatedEq]
    exact FIRFireStoreService.document_with_id hFinite (some id)
  have hShown := hasFields_created hCreated
  refine ⟨created.document, updated.document, stores_create hCreated hFinite autoID,
    stores_update hUpdated hFinite' (hSameID.trans hID) autoID, fun key => by rw [hDocument],
    (displayable_document_iff hFinite autoID).mpr hShown, ?_⟩
  rw [hDocument]
  exact (displayable_document_iff hFinite id).mpr hShown

/-- So it is for every vehicle that Save writes. -/
theorem sameDocument_of_rule {P : Platform} {form : AddVehicleVC} {uuid text : String}
    (hRule : AppSharedInstance.getServiceDueDate P (form.populate P uuid) = .ok (objVehicle, text))
    (hID : gadgetObj.id = some id) : SameDocument objVehicle gadgetObj id := by
  obtain ⟨_, _, _, last, due, _, _, _, hLast, _, hResult⟩ := AppSharedInstance.getServiceDueDate_eq_ok.mp hRule
  obtain ⟨rfl, -⟩ := Prod.mk.inj hResult
  exact sameDocument_of_name ⟨by rw [hLast]; rfl, rfl⟩ hID rfl

theorem vehicleName_of_created (hDates : HasDates objVehicle)
    (hStores : Stores (addNewRecordOnFirebase objVehicle) autoID autoID document) :
    document.get "vehicleName" = some (.string (objVehicle.vehicleName.getD "")) := by
  obtain ⟨created, hCreated, hFinite⟩ := gadgetInfo_of_hasDates hDates
  obtain rfl := (stores_create hCreated hFinite autoID).unique hStores
  rw [Gadget.document_vehicleName hFinite, created_vehicleName hCreated]
  rfl

/-- Without a name the updated document has none, and cannot be shown. -/
theorem updated_of_no_name (hDates : HasDates objVehicle) (hID : gadgetObj.id = some id)
    (hName : objVehicle.vehicleName = none)
    (hStores : Stores (AddVehiclePresenter.updateRecordOnServer gadgetObj objVehicle) autoID id document) :
    document.get "vehicleName" = none ∧ ¬ Displayable id document := by
  obtain ⟨created, hCreated, _⟩ := gadgetInfo_of_hasDates hDates
  obtain ⟨updated, hUpdated, hFinite, hSameID⟩ := gadgetObjToUpdate_of_hasDates gadgetObj hDates
  obtain rfl := (stores_update hUpdated hFinite (hSameID.trans hID) autoID).unique hStores
  have hNone : updated.vehicleName = none := by rw [updated_eq hCreated hUpdated, hName]
  constructor
  · rw [Gadget.document_vehicleName hFinite, hNone, Option.bind_none]
  · rw [displayable_document_iff hFinite id]
    simp [Gadget.HasFields, hNone]

end Documents

/-- The two documents are the same, and can be shown, exactly if the vehicle
has a name. -/
theorem same_document_iff {objVehicle : AllVehiclesI} {gadgetObj : Gadget} {id : String}
    (hDates : HasDates objVehicle) (hID : gadgetObj.id = some id) :
    SameDocument objVehicle gadgetObj id ↔ objVehicle.vehicleName.isSome := by
  constructor
  · intro h
    obtain ⟨created, updated, hCreated, hUpdated, hSame, _, _⟩ := h ""
    cases hName : objVehicle.vehicleName with
    | some name => rfl
    | none =>
        have hKey := hSame "vehicleName"
        rw [(updated_of_no_name hDates hID hName hUpdated).1, vehicleName_of_created hDates hCreated] at hKey
        cases hKey
  · exact sameDocument_of_name hDates hID

private def trike : AllVehiclesI :=
  { vehicleName := some "Trike", lastServiceDate := some 0, serviceDueDate := some 15120000 }

theorem same_document_iff_trike :
    SameDocument trike { id := some "d1" } "d1" ↔ trike.vehicleName.isSome :=
  same_document_iff ⟨rfl, rfl⟩ rfl

/-- Without its name the update loses a member that the cell needs. -/
theorem not_same_document :
    ¬ ∀ (objVehicle : AllVehiclesI) (gadgetObj : Gadget) (id : String),
      HasDates objVehicle → gadgetObj.id = some id → SameDocument objVehicle gadgetObj id := by
  intro h
  have hDates : HasDates { trike with vehicleName := none } := ⟨rfl, rfl⟩
  obtain ⟨created, updated, _, hUpdated, _, _, hShown⟩ := h _ { id := some "d1" } "d1" hDates rfl ""
  exact (updated_of_no_name hDates rfl rfl hUpdated).2 hShown

end ServiceBook

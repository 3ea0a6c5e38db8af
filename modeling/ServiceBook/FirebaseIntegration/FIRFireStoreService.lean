import ServiceBook.FirebaseIntegration.Gadget

/-! The four operations of `FIRFireStoreService` on the `gadgets` collection.
An operation returns the requests it issues; an error on the way is caught and
printed, and then there is none. A snapshot lists the documents in the order
of their ids. -/
namespace ServiceBook

open KeyedCoding

abbrev Collection := SortedMap.Map String JsonObject

inductive FirestoreWrite where
  | addDocument (data : JsonObject)
  | setData (documentID : String) (data : JsonObject)
  | delete (documentID : String)
deriving DecidableEq

/-- The effect of a request. `autoID` is the id that Firestore picks for a new document. -/
def FirestoreWrite.apply (autoID : String) (collection : Collection) : FirestoreWrite → Collection
  | .addDocument data => collection.set autoID data
  | .setData documentID data => collection.set documentID data
  | .delete documentID => collection.erase documentID

namespace FIRFireStoreService

def create (gadget : Gadget) : List FirestoreWrite :=
  match gadget.toJson ["id"] with
  | some json => [.addDocument json]
  | none => []

/-- What the listener passes to the completion handler. A document that does
not decode keeps the handler from being called. -/
def read (snapshot : List (String × JsonObject)) : Option (List Gadget) :=
  snapshot.mapM fun document => Gadget.decodeDocument document.1 document.2

def update (gadget : Gadget) : List FirestoreWrite :=
  match gadget.toJson ["id"], gadget.id with
  | some json, some id => [.setData id json]
  | _, _ => []

def delete (gadget : Gadget) : List FirestoreWrite :=
  match gadget.id with
  | some id => [.delete id]
  | none => []

end FIRFireStoreService

/-- The document written for a gadget. -/
def Gadget.document (gadget : Gadget) : JsonObject := (gadget.toJson ["id"]).getD .empty

namespace FIRFireStoreService

variable {gadget : Gadget}

theorem toJson_document (h : gadget.Finite) : gadget.toJson ["id"] = some gadget.document := by
  obtain ⟨json, hJson, _⟩ := Gadget.toJson_eq h
  rw [Gadget.document, hJson, Option.getD_some]

/-- The document does not depend on the id. -/
theorem document_with_id (h : gadget.Finite) (id : Option String) :
    ({ gadget with id := id } : Gadget).document = gadget.document := by
  have hFinite : ({ gadget with id := id } : Gadget).Finite := ⟨h.lastServiceDate, h.serviceDueDate⟩
  obtain ⟨json, hJson, hGet⟩ := Gadget.toJson_eq h
  obtain ⟨json', hJson', hGet'⟩ := Gadget.toJson_eq hFinite
  rw [Gadget.document, Gadget.document, hJson, hJson', Option.getD_some, Option.getD_some]
  apply SortedMap.Map.ext_get
  rw [hGet, hGet']
  funext k
  by_cases hk : k = "id"
  · rw [hk, Function.update_self, Function.update_self]
  · rw [Function.update_of_ne hk, Function.update_of_ne hk]
    calc _ = jsonAt gadget.members.tail k := jsonAt_of_ne hk
      _ = jsonAt gadget.members k := (jsonAt_of_ne hk).symm

theorem create_eq (h : gadget.Finite) : create gadget = [.addDocument gadget.document] := by
  rw [create, toJson_document h]

theorem update_eq (h : gadget.Finite) {id : String} (hID : gadget.id = some id) :
    update gadget = [.setData id gadget.document] := by
  rw [update, toJson_document h, hID]

theorem delete_eq {id : String} (hID : gadget.id = some id) : delete gadget = [.delete id] := by
  rw [delete, hID]

theorem decodeDocument_document (h : gadget.Finite) (documentID : String) :
    Gadget.decodeDocument documentID gadget.document = some { gadget with id := some documentID } :=
  Gadget.decodeDocument_toJson h (toJson_document h) documentID

/-- A snapshot that decodes keeps the documents in order, each under its id. -/
theorem read_ids {documents : List (String × JsonObject)} {gadgets : List Gadget}
    (h : read documents = some gadgets) :
    gadgets.map Gadget.id = documents.map fun document => some document.1 := by
  induction documents generalizing gadgets with
  | nil =>
      obtain rfl := Option.some.inj h
      rfl
  | cons document rest ih =>
      unfold read at h ih
      rw [List.mapM_cons] at h
      obtain ⟨gadget, hDecode, h⟩ := Option.bind_eq_some_iff.mp h
      obtain ⟨others, hRest, h⟩ := Option.bind_eq_some_iff.mp h
      obtain rfl := Option.some.inj h
      rw [List.map_cons, List.map_cons, Gadget.decodeDocument_id hDecode, ih hRest]

end FIRFireStoreService

end ServiceBook

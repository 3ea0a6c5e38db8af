import ServiceBook.FirebaseIntegration.FIRFireStoreService

/-! The service as a map from document id to gadget: encoding strips the id and
drops the missing fields, decoding puts both back, and a write never merges
with what was there before. -/
namespace ServiceBook

namespace FIRFireStoreService

abbrev GadgetMap := SortedMap.Map String Gadget

/-- Every document is the encoding of the gadget that the map has under its id. -/
structure Represents (collection : Collection) (m : GadgetMap) : Prop where
  documents : collection = m.mapValues Gadget.document
  identified : ∀ entry ∈ m.entries, entry.2.id = some entry.1
  finite : ∀ entry ∈ m.entries, entry.2.Finite

/-- The gadgets of the map in the order of their ids. -/
def delivered (m : GadgetMap) : List Gadget := m.entries.map Prod.snd

inductive Call where
  | create (gadget : Gadget) (autoID : String)
  | read
  | update (gadget : Gadget)
  | delete (gadget : Gadget)

def Call.requests : Call → List FirestoreWrite
  | .create gadget _ => FIRFireStoreService.create gadget
  | .read => []
  | .update gadget => FIRFireStoreService.update gadget
  | .delete gadget => FIRFireStoreService.delete gadget

def Call.autoID : Call → String
  | .create _ autoID => autoID
  | _ => ""

def Call.perform (collection : Collection) (call : Call) : Collection :=
  call.requests.foldl (FirestoreWrite.apply call.autoID) collection

/-- What the call does to the map. -/
def Call.onMap (m : GadgetMap) : Call → GadgetMap
  | .create gadget autoID => m.set autoID { gadget with id := some autoID }
  | .read => m
  | .update gadget =>
      match gadget.id with
      | some id => m.set id gadget
      | none => m
  | .delete gadget =>
      match gadget.id with
      | some id => m.erase id
      | none => m

/-- The gadgets have finite dates, and a new document gets an unused id. -/
def Call.Allowed (collection : Collection) : Call → Prop
  | .create gadget autoID => gadget.Finite ∧ autoID ∉ collection.keys
  | .update gadget => gadget.Finite
  | _ => True

/-- The call and its effect on what the next read delivers: one more gadget,
one gadget replaced, or one gadget gone. No call with a known id throws. -/
def Call.Effect (before after : List Gadget) (call : Call) : Prop :=
  match call with
  | .create gadget autoID =>
      call.requests.length = 1 ∧ after.Perm ({ gadget with id := some autoID } :: before)
  | .read => after = before
  | .update gadget =>
      (∃ old ∈ before, old.id = gadget.id) →
        call.requests.length = 1 ∧ after = KeyedList.replace Gadget.id before gadget
  | .delete gadget =>
      (∃ old ∈ before, old.id = gadget.id) →
        call.requests.length = 1 ∧ after = KeyedList.remove Gadget.id before gadget.id

def AllAllowed : Collection → List Call → Prop
  | _, [] => True
  | collection, call :: calls =>
      call.Allowed collection ∧ AllAllowed (call.perform collection) calls

/-- Along the whole sequence the collection represents the map, a read
delivers the gadgets of the map, and each call has its effect on it. -/
def Follows : Collection → GadgetMap → List Call → Prop
  | collection, m, [] => Represents collection m ∧ read collection.entries = some (delivered m)
  | collection, m, call :: calls =>
      Represents collection m ∧ read collection.entries = some (delivered m) ∧
      call.Effect (delivered m) (delivered (call.onMap m)) ∧
      Follows (call.perform collection) (call.onMap m) calls

/-- Every document was written by the service from a gadget with finite dates. -/
def WrittenByService (collection : Collection) : Prop :=
  ∀ document ∈ collection.entries, ∃ gadget : Gadget, gadget.Finite ∧
    gadget.toJson ["id"] = some document.2

section Step

variable {collection : Collection} {m : GadgetMap} {gadget : Gadget} {id : String}

theorem Represents.keys_eq (h : Represents collection m) : collection.keys = m.keys := by
  rw [h.documents, SortedMap.Map.keys_mapValues]

/-- Writing one gadget under its id. -/
theorem Represents.set (h : Represents collection m) (hFinite : gadget.Finite)
    (hID : gadget.id = some id) : Represents (collection.set id gadget.document) (m.set id gadget) where
  documents := by rw [SortedMap.Map.mapValues_set, h.documents]
  identified := by
    intro entry hEntry
    rcases SortedMap.Map.mem_set.mp hEntry with rfl | ⟨hOld, _⟩
    · exact hID
    · exact h.identified entry hOld
  finite := by
    intro entry hEntry
    rcases SortedMap.Map.mem_set.mp hEntry with rfl | ⟨hOld, _⟩
    · exact hFinite
    · exact h.finite entry hOld

theorem Represents.erase (h : Represents collection m) (id : String) :
    Represents (collection.erase id) (m.erase id) where
  documents := by rw [SortedMap.Map.mapValues_erase, h.documents]
  identified := fun entry hEntry => h.identified entry (SortedMap.Map.mem_erase.mp hEntry).1
  finite := fun entry hEntry => h.finite entry (SortedMap.Map.mem_erase.mp hEntry).1

/-- A read decodes every document, and decodes it to the gadget in the map. -/
theorem read_represents (h : Represents collection m) :
    read collection.entries = some (delivered m) := by
  have hDecode : ∀ entry ∈ m.entries,
      Gadget.decodeDocument entry.1 entry.2.document = some entry.2 := by
    intro entry hEntry
    rw [decodeDocument_document (h.finite entry hEntry), ← h.identified entry hEntry]
  have hRead (entries : List (String × Gadget)) (hAll : ∀ entry ∈ entries,
      Gadget.decodeDocument entry.1 entry.2.document = some entry.2) :
      read (entries.map fun entry => (entry.1, entry.2.document)) = some (entries.map Prod.snd) := by
    induction entries with
    | nil => rfl
    | cons entry rest ih =>
        have hRest := ih fun e he => hAll e (List.mem_cons_of_mem _ he)
        rw [read] at hRest ⊢
        rw [List.map_cons, List.mapM_cons, hRest, hAll entry (List.mem_cons_self ..)]
        rfl
  rw [h.documents]
  exact hRead m.entries hDecode

/-- The gadget with a given id is delivered exactly if the id is in use. -/
theorem mem_keys_of_delivered (h : Represents collection m) (hID : gadget.id = some id)
    (hOld : ∃ old ∈ delivered m, old.id = gadget.id) : id ∈ m.keys := by
  obtain ⟨old, hMem, hSame⟩ := hOld
  obtain ⟨entry, hEntry, rfl⟩ := List.mem_map.mp hMem
  rw [h.identified entry hEntry, hID] at hSame
  exact Option.some.inj hSame ▸ List.mem_map_of_mem hEntry

theorem delivered_set (h : Represents collection m) (hID : gadget.id = some id) (hKey : id ∈ m.keys) :
    delivered (m.set id gadget) = KeyedList.replace Gadget.id (delivered m) gadget := by
  rw [delivered, SortedMap.Map.set_entries_of_mem hKey, KeyedList.replace, KeyedList.replace,
    delivered, List.map_map, List.map_map]
  apply List.map_congr_left
  intro entry hEntry
  simp only [Function.comp_apply, h.identified entry hEntry, hID, Option.some.injEq]
  by_cases hSame : entry.1 = id
  · rw [if_pos hSame, if_pos hSame]
  · rw [if_neg hSame, if_neg hSame]

theorem delivered_erase (h : Represents collection m) (hID : gadget.id = some id) :
    delivered (m.erase id) = KeyedList.remove Gadget.id (delivered m) gadget.id := by
  show ((m.entries.filter fun entry => entry.1 ≠ id).map Prod.snd) =
    (m.entries.map Prod.snd).filter fun g => g.id ≠ gadget.id
  rw [List.filter_map]
  congr 1
  apply List.filter_congr
  intro entry hEntry
  simp [h.identified entry hEntry, hID]

/-- A delivered gadget has an id, so the calls on it do not throw. -/
theorem id_of_delivered (h : Represents collection m)
    (hOld : ∃ old ∈ delivered m, old.id = gadget.id) : ∃ id, gadget.id = some id := by
  obtain ⟨old, hMem, hSame⟩ := hOld
  obtain ⟨entry, hEntry, rfl⟩ := List.mem_map.mp hMem
  exact ⟨entry.1, hSame ▸ h.identified entry hEntry⟩

/-- One call keeps the correspondence. -/
theorem Call.perform_represents (h : Represents collection m) {call : Call}
    (hAllowed : call.Allowed collection) : Represents (call.perform collection) (call.onMap m) := by
  cases call with
  | create gadget autoID =>
      obtain ⟨hFinite, _⟩ := hAllowed
      have hIdentified : ({ gadget with id := some autoID } : Gadget).Finite :=
        ⟨hFinite.lastServiceDate, hFinite.serviceDueDate⟩
      have hSet := h.set hIdentified (rfl : _ = some autoID)
      rw [document_with_id hFinite] at hSet
      rw [Call.perform, Call.requests, create_eq hFinite]
      exact hSet
  | read => exact h
  | update gadget =>
      cases hID : gadget.id with
      | none =>
          have hNone : FIRFireStoreService.update gadget = [] := by
            rw [FIRFireStoreService.update, hID]
            cases gadget.toJson ["id"] <;> rfl
          rw [Call.perform, Call.requests, hNone, Call.onMap, hID]
          exact h
      | some id =>
          rw [Call.perform, Call.requests, update_eq hAllowed hID, Call.onMap, hID]
          exact h.set hAllowed hID
  | delete gadget =>
      cases hID : gadget.id with
      | none =>
          rw [Call.perform, Call.requests, FIRFireStoreService.delete, hID, Call.onMap, hID]
          exact h
      | some id =>
          rw [Call.perform, Call.requests, delete_eq hID, Call.onMap, hID]
          exact h.erase id

/-- One call changes the next read as it should. -/
theorem Call.effect (h : Represents collection m) {call : Call} (hAllowed : call.Allowed collection) :
    call.Effect (delivered m) (delivered (call.onMap m)) := by
  cases call with
  | create gadget autoID =>
      obtain ⟨hFinite, hFresh⟩ := hAllowed
      rw [h.keys_eq] at hFresh
      refine ⟨by rw [Call.requests, create_eq hFinite]; rfl, ?_⟩
      exact (SortedMap.Map.set_entries_perm hFresh _).map Prod.snd
  | read => rfl
  | update gadget =>
      intro hOld
      obtain ⟨id, hID⟩ := id_of_delivered h hOld
      refine ⟨by rw [Call.requests, update_eq hAllowed hID]; rfl, ?_⟩
      rw [Call.onMap, hID]
      exact delivered_set h hID (mem_keys_of_delivered h hID hOld)
  | delete gadget =>
      intro hOld
      obtain ⟨id, hID⟩ := id_of_delivered h hOld
      refine ⟨by rw [Call.requests, delete_eq hID]; rfl, ?_⟩
      have hErase : (Call.delete gadget).onMap m = m.erase id := by rw [Call.onMap, hID]
      rw [hErase]
      exact delivered_erase h hID

theorem follows_of_represents {calls : List Call} (h : Represents collection m)
    (hAllowed : AllAllowed collection calls) : Follows collection m calls := by
  induction calls generalizing collection m with
  | nil => exact ⟨h, read_represents h⟩
  | cons call calls ih =>
      have hNext := Call.perform_represents h hAllowed.1
      exact ⟨h, read_represents h, Call.effect h hAllowed.1, ih hNext hAllowed.2⟩

/-- A document with the gadget that it decodes to. -/
def gadgetOf (document : String × KeyedCoding.JsonObject) : String × Gadget :=
  (document.1, (Gadget.decodeDocument document.1 document.2).getD {})

/-- A collection that the service wrote represents the map of what it wrote. -/
theorem WrittenByService.represents (h : WrittenByService collection) :
    ∃ m, Represents collection m := by
  have hGadget : ∀ document ∈ collection.entries, ∃ gadget : Gadget, gadget.Finite ∧
      gadgetOf document = (document.1, { gadget with id := some document.1 }) ∧
      gadget.document = document.2 := by
    intro document hDocument
    obtain ⟨gadget, hFinite, hJson⟩ := h document hDocument
    refine ⟨gadget, hFinite, ?_, by rw [Gadget.document, hJson, Option.getD_some]⟩
    rw [gadgetOf, Gadget.decodeDocument_toJson hFinite hJson, Option.getD_some]
  refine ⟨⟨collection.entries.map gadgetOf, List.pairwise_map.mpr collection.sorted⟩, ?_, ?_, ?_⟩
  · apply SortedMap.Map.ext
    show collection.entries = (collection.entries.map gadgetOf).map fun e => (e.1, e.2.document)
    rw [List.map_map]
    conv_lhs => rw [← List.map_id' collection.entries]
    apply List.map_congr_left
    intro document hDocument
    obtain ⟨gadget, hFinite, hOf, hJson⟩ := hGadget document hDocument
    rw [Function.comp_apply, hOf, document_with_id hFinite, hJson]
  · intro entry hEntry
    obtain ⟨document, hDocument, rfl⟩ := List.mem_map.mp hEntry
    obtain ⟨gadget, _, hOf, _⟩ := hGadget document hDocument
    rw [hOf]
  · intro entry hEntry
    obtain ⟨document, hDocument, rfl⟩ := List.mem_map.mp hEntry
    obtain ⟨gadget, hFinite, hOf, _⟩ := hGadget document hDocument
    rw [hOf]
    exact ⟨hFinite.lastServiceDate, hFinite.serviceDueDate⟩

end Step

/-- The service refines the map: over every sequence of allowed calls on a
collection that it wrote itself, a read delivers the gadgets last written, and
each call changes the next read by its own gadget only. -/
theorem follows_gadgets {collection : Collection} {calls : List Call}
    (hWritten : WrittenByService collection) (hAllowed : AllAllowed collection calls) :
    ∃ m, Follows collection m calls := by
  obtain ⟨m, hRepresents⟩ := hWritten.represents
  exact ⟨m, follows_of_represents hRepresents hAllowed⟩

/-- A car that is created in an empty collection, read, renamed and deleted. -/
theorem follows_gadgets_car :
    let car := Gadget.init "Beetle" "Car/Jeep" "KA 01" "" 9000 150 (.finite 0) (.finite 36288000)
    ∃ m, Follows .empty m
      [.create car "d1", .read, .update { car with id := some "d1", vehicleName := none },
        .delete { car with id := some "d1" }] := by
  intro car
  have hFinite : car.Finite := ⟨by simp [car, Gadget.init, BinaryFloat.Value.IsFinite],
    by simp [car, Gadget.init, BinaryFloat.Value.IsFinite]⟩
  have hNew : "d1" ∉ (SortedMap.Map.empty : Collection).keys := by decide
  exact follows_gadgets (fun _ hNone => by cases hNone)
    ⟨⟨hFinite, hNew⟩, trivial, ⟨hFinite.lastServiceDate, hFinite.serviceDueDate⟩, trivial, trivial⟩

end FIRFireStoreService

end ServiceBook

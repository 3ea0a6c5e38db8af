import ServiceBook.AddEditVehicle.Documents
import ServiceBook.AddEditVehicle.Reopen
import ServiceBook.System.Books
import ServiceBook.System.Network

/-! What the documents of the collection say. Each of them was written for a
vehicle that some installation saved, so whoever reads the collection can decode
all of it and show every row. -/
namespace ServiceBook

open KeyedCoding

/-- The contents that a request puts in a document. -/
def FirestoreWrite.data : FirestoreWrite → Option JsonObject
  | .addDocument data => some data
  | .setData _ data => some data
  | .delete _ => none

/-- The contents were written for a vehicle with the property. -/
def WrittenFor (Q : AllVehiclesI → Prop) (data : JsonObject) : Prop :=
  ∃ objVehicle, Q objVehicle ∧ data = (Gadget.ofVehicle objVehicle).document

/-- The gadget has the values of such a vehicle. -/
def Gadget.MadeFor (Q : AllVehiclesI → Prop) (gadget : Gadget) : Prop :=
  ∃ objVehicle documentID, Q objVehicle ∧ gadget = (Gadget.ofVehicle objVehicle).identified documentID

/-- The due date of the gadget is the one that the rule gives for its other values. -/
def Gadget.DueByRule (P : Platform) (gadget : Gadget) : Prop :=
  ∃ serviceRequiredAfter averageRun days lastServiceDate serviceDueDate,
    gadget.serviceRequiredAfter = some serviceRequiredAfter ∧ gadget.averageRun = some averageRun ∧
      gadget.lastServiceDate = some (.finite lastServiceDate) ∧
      gadget.serviceDueDate = some (.finite serviceDueDate) ∧
      intOfFloat (AppSharedInstance.noOfDays serviceRequiredAfter averageRun) = .ok days ∧
      P.dateByAddingDays days lastServiceDate = some serviceDueDate

/-- The gadget has what a cell unwraps, with a due date that is right for it. -/
def Gadget.Legible (P : Platform) (gadget : Gadget) : Prop :=
  gadget.HasFields ∧ gadget.DueByRule P

section Saved

variable {P : Platform} {Q : AllVehiclesI → Prop} {app app' : App} {action : Action} {objVehicle : AllVehiclesI}
  {gadget : Gadget}

theorem SavedVehicle.filled (h : SavedVehicle P objVehicle) : Filled objVehicle := by
  obtain ⟨text, hRule⟩ := h.rule
  obtain ⟨averageRun, distance, _, _, _, hRun, hDistance, _, _, _, _⟩ :=
    AppSharedInstance.getServiceDueDate_eq_ok.mp hRule
  obtain ⟨notes, hNotes, _⟩ := h.notes
  exact ⟨h.vehicleType, h.vehicleName, h.vehicleNo, by rw [hNotes]; rfl, by rw [hDistance]; rfl, by rw [hRun]; rfl⟩

theorem Gadget.MadeFor.legible (h : gadget.MadeFor (SavedVehicle P)) : gadget.Legible P := by
  obtain ⟨objVehicle, documentID, hSaved, rfl⟩ := h
  obtain ⟨text, hRule⟩ := hSaved.rule
  have hFilled := hSaved.filled
  obtain ⟨averageRun, serviceRequiredAfter, days, last, due, hRun, hDistance, hDays, hLast, hDue, hResult⟩ :=
    AppSharedInstance.getServiceDueDate_eq_ok.mp hRule
  have hSet : objVehicle.serviceDueDate = some due :=
    congrArg AllVehiclesI.serviceDueDate (Prod.mk.inj hResult).1
  constructor
  · refine ⟨?_, hFilled.notes, hFilled.vehicleNo, hFilled.vehicleName, hFilled.vehicleType⟩
    simp [Gadget.identified, Gadget.ofVehicle, hSet]
  · refine ⟨serviceRequiredAfter, averageRun, days, last, due, hDistance, hRun, ?_, ?_, hDays, hDue⟩
    · simp [Gadget.identified, Gadget.ofVehicle, hLast]
    · simp [Gadget.identified, Gadget.ofVehicle, hSet]

theorem data_of_create {request : FirestoreWrite}
    (h : request ∈ FIRFireStoreService.create (Gadget.ofVehicle objVehicle)) :
    request.data = some (Gadget.ofVehicle objVehicle).document := by
  rw [FIRFireStoreService.create_eq (Gadget.ofVehicle_finite objVehicle), List.mem_singleton] at h
  rw [h]
  rfl

/-- An update puts the values of the vehicle under the id of the gadget. -/
theorem data_of_update {gadgetObj : Gadget} {request : FirestoreWrite} (hFilled : Filled objVehicle)
    (hUpdate : gadgetObjToUpdate gadgetObj objVehicle = .ok gadget)
    (h : request ∈ FIRFireStoreService.update gadget) :
    request.data = some (Gadget.ofVehicle objVehicle).document := by
  obtain ⟨id, _, hID, _⟩ := mem_update h
  have hGadgetID : gadgetObj.id = some id := by
    obtain ⟨_, _, _, _, rfl⟩ := withDates_eq_ok.mp hUpdate
    exact hID
  obtain rfl := gadgetObjToUpdate_eq hFilled hGadgetID hUpdate
  rw [FIRFireStoreService.update_eq (Gadget.identified_ofVehicle_finite objVehicle id) rfl,
    List.mem_singleton] at h
  rw [h]
  exact congrArg some (FIRFireStoreService.document_with_id (Gadget.ofVehicle_finite objVehicle) (some id))

/-- The contents that a step sends were written for a vehicle that it saves. -/
theorem issued_saved (hPlaced : FormsPlaced app) (hStep : app.step P action = some app')
    (hSaves : ∀ objVehicle, Saves P app action objVehicle → Q objVehicle) :
    ∃ issued, app'.outbox = app.outbox ++ issued ∧
      ∀ request ∈ issued, ∀ data ∈ request.data, WrittenFor Q data := by
  have hQuiet (hSame : app'.outbox = app.outbox) : ∃ issued, app'.outbox = app.outbox ++ issued ∧
      ∀ request ∈ issued, ∀ data ∈ request.data, WrittenFor Q data :=
    ⟨[], by rw [hSame, List.append_nil], fun request hNone => by cases hNone⟩
  cases step_stepped hPlaced hStep with
  | selectTab tab _ _ hAppear => exact hQuiet (viewWillAppear_refreshed hAppear).outbox
  | allVehiclesDelete row objVehicle gadgetObj context success arrVehicles _ _ _ _ _ =>
      refine ⟨FIRFireStoreService.delete gadgetObj, rfl, fun request hRequest data hData => ?_⟩
      obtain ⟨id, _, rfl⟩ := mem_delete hRequest
      cases hData
  | form slot e form form' _ _ => exact hQuiet (by simp)
  | saveAdd uuid objVehicle text context success gadget due request form hShows hRule _ hGadget _ _ _ =>
      obtain rfl := gadgetInfo_eq_ofVehicle (savedVehicle_of_rule hRule).filled hGadget
      have hSaved := hSaves objVehicle (.addTab hShows hRule)
      refine ⟨_, rfl, fun request hRequest data hData => ⟨objVehicle, hSaved, ?_⟩⟩
      exact Option.some.inj ((Option.mem_def.mp hData).symm.trans (data_of_create hRequest))
  | saveEdit uuid form objVehicle text gadgetObj context success gadget due request _ hForm hRule _ _ hUpdate _ _
      hAppear =>
      have hFilled := (savedVehicle_of_rule hRule).filled
      have hSaved := hSaves objVehicle (.editor hForm hRule)
      refine ⟨FIRFireStoreService.update gadget, (viewWillAppear_refreshed hAppear).outbox,
        fun request hRequest data hData => ⟨objVehicle, hSaved, ?_⟩⟩
      exact Option.some.inj ((Option.mem_def.mp hData).symm.trans (data_of_update hFilled hUpdate hRequest))
  | back form _ _ hAppear => exact hQuiet (viewWillAppear_refreshed hAppear).outbox
  | relaunch context _ _ hAppear => exact hQuiet (viewWillAppear_refreshed hAppear).outbox
  | _ => exact hQuiet rfl

/-- Such contents are decoded to the values of the vehicle. -/
theorem WrittenFor.decodes {data : JsonObject} (h : WrittenFor Q data) (documentID : String) :
    ∃ gadget, Gadget.decodeDocument documentID data = some gadget ∧ gadget.MadeFor Q := by
  obtain ⟨objVehicle, hSaved, rfl⟩ := h
  exact ⟨_, FIRFireStoreService.decodeDocument_document (Gadget.ofVehicle_finite objVehicle) documentID,
    objVehicle, documentID, hSaved, rfl⟩

/-- Documents that were written for vehicles are all decoded, each to the values of its vehicle. -/
theorem read_saved {documents : List (String × JsonObject)}
    (h : ∀ document ∈ documents, WrittenFor Q document.2) :
    ∃ gadgets, FIRFireStoreService.read documents = some gadgets ∧ ∀ gadget ∈ gadgets, gadget.MadeFor Q := by
  induction documents with
  | nil => exact ⟨[], rfl, fun gadget hNone => by cases hNone⟩
  | cons document rest ih =>
      obtain ⟨gadgets, hRead, hRest⟩ := ih fun other hOther => h other (List.mem_cons_of_mem _ hOther)
      obtain ⟨first, hDecode, hMade⟩ := (h document (List.mem_cons_self ..)).decodes document.1
      refine ⟨first :: gadgets, ?_, ?_⟩
      · rw [FIRFireStoreService.read] at hRead ⊢
        rw [List.mapM_cons, hDecode, hRead]
        rfl
      · intro gadget hGadget
        rcases List.mem_cons.mp hGadget with rfl | hOld
        · exact hMade
        · exact hRest gadget hOld

end Saved

namespace Network

variable {ι : Type} [DecidableEq ι] {P : Platform} {Q : AllVehiclesI → Prop} {net net' : Network ι} {e : Event ι}

/-- The whole collection can be decoded and shown, and so can every list of an
installation, with due dates that are right for the other values. -/
structure Legible (P : Platform) (net : Network ι) : Prop where
  server : ∃ gadgets, FIRFireStoreService.read net.server.entries = some gadgets ∧
    ∀ gadget ∈ gadgets, gadget.Legible P
  listed : ∀ i, ∀ gadget ∈ (net.apps i).allVehiclesVC.arrGadgets, gadget.Legible P

/-- The values of vehicles with the property go from the requests to the documents,
and from there to the lists. -/
structure FromSaved (Q : AllVehiclesI → Prop) (net : Network ι) : Prop where
  placed : ∀ i, FormsPlaced (net.apps i)
  server : ∀ document ∈ net.server.entries, WrittenFor Q document.2
  requests : ∀ i, ∀ request ∈ (net.apps i).outbox, ∀ data ∈ request.data, WrittenFor Q data
  listed : ∀ i, ∀ gadget ∈ (net.apps i).allVehiclesVC.arrGadgets, gadget.MadeFor Q

omit [DecidableEq ι] in
theorem FromSaved.legible (h : FromSaved (SavedVehicle P) net) : Legible P net := by
  obtain ⟨gadgets, hRead, hSaved⟩ := read_saved h.server
  exact ⟨⟨gadgets, hRead, fun gadget hGadget => (hSaved gadget hGadget).legible⟩,
    fun i gadget hGadget => (h.listed i gadget hGadget).legible⟩

/-- One installation acts, and what it saves has the property, as has what it reads. -/
theorem FromSaved.update (h : FromSaved Q net) (seen : List (ι × String)) {i : ι} {action : Action}
    {app : App} (hApp : (net.apps i).step P action = some app)
    (hSaves : ∀ objVehicle, Saves P (net.apps i) action objVehicle → Q objVehicle)
    (hRead : ∀ documents, action = .snapshot documents → ∀ document ∈ documents, WrittenFor Q document.2) :
    FromSaved Q { net with apps := Function.update net.apps i app, seen := seen } := by
  obtain ⟨issued, hOutbox, hIssued⟩ := issued_saved (h.placed i) hApp hSaves
  refine ⟨forall_update h.placed ((h.placed i).step hApp), h.server, ?_, ?_⟩
  · refine forall_update
      (R := fun _ app => ∀ request ∈ app.outbox, ∀ data ∈ request.data, WrittenFor Q data)
      h.requests fun request hRequest => ?_
    rw [hOutbox, List.mem_append] at hRequest
    rcases hRequest with hOld | hNew
    · exact h.requests i request hOld
    · exact hIssued request hNew
  · refine forall_update (R := fun _ app => ∀ gadget ∈ app.allVehiclesVC.arrGadgets, gadget.MadeFor Q)
      h.listed ?_
    rcases arrGadgets_origin (h.placed i) hApp with hSame | hNone | ⟨documents, hAction, hGadgets⟩
    · rw [hSame]
      exact h.listed i
    · rw [hNone]
      exact fun gadget hGadget => by cases hGadget
    · obtain ⟨gadgets, hRead, hSaved⟩ := read_saved (hRead documents hAction)
      rw [Option.some.inj (hGadgets.symm.trans hRead)]
      exact hSaved

theorem FromSaved.step (h : FromSaved Q net) (hStep : net.step P e = some net')
    (hSaves : ∀ i action objVehicle, e = .act i action → Saves P (net.apps i) action objVehicle → Q objVehicle) :
    FromSaved Q net' := by
  cases stepped_of_step hStep with
  | act i action app hActs hApp =>
      refine h.update net.seen hApp (fun objVehicle => hSaves i action objVehicle rfl) fun documents hAction => ?_
      rw [hAction] at hActs
      cases hActs
  | deliver i app hApp =>
      refine h.update _ hApp (fun objVehicle hSaves => ?_) fun documents hAction => ?_
      · obtain ⟨_, _, _, _, hAction, _⟩ := hSaves
        cases hAction
      obtain rfl := Action.snapshot.inj hAction
      exact h.server
  | commit i documentID request rest hOutbox _ =>
      have hRequest := h.requests i request (hOutbox ▸ List.mem_cons_self ..)
      refine ⟨forall_update h.placed ⟨(h.placed i).addTab, (h.placed i).editor⟩, fun document hMem => ?_, ?_,
        forall_update (R := fun _ app => ∀ gadget ∈ app.allVehiclesVC.arrGadgets, gadget.MadeFor Q) h.listed
          (h.listed i)⟩
      · cases request with
        | addDocument data =>
            rcases SortedMap.Map.mem_set.mp hMem with rfl | ⟨hOld, _⟩
            · exact hRequest data rfl
            · exact h.server document hOld
        | setData target data =>
            rcases SortedMap.Map.mem_set.mp hMem with rfl | ⟨hOld, _⟩
            · exact hRequest data rfl
            · exact h.server document hOld
        | delete target => exact h.server document (SortedMap.Map.mem_erase.mp hMem).1
      · refine forall_update
          (R := fun _ app => ∀ request ∈ app.outbox, ∀ data ∈ request.data, WrittenFor Q data)
          h.requests fun other hOther => ?_
        exact h.requests i other (hOutbox ▸ List.mem_cons_of_mem _ hOther)

omit [DecidableEq ι] in
theorem fromSaved_installed (now : ι → Date) : FromSaved Q (installed now) where
  placed := fun i => formsPlaced_installed (now i)
  server := fun document hNone => by cases hNone
  requests := fun i request hNone => by cases hNone
  listed := fun i gadget hNone => by cases hNone

end Network

end ServiceBook

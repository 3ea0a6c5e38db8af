import ServiceBook.App.Step

/-! The documents that the app can address: an update or a deletion takes its
document id from a gadget, and every gadget the app holds has come to it in a
snapshot. -/
namespace ServiceBook

/-- The existing document that a request changes. -/
def FirestoreWrite.target : FirestoreWrite → Option String
  | .addDocument _ => none
  | .setData documentID _ => some documentID
  | .delete documentID => some documentID

/-- The gadget has a document id, and a known one. -/
def Gadget.Known (known : String → Prop) (gadget : Gadget) : Prop :=
  ∃ id, gadget.id = some id ∧ known id

/-- The app holds known gadgets only, in the list and in the editor. -/
structure GadgetsKnown (known : String → Prop) (app : App) : Prop where
  listed : ∀ gadget ∈ app.allVehiclesVC.arrGadgets, gadget.Known known
  edited : ∀ form, app.editor = some form → ∀ gadget ∈ form.gadgetToUpdate, gadget.Known known

/-- An action brings new documents to the app only as a snapshot. -/
def Action.Brings (known : String → Prop) : Action → Prop
  | .snapshot documents => ∀ document ∈ documents, known document.1
  | _ => True

section Known

variable {P : Platform} {app app' : App} {action : Action} {known known' : String → Prop} {gadget : Gadget}

theorem Gadget.Known.mono (h : gadget.Known known) (hMono : ∀ id, known id → known' id) :
    gadget.Known known' := by
  obtain ⟨id, hID, hKnown⟩ := h
  exact ⟨id, hID, hMono id hKnown⟩

theorem GadgetsKnown.mono (h : GadgetsKnown known app) (hMono : ∀ id, known id → known' id) :
    GadgetsKnown known' app :=
  ⟨fun gadget hGadget => (h.listed gadget hGadget).mono hMono,
    fun form hForm gadget hGadget => (h.edited form hForm gadget hGadget).mono hMono⟩

/-- The gadgets of a snapshot have the ids of its documents. -/
theorem known_of_read {documents : List (String × KeyedCoding.JsonObject)} {gadgets : List Gadget}
    (hRead : FIRFireStoreService.read documents = some gadgets)
    (hKnown : ∀ document ∈ documents, known document.1) : ∀ gadget ∈ gadgets, gadget.Known known := by
  intro gadget hGadget
  have hID : gadget.id ∈ gadgets.map Gadget.id := List.mem_map_of_mem hGadget
  rw [FIRFireStoreService.read_ids hRead] at hID
  obtain ⟨document, hDocument, hSame⟩ := List.mem_map.mp hID
  exact ⟨document.1, hSame.symm, hKnown document hDocument⟩

/-- Changes of the other parts of the app do not matter. -/
theorem GadgetsKnown.of_eq (h : GadgetsKnown known app)
    (hListed : app'.allVehiclesVC.arrGadgets = app.allVehiclesVC.arrGadgets)
    (hEditor : app'.editor = app.editor) : GadgetsKnown known app' := by
  constructor
  · rw [hListed]
    exact h.listed
  · rw [hEditor]
    exact h.edited

/-- Where the gadgets of the list come from in one step. -/
theorem arrGadgets_origin (hPlaced : FormsPlaced app) (hStep : app.step P action = some app') :
    app'.allVehiclesVC.arrGadgets = app.allVehiclesVC.arrGadgets ∨
      app'.allVehiclesVC.arrGadgets = [] ∨
      ∃ documents, action = .snapshot documents ∧
        FIRFireStoreService.read documents = some app'.allVehiclesVC.arrGadgets := by
  cases step_stepped hPlaced hStep with
  | selectTab tab _ _ hAppear => exact Or.inl (viewWillAppear_refreshed hAppear).arrGadgets
  | snapshot documents =>
      unfold AllVehiclesVC.snapshot
      cases hRead : FIRFireStoreService.read documents with
      | none => exact Or.inl rfl
      | some gadgets => exact Or.inr (Or.inr ⟨documents, rfl, hRead⟩)
  | form slot e form form' _ _ => exact Or.inl (by simp)
  | saveEdit uuid form objVehicle text gadgetObj context success gadget due request _ _ _ _ _ _ _ _ hAppear =>
      exact Or.inl (viewWillAppear_refreshed hAppear).arrGadgets
  | back form _ _ hAppear => exact Or.inl (viewWillAppear_refreshed hAppear).arrGadgets
  | relaunch context _ _ hAppear => exact Or.inr (Or.inl (viewWillAppear_refreshed hAppear).arrGadgets)
  | _ => exact Or.inl rfl

/-- What an editor edits after one step: what it edited before, or the vehicle
and the gadget of the Due Services row that has been tapped. -/
theorem editor_origin (hPlaced : FormsPlaced app) (hStep : app.step P action = some app')
    {form' : AddVehicleVC} (hForm' : app'.editor = some form') (hGadget' : gadget ∈ form'.gadgetToUpdate) :
    (∃ form, app.editor = some form ∧ gadget ∈ form.gadgetToUpdate ∧
        form'.objVehicle.vehicleID = form.objVehicle.vehicleID) ∨
      ∃ row objVehicle, action = .allVehiclesDidSelectRow row ∧
        app.allVehiclesVC.arrAllVehicles[row]? = some objVehicle ∧
        app.allVehiclesVC.arrGadgets[row]? = some gadget ∧
        form'.objVehicle.vehicleID = objVehicle.vehicleID := by
  have hKept (hEditor : app'.editor = app.editor) : ∃ form, app.editor = some form ∧
      gadget ∈ form.gadgetToUpdate ∧ form'.objVehicle.vehicleID = form.objVehicle.vehicleID :=
    ⟨form', hEditor.symm.trans hForm', hGadget', rfl⟩
  have hGone {α : Prop} (hEditor : app'.editor = none) : α := by
    cases hEditor.symm.trans hForm'
  cases step_stepped hPlaced hStep with
  | selectTab tab _ _ hAppear => exact Or.inl (hKept (viewWillAppear_refreshed hAppear).editor)
  | allVehiclesSelect row vehicleObj gadgetObj form _ hVehicle hGadget hAppear =>
      obtain rfl := Option.some.inj hForm'
      have hSame := AddVehicleVC.sameRecord_appear hAppear rfl
      rw [hSame.gadgetToUpdate] at hGadget'
      obtain rfl := Option.some.inj hGadget'
      exact Or.inr ⟨row, vehicleObj, rfl, hVehicle, hGadget, hSame.vehicleID⟩
  | historySelect row vehicleObj form _ _ hAppear =>
      obtain rfl := Option.some.inj hForm'
      rw [(AddVehicleVC.sameRecord_appear hAppear rfl).gadgetToUpdate] at hGadget'
      cases hGadget'
  | form slot e form form'' hForm hHandle =>
      cases slot with
      | addTab => exact Or.inl (hKept rfl)
      | editor =>
          obtain rfl := Option.some.inj hForm'
          have hSame := AddVehicleVC.handle_sameRecord hHandle
          rw [hSame.gadgetToUpdate] at hGadget'
          exact Or.inl ⟨form, hForm, hGadget', hSame.vehicleID⟩
  | saveEdit uuid form objVehicle text gadgetObj context success gadget due request _ _ _ _ _ _ _ _ hAppear =>
      exact hGone (viewWillAppear_refreshed hAppear).editor
  | back form _ _ hAppear => exact hGone (viewWillAppear_refreshed hAppear).editor
  | relaunch context _ _ hAppear => exact hGone (viewWillAppear_refreshed hAppear).editor
  | _ => exact Or.inl (hKept rfl)

/-- No step makes the app hold a gadget that it did not know before, except
from a snapshot. -/
theorem GadgetsKnown.step (hPlaced : FormsPlaced app) (h : GadgetsKnown known app)
    (hBrings : action.Brings known) (hStep : app.step P action = some app') :
    GadgetsKnown known app' := by
  constructor
  · rcases arrGadgets_origin hPlaced hStep with hSame | hNone | ⟨documents, rfl, hRead⟩
    · rw [hSame]
      exact h.listed
    · rw [hNone]
      simp
    · exact known_of_read hRead hBrings
  · intro form' hForm' gadget hGadget'
    rcases editor_origin hPlaced hStep hForm' hGadget' with
      ⟨form, hForm, hGadget, _⟩ | ⟨row, objVehicle, _, _, hGadget, _⟩
    · exact h.edited form hForm gadget hGadget
    · exact h.listed gadget (List.mem_of_getElem? hGadget)

theorem mem_delete {request : FirestoreWrite} (h : request ∈ FIRFireStoreService.delete gadget) :
    ∃ id, gadget.id = some id ∧ request = .delete id := by
  unfold FIRFireStoreService.delete at h
  cases hID : gadget.id with
  | none =>
      rw [hID] at h
      cases h
  | some id =>
      rw [hID] at h
      exact ⟨id, rfl, List.mem_singleton.mp h⟩

theorem mem_update {request : FirestoreWrite} (h : request ∈ FIRFireStoreService.update gadget) :
    ∃ id data, gadget.id = some id ∧ request = .setData id data := by
  unfold FIRFireStoreService.update at h
  split at h
  · next hID => exact ⟨_, _, hID, List.mem_singleton.mp h⟩
  · cases h

theorem mem_create {request : FirestoreWrite} (h : request ∈ FIRFireStoreService.create gadget) :
    ∃ data, request = .addDocument data := by
  unfold FIRFireStoreService.create at h
  split at h
  · exact ⟨_, List.mem_singleton.mp h⟩
  · cases h

/-- The gadget that a request changes is the one of the row that is deleted or
the one that the editor edits. -/
inductive Issues (app : App) : Action → FirestoreWrite → Prop
  | delete (row : Nat) (gadgetObj : Gadget) (id : String)
      (hGadget : app.allVehiclesVC.arrGadgets[row]? = some gadgetObj) (hID : gadgetObj.id = some id) :
      Issues app (.allVehiclesCommitDelete row) (.delete id)
  | update (uuid : String) (form : AddVehicleVC) (gadgetObj : Gadget) (id : String)
      (data : KeyedCoding.JsonObject) (hForm : app.editor = some form)
      (hGadget : form.gadgetToUpdate = some gadgetObj) (hID : gadgetObj.id = some id) :
      Issues app (.clkSave uuid) (.setData id data)
  | create (uuid : String) (data : KeyedCoding.JsonObject) : Issues app (.clkSave uuid) (.addDocument data)

/-- The requests that a step issues. -/
theorem issued_of_step (hPlaced : FormsPlaced app) (hStep : app.step P action = some app') :
    ∃ issued, app'.outbox = app.outbox ++ issued ∧ ∀ request ∈ issued, Issues app action request := by
  have hQuiet (hSame : app'.outbox = app.outbox) : ∃ issued, app'.outbox = app.outbox ++ issued ∧
      ∀ request ∈ issued, Issues app action request :=
    ⟨[], by rw [hSame, List.append_nil], fun request hRequest => by cases hRequest⟩
  cases step_stepped hPlaced hStep with
  | selectTab tab _ _ hAppear => exact hQuiet (viewWillAppear_refreshed hAppear).outbox
  | allVehiclesDelete row objVehicle gadgetObj context success arrVehicles _ _ hGadget _ _ =>
      refine ⟨FIRFireStoreService.delete gadgetObj, rfl, fun request hRequest => ?_⟩
      obtain ⟨id, hID, rfl⟩ := mem_delete hRequest
      exact .delete row gadgetObj id hGadget hID
  | form slot e form form' _ _ => exact hQuiet (by simp)
  | saveAdd uuid objVehicle text context success gadget due request form _ _ _ _ _ _ _ =>
      refine ⟨FIRFireStoreService.create gadget, rfl, fun request hRequest => ?_⟩
      obtain ⟨data, rfl⟩ := mem_create hRequest
      exact .create uuid data
  | saveEdit uuid form objVehicle text gadgetObj context success gadget due request _ hForm _ hGadget _
      hUpdate _ _ hAppear =>
      refine ⟨FIRFireStoreService.update gadget, (viewWillAppear_refreshed hAppear).outbox,
        fun request hRequest => ?_⟩
      obtain ⟨id, data, hID, rfl⟩ := mem_update hRequest
      obtain ⟨_, _, _, _, rfl⟩ := withDates_eq_ok.mp hUpdate
      exact .update uuid form gadgetObj id data hForm hGadget hID
  | back form _ _ hAppear => exact hQuiet (viewWillAppear_refreshed hAppear).outbox
  | relaunch context _ _ hAppear => exact hQuiet (viewWillAppear_refreshed hAppear).outbox
  | _ => exact hQuiet rfl

/-- They change documents the app has known. -/
theorem issued_known (hPlaced : FormsPlaced app) (h : GadgetsKnown known app)
    (hStep : app.step P action = some app') :
    ∃ issued, app'.outbox = app.outbox ++ issued ∧
      ∀ request ∈ issued, ∀ id ∈ request.target, known id := by
  obtain ⟨issued, hOutbox, hIssued⟩ := issued_of_step hPlaced hStep
  refine ⟨issued, hOutbox, fun request hRequest id hTarget => ?_⟩
  cases hIssued request hRequest with
  | delete row gadgetObj target hGadget hID =>
      obtain ⟨known, hSame, hKnown⟩ := h.listed gadgetObj (List.mem_of_getElem? hGadget)
      rw [FirestoreWrite.target, ← hID, hSame] at hTarget
      exact Option.some.inj hTarget ▸ hKnown
  | update uuid form gadgetObj target data hForm hGadget hID =>
      obtain ⟨known, hSame, hKnown⟩ := h.edited form hForm gadgetObj hGadget
      rw [FirestoreWrite.target, ← hID, hSame] at hTarget
      exact Option.some.inj hTarget ▸ hKnown
  | create uuid data => cases hTarget

theorem gadgetsKnown_installed (now : Date) : GadgetsKnown known (App.installed now) := by
  rw [installed_eq]
  refine ⟨?_, ?_⟩
  · intro gadget hGadget
    cases hGadget
  · intro form hForm
    cases hForm

end Known

end ServiceBook

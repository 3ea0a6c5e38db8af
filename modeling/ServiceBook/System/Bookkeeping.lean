import ServiceBook.App.Addressing
import ServiceBook.System.Books
import ServiceBook.System.Site

/-! The books that one installation keeps. Every state of the system keeps a
pair of books, and every step makes at most one entry in them. -/
namespace ServiceBook

namespace Site

/-- The lists on the screen and the editor show records of the book. -/
structure Screens (app : App) (queriedAt : Date) (books : Books) : Prop where
  due : app.Shows .allVehicles →
    app.allVehiclesVC.arrAllVehicles = books.listed (upcoming queriedAt)
  history : app.Shows .history → ∀ objVehicle ∈ app.historyVC.arrAllVehicles, objVehicle ∈ books.records
  editor : ∀ form, app.editor = some form →
    ∃ objVehicle ∈ books.records, objVehicle.vehicleID = form.objVehicle.vehicleID

/-- The site keeps these books. -/
structure Keeps (site : Site) (books : Books) : Prop where
  placed : FormsPlaced site.app
  storage : site.app.storage = {}
  outbox : site.app.outbox = []
  records : DatabaseManager.Holds site.app.context books.records
  documents : FIRFireStoreService.Represents site.server books.documents
  screens : Screens site.app site.queriedAt books
  gadgets : GadgetsKnown (· ∈ site.added.map Prod.fst) site.app
  usedDocuments : ∀ documentID ∈ books.documents.keys, documentID ∈ site.added.map Prod.fst
  usedRecords : ∀ objVehicle ∈ books.records, objVehicle.vehicleID ∈ site.added.map Prod.snd

/-- The events that make no entry. -/
def Event.Quiet : Event → Prop
  | .act (.clkSave _) _ => False
  | .act (.allVehiclesCommitDelete _) _ => False
  | .act (.historyCommitDelete _) _ => False
  | _ => True

/-- The entry that an event makes in the books. -/
inductive Entered (site : Site) (books : Books) : Event → Books → Prop where
  | quiet (e : Event) (hQuiet : e.Quiet) : Entered site books e books
  | add (uuid documentID : String) (objVehicle : AllVehiclesI)
      (hShows : site.app.Shows .addVehicle) (hID : objVehicle.vehicleID = uuid)
      (hFreshDocument : documentID ∉ site.added.map Prod.fst)
      (hFreshRecord : uuid ∉ site.added.map Prod.snd) :
      Entered site books (.act (.clkSave uuid) documentID) (books.add documentID objVehicle)
  | edit (uuid documentID id : String) (form : AddVehicleVC) (gadgetObj : Gadget)
      (objVehicle : AllVehiclesI) (hForm : site.app.editor = some form)
      (hGadget : form.gadgetToUpdate = some gadgetObj) (hID : gadgetObj.id = some id)
      (hVehicle : objVehicle.vehicleID = form.objVehicle.vehicleID) :
      Entered site books (.act (.clkSave uuid) documentID) (books.edit id objVehicle)
  | delete (row : Nat) (documentID id : String) (objVehicle : AllVehiclesI) (gadgetObj : Gadget)
      (hShows : site.app.Shows .allVehicles)
      (hVehicle : site.app.allVehiclesVC.arrAllVehicles[row]? = some objVehicle)
      (hGadget : site.app.allVehiclesVC.arrGadgets[row]? = some gadgetObj)
      (hID : gadgetObj.id = some id) :
      Entered site books (.act (.allVehiclesCommitDelete row) documentID)
        (books.delete id objVehicle.vehicleID)
  | deleteRecord (row : Nat) (documentID : String) (objVehicle : AllVehiclesI)
      (hVehicle : objVehicle ∈ books.records) :
      Entered site books (.act (.historyCommitDelete row) documentID)
        (books.deleteRecord objVehicle.vehicleID)

section Screens

variable {P : Platform} {app app' : App} {queriedAt : Date} {books : Books}

/-- A query of the app gives what the book lists. -/
theorem getAllRecords_listed {context : ManagedObjectContext} {storage : Storage}
    (h : DatabaseManager.Holds context books.records) (hStorage : storage = {})
    {predicate : Option Date → Bool} {arrVehicles : List AllVehiclesI}
    (hList : DatabaseManager.getAllRecords storage.list context
      (some (DatabaseManager.onServiceDueDate predicate)) = .ok arrVehicles) :
    arrVehicles = books.listed predicate := by
  rw [hStorage] at hList
  exact Except.ok.inj (hList.symm.trans (DatabaseManager.getAllRecords_of_holds h (some predicate)))

/-- When a tab comes on top, its list is fetched. -/
theorem screens_of_appear {tab : Tab} (hAppear : (viewWillAppear P tab).run app = .ok () app')
    (h : DatabaseManager.Holds app.context books.records) (hStorage : app.storage = {})
    (hTab : app.selectedTab = tab) (hEditor : app.editor = none)
    (hQueried : tab = .allVehicles → queriedAt = app.now) : Screens app' queriedAt books := by
  have hSame := viewWillAppear_refreshed hAppear
  have hNoEditor : ∀ form, app'.editor = some form →
      ∃ objVehicle ∈ books.records, objVehicle.vehicleID = form.objVehicle.vehicleID := by
    intro form hForm
    rw [hSame.editor, hEditor] at hForm
    cases hForm
  have hShows : ∀ shown, app'.Shows shown → shown = tab := fun shown hShown =>
    hShown.1.symm.trans (hSame.selectedTab.trans hTab)
  refine ⟨fun hDue => ?_, fun hHistory => ?_, hNoEditor⟩
  · obtain rfl := hShows _ hDue
    obtain ⟨arrVehicles, hList, rfl⟩ := AllVehiclesVC.viewWillAppear_of_ok hAppear
    rw [hQueried rfl]
    exact getAllRecords_listed h hStorage hList
  · obtain rfl := hShows _ hHistory
    obtain ⟨arrVehicles, hList, rfl⟩ := HistoryPresenter.getAllVehicles_eq_ok.mp hAppear
    intro objVehicle hVehicle
    exact (Books.mem_listed.mp (getAllRecords_listed h hStorage hList ▸ hVehicle)).1

end Screens

section Step

variable {P : Platform} {site site' : Site} {books books' : Books} {app : App} {action : Action}
  {documentID : String}

/-- What has to be checked after an action, before its requests reach the server. -/
theorem keeps_settle (queriedAt : Date) (hPlaced : FormsPlaced app) (hStorage : app.storage = {})
    (hRecords : DatabaseManager.Holds app.context books.records)
    (hDocuments : FIRFireStoreService.Represents
      (app.outbox.foldl (FirestoreWrite.apply documentID) site.server) books.documents)
    (hScreens : Screens app queriedAt books)
    (hQueried : (if Queries site.app action then app.now else site.queriedAt) = queriedAt)
    (hGadgets : GadgetsKnown (· ∈ site.added.map Prod.fst) app)
    (hUsedDocuments : ∀ id ∈ books.documents.keys,
      id ∈ (site.added ++ site.additions action documentID).map Prod.fst)
    (hUsedRecords : ∀ objVehicle ∈ books.records,
      objVehicle.vehicleID ∈ (site.added ++ site.additions action documentID).map Prod.snd) :
    Keeps (site.settle action documentID app) books where
  placed := ⟨hPlaced.addTab, hPlaced.editor⟩
  storage := hStorage
  outbox := rfl
  records := hRecords
  documents := hDocuments
  screens := by
    rw [← hQueried] at hScreens
    exact ⟨hScreens.due, hScreens.history, hScreens.editor⟩
  gadgets := by
    have hSame : GadgetsKnown (· ∈ site.added.map Prod.fst) (site.settle action documentID app).app :=
      hGadgets.of_eq rfl rfl
    refine hSame.mono fun id hID => ?_
    rw [settle, List.map_append]
    exact List.mem_append_left _ hID
  usedDocuments := hUsedDocuments
  usedRecords := hUsedRecords

theorem Keeps.usedDocuments_append (h : Keeps site books) {more : List (String × String)} :
    ∀ id ∈ books.documents.keys, id ∈ (site.added ++ more).map Prod.fst := by
  intro id hID
  rw [List.map_append]
  exact List.mem_append_left _ (h.usedDocuments id hID)

theorem Keeps.usedRecords_append (h : Keeps site books) {more : List (String × String)} :
    ∀ objVehicle ∈ books.records, objVehicle.vehicleID ∈ (site.added ++ more).map Prod.snd := by
  intro objVehicle hVehicle
  rw [List.map_append]
  exact List.mem_append_left _ (h.usedRecords objVehicle hVehicle)

/-- After an action that leaves the store alone and sends nothing, only the
screens have to be checked. -/
theorem Keeps.settle_quiet (h : Keeps site books) (queriedAt : Date) (hPlaced : FormsPlaced app)
    (hGadgets : GadgetsKnown (· ∈ site.added.map Prod.fst) app)
    (hContext : app.context = site.app.context) (hStorage : app.storage = site.app.storage)
    (hOutbox : app.outbox = site.app.outbox) (hScreens : Screens app queriedAt books)
    (hQueried : (if Queries site.app action then app.now else site.queriedAt) = queriedAt) :
    Keeps (site.settle action documentID app) books := by
  refine keeps_settle queriedAt hPlaced (hStorage.trans h.storage) ?_ ?_ hScreens hQueried hGadgets
    h.usedDocuments_append h.usedRecords_append
  · rw [hContext]
    exact h.records
  · rw [hOutbox, h.outbox]
    exact h.documents

/-- After an action that changes no screen either there is nothing to check. -/
theorem Keeps.settle_unseen (h : Keeps site books) (hPlaced : FormsPlaced app)
    (hGadgets : GadgetsKnown (· ∈ site.added.map Prod.fst) app)
    (hContext : app.context = site.app.context) (hStorage : app.storage = site.app.storage)
    (hOutbox : app.outbox = site.app.outbox)
    (hSelected : app.selectedTab = site.app.selectedTab) (hEditor : app.editor = site.app.editor)
    (hDue : app.allVehiclesVC.arrAllVehicles = site.app.allVehiclesVC.arrAllVehicles)
    (hHistory : app.historyVC.arrAllVehicles = site.app.historyVC.arrAllVehicles)
    (hQueries : ¬ Queries site.app action) : Keeps (site.settle action documentID app) books := by
  refine h.settle_quiet site.queriedAt hPlaced hGadgets hContext hStorage hOutbox ⟨?_, ?_, ?_⟩ (if_neg hQueries)
  · rintro ⟨hTab, hNone⟩
    rw [hDue]
    exact h.screens.due ⟨hSelected ▸ hTab, hEditor ▸ hNone⟩
  · rintro ⟨hTab, hNone⟩
    rw [hHistory]
    exact h.screens.history ⟨hSelected ▸ hTab, hEditor ▸ hNone⟩
  · rw [hEditor]
    exact h.screens.editor

/-- The one request of a deletion. -/
theorem Keeps.erase_settled (h : Keeps site books) {gadgetObj : Gadget} {id : String}
    (hID : gadgetObj.id = some id) :
    FIRFireStoreService.Represents
      ((site.app.outbox ++ FIRFireStoreService.delete gadgetObj).foldl (FirestoreWrite.apply documentID)
        site.server) (books.documents.erase id) := by
  rw [h.outbox, FIRFireStoreService.delete_eq hID]
  exact h.documents.erase id

/-- A deletion of a Due Services row is an entry in both books. -/
theorem Keeps.allVehiclesDelete (h : Keeps site books) {row : Nat} {objVehicle : AllVehiclesI}
    {gadgetObj : Gadget} {context : ManagedObjectContext} {success : Bool}
    {arrVehicles : List AllVehiclesI} (hShows : site.app.Shows .allVehicles)
    (hGadget : site.app.allVehiclesVC.arrGadgets[row]? = some gadgetObj)
    (hDelete : DatabaseManager.deleteRecord site.app.storage.write site.app.context objVehicle.vehicleID =
      .ok (context, [success]))
    (hList : DatabaseManager.getAllRecords site.app.storage.list context
      (some (DatabaseManager.onServiceDueDate (upcoming site.app.now))) = .ok arrVehicles)
    (hApp : app = { site.app with
      context := context
      outbox := site.app.outbox ++ FIRFireStoreService.delete gadgetObj
      pendingRequests := site.app.pendingRequests.remove [objVehicle.vehicleID]
      allVehiclesVC := AllVehiclesVC.allVehiclesReceives
        { site.app.allVehiclesVC with objVehicle := objVehicle } arrVehicles })
    (hPlaced : FormsPlaced app) (hGadgets : GadgetsKnown (· ∈ site.added.map Prod.fst) app) :
    ∃ id, gadgetObj.id = some id ∧
      Keeps (site.settle (.allVehiclesCommitDelete row) documentID app)
        (books.delete id objVehicle.vehicleID) := by
  obtain ⟨id, hID, _⟩ := h.gadgets.listed gadgetObj (List.mem_of_getElem? hGadget)
  rw [h.storage] at hDelete
  have hHolds := h.records.of_deleteRecord hDelete
  subst hApp
  refine ⟨id, hID, keeps_settle site.app.now hPlaced h.storage hHolds (h.erase_settled hID) ?_
    (if_pos trivial) hGadgets ?_ ?_⟩
  · refine ⟨fun _ => ?_, fun hHistory => ?_, fun form hForm => ?_⟩
    · exact getAllRecords_listed hHolds h.storage hList
    · cases hShows.1.symm.trans hHistory.1
    · cases hShows.2.symm.trans hForm
  · intro key hKey
    exact h.usedDocuments_append key (SortedMap.Map.mem_keys_erase.mp hKey).1
  · intro vehicle hVehicle
    exact h.usedRecords_append vehicle (List.mem_filter.mp hVehicle).1

/-- A deletion of a History row is an entry in the local book only. -/
theorem Keeps.historyDelete (h : Keeps site books) {row : Nat} {objVehicle : AllVehiclesI}
    {context : ManagedObjectContext} {success : Bool} {arrVehicles : List AllVehiclesI}
    (hShows : site.app.Shows .history)
    (hDelete : DatabaseManager.deleteRecord site.app.storage.write site.app.context objVehicle.vehicleID =
      .ok (context, [success]))
    (hList : DatabaseManager.getAllRecords site.app.storage.list context
      (some (DatabaseManager.onServiceDueDate (pastDue site.app.now))) = .ok arrVehicles)
    (hApp : app = { site.app with
      context := context
      historyVC := HistoryVC.allVehiclesReceives
        { site.app.historyVC with objVehicle := objVehicle } arrVehicles })
    (hPlaced : FormsPlaced app) (hGadgets : GadgetsKnown (· ∈ site.added.map Prod.fst) app) :
    Keeps (site.settle (.historyCommitDelete row) documentID app)
      (books.deleteRecord objVehicle.vehicleID) := by
  rw [h.storage] at hDelete
  have hHolds := h.records.of_deleteRecord hDelete
  subst hApp
  refine keeps_settle site.queriedAt hPlaced h.storage hHolds ?_ ?_ (if_neg id) hGadgets
    h.usedDocuments_append ?_
  · show FIRFireStoreService.Represents (site.app.outbox.foldl _ site.server) books.documents
    rw [h.outbox]
    exact h.documents
  · refine ⟨fun hDue => ?_, fun _ vehicle hVehicle => ?_, fun form hForm => ?_⟩
    · cases hShows.1.symm.trans hDue.1
    · have hListed : arrVehicles =
          (books.deleteRecord objVehicle.vehicleID).listed (pastDue site.app.now) :=
        getAllRecords_listed hHolds h.storage hList
      exact (Books.mem_listed.mp (hListed ▸ hVehicle)).1
    · cases hShows.2.symm.trans hForm
  · intro vehicle hVehicle
    exact h.usedRecords_append vehicle (List.mem_filter.mp hVehicle).1

/-- A save from the Add tab is a new entry in both books, under the two fresh ids. -/
theorem Keeps.saveAdd (h : Keeps site books) {uuid text : String} {objVehicle : AllVehiclesI}
    {context : ManagedObjectContext} {success : Bool} {gadget : Gadget}
    (hAdmits : site.Admits (.clkSave uuid) documentID) (hShows : site.app.Shows .addVehicle)
    (hRule : AppSharedInstance.getServiceDueDate P (site.app.addVehicleVC.populate P uuid) =
      .ok (objVehicle, text))
    (hAdd : DatabaseManager.addRecord site.app.storage.write site.app.context objVehicle =
      .ok (context, [success]))
    (hGadget : gadgetInfo objVehicle = .ok gadget)
    (hPlaced : FormsPlaced app) (hGadgets : GadgetsKnown (· ∈ site.added.map Prod.fst) app)
    (hContext : app.context = context) (hStorage : app.storage = site.app.storage)
    (hOutbox : app.outbox = site.app.outbox ++ FIRFireStoreService.create gadget)
    (hSelected : app.selectedTab = site.app.selectedTab) (hEditor : app.editor = site.app.editor) :
    objVehicle.vehicleID = uuid ∧
      Keeps (site.settle (.clkSave uuid) documentID app) (books.add documentID objVehicle) := by
  obtain ⟨hFilled, hDated, hID⟩ := filled_of_rule hRule
  rw [if_neg (Bool.eq_false_iff.mp h.placed.addTab)] at hID
  have hActive := activeForm_eq_addTab.mpr hShows
  obtain ⟨hNewDocument, hNewRecord⟩ := hAdmits hActive
  have hFresh : ∀ old ∈ books.records, old.vehicleID ≠ objVehicle.vehicleID := by
    intro old hOld hSame
    exact hNewRecord (hID ▸ hSame ▸ h.usedRecords old hOld)
  have hKey : documentID ∉ site.server.keys := by
    rw [h.documents.keys_eq]
    exact fun hUsed => hNewDocument (h.usedDocuments documentID hUsed)
  have hAdded : site.additions (.clkSave uuid) documentID = [(documentID, uuid)] := if_pos hActive
  rw [h.storage] at hAdd
  have hHolds := h.records.of_addRecord hFilled.vehicleType hDated hFresh hAdd
  obtain rfl := gadgetInfo_eq_ofVehicle hFilled hGadget
  refine ⟨hID, keeps_settle _ hPlaced (hStorage.trans h.storage) ?_ ?_ ?_ rfl hGadgets ?_ ?_⟩
  · rw [hContext]
    exact hHolds
  · rw [hOutbox, h.outbox]
    show FIRFireStoreService.Represents
      ((FIRFireStoreService.Call.create (Gadget.ofVehicle objVehicle) documentID).perform site.server) _
    exact FIRFireStoreService.Call.perform_represents h.documents
      ⟨Gadget.ofVehicle_finite objVehicle, hKey⟩
  · have hTab := hSelected.trans hShows.1
    refine ⟨fun hDue => ?_, fun hHistory => ?_, fun form hForm => ?_⟩
    · cases hTab.symm.trans hDue.1
    · cases hTab.symm.trans hHistory.1
    · cases (hEditor.trans hShows.2).symm.trans hForm
  · intro key hMem
    rw [hAdded, List.map_append, List.mem_append]
    rcases SortedMap.Map.mem_keys_set.mp hMem with rfl | hOld
    · exact Or.inr (List.mem_singleton_self _)
    · exact Or.inl (h.usedDocuments key hOld)
  · intro vehicle hVehicle
    rw [hAdded, List.map_append, List.mem_append]
    rcases List.mem_append.mp hVehicle with hOld | hNew
    · exact Or.inl (h.usedRecords vehicle hOld)
    · obtain rfl := List.mem_singleton.mp hNew
      exact Or.inr (List.mem_singleton.mpr hID)

/-- A save from an editor overwrites an entry in each book. -/
theorem Keeps.saveEdit (h : Keeps site books) {uuid text : String} {form : AddVehicleVC}
    {objVehicle : AllVehiclesI} {gadgetObj : Gadget} {context : ManagedObjectContext} {success : Bool}
    {gadget : Gadget} {before : App} (hForm : site.app.editor = some form)
    (hRule : AppSharedInstance.getServiceDueDate P (form.populate P uuid) = .ok (objVehicle, text))
    (hGadget : form.gadgetToUpdate = some gadgetObj)
    (hEdit : DatabaseManager.editRecord site.app.storage.write site.app.context objVehicle =
      .ok (context, [success]))
    (hUpdate : gadgetObjToUpdate gadgetObj objVehicle = .ok gadget)
    (hAppear : (viewWillAppear P site.app.selectedTab).run before = .ok () app)
    (hPlaced : FormsPlaced app) (hGadgets : GadgetsKnown (· ∈ site.added.map Prod.fst) app)
    (hContext : before.context = context) (hStorage : before.storage = site.app.storage)
    (hOutbox : before.outbox = site.app.outbox ++ FIRFireStoreService.update gadget)
    (hSelected : before.selectedTab = site.app.selectedTab) (hNone : before.editor = none) :
    ∃ id, gadgetObj.id = some id ∧ objVehicle.vehicleID = form.objVehicle.vehicleID ∧
      Keeps (site.settle (.clkSave uuid) documentID app) (books.edit id objVehicle) := by
  obtain ⟨hFilled, hDated, hVehicleID⟩ := filled_of_rule hRule
  rw [if_pos (h.placed.editor form hForm)] at hVehicleID
  obtain ⟨id, hID, hUsed⟩ := h.gadgets.edited form hForm gadgetObj hGadget
  obtain ⟨shown, hShown, hShownID⟩ := h.screens.editor form hForm
  have hSame := viewWillAppear_refreshed hAppear
  rw [h.storage] at hEdit
  have hStored : (DatabaseManager.firstUnder site.app.context objVehicle.vehicleID).isSome := by
    rw [hVehicleID, ← hShownID]
    exact h.records.firstUnder_isSome hShown
  have hHolds := h.records.of_editRecord hFilled.vehicleType hDated hStored hEdit
  obtain rfl := gadgetObjToUpdate_eq hFilled hID hUpdate
  have hHoldsBefore : DatabaseManager.Holds before.context (books.edit id objVehicle).records := by
    rw [hContext]
    exact hHolds
  have hStorageBefore := hStorage.trans h.storage
  refine ⟨id, hID, hVehicleID, keeps_settle _ hPlaced (hSame.storage.trans hStorageBefore) ?_ ?_
    (screens_of_appear hAppear hHoldsBefore hStorageBefore hSelected hNone fun hTab => ?_)
    rfl hGadgets ?_ ?_⟩
  · rw [hSame.context]
    exact hHoldsBefore
  · have hFinite := Gadget.identified_ofVehicle_finite objVehicle id
    rw [hSame.outbox, hOutbox, h.outbox, FIRFireStoreService.update_eq hFinite rfl]
    exact h.documents.set hFinite rfl
  · have hQueries : Queries site.app (.clkSave uuid) := ⟨by rw [hForm]; rfl, hTab⟩
    rw [if_pos hQueries, hSame.now]
  · intro key hKey
    rw [List.map_append]
    rcases SortedMap.Map.mem_keys_set.mp hKey with rfl | hOld
    · exact List.mem_append_left _ hUsed
    · exact List.mem_append_left _ (h.usedDocuments key hOld)
  · intro vehicle hVehicle
    rcases (KeyedList.mem_replace hShown (hShownID.trans hVehicleID.symm)).mp hVehicle with
      rfl | ⟨hOld, _⟩
    · rw [hVehicleID, ← hShownID]
      exact h.usedRecords_append shown hShown
    · exact h.usedRecords_append vehicle hOld

/-- A snapshot brings documents of the book. -/
theorem Keeps.deliver (h : Keeps site books)
    (hApp : site.app.step P (.snapshot site.server.entries) = some app) :
    Keeps { site with app := app } books := by
  have hPlaced := h.placed.step hApp
  have hBrings : (Action.snapshot site.server.entries).Brings (· ∈ site.added.map Prod.fst) := by
    intro document hDocument
    apply h.usedDocuments
    rw [← h.documents.keys_eq]
    exact List.mem_map_of_mem hDocument
  have hGadgets := h.gadgets.step h.placed hBrings hApp
  cases step_stepped h.placed hApp with
  | snapshot documents =>
      have hList := site.app.allVehiclesVC.snapshot_arrAllVehicles site.server.entries
      exact ⟨hPlaced, h.storage, h.outbox, h.records, h.documents,
        ⟨fun hDue => hList.trans (h.screens.due hDue), h.screens.history, h.screens.editor⟩,
        hGadgets, h.usedDocuments, h.usedRecords⟩

/-- An editor that comes up shows a record of the book. -/
theorem screens_of_editor {form : AddVehicleVC} {objVehicle : AllVehiclesI}
    (hForm : app.editor = some form) (hVehicle : objVehicle ∈ books.records)
    (hID : objVehicle.vehicleID = form.objVehicle.vehicleID) (queriedAt : Date) :
    Screens app queriedAt books := by
  refine ⟨fun hDue => ?_, fun hHistory => ?_, fun other hOther => ?_⟩
  · cases hForm.symm.trans hDue.2
  · cases hForm.symm.trans hHistory.2
  · obtain rfl := Option.some.inj (hForm.symm.trans hOther)
    exact ⟨objVehicle, hVehicle, hID⟩

/-- An action makes the entry that belongs to it, and the books are kept. -/
theorem Keeps.act (h : Keeps site books) (hAdmits : site.Admits action documentID)
    (hApp : site.app.step P action = some app) :
    ∃ books', Entered site books (.act action documentID) books' ∧
      Keeps (site.settle action documentID app) books' := by
  have hPlaced := h.placed.step hApp
  have hBrings : action.Brings (· ∈ site.added.map Prod.fst) := by
    cases action with
    | snapshot documents => exact hAdmits.elim
    | _ => trivial
  have hGadgets := h.gadgets.step h.placed hBrings hApp
  obtain ⟨hDue, hHistory, hEditor⟩ := h.screens
  cases step_stepped h.placed hApp with
  | storage storage => exact hAdmits.elim
  | snapshot documents => exact hAdmits.elim
  | clock now hLater =>
      exact ⟨books, .quiet _ trivial, h.settle_unseen hPlaced hGadgets rfl rfl rfl rfl rfl rfl rfl id⟩
  | selectTab tab _ hNone hAppear =>
      have hSame := viewWillAppear_refreshed hAppear
      refine ⟨books, .quiet _ trivial, h.settle_quiet _ hPlaced hGadgets hSame.context hSame.storage
        hSame.outbox (screens_of_appear hAppear h.records h.storage rfl hNone fun hTab => ?_) rfl⟩
      have hQueries : Queries site.app (.selectTab tab) := hTab
      rw [if_pos hQueries, hSame.now]
  | noCell row hEmpty =>
      exact ⟨books, .quiet _ trivial, h.settle_unseen hPlaced hGadgets rfl rfl rfl rfl rfl rfl rfl id⟩
  | allVehiclesCell row gadgetObj hGadget =>
      exact ⟨books, .quiet _ trivial, h.settle_unseen hPlaced hGadgets rfl rfl rfl rfl rfl rfl rfl id⟩
  | historyCell row vehicleObj hVehicle =>
      exact ⟨books, .quiet _ trivial, h.settle_unseen hPlaced hGadgets rfl rfl rfl rfl rfl rfl rfl id⟩
  | allVehiclesDelete row objVehicle gadgetObj context success arrVehicles hShows hVehicle hGadget hDelete
      hList =>
      obtain ⟨id, hID, hKeeps⟩ :=
        h.allVehiclesDelete hShows hGadget hDelete hList rfl hPlaced hGadgets
      exact ⟨_, .delete row documentID id objVehicle gadgetObj hShows hVehicle hGadget hID, hKeeps⟩
  | allVehiclesSelect row vehicleObj gadgetObj form hShows hVehicle hGadget hAppear =>
      have hListed : vehicleObj ∈ books.listed (upcoming site.queriedAt) :=
        hDue hShows ▸ List.mem_of_getElem? hVehicle
      exact ⟨books, .quiet _ trivial, h.settle_quiet _ hPlaced hGadgets rfl rfl rfl
        (screens_of_editor rfl (Books.mem_listed.mp hListed).1
          (AddVehicleVC.sameRecord_appear hAppear rfl).vehicleID.symm _) (if_neg id)⟩
  | historyDelete row objVehicle context success arrVehicles hShows hVehicle hDelete hList =>
      exact ⟨_, .deleteRecord row documentID objVehicle (hHistory hShows _ (List.mem_of_getElem? hVehicle)),
        h.historyDelete hShows hDelete hList rfl hPlaced hGadgets⟩
  | historySelect row vehicleObj form hShows hVehicle hAppear =>
      exact ⟨books, .quiet _ trivial, h.settle_quiet _ hPlaced hGadgets rfl rfl rfl
        (screens_of_editor rfl (hHistory hShows _ (List.mem_of_getElem? hVehicle))
          (AddVehicleVC.sameRecord_appear hAppear rfl).vehicleID.symm _) (if_neg id)⟩
  | form slot e form form' hForm hHandle =>
      cases slot with
      | addTab =>
          exact ⟨books, .quiet _ trivial, h.settle_unseen hPlaced hGadgets rfl rfl rfl rfl rfl rfl rfl id⟩
      | editor =>
          obtain ⟨objVehicle, hVehicle, hID⟩ := hEditor form hForm
          exact ⟨books, .quiet _ trivial, h.settle_quiet _ hPlaced hGadgets rfl rfl rfl
            (screens_of_editor rfl hVehicle
              (hID.trans (AddVehicleVC.handle_sameRecord hHandle).vehicleID.symm) _) (if_neg id)⟩
  | saveAdd uuid objVehicle text context success gadget due request form hShows hRule hAdd hGadget _ _ _ =>
      obtain ⟨hID, hKeeps⟩ := h.saveAdd hAdmits hShows hRule hAdd hGadget hPlaced hGadgets rfl rfl rfl rfl rfl
      obtain ⟨hFreshDocument, hFreshRecord⟩ := hAdmits (activeForm_eq_addTab.mpr hShows)
      exact ⟨_, .add uuid documentID objVehicle hShows hID hFreshDocument hFreshRecord, hKeeps⟩
  | saveEdit uuid form objVehicle text gadgetObj context success gadget due request _ hForm hRule hGadget
      hEdit hUpdate _ _ hAppear =>
      obtain ⟨id, hID, hVehicle, hKeeps⟩ :=
        h.saveEdit hForm hRule hGadget hEdit hUpdate hAppear hPlaced hGadgets rfl rfl rfl rfl rfl
      exact ⟨_, .edit uuid documentID id form gadgetObj objVehicle hForm hGadget hID hVehicle, hKeeps⟩
  | back form _ hForm hAppear =>
      have hSame := viewWillAppear_refreshed hAppear
      refine ⟨books, .quiet _ trivial, h.settle_quiet _ hPlaced hGadgets hSame.context hSame.storage
        hSame.outbox (screens_of_appear hAppear h.records h.storage rfl rfl fun hTab => ?_) rfl⟩
      have hQueries : Queries site.app .clkBack := hTab
      rw [if_pos hQueries, hSame.now]
  | relaunch context _ hSave hAppear =>
      have hSame := viewWillAppear_refreshed hAppear
      have hContext := h.records.of_saveContext hSave
      have hRecords : DatabaseManager.Holds context.loadPersistentStores books.records := hContext ▸ h.records
      refine ⟨books, .quiet _ trivial, h.settle_quiet _ hPlaced hGadgets (hSame.context.trans hContext)
        hSame.storage hSame.outbox
        (screens_of_appear hAppear hRecords h.storage rfl rfl fun _ => ?_) rfl⟩
      have hQueries : Queries site.app .relaunch := trivial
      rw [if_pos hQueries, hSame.now]

/-- One step of the system is at most one entry in the books. -/
theorem Keeps.step (h : Keeps site books) {e : Event} (hStep : site.step P e = some site') :
    ∃ books', Entered site books e books' ∧ Keeps site' books' := by
  cases e with
  | act action documentID =>
      obtain ⟨hAdmits, app, hApp, rfl⟩ := step_act.mp hStep
      exact h.act hAdmits hApp
  | deliver =>
      obtain ⟨app, hApp, rfl⟩ := Option.map_eq_some_iff.mp hStep
      exact ⟨books, .quiet _ trivial, h.deliver hApp⟩

/-- A fresh installation keeps empty books. -/
theorem keeps_installed (now : Date) : Keeps (installed now) ⟨[], .empty⟩ where
  placed := formsPlaced_installed now
  storage := rfl
  outbox := rfl
  records := DatabaseManager.holds_empty
  documents := ⟨rfl, fun _ hNone => (by cases hNone), fun _ hNone => (by cases hNone)⟩
  screens := ⟨fun _ => rfl, fun hHistory => (by cases hHistory.1), fun _ hForm => (by cases hForm)⟩
  gadgets := gadgetsKnown_installed now
  usedDocuments := fun _ hNone => by cases hNone
  usedRecords := fun _ hNone => by cases hNone

end Step

end Site

end ServiceBook

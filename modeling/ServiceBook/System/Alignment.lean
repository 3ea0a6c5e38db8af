import ServiceBook.General.StableSort
import ServiceBook.System.Bookkeeping
import ServiceBook.Utilities.UTC

/-! The rows of the Due Services list. A row number indexes the vehicles, which
are filtered and sorted by due date, and the gadgets, which are neither. Both
indexes lead to the same vehicle only if the documents happen to have their
ids in the order of the due dates. -/
namespace ServiceBook

namespace Site

/-- The list is on the screen, and the latest snapshot has been delivered. -/
def Settled (site : Site) : Prop :=
  site.app.Shows .allVehicles ∧
    FIRFireStoreService.read site.server.entries = some site.app.allVehiclesVC.arrGadgets

instance (site : Site) : Decidable site.Settled := by
  unfold Settled
  infer_instance

/-- The vehicle and the gadget come from the same addition. -/
def Linked (site : Site) (objVehicle : AllVehiclesI) (gadgetObj : Gadget) : Prop :=
  ∃ id, gadgetObj.id = some id ∧ (id, objVehicle.vehicleID) ∈ site.added

/-- Every row has a local record, and it is the one whose document the row shows. -/
def Aligned (site : Site) : Prop :=
  ∀ (row : Nat) (gadgetObj : Gadget), site.app.allVehiclesVC.arrGadgets[row]? = some gadgetObj →
    ∃ objVehicle, site.app.allVehiclesVC.arrAllVehicles[row]? = some objVehicle ∧
      site.Linked objVehicle gadgetObj ∧
      ∃ obj ∈ site.app.context.objects.rows, DatabaseManager.allVehicleOf obj.value = .ok objVehicle

/-- The record at a position of the store, with the document of its addition. -/
def StoredAs (site : Site) (position : Nat) (documentID : String) (vehicle : Vehicle) : Prop :=
  site.app.context.objects.values[position]? = some vehicle ∧
    ∃ vehicleID, vehicle.vehicleID = some vehicleID ∧ (documentID, vehicleID) ∈ site.added

/-- No service was past due when the list was fetched, and of two records the
one with the smaller document id is due first, or was stored first. -/
structure InOrder (site : Site) : Prop where
  upcoming : ∀ vehicle ∈ site.app.context.objects.values,
    upcoming site.queriedAt vehicle.serviceDueDate = true
  ordered : ∀ i j documentID documentID' vehicle vehicle',
    site.StoredAs i documentID vehicle → site.StoredAs j documentID' vehicle' → documentID < documentID' →
      dueDateLE vehicle.serviceDueDate vehicle'.serviceDueDate ∧
        (dueDateLE vehicle'.serviceDueDate vehicle.serviceDueDate → i < j)

def RowLinked (site : Site) (row : Nat) : Prop :=
  ∀ objVehicle gadgetObj, site.app.allVehiclesVC.arrAllVehicles[row]? = some objVehicle →
    site.app.allVehiclesVC.arrGadgets[row]? = some gadgetObj → site.Linked objVehicle gadgetObj

/-- Nothing is deleted from the History list, and before the latest snapshot
has been delivered only rows are touched that are linked. -/
def Event.Careful (site : Site) : Event → Prop
  | .act (.historyCommitDelete _) _ => False
  | .act (.allVehiclesCommitDelete row) _ => ¬ site.Settled → site.RowLinked row
  | .act (.allVehiclesDidSelectRow row) _ => ¬ site.Settled → site.RowLinked row
  | _ => True

/-- Additions and the entries that are left of them: of each addition either
both entries are there or neither, and an editor holds both. -/
structure Links (site : Site) (books : Books) : Prop where
  documents : KeyedList.Distinct Prod.fst site.added
  records : KeyedList.Distinct Prod.snd site.added
  paired : ∀ link ∈ site.added,
    link.1 ∈ books.documents.keys ↔ link.2 ∈ books.records.map AllVehiclesI.vehicleID
  editor : ∀ form, site.app.editor = some form → ∀ gadgetObj ∈ form.gadgetToUpdate,
    site.Linked form.objVehicle gadgetObj

section Links

variable {P : Platform} {site site' : Site} {books books' : Books} {e : Event}

/-- A row that is touched with care is linked, provided a settled list is aligned. -/
theorem rowLinked_of_careful {row : Nat} (hAligned : site.Settled → site.Aligned)
    (hCareful : ¬ site.Settled → site.RowLinked row) : site.RowLinked row := by
  by_cases hSettled : site.Settled
  · intro objVehicle gadgetObj hVehicle hGadget
    obtain ⟨objVehicle', hVehicle', hLinked, _⟩ := hAligned hSettled row gadgetObj hGadget
    obtain rfl := Option.some.inj (hVehicle.symm.trans hVehicle')
    exact hLinked
  · exact hCareful hSettled

/-- The editor stays linked. -/
theorem Links.editor_step (hLinks : Links site books) (hPlaced : FormsPlaced site.app)
    (hAligned : site.Settled → site.Aligned) (hCareful : e.Careful site)
    (hStep : site.step P e = some site') :
    ∀ form, site'.app.editor = some form → ∀ gadgetObj ∈ form.gadgetToUpdate,
      site'.Linked form.objVehicle gadgetObj := by
  intro form' hForm' gadgetObj hGadget'
  cases e with
  | deliver =>
      obtain ⟨app, hApp, rfl⟩ := Option.map_eq_some_iff.mp hStep
      rcases editor_origin hPlaced hApp hForm' hGadget' with
        ⟨form, hForm, hGadget, hSame⟩ | ⟨row, objVehicle, hAction, _⟩
      · obtain ⟨id, hID, hLink⟩ := hLinks.editor form hForm gadgetObj hGadget
        exact ⟨id, hID, hSame ▸ hLink⟩
      · cases hAction
  | act action documentID =>
      obtain ⟨_, app, hApp, rfl⟩ := step_act.mp hStep
      have hMono : ∀ link ∈ site.added, link ∈ (site.settle action documentID app).added :=
        fun link hLink => List.mem_append_left _ hLink
      rcases editor_origin hPlaced hApp hForm' hGadget' with
        ⟨form, hForm, hGadget, hSame⟩ | ⟨row, objVehicle, rfl, hVehicle, hGadget, hSame⟩
      · obtain ⟨id, hID, hLink⟩ := hLinks.editor form hForm gadgetObj hGadget
        exact ⟨id, hID, hMono _ (hSame ▸ hLink)⟩
      · obtain ⟨id, hID, hLink⟩ :=
          rowLinked_of_careful hAligned hCareful objVehicle gadgetObj hVehicle hGadget
        exact ⟨id, hID, hMono _ (hSame ▸ hLink)⟩

/-- Both entries of a new addition are there, and the others are as before. -/
theorem Links.add (h : Links site books) {documentID uuid : String} {objVehicle : AllVehiclesI}
    (hID : objVehicle.vehicleID = uuid) (hFreshDocument : documentID ∉ site.added.map Prod.fst)
    (hFreshRecord : uuid ∉ site.added.map Prod.snd)
    (hAdded : site'.added = site.added ++ [(documentID, uuid)])
    (hEditor : ∀ form, site'.app.editor = some form → ∀ gadgetObj ∈ form.gadgetToUpdate,
      site'.Linked form.objVehicle gadgetObj) : Links site' (books.add documentID objVehicle) := by
  refine ⟨?_, ?_, ?_, hEditor⟩
  · rw [hAdded]
    exact h.documents.append_new fun link hLink hSame =>
      hFreshDocument (List.mem_map.mpr ⟨link, hLink, hSame⟩)
  · rw [hAdded]
    exact h.records.append_new fun link hLink hSame =>
      hFreshRecord (List.mem_map.mpr ⟨link, hLink, hSame⟩)
  · intro link hLink
    rw [hAdded] at hLink
    unfold Books.add
    rw [SortedMap.Map.mem_keys_set, List.map_append, List.mem_append]
    rcases List.mem_append.mp hLink with hOld | hNew
    · have hDocument : link.1 ≠ documentID := fun hSame =>
        hFreshDocument (hSame ▸ List.mem_map_of_mem hOld)
      have hRecord : link.2 ∉ [objVehicle].map AllVehiclesI.vehicleID := by
        intro hSame
        rw [List.map_singleton, List.mem_singleton, hID] at hSame
        exact hFreshRecord (hSame ▸ List.mem_map_of_mem hOld)
      rw [h.paired link hOld]
      simp only [hDocument, hRecord, false_or, or_false]
    · obtain rfl := List.mem_singleton.mp hNew
      exact iff_of_true (Or.inl rfl) (Or.inr (List.mem_singleton.mpr hID.symm))

/-- An edit through a link keeps both entries. -/
theorem Links.edit (h : Links site books) {id : String} {objVehicle : AllVehiclesI}
    (hLink : (id, objVehicle.vehicleID) ∈ site.added)
    (hPresent : objVehicle.vehicleID ∈ books.records.map AllVehiclesI.vehicleID)
    (hAdded : site'.added = site.added)
    (hEditor : ∀ form, site'.app.editor = some form → ∀ gadgetObj ∈ form.gadgetToUpdate,
      site'.Linked form.objVehicle gadgetObj) : Links site' (books.edit id objVehicle) := by
  have hKey := (h.paired _ hLink).mpr hPresent
  refine ⟨hAdded ▸ h.documents, hAdded ▸ h.records, ?_, hEditor⟩
  intro link hMem
  rw [hAdded] at hMem
  unfold Books.edit
  rw [SortedMap.Map.mem_keys_set, KeyedList.map_key_replace, ← h.paired link hMem]
  constructor
  · intro hEither
    rcases hEither with hSame | hOld
    · exact hSame ▸ hKey
    · exact hOld
  · exact Or.inr

/-- A deletion through a link takes both entries away. -/
theorem Links.delete (h : Links site books) {id vehicleID : String} (hLink : (id, vehicleID) ∈ site.added)
    (hAdded : site'.added = site.added)
    (hEditor : ∀ form, site'.app.editor = some form → ∀ gadgetObj ∈ form.gadgetToUpdate,
      site'.Linked form.objVehicle gadgetObj) : Links site' (books.delete id vehicleID) := by
  refine ⟨hAdded ▸ h.documents, hAdded ▸ h.records, ?_, hEditor⟩
  intro link hMem
  rw [hAdded] at hMem
  have hIDs : link.2 ∈ (KeyedList.remove AllVehiclesI.vehicleID books.records vehicleID).map
        AllVehiclesI.vehicleID ↔
      link.2 ∈ books.records.map AllVehiclesI.vehicleID ∧ link.2 ≠ vehicleID := by
    simp only [KeyedList.remove, List.mem_map, List.mem_filter, decide_eq_true_eq]
    constructor
    · rintro ⟨objVehicle, ⟨hVehicle, hOther⟩, hSame⟩
      exact ⟨⟨objVehicle, hVehicle, hSame⟩, hSame ▸ hOther⟩
    · rintro ⟨⟨objVehicle, hVehicle, hSame⟩, hOther⟩
      exact ⟨objVehicle, ⟨hVehicle, hSame ▸ hOther⟩, hSame⟩
  have hSame : link.1 = id ↔ link.2 = vehicleID := by
    constructor
    · intro hFirst
      rw [h.documents.eq_of_key_eq hMem hLink hFirst]
    · intro hSecond
      rw [h.records.eq_of_key_eq hMem hLink hSecond]
  unfold Books.delete
  rw [SortedMap.Map.mem_keys_erase, hIDs, h.paired link hMem, ne_eq, ne_eq, hSame]

/-- One careful step keeps the links. -/
theorem Links.step (hKeeps : Keeps site books) (h : Links site books)
    (hAligned : site.Settled → site.Aligned) (hCareful : e.Careful site)
    (hStep : site.step P e = some site') :
    ∃ books', Keeps site' books' ∧ Links site' books' := by
  obtain ⟨books', hEntered, hNext⟩ := hKeeps.step hStep
  have hEditor := h.editor_step hKeeps.placed hAligned hCareful hStep
  refine ⟨books', hNext, ?_⟩
  cases hEntered with
  | quiet _ hQuiet =>
      have hAdded : site'.added = site.added := by
        cases e with
        | deliver =>
            obtain ⟨app, _, rfl⟩ := Option.map_eq_some_iff.mp hStep
            rfl
        | act action documentID =>
            obtain ⟨_, app, _, rfl⟩ := step_act.mp hStep
            cases action with
            | clkSave uuid => exact hQuiet.elim
            | _ => exact List.append_nil _
      exact ⟨hAdded ▸ h.documents, hAdded ▸ h.records, hAdded ▸ h.paired, hEditor⟩
  | add uuid documentID objVehicle hShows hID hFreshDocument hFreshRecord =>
      obtain ⟨_, app, _, rfl⟩ := step_act.mp hStep
      refine h.add hID hFreshDocument hFreshRecord ?_ hEditor
      exact congrArg (site.added ++ ·) (if_pos (activeForm_eq_addTab.mpr hShows))
  | edit uuid documentID id form gadgetObj objVehicle hForm hGadget hID hVehicle =>
      obtain ⟨_, app, _, rfl⟩ := step_act.mp hStep
      obtain ⟨id', hID', hLink⟩ := h.editor form hForm gadgetObj hGadget
      obtain rfl := Option.some.inj (hID.symm.trans hID')
      obtain ⟨shown, hShown, hShownID⟩ := hKeeps.screens.editor form hForm
      have hActive : site.app.activeForm ≠ some .addTab := by
        rw [activeForm_eq_editor.mpr (by rw [hForm]; rfl)]
        decide
      refine h.edit (hVehicle ▸ hLink) (List.mem_map.mpr ⟨shown, hShown, hShownID.trans hVehicle.symm⟩)
        ?_ hEditor
      rw [settle, additions, if_neg hActive, List.append_nil]
  | delete row documentID id objVehicle gadgetObj hShows hVehicle hGadget hID =>
      obtain ⟨_, app, _, rfl⟩ := step_act.mp hStep
      obtain ⟨id', hID', hLink⟩ :=
        rowLinked_of_careful hAligned hCareful objVehicle gadgetObj hVehicle hGadget
      obtain rfl := Option.some.inj (hID.symm.trans hID')
      exact h.delete hLink (List.append_nil _) hEditor
  | deleteRecord row documentID objVehicle hVehicle => exact hCareful.elim

end Links

section Order

variable {site : Site} {books : Books} {recordOf : String → AllVehiclesI}

/-- Every document has the record of its addition. -/
theorem Links.exists_record (hKeeps : Keeps site books) (h : Links site books) :
    ∃ recordOf : String → AllVehiclesI, ∀ documentID ∈ books.documents.keys,
      recordOf documentID ∈ books.records ∧ (documentID, (recordOf documentID).vehicleID) ∈ site.added := by
  have hOne : ∀ documentID, ∃ objVehicle : AllVehiclesI, documentID ∈ books.documents.keys →
      objVehicle ∈ books.records ∧ (documentID, objVehicle.vehicleID) ∈ site.added := by
    intro documentID
    by_cases hKey : documentID ∈ books.documents.keys
    · obtain ⟨link, hLink, rfl⟩ := List.mem_map.mp (hKeeps.usedDocuments documentID hKey)
      obtain ⟨objVehicle, hVehicle, hID⟩ := List.mem_map.mp ((h.paired link hLink).mp hKey)
      exact ⟨objVehicle, fun _ => ⟨hVehicle, by rw [hID]; exact hLink⟩⟩
    · exact ⟨{}, fun hUsed => absurd hUsed hKey⟩
  choose recordOf hRecordOf using hOne
  exact ⟨recordOf, hRecordOf⟩

/-- No document has two. -/
theorem Links.record_unique (hKeeps : Keeps site books) (h : Links site books) {documentID : String}
    {objVehicle objVehicle' : AllVehiclesI} (hVehicle : objVehicle ∈ books.records)
    (hVehicle' : objVehicle' ∈ books.records) (hLink : (documentID, objVehicle.vehicleID) ∈ site.added)
    (hLink' : (documentID, objVehicle'.vehicleID) ∈ site.added) : objVehicle = objVehicle' := by
  have hSame := h.documents.eq_of_key_eq hLink hLink' rfl
  exact hKeeps.records.distinct.eq_of_key_eq hVehicle hVehicle' (Prod.mk.inj hSame).2

/-- In the order of their documents, the records are all there. -/
theorem Links.records_perm (hKeeps : Keeps site books) (h : Links site books)
    (hRecordOf : ∀ documentID ∈ books.documents.keys,
      recordOf documentID ∈ books.records ∧ (documentID, (recordOf documentID).vehicleID) ∈ site.added) :
    (books.documents.keys.map recordOf).Perm books.records := by
  have hInjective : ∀ d ∈ books.documents.keys, ∀ d' ∈ books.documents.keys,
      recordOf d = recordOf d' → d = d' := by
    intro d hd d' hd' hSame
    have hLink := (hRecordOf d hd).2
    rw [hSame] at hLink
    exact (Prod.mk.inj (h.records.eq_of_key_eq hLink (hRecordOf d' hd').2 rfl)).1
  refine (List.perm_ext_iff_of_nodup (List.Nodup.map_on hInjective books.documents.distinct)
    hKeeps.records.distinct.nodup).mpr fun objVehicle => ?_
  rw [List.mem_map]
  constructor
  · rintro ⟨d, hd, hSame⟩
    exact hSame ▸ (hRecordOf d hd).1
  · intro hVehicle
    obtain ⟨link, hLink, hID⟩ := List.mem_map.mp (hKeeps.usedRecords objVehicle hVehicle)
    have hKey : link.1 ∈ books.documents.keys :=
      (h.paired link hLink).mpr (List.mem_map.mpr ⟨objVehicle, hVehicle, hID.symm⟩)
    obtain ⟨hRecord, hRecordLink⟩ := hRecordOf link.1 hKey
    exact ⟨link.1, hKey, h.record_unique hKeeps hRecord hVehicle hRecordLink (hID ▸ hLink)⟩

/-- In a settled state the rows are aligned exactly if the list shows the
records in the order of their documents. -/
theorem aligned_iff_listed (hKeeps : Keeps site books) (h : Links site books) (hSettled : site.Settled)
    (hRecordOf : ∀ documentID ∈ books.documents.keys,
      recordOf documentID ∈ books.records ∧ (documentID, (recordOf documentID).vehicleID) ∈ site.added) :
    site.Aligned ↔ books.listed (upcoming site.queriedAt) = books.documents.keys.map recordOf := by
  have hDue := hKeeps.screens.due hSettled.1
  have hGadgets : site.app.allVehiclesVC.arrGadgets = books.documents.values :=
    Option.some.inj (hSettled.2.symm.trans (FIRFireStoreService.read_represents hKeeps.documents))
  have hIDs : books.documents.values.map Gadget.id = books.documents.keys.map some := by
    rw [SortedMap.Map.values, SortedMap.Map.keys, List.map_map, List.map_map]
    exact List.map_congr_left fun entry hEntry => hKeeps.documents.identified entry hEntry
  have hRow (row : Nat) (gadgetObj : Gadget) (hGadget : books.documents.values[row]? = some gadgetObj) :
      ∃ id, gadgetObj.id = some id ∧ books.documents.keys[row]? = some id := by
    have hSame := congrArg (fun l => l[row]?) hIDs
    simp only [List.getElem?_map, hGadget, Option.map_some] at hSame
    obtain ⟨id, hKey, hID⟩ := Option.map_eq_some_iff.mp hSame.symm
    exact ⟨id, hID.symm, hKey⟩
  unfold Aligned
  rw [hDue, hGadgets]
  constructor
  · intro hAligned
    apply KeyedList.eq_map_of_getElem?
    · intro row documentID hKey
      have hLength : row < books.documents.values.length := by
        have hLt := (List.getElem?_eq_some_iff.mp hKey).1
        simpa [SortedMap.Map.keys, SortedMap.Map.values] using hLt
      obtain ⟨objVehicle, hVehicle, ⟨id, hID, hLink⟩, _⟩ :=
        hAligned row _ (List.getElem?_eq_getElem hLength)
      obtain ⟨id', hID', hKey'⟩ := hRow row _ (List.getElem?_eq_getElem hLength)
      obtain rfl := Option.some.inj (hID.symm.trans hID')
      obtain rfl := Option.some.inj (hKey.symm.trans hKey')
      obtain ⟨hRecord, hRecordLink⟩ := hRecordOf documentID (List.mem_of_getElem? hKey)
      have hListed := (Books.mem_listed.mp (List.mem_of_getElem? hVehicle)).1
      rw [h.record_unique hKeeps hRecord hListed hRecordLink hLink]
      exact hVehicle
    · have hAll := (h.records_perm hKeeps hRecordOf).length_eq
      rw [List.length_map] at hAll
      rw [Books.listed, List.length_insertionSort, hAll]
      exact List.length_filter_le _ _
  · intro hListed row gadgetObj hGadget
    obtain ⟨id, hID, hKey⟩ := hRow row gadgetObj hGadget
    obtain ⟨hRecord, hLink⟩ := hRecordOf id (List.mem_of_getElem? hKey)
    refine ⟨recordOf id, by rw [hListed, List.getElem?_map, hKey, Option.map_some], ⟨id, hID, hLink⟩, ?_⟩
    have hStorable := hKeeps.records.storable _ hRecord
    have hValue : DatabaseManager.stored (recordOf id) ∈ site.app.context.objects.values := by
      rw [hKeeps.records.objects_values]
      exact List.mem_map_of_mem hRecord
    obtain ⟨obj, hObj, hSame⟩ := List.mem_map.mp hValue
    exact ⟨obj, hObj, by rw [hSame]; exact DatabaseManager.allVehicleOf_stored hStorable.typed hStorable.narrow⟩

/-- The list shows an arrangement of all records exactly if none is past due
and the arrangement is the one by due date. -/
theorem listed_eq_iff {predicate : Option Date → Bool} {l : List AllVehiclesI} (hPerm : l.Perm books.records) :
    books.listed predicate = l ↔
      (∀ objVehicle ∈ books.records, predicate objVehicle.serviceDueDate = true) ∧
        l = books.records.insertionSort (byDueDate AllVehiclesI.serviceDueDate) := by
  have hFilter : (books.records.filter fun objVehicle => predicate objVehicle.serviceDueDate) =
      books.records ↔ ∀ objVehicle ∈ books.records, predicate objVehicle.serviceDueDate = true :=
    List.filter_eq_self
  constructor
  · intro hListed
    have hAll : ∀ objVehicle ∈ books.records, predicate objVehicle.serviceDueDate = true := by
      intro objVehicle hVehicle
      exact (Books.mem_listed.mp (hListed ▸ hPerm.mem_iff.mpr hVehicle)).2
    rw [Books.listed, hFilter.mpr hAll] at hListed
    exact ⟨hAll, hListed.symm⟩
  · rintro ⟨hAll, hSorted⟩
    rw [Books.listed, hFilter.mpr hAll, hSorted]

/-- A record at its position, with the document of its addition. -/
theorem storedAs_iff (hKeeps : Keeps site books) {position : Nat} {documentID : String} {vehicle : Vehicle} :
    site.StoredAs position documentID vehicle ↔
      ∃ objVehicle, books.records[position]? = some objVehicle ∧
        (documentID, objVehicle.vehicleID) ∈ site.added ∧ vehicle = DatabaseManager.stored objVehicle := by
  unfold StoredAs
  rw [hKeeps.records.objects_values, List.getElem?_map]
  constructor
  · rintro ⟨hStored, vehicleID, hID, hLink⟩
    obtain ⟨objVehicle, hVehicle, rfl⟩ := Option.map_eq_some_iff.mp hStored
    obtain rfl := Option.some.inj hID
    exact ⟨objVehicle, hVehicle, hLink, rfl⟩
  · rintro ⟨objVehicle, hVehicle, hLink, rfl⟩
    exact ⟨by rw [hVehicle, Option.map_some], objVehicle.vehicleID, rfl, hLink⟩

/-- Two documents are in order exactly if their records stand in this order in
the arrangement by due date. -/
theorem ordered_iff (hKeeps : Keeps site books) (h : Links site books)
    (hRecordOf : ∀ documentID ∈ books.documents.keys,
      recordOf documentID ∈ books.records ∧ (documentID, (recordOf documentID).vehicleID) ∈ site.added) :
    (∀ i j documentID documentID' vehicle vehicle', site.StoredAs i documentID vehicle →
        site.StoredAs j documentID' vehicle' → documentID < documentID' →
          dueDateLE vehicle.serviceDueDate vehicle'.serviceDueDate ∧
            (dueDateLE vehicle'.serviceDueDate vehicle.serviceDueDate → i < j)) ↔
      ∀ d ∈ books.documents.keys, ∀ d' ∈ books.documents.keys, d < d' →
        StableSort.Before (byDueDate AllVehiclesI.serviceDueDate) books.records (recordOf d) (recordOf d') := by
  have hNodup := hKeeps.records.distinct.nodup
  constructor
  · intro hOrdered d hd d' hd' hLt
    obtain ⟨hRecord, hLink⟩ := hRecordOf d hd
    obtain ⟨hRecord', hLink'⟩ := hRecordOf d' hd'
    obtain ⟨i, hi⟩ := List.mem_iff_getElem?.mp hRecord
    obtain ⟨j, hj⟩ := List.mem_iff_getElem?.mp hRecord'
    obtain ⟨hDue, hTie⟩ := hOrdered i j d d' _ _ ((storedAs_iff hKeeps).mpr ⟨_, hi, hLink, rfl⟩)
      ((storedAs_iff hKeeps).mpr ⟨_, hj, hLink', rfl⟩) hLt
    exact ⟨hDue, fun hBack => (StableSort.pair_sublist_iff_lt hNodup hi hj).mpr (hTie hBack)⟩
  · intro hBefore i j d d' vehicle vehicle' hStored hStored' hLt
    obtain ⟨objVehicle, hi, hLink, rfl⟩ := (storedAs_iff hKeeps).mp hStored
    obtain ⟨objVehicle', hj, hLink', rfl⟩ := (storedAs_iff hKeeps).mp hStored'
    have hVehicle := List.mem_of_getElem? hi
    have hVehicle' := List.mem_of_getElem? hj
    have hKey := (h.paired _ hLink).mpr (List.mem_map_of_mem hVehicle)
    have hKey' := (h.paired _ hLink').mpr (List.mem_map_of_mem hVehicle')
    obtain ⟨hRecord, hRecordLink⟩ := hRecordOf d hKey
    obtain ⟨hRecord', hRecordLink'⟩ := hRecordOf d' hKey'
    obtain ⟨hDue, hTie⟩ := hBefore d hKey d' hKey' hLt
    rw [h.record_unique hKeeps hRecord hVehicle hRecordLink hLink,
      h.record_unique hKeeps hRecord' hVehicle' hRecordLink' hLink'] at hDue hTie
    exact ⟨hDue, fun hBack => (StableSort.pair_sublist_iff_lt hNodup hi hj).mp (hTie hBack)⟩

/-- In a settled state the rows are aligned exactly if the documents are in order. -/
theorem aligned_iff (hKeeps : Keeps site books) (h : Links site books) (hSettled : site.Settled) :
    site.Aligned ↔ site.InOrder := by
  obtain ⟨recordOf, hRecordOf⟩ := h.exists_record hKeeps
  have hPerm := h.records_perm hKeeps hRecordOf
  have hUpcoming : (∀ vehicle ∈ site.app.context.objects.values,
      upcoming site.queriedAt vehicle.serviceDueDate = true) ↔
        ∀ objVehicle ∈ books.records, upcoming site.queriedAt objVehicle.serviceDueDate = true := by
    rw [hKeeps.records.objects_values, List.forall_mem_map]
    rfl
  have hInOrder : site.InOrder ↔ _ ∧ _ :=
    ⟨fun hOrder => ⟨hOrder.upcoming, hOrder.ordered⟩, fun hOrder => ⟨hOrder.1, hOrder.2⟩⟩
  rw [aligned_iff_listed hKeeps h hSettled hRecordOf, listed_eq_iff hPerm,
    StableSort.eq_insertionSort_iff hKeeps.records.distinct.nodup hPerm, List.pairwise_map,
    SortedMap.Map.pairwise_keys_iff, hInOrder, hUpcoming, ordered_iff hKeeps h hRecordOf]

end Order

theorem links_installed (now : Date) : Links (installed now) ⟨[], .empty⟩ where
  documents := List.nodup_nil
  records := List.nodup_nil
  paired := fun link hNone => by cases hNone
  editor := fun form hForm => by cases hForm

/-- Over any careful run of one installation: the rows are aligned in every
settled state exactly if the documents are in order in every settled state. -/
theorem aligned_iff_inOrder (P : Platform) (now : Date) {events : List Event}
    (hCareful : Transition.Throughout (step P) (fun site e => e.Careful site) (installed now) events) :
    Transition.Always (step P) (fun site => site.Settled → site.Aligned) (installed now) events ↔
      Transition.Always (step P) (fun site => site.Settled → site.InOrder) (installed now) events :=
  Transition.always_iff_always (I := fun site => ∃ books, Keeps site books ∧ Links site books)
    (fun _ _ _ ⟨_, hKeeps, hLinks⟩ hAligned hStepCareful hStep =>
      hLinks.step hKeeps hAligned hStepCareful hStep)
    (fun _ ⟨_, hKeeps, hLinks⟩ => imp_congr_right fun hSettled => aligned_iff hKeeps hLinks hSettled)
    ⟨_, keeps_installed now, links_installed now⟩ hCareful

/-- A vehicle with a service ahead is added and shown in the Due Services list. -/
private def dueEvents (distance : String) : List Event :=
  (addingActions distance "200" 1700000000 "A1").map (.act · "d1") ++
    [.deliver, .act (.selectTab .allVehicles) ""]

private theorem dueEvents_careful (distance : String) (site : Site) :
    Transition.Throughout (step UTC.platform) (fun site e => e.Careful site) site (dueEvents distance) := by
  apply Transition.throughout_of_forall
  intro e he site
  simp only [dueEvents, addingActions, List.map_cons, List.map_nil, List.cons_append, List.nil_append,
    List.mem_cons, List.not_mem_nil, or_false] at he
  rcases he with rfl | rfl | rfl | rfl | rfl | rfl | rfl | rfl | rfl | rfl | rfl <;> trivial

private theorem dueEvents_settled :
    (Transition.run (step UTC.platform) (installed 1700000000) (dueEvents "5000")).map
      (fun site => decide site.Settled) = some true := by
  decide +kernel

/-- The only vehicle of the list is deleted. -/
theorem aligned_iff_inOrder_deleted :
    Transition.Always (step UTC.platform) (fun site => site.Settled → site.Aligned) (installed 1700000000)
        (dueEvents "5000" ++ [.act (.allVehiclesCommitDelete 0) ""]) ↔
      Transition.Always (step UTC.platform) (fun site => site.Settled → site.InOrder) (installed 1700000000)
        (dueEvents "5000" ++ [.act (.allVehiclesCommitDelete 0) ""]) := by
  apply aligned_iff_inOrder
  refine Transition.throughout_append.mpr ⟨dueEvents_careful _ _, fun site hRun _ _ => ⟨?_, trivial⟩⟩
  have hSettled := dueEvents_settled
  rw [hRun, Option.map_some, Option.some.injEq, decide_eq_true_eq] at hSettled
  exact fun hNot => absurd hSettled hNot

private theorem dueEvents_past :
    (Transition.run (step UTC.platform) (installed 1700000000) (dueEvents "10")).map (fun site =>
      (decide site.Settled, site.app.allVehiclesVC.arrAllVehicles.length,
        site.app.allVehiclesVC.arrGadgets.length)) = some (true, 0, 1) := by
  decide +kernel

/-- A vehicle that is past due has a document, and so a row, but no record for it. -/
theorem not_aligned :
    ¬ ∀ (P : Platform) (now : Date) (events : List Event),
      Transition.Always (step P) (fun site => site.Settled → site.Aligned) (installed now) events := by
  intro h
  obtain ⟨site, hRun, hShown⟩ := Option.map_eq_some_iff.mp dueEvents_past
  obtain ⟨hSettled, hCounts⟩ := Prod.mk.inj hShown
  obtain ⟨hVehicles, hGadgets⟩ := Prod.mk.inj hCounts
  have hAligned := (h UTC.platform 1700000000 (dueEvents "10")).of_run hRun (of_decide_eq_true hSettled)
  obtain ⟨objVehicle, hVehicle, _⟩ :=
    hAligned 0 _ (List.getElem?_eq_getElem (show 0 < site.app.allVehiclesVC.arrGadgets.length by omega))
  have hLt := (List.getElem?_eq_some_iff.mp hVehicle).1
  omega

end Site

end ServiceBook

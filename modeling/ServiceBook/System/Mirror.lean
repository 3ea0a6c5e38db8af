import ServiceBook.System.Bookkeeping
import ServiceBook.Utilities.UTC

/-! The store and the collection as mirrors of each other. Each write goes to
both sides by its own key, so the two stay alike only as long as the keys of a
write lead to the same values, and a deletion from the History list goes to
one side only. -/
namespace ServiceBook

namespace Site

/-- The records correspond one to one to the documents with the same values. -/
def Mirror (site : Site) : Prop :=
  ∃ gadgets, FIRFireStoreService.read site.server.entries = some gadgets ∧
    (site.app.context.objects.values.map Gadget.ofRecord).Perm (gadgets.map Gadget.anonymous)

/-- The values of the record under an id. -/
def recordUnder (site : Site) (vehicleID : String) : Option Gadget :=
  (DatabaseManager.firstUnder site.app.context vehicleID).map fun obj => Gadget.ofRecord obj.value

/-- The values of the document that a gadget addresses, as they are on the server. -/
def documentOf (site : Site) (gadgetObj : Gadget) : Option Gadget := do
  let id ← gadgetObj.id
  let data ← site.server.get id
  let gadget ← Gadget.decodeDocument id data
  return gadget.anonymous

/-- Nothing is deleted from the History list, and a deletion from the Due
Services list or a save of an editor has equal values on both sides. -/
def Event.Paired (site : Site) : Event → Prop
  | .act (.historyCommitDelete _) _ => False
  | .act (.allVehiclesCommitDelete row) _ => ∀ objVehicle gadgetObj,
      site.app.allVehiclesVC.arrAllVehicles[row]? = some objVehicle →
      site.app.allVehiclesVC.arrGadgets[row]? = some gadgetObj →
        site.recordUnder objVehicle.vehicleID = site.documentOf gadgetObj
  | .act (.clkSave _) _ => ∀ form gadgetObj, site.app.editor = some form →
      form.gadgetToUpdate = some gadgetObj →
        site.recordUnder form.objVehicle.vehicleID = site.documentOf gadgetObj
  | _ => True

section Mirror

variable {P : Platform} {site site' : Site} {books : Books} {e : Event}

/-- Mirrors are books that are alike. -/
theorem Keeps.mirror_iff (h : Keeps site books) : site.Mirror ↔ books.Mirrored := by
  have hRecords : site.app.context.objects.values.map Gadget.ofRecord =
      books.records.map Gadget.ofVehicle := by
    rw [h.records.objects_values, List.map_map]
    apply List.map_congr_left
    intro objVehicle hVehicle
    exact Gadget.ofRecord_stored (h.records.storable objVehicle hVehicle).narrow
  unfold Mirror
  rw [hRecords, FIRFireStoreService.read_represents h.documents]
  constructor
  · rintro ⟨gadgets, hRead, hPerm⟩
    obtain rfl := Option.some.inj hRead
    exact hPerm
  · exact fun hPerm => ⟨_, rfl, hPerm⟩

theorem Keeps.recordUnder_eq (h : Keeps site books) (vehicleID : String) :
    site.recordUnder vehicleID = books.record vehicleID := by
  have hFirst := congrArg (Option.map Gadget.ofRecord) (h.records.firstUnder_eq vehicleID)
  rw [Option.map_map] at hFirst
  unfold recordUnder Books.record
  refine hFirst.trans ?_
  cases hFind : KeyedList.find AllVehiclesI.vehicleID books.records vehicleID with
  | none => rfl
  | some objVehicle =>
      have hStorable := h.records.storable objVehicle (KeyedList.mem_of_find hFind)
      exact congrArg some (Gadget.ofRecord_stored hStorable.narrow)

theorem Keeps.documentOf_eq (h : Keeps site books) {gadgetObj : Gadget} {id : String}
    (hID : gadgetObj.id = some id) : site.documentOf gadgetObj = books.document id := by
  rw [documentOf, hID, Option.bind_eq_bind, Option.bind_some, h.documents.documents,
    SortedMap.Map.get_mapValues, Books.document]
  cases hGet : books.documents.get id with
  | none => rfl
  | some gadget =>
      have hFinite := h.documents.finite _ (SortedMap.Map.get_eq_some_iff.mp hGet)
      have hDecode := FIRFireStoreService.decodeDocument_document hFinite id
      simp only [Option.map_some, Option.bind_eq_bind, Option.bind_some] at hDecode ⊢
      rw [hDecode]
      rfl

theorem Event.Quiet.paired (h : e.Quiet) : Event.Paired site e := by
  cases e with
  | deliver => trivial
  | act action documentID =>
      cases action with
      | clkSave uuid => exact h.elim
      | allVehiclesCommitDelete row => exact h.elim
      | historyCommitDelete row => exact h.elim
      | _ => trivial

/-- From a mirror a step leads to a mirror exactly if it is paired. -/
theorem Keeps.mirror_step_iff (h : Keeps site books) (hMirror : site.Mirror)
    (hStep : site.step P e = some site') : site'.Mirror ↔ Event.Paired site e := by
  obtain ⟨books', hEntered, hNext⟩ := h.step hStep
  have hAlike := h.mirror_iff.mp hMirror
  have hDistinct := h.records.distinct
  rw [hNext.mirror_iff]
  cases hEntered with
  | quiet _ hQuiet => exact iff_of_true hAlike hQuiet.paired
  | add uuid documentID objVehicle hShows hID hFreshDocument hFreshRecord =>
      have hNew : documentID ∉ books.documents.keys := fun hKey =>
        hFreshDocument (h.usedDocuments documentID hKey)
      refine iff_of_true (hAlike.add hNew) fun form gadgetObj hForm => ?_
      cases hShows.2.symm.trans hForm
  | edit uuid documentID id form gadgetObj objVehicle hForm hGadget hID hVehicle =>
      obtain ⟨shown, hShown, hShownID⟩ := h.screens.editor form hForm
      rw [hAlike.edit_iff hDistinct ⟨shown, hShown, hShownID.trans hVehicle.symm⟩, hVehicle,
        ← h.recordUnder_eq, ← h.documentOf_eq hID]
      constructor
      · intro hSame form' gadgetObj' hForm' hGadget'
        obtain rfl := Option.some.inj (hForm.symm.trans hForm')
        obtain rfl := Option.some.inj (hGadget.symm.trans hGadget')
        exact hSame
      · exact fun hPaired => hPaired form gadgetObj hForm hGadget
  | delete row documentID id objVehicle gadgetObj hShows hVehicle hGadget hID =>
      rw [hAlike.delete_iff hDistinct, ← h.recordUnder_eq, ← h.documentOf_eq hID]
      constructor
      · intro hSame objVehicle' gadgetObj' hVehicle' hGadget'
        obtain rfl := Option.some.inj (hVehicle.symm.trans hVehicle')
        obtain rfl := Option.some.inj (hGadget.symm.trans hGadget')
        exact hSame
      · exact fun hPaired => hPaired objVehicle gadgetObj hVehicle hGadget
  | deleteRecord row documentID objVehicle hVehicle =>
      exact iff_of_false (hAlike.not_deleteRecord hDistinct hVehicle) id

end Mirror

theorem mirror_installed (now : Date) : (installed now).Mirror :=
  (keeps_installed now).mirror_iff.mpr (List.Perm.refl _)

/-- Over any run of one installation, the store and the collection are mirrors
in every state exactly if every step is paired. -/
theorem mirrors_iff (P : Platform) (now : Date) (events : List Event) :
    Transition.Always (step P) Mirror (installed now) events ↔
      Transition.Throughout (step P) Event.Paired (installed now) events :=
  Transition.always_iff_throughout (I := fun site => ∃ books, Keeps site books)
    (fun _ _ _ ⟨_, hKeeps⟩ hStep => (hKeeps.step hStep).imp fun _ hNext => hNext.2)
    (fun _ _ _ ⟨_, hKeeps⟩ hMirror hStep => hKeeps.mirror_step_iff hMirror hStep)
    ⟨_, keeps_installed now⟩ (mirror_installed now)

/-- A vehicle whose service was due today is added on the Add tab, shown in the
History list and deleted there. -/
private def historyEvents : List Event :=
  (addingActions "10" "200" 1700000000 "A1").map (.act · "d1") ++
    [.deliver, .act (.selectTab .history) "", .act (.historyCommitDelete 0) "", .deliver]

private theorem historyEvents_sizes :
    (Transition.run (step UTC.platform) (installed 1700000000) historyEvents).map (fun site =>
      (site.app.context.objects.values.length, site.server.entries.length)) = some (0, 1) := by
  decide +kernel

/-- The document of the vehicle is still there. -/
theorem not_mirrors :
    ¬ ∀ (P : Platform) (now : Date) (events : List Event),
      Transition.Always (step P) Mirror (installed now) events := by
  intro h
  obtain ⟨site, hRun, hSizes⟩ := Option.map_eq_some_iff.mp historyEvents_sizes
  obtain ⟨hRecords, hDocuments⟩ := Prod.mk.inj hSizes
  obtain ⟨gadgets, hRead, hPerm⟩ := (h UTC.platform 1700000000 historyEvents).of_run hRun
  have hGadgets := congrArg List.length (FIRFireStoreService.read_ids hRead)
  have hLength := hPerm.length_eq
  simp only [List.length_map] at hGadgets hLength
  omega

end Site

end ServiceBook

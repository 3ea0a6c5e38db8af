import ServiceBook.App.Traps
import ServiceBook.App.Durability
import ServiceBook.App.Wording

/-! The process of the app. It ends when an action traps, and it may be killed at
any time; either way it is launched again, with the store as it was last saved.
While the saves succeed, this is the same as a termination in good order. -/
namespace ServiceBook

open DatabaseManager

inductive ProcessEvent where
  | act (action : Action)
  | kill

/-- What is left of the app when its process has ended without a word. -/
def App.ended (app : App) : App :=
  { App.created app.context.loadPersistentStores app.pendingRequests app.now with
    storage := app.storage, outbox := app.outbox, told := app.told }

def App.launched (P : Platform) (app : App) : Option App :=
  Program.completed ((viewWillAppear P .allVehicles).run app.ended)

def ProcessEvent.Offered (app : App) : ProcessEvent → Prop
  | .act action => action.Offered app
  | .kill => True

instance (app : App) (e : ProcessEvent) : Decidable (e.Offered app) := by
  cases e <;> unfold ProcessEvent.Offered <;> infer_instance

/-- One event in the life of the process. A trap ends it in the state it was raised in. -/
def App.live (P : Platform) (app : App) : ProcessEvent → Option App
  | .kill => app.launched P
  | .act action =>
      if action.Offered app then
        (Program.completed ((handle P action).run app)).or
          ((Program.finalState ((handle P action).run app)).launched P)
      else none

/-- What is stored and what is listed has the property. -/
def Records (Q : AllVehiclesI → Prop) (app : App) : Prop := Contains Q app.context ∧ OnLists Q app

section Process

variable {P : Platform} {app app' crashed : App} {action : Action} {e : ProcessEvent}

/-- Only what a trap leaves as it was counts for the next launch. -/
theorem NothingDone.ended (h : NothingDone app crashed) : crashed.ended = app.ended := by
  unfold App.ended
  rw [h.context, h.storage, h.now, h.pendingRequests, h.outbox, h.told]

theorem onLists_ended {Q : AllVehiclesI → Prop} : OnLists Q app.ended :=
  ⟨fun _ hNone => (by cases hNone), fun _ hNone => (by cases hNone)⟩

theorem Sound.ended (h : Sound P app) : Sound P app.ended where
  placed := ⟨rfl, fun form hNone => by cases hNone⟩
  shown := ⟨fun _ _ hNone => (by cases hNone), fun _ _ hNone => (by cases hNone), fun _ hNone => (by cases hNone),
    rfl, fun _ hNone => by cases hNone⟩
  forms := inStep_rule.launched rfl rfl
  contains := h.contains.loadPersistentStores
  lists := onLists_ended

theorem action_relaunch_offered (app : App) : Action.Offered app .relaunch := trivial

theorem step_eq_completed (hOffered : action.Offered app) :
    app.step P action = Program.completed ((handle P action).run app) := by
  unfold App.step
  rw [if_pos hOffered]
  cases (handle P action).run app <;> rfl

/-- With everything saved, a launch is a relaunch. -/
theorem launched_of_saved (hSaved : app.context.pending = []) : app.launched P = app.step P .relaunch := by
  have hSave : saveContext app.storage.write app.context = .ok app.context := by
    simp [saveContext, ManagedObjectContext.hasChanges_of_pending_nil hSaved]
  have hRun : (relaunch P).run app = (viewWillAppear P .allVehicles).run app.ended := by
    rw [relaunch, Program.run_get_bind, hSave, Program.run_bind_of_ok Program.run_ofExcept_ok, Program.run_set_bind,
      App.ended]
  rw [App.launched, ← hRun]
  exact (step_eq_completed (action_relaunch_offered app)).symm

/-- A launch is the relaunch of an app with nothing to save. -/
theorem launched_eq_step (app : App) : app.launched P = app.ended.step P .relaunch := by
  have hSaved : app.ended.context.pending = [] := rfl
  exact launched_of_saved hSaved

/-- A step of the process is a step of the app or a launch from the same store. -/
theorem Sound.live_eq_some (h : Sound P app) (hLive : app.live P e = some app') :
    (∃ action, e = .act action ∧ app.step P action = some app') ∨
      (e = .kill ∨ ∃ action, e = .act action ∧ action.Offered app ∧ action.Traps P app) ∧
        app.launched P = some app' := by
  cases e with
  | kill => exact .inr ⟨.inl rfl, hLive⟩
  | act action =>
      simp only [App.live] at hLive
      split at hLive
      · next hOffered =>
          have hEnds := handle_ends h hOffered
          by_cases hTraps : action.Traps P app
          · obtain ⟨t, crashed, hRun, hSame⟩ := hEnds.stops hTraps
            rw [hRun] at hLive
            have hLaunch : crashed.launched P = some app' := hLive
            rw [App.launched, hSame.ended] at hLaunch
            exact .inr ⟨.inr ⟨action, rfl, hOffered, hTraps⟩, hLaunch⟩
          · obtain ⟨next, hRun⟩ := hEnds.completes hTraps
            rw [hRun] at hLive
            obtain rfl := Option.some.inj hLive
            exact .inl ⟨action, rfl, step_eq_some.mpr ⟨hOffered, hRun⟩⟩
      · cases hLive

theorem Sound.live (h : Sound P app) (hLive : app.live P e = some app') : Sound P app' := by
  rcases h.live_eq_some hLive with ⟨action, rfl, hStep⟩ | ⟨_, hLaunch⟩
  · exact h.step hStep
  · rw [launched_eq_step] at hLaunch
    exact h.ended.step hLaunch

/-- Where a step saves vehicles with a property only, the stored and the listed ones keep it. -/
theorem Sound.records_step {Q : AllVehiclesI → Prop} (h : Sound P app)
    (hTyped : ∀ objVehicle, Q objVehicle → objVehicle.vehicleType.isSome)
    (hSaves : ∀ objVehicle, Saves P app action objVehicle → Q objVehicle)
    (hRecords : Records Q app) (hStep : app.step P action = some app') : Records Q app' := by
  have hNext := hRecords.1.step h.placed hStep fun objVehicle hSave _ => hSaves objVehicle hSave
  exact ⟨hNext, hRecords.2.step h.placed hRecords.1 hNext hTyped hStep⟩

/-- A launch saves nothing and lists what is stored. -/
theorem Sound.records_live {Q : AllVehiclesI → Prop} (h : Sound P app)
    (hTyped : ∀ objVehicle, Q objVehicle → objVehicle.vehicleType.isSome)
    (hSaves : ∀ action objVehicle, e = .act action → Saves P app action objVehicle → Q objVehicle)
    (hRecords : Records Q app) (hLive : app.live P e = some app') : Records Q app' := by
  rcases h.live_eq_some hLive with ⟨action, rfl, hStep⟩ | ⟨_, hLaunch⟩
  · exact h.records_step hTyped (fun objVehicle => hSaves action objVehicle rfl) hRecords hStep
  · rw [launched_eq_step] at hLaunch
    refine h.ended.records_step hTyped (fun objVehicle hSave => ?_)
      ⟨hRecords.1.loadPersistentStores, onLists_ended⟩ hLaunch
    obtain ⟨_, _, _, _, hNever, _⟩ := hSave
    cases hNever

/-- The invariant of the app holds across crashes as well. -/
theorem always_sound (P : Platform) (now : Date) (events : List ProcessEvent) :
    Transition.Always (App.live P) (Sound P) (App.installed now) events :=
  Transition.always_of_invariant (fun _ _ _ h hLive => h.live hLive) (sound_installed now)

/-- A trap comes before anything is stored, sent, scheduled or reported. -/
theorem always_trapsFirst (P : Platform) (now : Date) (events : List ProcessEvent) :
    Transition.Always (App.live P) (fun app => ∀ (action : Action) (t : Trap) (crashed : App),
      action.Offered app → (handle P action).run app = .error t crashed → NothingDone app crashed)
      (App.installed now) events :=
  (always_sound P now events).mono fun app h action t crashed hOffered hRun => by
    have hEnds := handle_ends h hOffered
    by_cases hTraps : action.Traps P app
    · obtain ⟨t', crashed', hRun', hNothing⟩ := hEnds.stops hTraps
      cases hRun.symm.trans hRun'
      exact hNothing
    · obtain ⟨app', hRun'⟩ := hEnds.completes hTraps
      cases hRun.symm.trans hRun'

/-- An edit that does not save has not changed anything. -/
theorem pending_editRecord {outcome : StoreOutcome} {context context' : ManagedObjectContext}
    {objVehicle : AllVehiclesI} {calls : List Bool} (hSaved : context.pending = []) (hSave : outcome.save = true)
    (hOk : editRecord outcome context objVehicle = .ok (context', calls)) : context'.pending = [] := by
  cases hFetch : outcome.fetch with
  | false =>
      rw [editRecord, ManagedObjectContext.fetchSorted, ManagedObjectContext.fetch, hFetch] at hOk
      obtain ⟨rfl, -⟩ := Prod.mk.inj (Except.ok.inj hOk)
      exact hSaved
  | true => exact (settled_editRecord hOk).all ⟨hFetch, hSave⟩

/-- Everything has been saved, and the next save will succeed. -/
structure Saving (app : App) : Prop where
  saved : app.context.pending = []
  save : app.storage.write.save = true

/-- The saves succeed. The fetches may fail. -/
def SavesSucceed : ProcessEvent → Prop
  | .act (.storage storage) => storage.write.save = true
  | _ => True

theorem Saving.step (h : Saving app) (hPlaced : FormsPlaced app) (hSaves : SavesSucceed (.act action))
    (hStep : app.step P action = some app') : Saving app' := by
  have hQuiet (hContext : app'.context = app.context) (hStorage : app'.storage = app.storage) : Saving app' :=
    ⟨hContext ▸ h.saved, hStorage ▸ h.save⟩
  cases step_stepped hPlaced hStep with
  | storage storage => exact ⟨h.saved, hSaves⟩
  | selectTab tab _ _ hAppear =>
      have hSame := viewWillAppear_refreshed hAppear
      exact hQuiet hSame.context hSame.storage
  | allVehiclesDelete row objVehicle gadgetObj context success arrVehicles _ _ _ hDelete _ =>
      exact ⟨(settled_deleteRecord hDelete).all h.save, h.save⟩
  | historyDelete row objVehicle context success arrVehicles _ _ hDelete _ =>
      exact ⟨(settled_deleteRecord hDelete).all h.save, h.save⟩
  | form slot e form form' _ _ =>
      exact hQuiet (App.setForm_context app form' slot) (App.setForm_storage app form' slot)
  | saveAdd uuid objVehicle text context success gadget due request form _ _ hAdd _ _ _ _ =>
      exact ⟨(settled_addRecord hAdd).all h.save, h.save⟩
  | saveEdit uuid form objVehicle text gadgetObj context success gadget due request _ _ _ _ hEdit _ _ _ hAppear =>
      have hSame := viewWillAppear_refreshed hAppear
      refine ⟨?_, by rw [hSame.storage]; exact h.save⟩
      rw [hSame.context]
      exact pending_editRecord h.saved h.save hEdit
  | back form _ _ hAppear =>
      have hSame := viewWillAppear_refreshed hAppear
      exact hQuiet hSame.context hSame.storage
  | relaunch context _ _ hAppear =>
      have hSame := viewWillAppear_refreshed hAppear
      refine ⟨?_, by rw [hSame.storage]; exact h.save⟩
      rw [hSame.context]
      rfl
  | _ => exact hQuiet rfl rfl

/-- An action that completes stands for itself. Where the process ends, the app is
terminated in good order and started again. -/
def ProcessEvent.replayed (P : Platform) (app : App) : ProcessEvent → Action
  | .kill => .relaunch
  | .act action => if (app.step P action).isSome then action else .relaunch

/-- The actions of a life without crashes. -/
def App.replayed (P : Platform) (app : App) (events : List ProcessEvent) : List Action :=
  Transition.translated (App.live P) (fun app e => e.replayed P app) app events

end Process

end ServiceBook

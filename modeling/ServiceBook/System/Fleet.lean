import ServiceBook.App.Process
import ServiceBook.System.Convergence

/-! Installations whose processes may end at any time. What they have handed to
Firestore outlives them, and is on its way until it arrives. The log of what has
arrived is kept for the statements only. -/
namespace ServiceBook

/-- The report to the view that goes with a request. -/
def FirestoreWrite.report : FirestoreWrite → Option ViewCall
  | .addDocument _ => some (.newVehicleAdded true)
  | .setData _ _ => some (.vehicleInfoUpdated true)
  | .delete _ => none

/-- A snapshot comes from the server only. -/
def ProcessEvent.Acts : ProcessEvent → Bool
  | .act action => Network.Acts action
  | .kill => true

structure Fleet (ι : Type) where
  net : Network ι
  /-- Who sent the request, the id it got for a new document, and the request, oldest first. -/
  arrived : List (ι × String × FirestoreWrite) := []

namespace Fleet

inductive Event (ι : Type) where
  | live (i : ι) (e : ProcessEvent)
  | commit (i : ι) (documentID : String)
  | deliver (i : ι)

variable {ι : Type} [DecidableEq ι]

/-- Arrivals and deliveries are those of the network. -/
def step (P : Platform) (fleet : Fleet ι) : Event ι → Option (Fleet ι)
  | .live i e =>
      if e.Acts then
        ((fleet.net.apps i).live P e).map fun app =>
          { fleet with net := { fleet.net with apps := Function.update fleet.net.apps i app } }
      else none
  | .commit i documentID =>
      (fleet.net.step P (.commit i documentID)).map fun net =>
        { net := net
          arrived := fleet.arrived ++ (fleet.net.apps i).outbox.head?.toList.map fun request =>
            (i, documentID, request) }
  | .deliver i => (fleet.net.step P (.deliver i)).map fun net => { fleet with net := net }

def installed (now : ι → Date) : Fleet ι := { net := Network.installed now }

inductive Stepped (P : Platform) (fleet : Fleet ι) : Event ι → Fleet ι → Prop where
  | live (i : ι) (e : ProcessEvent) (app : App) (hActs : e.Acts = true)
      (hLive : (fleet.net.apps i).live P e = some app) :
      Stepped P fleet (.live i e)
        { fleet with net := { fleet.net with apps := Function.update fleet.net.apps i app } }
  | commit (i : ι) (documentID : String) (request : FirestoreWrite) (net : Network ι)
      (hOutbox : (fleet.net.apps i).outbox.head? = some request)
      (hStep : fleet.net.step P (.commit i documentID) = some net) :
      Stepped P fleet (.commit i documentID)
        { net := net, arrived := fleet.arrived ++ [(i, documentID, request)] }
  | deliver (i : ι) (net : Network ι) (hStep : fleet.net.step P (.deliver i) = some net) :
      Stepped P fleet (.deliver i) { fleet with net := net }

/-- The requests of an installation that have arrived, and all that it has sent. -/
def arrivedFrom (fleet : Fleet ι) (i : ι) : List FirestoreWrite :=
  (fleet.arrived.filter fun entry => entry.1 = i).map fun entry => entry.2.2

def sent (fleet : Fleet ι) (i : ι) : List FirestoreWrite := fleet.arrivedFrom i ++ (fleet.net.apps i).outbox

/-- The collection that the arrived requests make. -/
def replayed (fleet : Fleet ι) : Collection :=
  fleet.arrived.foldl (fun collection entry => entry.2.2.apply entry.2.1 collection) .empty

/-- The server holds what the requests have made of it, one after the other, and
every installation has reported each addition and each update that it has sent, once
and in order. -/
structure Reported (fleet : Fleet ι) : Prop where
  server : fleet.net.server = fleet.replayed
  told : ∀ i, (fleet.net.apps i).told = (fleet.sent i).filterMap FirestoreWrite.report

section Steps

variable {P : Platform} {fleet fleet' : Fleet ι} {e : Event ι}

theorem stepped_of_step (hStep : fleet.step P e = some fleet') : Stepped P fleet e fleet' := by
  cases e with
  | live i e =>
      rw [Fleet.step] at hStep
      split at hStep
      · next hActs =>
          obtain ⟨app, hLive, rfl⟩ := Option.map_eq_some_iff.mp hStep
          exact .live i e app hActs hLive
      · cases hStep
  | commit i documentID =>
      obtain ⟨net, hNet, rfl⟩ := Option.map_eq_some_iff.mp hStep
      cases Network.stepped_of_step hNet with
      | commit _ _ request rest hOutbox _ =>
          have hHead : (fleet.net.apps i).outbox.head? = some request := by rw [hOutbox, List.head?_cons]
          rw [hHead]
          exact .commit i documentID request _ hHead hNet
  | deliver i =>
      obtain ⟨net, hNet, rfl⟩ := Option.map_eq_some_iff.mp hStep
      exact .deliver i net hNet

end Steps

end Fleet

section Reports

variable {P : Platform} {app app' : App} {action : Action} {e : ProcessEvent}

theorem told_of_appear {tab : Tab} (hAppear : (viewWillAppear P tab).run app = .ok () app') :
    app'.told = app.told := by
  cases tab with
  | allVehicles =>
      obtain ⟨arrVehicles, _, rfl⟩ := AllVehiclesVC.viewWillAppear_of_ok hAppear
      rfl
  | history =>
      obtain ⟨arrVehicles, _, rfl⟩ := HistoryPresenter.getAllVehicles_eq_ok.mp hAppear
      rfl
  | addVehicle =>
      obtain ⟨form, _, rfl⟩ := viewWillAppear_addVehicle_of_ok hAppear
      rfl

/-- What a step sends, it reports, if the gadgets of the app have ids. -/
theorem reported_of_step (hPlaced : FormsPlaced app) (hKnown : GadgetsKnown (fun _ => True) app)
    (hStep : app.step P action = some app') :
    ∃ issued, app'.outbox = app.outbox ++ issued ∧
      app'.told = app.told ++ issued.filterMap FirestoreWrite.report := by
  have hQuiet (hOutbox : app'.outbox = app.outbox) (hTold : app'.told = app.told) :
      ∃ issued, app'.outbox = app.outbox ++ issued ∧
        app'.told = app.told ++ issued.filterMap FirestoreWrite.report :=
    ⟨[], by rw [hOutbox, List.append_nil], by rw [hTold, List.filterMap_nil, List.append_nil]⟩
  cases step_stepped hPlaced hStep with
  | selectTab tab _ _ hAppear =>
      have hTold := told_of_appear hAppear
      exact hQuiet (viewWillAppear_refreshed hAppear).outbox hTold
  | allVehiclesDelete row objVehicle gadgetObj context success arrVehicles _ _ hGadget _ _ =>
      obtain ⟨id, hID, _⟩ := hKnown.listed gadgetObj (List.mem_of_getElem? hGadget)
      refine ⟨FIRFireStoreService.delete gadgetObj, rfl, ?_⟩
      rw [FIRFireStoreService.delete_eq hID]
      exact (List.append_nil _).symm
  | form slot e form form' _ _ =>
      cases slot with
      | addTab => exact hQuiet rfl rfl
      | editor => exact hQuiet rfl rfl
  | saveAdd uuid objVehicle text context success gadget due request form _ hRule _ hGadget _ _ _ =>
      obtain rfl := gadgetInfo_eq_ofVehicle (savedVehicle_of_rule hRule).filled hGadget
      refine ⟨_, rfl, ?_⟩
      rw [FIRFireStoreService.create_eq (Gadget.ofVehicle_finite objVehicle)]
      rfl
  | saveEdit uuid form objVehicle text gadgetObj context success gadget due request _ hForm hRule hGadget _
      hUpdate _ _ hAppear =>
      obtain ⟨id, hID, _⟩ := hKnown.edited form hForm gadgetObj hGadget
      obtain rfl := gadgetObjToUpdate_eq (savedVehicle_of_rule hRule).filled hID hUpdate
      refine ⟨_, (viewWillAppear_refreshed hAppear).outbox, ?_⟩
      rw [FIRFireStoreService.update_eq (Gadget.identified_ofVehicle_finite objVehicle id) rfl]
      exact told_of_appear hAppear
  | back form _ _ hAppear =>
      have hTold := told_of_appear hAppear
      exact hQuiet (viewWillAppear_refreshed hAppear).outbox hTold
  | relaunch context _ _ hAppear =>
      have hTold := told_of_appear hAppear
      exact hQuiet (viewWillAppear_refreshed hAppear).outbox hTold
  | _ => exact hQuiet rfl rfl

theorem gadgetsKnown_ended {known : String → Prop} : GadgetsKnown known app.ended where
  listed := fun gadgetObj hNone => by cases hNone
  edited := fun form hNone => by cases hNone

theorem brings_any (action : Action) : action.Brings fun _ => True := by
  cases action with
  | snapshot documents => exact fun _ _ => trivial
  | _ => trivial

theorem gadgetsKnown_live (hSound : Sound P app) (hKnown : GadgetsKnown (fun _ => True) app)
    (hLive : app.live P e = some app') : GadgetsKnown (fun _ => True) app' := by
  rcases hSound.live_eq_some hLive with ⟨action, rfl, hStep⟩ | ⟨_, hLaunch⟩
  · exact hKnown.step hSound.placed (brings_any action) hStep
  · rw [launched_eq_step] at hLaunch
    exact gadgetsKnown_ended.step hSound.ended.placed (brings_any .relaunch) hLaunch

/-- A process that ends has sent and reported what it had sent and reported. -/
theorem reported_of_live (hSound : Sound P app) (hKnown : GadgetsKnown (fun _ => True) app)
    (hLive : app.live P e = some app') :
    ∃ issued, app'.outbox = app.outbox ++ issued ∧
      app'.told = app.told ++ issued.filterMap FirestoreWrite.report := by
  rcases hSound.live_eq_some hLive with ⟨action, rfl, hStep⟩ | ⟨_, hLaunch⟩
  · exact reported_of_step hSound.placed hKnown hStep
  · rw [launched_eq_step] at hLaunch
    have hOnce := reported_of_step hSound.ended.placed gadgetsKnown_ended hLaunch
    exact hOnce

theorem listeners_launched (hLaunch : app.launched P = some app') : 0 < app'.allVehiclesVC.listeners := by
  rw [launched_eq_step] at hLaunch
  obtain ⟨_, _, hAppear⟩ := relaunch_of_ok (step_eq_some.mp hLaunch).2
  obtain ⟨arrVehicles, _, rfl⟩ := AllVehiclesVC.viewWillAppear_of_ok hAppear
  exact Nat.succ_pos _

theorem Sound.setOutbox (h : Sound P app) (outbox : List FirestoreWrite) :
    Sound P { app with outbox := outbox } where
  placed := ⟨h.placed.addTab, h.placed.editor⟩
  shown := { h.shown with }
  forms := fun slot form hForm => h.forms slot form (by cases slot <;> exact hForm)
  contains := h.contains
  lists := ⟨h.lists.due, h.lists.history⟩

end Reports

namespace Network

variable {ι : Type} [DecidableEq ι] {P : Platform} {Q : AllVehiclesI → Prop} {net : Network ι} {i : ι} {app : App}
  {e : ProcessEvent}

theorem FromSaved.ended (h : FromSaved Q net) (hSound : Sound P (net.apps i)) :
    FromSaved Q { net with apps := Function.update net.apps i (net.apps i).ended } where
  placed := forall_update h.placed hSound.ended.placed
  server := h.server
  requests := forall_update
    (R := fun _ app => ∀ request ∈ app.outbox, ∀ data ∈ request.data, WrittenFor Q data)
    h.requests (h.requests i)
  listed := forall_update (R := fun _ app => ∀ gadget ∈ app.allVehiclesVC.arrGadgets, gadget.MadeFor Q)
    h.listed fun gadget hNone => by cases hNone

/-- Neither a trap nor a kill brings anything new to the requests and the lists. -/
theorem FromSaved.live (h : FromSaved Q net) (hSound : Sound P (net.apps i)) (hActs : e.Acts = true)
    (hSaves : ∀ action objVehicle, e = .act action → Saves P (net.apps i) action objVehicle → Q objVehicle)
    (hLive : (net.apps i).live P e = some app) :
    FromSaved Q { net with apps := Function.update net.apps i app } := by
  rcases hSound.live_eq_some hLive with ⟨action, rfl, hStep⟩ | ⟨_, hLaunch⟩
  · refine h.update net.seen hStep (fun objVehicle => hSaves action objVehicle rfl) fun documents hAction => ?_
    rw [hAction] at hActs
    cases hActs
  · rw [launched_eq_step] at hLaunch
    have hApp : (Function.update net.apps i (net.apps i).ended i).step P .relaunch = some app := by
      rwa [Function.update_self]
    have hRelaunch := (h.ended hSound).update net.seen hApp (fun objVehicle hSave => by
      obtain ⟨_, _, _, _, hNever, _⟩ := hSave
      cases hNever) fun documents hAction => by cases hAction
    simpa using hRelaunch

theorem Listening.live (h : Listening P net) (hSound : Sound P (net.apps i)) (hActs : e.Acts = true)
    (hLive : (net.apps i).live P e = some app) :
    Listening P { net with apps := Function.update net.apps i app } := by
  refine ⟨h.saved.live hSound hActs (fun _ _ _ hSaves => hSaves.saved) hLive,
    forall_update (R := fun _ app => 0 < app.allVehiclesVC.listeners) h.listeners ?_⟩
  rcases hSound.live_eq_some hLive with ⟨action, rfl, hStep⟩ | ⟨_, hLaunch⟩
  · exact listeners_step hSound.placed (h.listeners i) hStep
  · exact listeners_launched hLaunch

end Network

namespace Fleet

variable {ι : Type} [DecidableEq ι] {P : Platform} {fleet fleet' : Fleet ι} {e : Event ι}

structure Running (P : Platform) (fleet : Fleet ι) : Prop where
  sound : ∀ i, Sound P (fleet.net.apps i)
  known : ∀ i, GadgetsKnown (fun _ => True) (fleet.net.apps i)
  listening : Network.Listening P fleet.net

theorem Running.step (h : Running P fleet) (hStep : fleet.step P e = some fleet') : Running P fleet' := by
  cases stepped_of_step hStep with
  | live i e app hActs hLive =>
      exact ⟨Network.forall_update h.sound ((h.sound i).live hLive),
        Network.forall_update h.known (gadgetsKnown_live (h.sound i) (h.known i) hLive),
        h.listening.live (h.sound i) hActs hLive⟩
  | commit i documentID request net _ hNet =>
      refine ⟨?_, ?_, h.listening.step hNet⟩
      · cases Network.stepped_of_step hNet with
        | commit _ _ request rest _ _ => exact Network.forall_update h.sound ((h.sound i).setOutbox rest)
      · cases Network.stepped_of_step hNet with
        | commit _ _ request rest _ _ => exact Network.forall_update h.known ((h.known i).of_eq rfl rfl)
  | deliver i net hNet =>
      refine ⟨?_, ?_, h.listening.step hNet⟩
      · cases Network.stepped_of_step hNet with
        | deliver _ app hApp => exact Network.forall_update h.sound ((h.sound i).step hApp)
      · cases Network.stepped_of_step hNet with
        | deliver _ app hApp =>
            exact Network.forall_update h.known
              ((h.known i).step (h.sound i).placed (brings_any _) hApp)

omit [DecidableEq ι] in
theorem running_installed (now : ι → Date) : Running P (installed now) where
  sound := fun i => sound_installed (now i)
  known := fun i => gadgetsKnown_installed (now i)
  listening := Network.listening_installed now

/-- What an installation sends, it reports. -/
theorem Reported.told_update (h : Reported fleet) {i : ι} {app : App} {issued : List FirestoreWrite}
    (hOutbox : app.outbox = (fleet.net.apps i).outbox ++ issued)
    (hTold : app.told = (fleet.net.apps i).told ++ issued.filterMap FirestoreWrite.report) (j : ι) :
    (Function.update fleet.net.apps i app j).told =
      (fleet.arrivedFrom j ++ (Function.update fleet.net.apps i app j).outbox).filterMap FirestoreWrite.report := by
  refine Network.forall_update
    (R := fun j app => app.told = (fleet.arrivedFrom j ++ app.outbox).filterMap FirestoreWrite.report) h.told ?_ j
  rw [hTold, hOutbox, h.told i, ← List.filterMap_append, sent, List.append_assoc]

theorem Reported.step (h : Reported fleet) (hRunning : Running P fleet) (hStep : fleet.step P e = some fleet') :
    Reported fleet' := by
  cases stepped_of_step hStep with
  | live i e app _ hLive =>
      obtain ⟨issued, hOutbox, hTold⟩ := reported_of_live (hRunning.sound i) (hRunning.known i) hLive
      exact ⟨h.server, h.told_update hOutbox hTold⟩
  | deliver i net hNet =>
      cases Network.stepped_of_step hNet with
      | deliver _ app hApp =>
          obtain ⟨issued, hOutbox, hTold⟩ := reported_of_step (hRunning.sound i).placed (hRunning.known i) hApp
          exact ⟨h.server, h.told_update hOutbox hTold⟩
  | commit i documentID request net hHead hNet =>
      cases Network.stepped_of_step hNet with
      | commit _ _ oldest rest hOutbox _ =>
          obtain rfl : oldest = request := by simpa [hOutbox] using hHead
          refine ⟨?_, fun j => ?_⟩
          · rw [replayed, List.foldl_append, ← replayed, ← h.server]
            rfl
          · by_cases hSame : j = i
            · subst hSame
              simp [sent, arrivedFrom, h.told j, hOutbox]
            · simp [sent, arrivedFrom, h.told j, Function.update_of_ne hSame, Ne.symm hSame]

/-- In every life of the processes and for every interleaving, every snapshot of the
collection decodes as a whole, no listed gadget lacks what its cell unwraps, and
every due date follows from the other values of its document. -/
theorem always_legible (P : Platform) (now : ι → Date) (events : List (Event ι)) :
    Transition.Always (step P) (fun fleet => Network.Legible P fleet.net) (installed now) events :=
  (Transition.always_of_invariant (fun _ _ _ h hStep => Running.step h hStep) (running_installed now)).mono
    fun _ h => h.listening.saved.legible

end Fleet

end ServiceBook

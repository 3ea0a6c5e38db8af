import ServiceBook.App.Addressing
import ServiceBook.Utilities.UTC

/-! Several installations that share the one collection. Their actions, the
arrival of their requests at the server and the delivery of snapshots to them
interleave in any order. A document has no owner: an installation shows and
addresses whatever a snapshot has brought. -/
namespace ServiceBook

structure Network (ι : Type) where
  apps : ι → App
  server : Collection
  /-- Who has created which document. -/
  created : List (ι × String)
  /-- Who has been sent which document. -/
  seen : List (ι × String)

namespace Network

/-- An action on one installation, the arrival of its oldest request with the id
for a new document, or the delivery of the current snapshot to it. Firestore puts
the installation's own waiting requests on top of a snapshot; here it comes bare. -/
inductive Event (ι : Type) where
  | act (i : ι) (action : Action)
  | commit (i : ι) (documentID : String)
  | deliver (i : ι)

variable {ι : Type} [DecidableEq ι]

/-- Snapshots come from the server only. -/
def Acts : Action → Bool
  | .snapshot _ => false
  | _ => true

/-- The document that a request creates. -/
def createdBy (i : ι) (documentID : String) : FirestoreWrite → List (ι × String)
  | .addDocument _ => [(i, documentID)]
  | _ => []

def step (P : Platform) (net : Network ι) : Event ι → Option (Network ι)
  | .act i action =>
      if Acts action then
        ((net.apps i).step P action).map fun app => { net with apps := Function.update net.apps i app }
      else none
  | .commit i documentID =>
      match (net.apps i).outbox with
      | [] => none
      | request :: rest =>
          if request.target = none → documentID ∉ net.created.map Prod.snd then
            some { net with
              apps := Function.update net.apps i { net.apps i with outbox := rest }
              server := request.apply documentID net.server
              created := createdBy i documentID request ++ net.created }
          else none
  | .deliver i =>
      ((net.apps i).step P (.snapshot net.server.entries)).map fun app => { net with
        apps := Function.update net.apps i app
        seen := net.server.keys.map (i, ·) ++ net.seen }

/-- Fresh installations and an empty collection. -/
def installed (now : ι → Date) : Network ι := ⟨fun i => App.installed (now i), .empty, [], []⟩

/-- The steps, by the party that moves. -/
inductive Stepped (P : Platform) (net : Network ι) : Event ι → Network ι → Prop where
  | act (i : ι) (action : Action) (app : App) (hActs : Acts action = true)
      (hApp : (net.apps i).step P action = some app) :
      Stepped P net (.act i action) { net with apps := Function.update net.apps i app }
  | commit (i : ι) (documentID : String) (request : FirestoreWrite) (rest : List FirestoreWrite)
      (hOutbox : (net.apps i).outbox = request :: rest)
      (hNew : request.target = none → documentID ∉ net.created.map Prod.snd) :
      Stepped P net (.commit i documentID) { net with
        apps := Function.update net.apps i { net.apps i with outbox := rest }
        server := request.apply documentID net.server
        created := createdBy i documentID request ++ net.created }
  | deliver (i : ι) (app : App) (hApp : (net.apps i).step P (.snapshot net.server.entries) = some app) :
      Stepped P net (.deliver i) { net with
        apps := Function.update net.apps i app
        seen := net.server.keys.map (i, ·) ++ net.seen }

theorem stepped_of_step {P : Platform} {net net' : Network ι} {e : Event ι}
    (hStep : net.step P e = some net') : Stepped P net e net' := by
  cases e with
  | act i action =>
      rw [Network.step] at hStep
      split at hStep
      · next hActs =>
          obtain ⟨app, hApp, rfl⟩ := Option.map_eq_some_iff.mp hStep
          exact .act i action app hActs hApp
      · cases hStep
  | commit i documentID =>
      rw [Network.step] at hStep
      split at hStep
      · cases hStep
      · next request rest hOutbox =>
          split at hStep
          · next hNew =>
              obtain rfl := Option.some.inj hStep
              exact .commit i documentID request rest hOutbox hNew
          · cases hStep
  | deliver i =>
      obtain ⟨app, hApp, rfl⟩ := Option.map_eq_some_iff.mp hStep
      exact .deliver i app hApp

/-- What an installation changes is a document that it has created. -/
def OwnDocuments (net : Network ι) : Prop :=
  ∀ i, ∀ request ∈ (net.apps i).outbox, ∀ id ∈ request.target, (i, id) ∈ net.created

/-- What an installation changes is a document that it has been sent, and that
some installation has created. -/
def SeenDocuments (net : Network ι) : Prop :=
  ∀ i, ∀ request ∈ (net.apps i).outbox, ∀ id ∈ request.target,
    (i, id) ∈ net.seen ∧ ∃ j, (j, id) ∈ net.created

/-- Ids spread from the installation that creates a document to the server, from
there to the installations, and from their gadgets to their requests. -/
structure Spread (net : Network ι) : Prop where
  placed : ∀ i, FormsPlaced (net.apps i)
  server : ∀ id ∈ net.server.keys, ∃ j, (j, id) ∈ net.created
  seen : ∀ entry ∈ net.seen, ∃ j, (j, entry.2) ∈ net.created
  gadgets : ∀ i, GadgetsKnown (fun id => (i, id) ∈ net.seen) (net.apps i)
  requests : ∀ i, ∀ request ∈ (net.apps i).outbox, ∀ id ∈ request.target, (i, id) ∈ net.seen

section Spread

variable {P : Platform} {net net' : Network ι} {e : Event ι}

omit [DecidableEq ι] in
theorem Spread.seenDocuments (h : Spread net) : net.SeenDocuments := fun i request hRequest id hTarget =>
  ⟨h.requests i request hRequest id hTarget, h.seen _ (h.requests i request hRequest id hTarget)⟩

/-- A property of every installation, after one of them has changed. -/
theorem forall_update {R : ι → App → Prop} {i : ι} {app : App} (h : ∀ j, R j (net.apps j)) (hApp : R i app)
    (j : ι) : R j (Function.update net.apps i app j) := by
  by_cases hSame : j = i
  · subst hSame
    rw [Function.update_self]
    exact hApp
  · rw [Function.update_of_ne hSame]
    exact h j

theorem Spread.act (h : Spread net) {i : ι} {action : Action} {app : App} (hActs : Acts action = true)
    (hApp : (net.apps i).step P action = some app) :
    Spread { net with apps := Function.update net.apps i app } := by
  have hBrings : action.Brings fun id => (i, id) ∈ net.seen := by
    cases action with
    | snapshot documents => cases hActs
    | _ => trivial
  obtain ⟨issued, hOutbox, hIssued⟩ := issued_known (h.placed i) (h.gadgets i) hApp
  refine ⟨forall_update h.placed ((h.placed i).step hApp), h.server, h.seen,
    forall_update (R := fun j app => GadgetsKnown (fun id => (j, id) ∈ net.seen) app) h.gadgets
      ((h.gadgets i).step (h.placed i) hBrings hApp), ?_⟩
  refine forall_update (R := fun j app => ∀ request ∈ app.outbox, ∀ id ∈ request.target, (j, id) ∈ net.seen)
    h.requests fun request hRequest => ?_
  rw [hOutbox, List.mem_append] at hRequest
  rcases hRequest with hOld | hNew
  · exact h.requests i request hOld
  · exact hIssued request hNew

/-- A request that reaches the server changes a document that was seen, or
creates one. -/
theorem Spread.commit (h : Spread net) {i : ι} {documentID : String} {request : FirestoreWrite}
    {rest : List FirestoreWrite} (hOutbox : (net.apps i).outbox = request :: rest) :
    Spread { net with
      apps := Function.update net.apps i { net.apps i with outbox := rest }
      server := request.apply documentID net.server
      created := createdBy i documentID request ++ net.created } := by
  have hMono : ∀ {id : String}, (∃ j, (j, id) ∈ net.created) →
      ∃ j, (j, id) ∈ createdBy i documentID request ++ net.created := by
    intro id hCreated
    obtain ⟨j, hMem⟩ := hCreated
    exact ⟨j, List.mem_append_right _ hMem⟩
  refine ⟨forall_update h.placed ⟨(h.placed i).addTab, (h.placed i).editor⟩, ?_,
    fun entry hEntry => hMono (h.seen entry hEntry),
    forall_update (R := fun j app => GadgetsKnown (fun id => (j, id) ∈ net.seen) app) h.gadgets
      ((h.gadgets i).of_eq rfl rfl), ?_⟩
  · intro id hKey
    cases request with
    | addDocument data =>
        rcases SortedMap.Map.mem_keys_set.mp hKey with rfl | hOld
        · exact ⟨i, List.mem_append_left _ (List.mem_singleton_self _)⟩
        · exact hMono (h.server id hOld)
    | setData target data =>
        rcases SortedMap.Map.mem_keys_set.mp hKey with rfl | hOld
        · have hHead : FirestoreWrite.setData id data ∈ (net.apps i).outbox := by
            rw [hOutbox]
            exact List.mem_cons_self ..
          exact hMono (h.seen _ (h.requests i _ hHead id rfl))
        · exact hMono (h.server id hOld)
    | delete target => exact hMono (h.server id (SortedMap.Map.mem_keys_erase.mp hKey).1)
  · refine forall_update
      (R := fun j app => ∀ request ∈ app.outbox, ∀ id ∈ request.target, (j, id) ∈ net.seen)
      h.requests fun other hOther => ?_
    apply h.requests i other
    rw [hOutbox]
    exact List.mem_cons_of_mem _ hOther

/-- A snapshot shows an installation what is on the server. -/
theorem Spread.deliver (h : Spread net) {i : ι} {app : App}
    (hApp : (net.apps i).step P (.snapshot net.server.entries) = some app) :
    Spread { net with
      apps := Function.update net.apps i app
      seen := net.server.keys.map (i, ·) ++ net.seen } := by
  have hMono : ∀ {entry : ι × String}, entry ∈ net.seen → entry ∈ net.server.keys.map (i, ·) ++ net.seen :=
    fun hEntry => List.mem_append_right _ hEntry
  have hGadgets : ∀ j, GadgetsKnown (fun id => (j, id) ∈ net.server.keys.map (i, ·) ++ net.seen)
      (net.apps j) := fun j => (h.gadgets j).mono fun id hSeen => hMono hSeen
  have hBrings : (Action.snapshot net.server.entries).Brings
      fun id => (i, id) ∈ net.server.keys.map (i, ·) ++ net.seen := by
    intro document hDocument
    exact List.mem_append_left _ (List.mem_map_of_mem (List.mem_map_of_mem hDocument))
  obtain ⟨issued, hOutbox, hIssued⟩ := issued_known (h.placed i) (h.gadgets i) hApp
  refine ⟨forall_update h.placed ((h.placed i).step hApp), h.server, ?_,
    forall_update (R := fun j app => GadgetsKnown
      (fun id => (j, id) ∈ net.server.keys.map (i, ·) ++ net.seen) app) hGadgets
      ((hGadgets i).step (h.placed i) hBrings hApp), ?_⟩
  · intro entry hEntry
    rcases List.mem_append.mp hEntry with hNew | hOld
    · obtain ⟨id, hKey, rfl⟩ := List.mem_map.mp hNew
      exact h.server id hKey
    · exact h.seen entry hOld
  · refine forall_update (R := fun j app => ∀ request ∈ app.outbox, ∀ id ∈ request.target,
      (j, id) ∈ net.server.keys.map (i, ·) ++ net.seen)
      (fun j request hRequest id hTarget => hMono (h.requests j request hRequest id hTarget))
      fun request hRequest id hTarget => ?_
    rw [hOutbox, List.mem_append] at hRequest
    rcases hRequest with hOld | hNew
    · exact hMono (h.requests i request hOld id hTarget)
    · exact hMono (hIssued request hNew id hTarget)

theorem Spread.step (h : Spread net) (hStep : net.step P e = some net') : Spread net' := by
  cases stepped_of_step hStep with
  | act i action app hActs hApp => exact h.act hActs hApp
  | commit i documentID request rest hOutbox _ => exact h.commit hOutbox
  | deliver i app hApp => exact h.deliver hApp

omit [DecidableEq ι] in
theorem spread_installed (now : ι → Date) : Spread (installed now) where
  placed := fun i => formsPlaced_installed (now i)
  server := fun id hNone => by cases hNone
  seen := fun entry hNone => by cases hNone
  gadgets := fun i => gadgetsKnown_installed (now i)
  requests := fun i request hNone => by cases hNone

end Spread

/-- For any number of installations and any interleaving, each of them changes
only documents that some installation has created and that it has been sent. -/
theorem seen_documents (P : Platform) (now : ι → Date) (events : List (Event ι)) :
    Transition.Always (step P) SeenDocuments (installed now) events :=
  (Transition.always_of_invariant (fun _ _ _ h hStep => Spread.step h hStep) (spread_installed now)).mono
    fun _ h => h.seenDocuments

/-- An installation that is alone changes only its own documents. -/
theorem own_documents_alone [Subsingleton ι] (P : Platform) (now : ι → Date) (events : List (Event ι)) :
    Transition.Always (step P) OwnDocuments (installed now) events :=
  (Transition.always_of_invariant (fun _ _ _ h hStep => Spread.step h hStep) (spread_installed now)).mono
    fun _ h i request hRequest id hTarget => by
      obtain ⟨_, j, hCreated⟩ := h.seenDocuments i request hRequest id hTarget
      rwa [Subsingleton.elim i j]

/-- Two installations add one vehicle each, and one of them deletes the first
row it is shown. -/
private def rivalEvents : List (Event Bool) :=
  (addingActions "5000" "200" 1700000000 "A1").map (.act false) ++ [.commit false "d1"] ++
    (addingActions "5000" "200" 1700000000 "B1").map (.act true) ++
    [.commit true "d2", .deliver true, .act true (.selectTab .allVehicles),
      .act true (.allVehiclesCommitDelete 0)]

private theorem rivalEvents_deletes :
    (Transition.run (step UTC.platform) (installed fun _ => 1700000000) rivalEvents).map (fun net =>
      ((net.apps true).outbox, net.created)) =
        some ([.delete "d1"], [(true, "d2"), (false, "d1")]) := by
  decide +kernel

/-- The document it deletes is the other's. -/
theorem not_own_documents :
    ¬ ∀ (P : Platform) (now : Bool → Date) (events : List (Event Bool)),
      Transition.Always (step P) OwnDocuments (installed now) events := by
  intro h
  obtain ⟨net, hRun, hEnd⟩ := Option.map_eq_some_iff.mp rivalEvents_deletes
  obtain ⟨hOutbox, hCreated⟩ := Prod.mk.inj hEnd
  have hOwn := (h UTC.platform (fun _ => 1700000000) rivalEvents).of_run hRun true (.delete "d1")
    (by rw [hOutbox]; exact List.mem_singleton_self _) "d1" rfl
  rw [hCreated] at hOwn
  revert hOwn
  decide

end Network

end ServiceBook

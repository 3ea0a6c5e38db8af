import ServiceBook.System.Network

/-! Deletion on the server. An installation keeps the gadget of a row as long
as its editor is open, and the update that Save sends is a `setData`, which
creates a document that is not there. -/
namespace ServiceBook

namespace Network

variable {ι : Type} [DecidableEq ι] {P : Platform} {net net' : Network ι} {e : Event ι}

/-- What a step does to the server: nothing, or the request that arrives. -/
theorem server_of_step (hStep : net.step P e = some net') :
    (net'.server = net.server ∧ net'.created = net.created ∧ ∀ i documentID, e ≠ .commit i documentID) ∨
      ∃ i documentID request rest, e = .commit i documentID ∧ (net.apps i).outbox = request :: rest ∧
        (request.target = none → documentID ∉ net.created.map Prod.snd) ∧
        net'.server = request.apply documentID net.server ∧
        net'.created = createdBy i documentID request ++ net.created := by
  cases stepped_of_step hStep with
  | act i action app _ _ => exact .inl ⟨rfl, rfl, by simp⟩
  | commit i documentID request rest hOutbox hNew =>
      exact .inr ⟨i, documentID, request, rest, rfl, hOutbox, hNew, rfl, rfl⟩
  | deliver i app _ => exact .inl ⟨rfl, rfl, by simp⟩

/-- A document goes only by a deletion. -/
theorem delete_of_gone (hStep : net.step P e = some net') {id : String}
    (hKey : id ∈ net.server.keys) (hGone : id ∉ net'.server.keys) :
    ∃ i documentID rest, e = .commit i documentID ∧ (net.apps i).outbox = .delete id :: rest := by
  rcases server_of_step hStep with ⟨hSame, _, _⟩ | ⟨i, documentID, request, rest, rfl, hOutbox, _, hServer, _⟩
  · rw [hSame] at hGone
    exact absurd hKey hGone
  · rw [hServer] at hGone
    cases request with
    | addDocument data => exact absurd (SortedMap.Map.mem_keys_set.mpr (.inr hKey)) hGone
    | setData target data => exact absurd (SortedMap.Map.mem_keys_set.mpr (.inr hKey)) hGone
    | delete target =>
        by_cases hTarget : id = target
        · exact ⟨i, documentID, rest, rfl, hTarget ▸ hOutbox⟩
        · exact absurd (SortedMap.Map.mem_keys_erase.mpr ⟨hKey, hTarget⟩) hGone

/-- What a step does to one installation: nothing, an action of its own, or the
arrival of its oldest request. -/
theorem app_of_step (hStep : net.step P e = some net') (j : ι) :
    net'.apps j = net.apps j ∨
      (∃ action, (e = .act j action ∨ ∃ documents, action = .snapshot documents) ∧
        (net.apps j).step P action = some (net'.apps j)) ∨
      ∃ request, (net.apps j).outbox = request :: (net'.apps j).outbox := by
  cases stepped_of_step hStep with
  | act i action app _ hApp =>
      by_cases hSame : j = i
      · subst hSame
        exact .inr (.inl ⟨action, .inl rfl, by simpa using hApp⟩)
      · exact .inl (Function.update_of_ne hSame ..)
  | commit i documentID request rest hOutbox _ =>
      by_cases hSame : j = i
      · subst hSame
        exact .inr (.inr ⟨request, by simpa using hOutbox⟩)
      · exact .inl (Function.update_of_ne hSame ..)
  | deliver i app hApp =>
      by_cases hSame : j = i
      · subst hSame
        exact .inr (.inl ⟨_, .inr ⟨_, rfl⟩, by simpa using hApp⟩)
      · exact .inl (Function.update_of_ne hSame ..)

/-- An update that is on its way after a step was so before, or it has just been
saved from an editor. -/
theorem update_of_step (hSpread : net.Spread) (hStep : net.step P e = some net')
    {j : ι} {id : String} {data : KeyedCoding.JsonObject} (hUpdate : .setData id data ∈ (net'.apps j).outbox) :
    .setData id data ∈ (net.apps j).outbox ∨
      ∃ uuid form gadget, e = .act j (.clkSave uuid) ∧ (net.apps j).editor = some form ∧
        form.gadgetToUpdate = some gadget ∧ gadget.id = some id := by
  rcases app_of_step hStep j with hSame | ⟨action, hAction, hApp⟩ | ⟨request, hOutbox⟩
  · exact .inl (hSame ▸ hUpdate)
  · obtain ⟨issued, hOutbox, hIssued⟩ := issued_of_step (hSpread.placed j) hApp
    rw [hOutbox, List.mem_append] at hUpdate
    rcases hUpdate with hOld | hNew
    · exact .inl hOld
    · cases hIssued _ hNew with
      | update uuid form gadget _ _ hForm hGadget hID =>
          rcases hAction with hAct | ⟨documents, hSnapshot⟩
          · exact .inr ⟨uuid, form, gadget, hAct, hForm, hGadget, hID⟩
          · cases hSnapshot
  · rw [hOutbox]
    exact .inl (List.mem_cons_of_mem _ hUpdate)

end Network

/-- The network and the ids of the documents that have been deleted so far. -/
structure Watched (ι : Type) where
  net : Network ι
  deleted : List String := []

namespace Watched

variable {ι : Type} [DecidableEq ι]

/-- A step of the network. What was on the server before it and is not there
after it has been deleted. -/
def step (P : Platform) (watched : Watched ι) (e : Network.Event ι) : Option (Watched ι) :=
  (watched.net.step P e).map fun net =>
    { net := net
      deleted := watched.deleted ++ watched.net.server.keys.filter fun id => id ∉ net.server.keys }

def installed (now : ι → Date) : Watched ι := { net := Network.installed now }

/-- No document that has been deleted exists. -/
def DeletionFinal (watched : Watched ι) : Prop :=
  ∀ id ∈ watched.deleted, id ∉ watched.net.server.keys

/-- No update of a deleted document reaches the server. -/
def NoLateUpdate (watched : Watched ι) : Network.Event ι → Prop
  | .commit i _ => ∀ id data rest,
      (watched.net.apps i).outbox = .setData id data :: rest → id ∉ watched.deleted
  | _ => True

/-- Deleted documents were created, so their ids are not given to new ones. -/
structure Accounted (watched : Watched ι) : Prop where
  spread : watched.net.Spread
  deleted : ∀ id ∈ watched.deleted, id ∈ watched.net.created.map Prod.snd

/-- No update of a deleted document is on its way. -/
def NoneLate (watched : Watched ι) : Prop :=
  ∀ i id data, .setData id data ∈ (watched.net.apps i).outbox → id ∉ watched.deleted

/-- No editor saves the gadget of a deleted document, and no document is deleted
while an update of it is on its way. -/
def Timely (watched : Watched ι) : Network.Event ι → Prop
  | .act i (.clkSave _) => ∀ form gadget id, (watched.net.apps i).editor = some form →
      form.gadgetToUpdate = some gadget → gadget.id = some id → id ∉ watched.deleted
  | .commit i _ => ∀ id rest, (watched.net.apps i).outbox = .delete id :: rest →
      ∀ j data, .setData id data ∉ (watched.net.apps j).outbox
  | _ => True

section Deletion

variable {P : Platform} {watched watched' : Watched ι} {e : Network.Event ι}

theorem mem_deleted_of_step (hStep : watched.step P e = some watched') {id : String} :
    id ∈ watched'.deleted ↔
      id ∈ watched.deleted ∨ (id ∈ watched.net.server.keys ∧ id ∉ watched'.net.server.keys) := by
  obtain ⟨net, _, rfl⟩ := Option.map_eq_some_iff.mp hStep
  simp

/-- What has just been deleted is not there, so only older deletions matter. -/
theorem deletionFinal_of_step (hStep : watched.step P e = some watched') :
    watched'.DeletionFinal ↔ ∀ id ∈ watched.deleted, id ∉ watched'.net.server.keys := by
  constructor
  · intro h id hDeleted
    exact h id ((mem_deleted_of_step hStep).mpr (.inl hDeleted))
  · intro h id hDeleted
    rcases (mem_deleted_of_step hStep).mp hDeleted with hOld | ⟨_, hGone⟩
    · exact h id hOld
    · exact hGone

theorem Accounted.step (h : Accounted watched) (hStep : watched.step P e = some watched') :
    Accounted watched' := by
  obtain ⟨net, hNet, rfl⟩ := Option.map_eq_some_iff.mp hStep
  refine ⟨h.spread.step hNet, fun id hDeleted => ?_⟩
  have hCreated : id ∈ watched.net.created.map Prod.snd := by
    rcases (mem_deleted_of_step hStep).mp hDeleted with hOld | ⟨hKey, _⟩
    · exact h.deleted id hOld
    · obtain ⟨j, hMem⟩ := h.spread.server id hKey
      exact List.mem_map.mpr ⟨_, hMem, rfl⟩
  rcases Network.server_of_step hNet with ⟨_, hSame, _⟩ | ⟨i, documentID, request, rest, _, _, _, _, hGrown⟩
  · rw [hSame]
    exact hCreated
  · rw [hGrown, List.map_append]
    exact List.mem_append_right _ hCreated

/-- One step keeps deletions final exactly if it is no late update. -/
theorem Accounted.deletionFinal_iff (h : Accounted watched) (hFinal : watched.DeletionFinal)
    (hStep : watched.step P e = some watched') : watched'.DeletionFinal ↔ watched.NoLateUpdate e := by
  rw [deletionFinal_of_step hStep]
  obtain ⟨net, hNet, rfl⟩ := Option.map_eq_some_iff.mp hStep
  rcases Network.server_of_step hNet with ⟨hSame, _, hOther⟩ |
    ⟨i, documentID, request, rest, rfl, hOutbox, hNew, hServer, _⟩
  · rw [hSame]
    refine iff_of_true hFinal ?_
    cases e with
    | commit i documentID => exact absurd rfl (hOther i documentID)
    | _ => trivial
  · rw [hServer]
    cases request with
    | addDocument data =>
        have hFresh : documentID ∉ watched.deleted := fun hDeleted => hNew rfl (h.deleted _ hDeleted)
        refine iff_of_true (fun id hDeleted hKey => ?_) fun id data' rest' hHead => ?_
        · rcases SortedMap.Map.mem_keys_set.mp hKey with rfl | hOld
          · exact hFresh hDeleted
          · exact hFinal id hDeleted hOld
        · rw [hOutbox] at hHead
          cases hHead
    | setData target data =>
        constructor
        · intro hGone id data' rest' hHead hDeleted
          rw [hOutbox] at hHead
          cases hHead
          exact hGone _ hDeleted (SortedMap.Map.mem_keys_set.mpr (.inl rfl))
        · intro hLate id hDeleted hKey
          rcases SortedMap.Map.mem_keys_set.mp hKey with rfl | hOld
          · exact hLate _ data rest hOutbox hDeleted
          · exact hFinal id hDeleted hOld
    | delete target =>
        refine iff_of_true (fun id hDeleted hKey => ?_) fun id data' rest' hHead => ?_
        · exact hFinal id hDeleted (SortedMap.Map.mem_keys_erase.mp hKey).1
        · rw [hOutbox] at hHead
          cases hHead

theorem NoneLate.step (h : watched.NoneLate) (hAccounted : Accounted watched) (hTimely : watched.Timely e)
    (hStep : watched.step P e = some watched') : watched'.NoneLate := by
  intro j id data hUpdate hDeleted
  obtain ⟨net, hNet, rfl⟩ := Option.map_eq_some_iff.mp hStep
  have hWhen := (mem_deleted_of_step hStep).mp hDeleted
  rcases Network.update_of_step hAccounted.spread hNet hUpdate with
    hOld | ⟨uuid, form, gadget, rfl, hForm, hGadget, hID⟩
  · rcases hWhen with hBefore | ⟨hKey, hGone⟩
    · exact h j id data hOld hBefore
    · obtain ⟨i, documentID, rest, rfl, hOutbox⟩ := Network.delete_of_gone hNet hKey hGone
      exact hTimely id rest hOutbox j data hOld
  · rcases hWhen with hBefore | ⟨hKey, hGone⟩
    · exact hTimely form gadget id hForm hGadget hID hBefore
    · obtain ⟨i, documentID, rest, hCommit, _⟩ := Network.delete_of_gone hNet hKey hGone
      cases hCommit

omit [DecidableEq ι] in
/-- An update that arrives was on its way. -/
theorem NoneLate.noLateUpdate (h : watched.NoneLate) (e : Network.Event ι) : watched.NoLateUpdate e := by
  cases e with
  | commit i documentID =>
      intro id data rest hOutbox
      apply h i id data
      rw [hOutbox]
      exact List.mem_cons_self ..
  | _ => trivial

omit [DecidableEq ι] in
theorem accounted_installed (now : ι → Date) : Accounted (installed now) where
  spread := Network.spread_installed now
  deleted := fun id hNone => by cases hNone

omit [DecidableEq ι] in
theorem deletionFinal_installed (now : ι → Date) : (installed now).DeletionFinal := by
  intro id hNone
  cases hNone

end Deletion

/-- Deletion is final in exactly the runs in which no update of a deleted
document reaches the server. -/
theorem deletion_final_iff (P : Platform) (now : ι → Date) (events : List (Network.Event ι)) :
    Transition.Always (step P) DeletionFinal (installed now) events ↔
      Transition.Throughout (step P) NoLateUpdate (installed now) events :=
  Transition.always_iff_throughout (I := Accounted) (fun _ _ _ h hStep => h.step hStep)
    (fun _ _ _ h hFinal hStep => h.deletionFinal_iff hFinal hStep)
    (accounted_installed now) (deletionFinal_installed now)

/-- What the users can see to: deletion is final as long as nobody saves an edit
of a deleted vehicle or deletes one that is being updated. -/
theorem deletion_final_of_timely (P : Platform) (now : ι → Date) {events : List (Network.Event ι)}
    (hTimely : Transition.Throughout (step P) Timely (installed now) events) :
    Transition.Always (step P) DeletionFinal (installed now) events := by
  have hNone : (installed now).NoneLate := by
    intro i id data _ hDeleted
    cases hDeleted
  refine (Transition.always_of_throughout (I := fun watched => Accounted watched ∧ watched.NoneLate ∧
    watched.DeletionFinal) ?_ ⟨accounted_installed now, hNone, deletionFinal_installed now⟩ hTimely).mono
      fun _ h => h.2.2
  rintro watched e watched' ⟨hAccounted, hNone, hFinal⟩ hMeets hStep
  exact ⟨hAccounted.step hStep, hNone.step hAccounted hMeets hStep,
    (hAccounted.deletionFinal_iff hFinal hStep).mpr (hNone.noLateUpdate e)⟩

/-- Both installations show the document of the first, the first opens it in the
editor, the second deletes it, and then the first saves. -/
private def lateEvents : List (Network.Event Bool) :=
  (addingActions "5000" "200" 1700000000 "A1").map (.act false) ++ [.commit false "d1"] ++
    (addingActions "5000" "200" 1700000000 "B1").map (.act true) ++
    [.commit true "d2", .deliver false, .deliver true, .act false (.selectTab .allVehicles),
      .act false (.allVehiclesDidSelectRow 0), .act true (.selectTab .allVehicles),
      .act true (.allVehiclesCommitDelete 0), .commit true "", .act false (.clkSave "A2"),
      .commit false ""]

private theorem lateEvents_recreates :
    (Transition.run (step UTC.platform) (installed fun _ => 1700000000) lateEvents).map (fun watched =>
      (watched.deleted, watched.net.server.keys)) = some (["d1"], ["d1", "d2"]) := by
  decide +kernel

/-- The deleted document is there again. -/
theorem deletion_not_final :
    ¬ ∀ (P : Platform) (now : Bool → Date) (events : List (Network.Event Bool)),
      Transition.Always (step P) DeletionFinal (installed now) events := by
  intro h
  obtain ⟨watched, hRun, hEnd⟩ := Option.map_eq_some_iff.mp lateEvents_recreates
  obtain ⟨hDeleted, hKeys⟩ := Prod.mk.inj hEnd
  have hFinal := (h UTC.platform (fun _ => 1700000000) lateEvents).of_run hRun "d1"
    (by rw [hDeleted]; exact List.mem_singleton_self _)
  rw [hKeys] at hFinal
  exact hFinal (List.mem_cons_self ..)

end Watched

end ServiceBook

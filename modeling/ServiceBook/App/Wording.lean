import ServiceBook.App.Reminders
import ServiceBook.AddEditVehicle.Reopen

/-! What the pending requests say. A request carries a copy of its vehicle that
is made when it is scheduled, and no screen changes a stored vehicle without
scheduling again, so the copies are those of the records as they are stored. -/
namespace ServiceBook

open DatabaseManager

/-- The request that `setLocalNotification` builds for a record that is due in the future. -/
def Vehicle.request (now : Date) (vehicle : Vehicle) : Option UNNotificationRequest := do
  let objVehicle ← (allVehicleOf vehicle).toOption
  let serviceDueDate ← vehicle.serviceDueDate
  if now < serviceDueDate then (AppSharedInstance.notificationRequest objVehicle serviceDueDate).toOption else none

/-- The request is the one that is built for a stored vehicle. -/
def SpeaksOf (records : List AllVehiclesI) (request : UNNotificationRequest) : Prop :=
  ∃ objVehicle ∈ records, objVehicle.serviceDueDate = some request.trigger ∧
    AppSharedInstance.notificationRequest objVehicle request.trigger = .ok request

section Wording

variable {P : Platform} {app app' : App} {action : Action} {records : List AllVehiclesI}
  {objVehicle : AllVehiclesI} {request : UNNotificationRequest} {now : Date}

theorem request_addressed {notificationDate : Date}
    (h : AppSharedInstance.notificationRequest objVehicle notificationDate = .ok request) :
    request.identifier = objVehicle.vehicleID ∧ request.trigger = notificationDate := by
  simp only [AppSharedInstance.notificationRequest, bind_eq_ok, pure_eq_ok, Except.ok.injEq] at h
  obtain ⟨_, _, _, _, _, _, _, _, rfl⟩ := h
  exact ⟨rfl, rfl⟩

/-- The stored values tell which vehicles they were written from. -/
theorem map_stored_inj {entries entries' : List AllVehiclesI}
    (h : ∀ objVehicle ∈ entries, objVehicle.vehicleType.isSome ∧ Narrow objVehicle)
    (h' : ∀ objVehicle ∈ entries', objVehicle.vehicleType.isSome ∧ Narrow objVehicle)
    (hValues : entries.map stored = entries'.map stored) : entries = entries' := by
  have hRead {entries : List AllVehiclesI}
      (h : ∀ objVehicle ∈ entries, objVehicle.vehicleType.isSome ∧ Narrow objVehicle) :
      (entries.map stored).map (fun vehicle => (allVehicleOf vehicle).toOption) = entries.map some := by
    rw [List.map_map]
    exact List.map_congr_left fun objVehicle hMem =>
      congrArg Except.toOption (allVehicleOf_stored (h objVehicle hMem).1 (h objVehicle hMem).2)
  refine List.map_injective_iff.mpr (Option.some_injective _) ?_
  rw [← hRead h, ← hRead h', hValues]

theorem DatabaseManager.Holds.readable {context : ManagedObjectContext} (h : Holds context records) :
    ∀ objVehicle ∈ records, objVehicle.vehicleType.isSome ∧ Narrow objVehicle :=
  fun objVehicle hMem => ⟨(h.storable objVehicle hMem).typed, (h.storable objVehicle hMem).narrow⟩

theorem DatabaseManager.Holds.unique {context : ManagedObjectContext} {records' : List AllVehiclesI}
    (h : Holds context records) (h' : Holds context records') : records = records' :=
  map_stored_inj h.readable h'.readable (h.values.symm.trans h'.values)

/-- A vehicle that is added is the last of the records. -/
theorem DatabaseManager.Holds.of_added {context context' : ManagedObjectContext} {records' : List AllVehiclesI}
    {outcome : StoreOutcome} {calls : List Bool} (h : Holds context records) (h' : Holds context' records')
    (hType : objVehicle.vehicleType.isSome)
    (hAdd : addRecord outcome context objVehicle = .ok (context', calls)) : records' = records ++ [objVehicle] := by
  refine map_stored_inj h'.readable (fun v hMem => ?_) ?_
  · rcases List.mem_append.mp hMem with hOld | hNew
    · exact h.readable v hOld
    · obtain rfl := List.mem_singleton.mp hNew
      exact ⟨hType, (addRecord_eq_ok.mp hAdd).1⟩
  · rw [← h'.objects_values, List.map_append, ← h.objects_values]
    exact values_of_addRecord hAdd

/-- The request that is scheduled for a record speaks of it. -/
theorem speaksOf_scheduled {due : Date} (hMem : objVehicle ∈ records) (hDue : objVehicle.serviceDueDate = some due)
    (hRequest : AppSharedInstance.notificationRequest objVehicle due = .ok request) : SpeaksOf records request := by
  obtain ⟨_, hTrigger⟩ := request_addressed hRequest
  exact ⟨objVehicle, hMem, by rw [hDue, hTrigger], by rw [hTrigger]; exact hRequest⟩

theorem mem_add {pending : PendingRequests} {added : UNNotificationRequest}
    (h : request ∈ pending.add now added) :
    request = added ∨ request ∈ pending ∧ request.identifier ≠ added.identifier := by
  rcases List.mem_append.mp h with hOld | hNew
  · obtain ⟨hMem, hOther⟩ := List.mem_filter.mp hOld
    exact .inr ⟨hMem, by simpa using hOther⟩
  · split at hNew
    · exact .inl (List.mem_singleton.mp hNew)
    · cases hNew

/-- A pending request is that of a vehicle just saved, or it has been pending
before, and its record is still there unless it was past due. -/
theorem KeepsRecords.scheduled (h : KeepsRecords app records) (hStep : app.step P action = some app')
    {records' : List AllVehiclesI} (hNext : KeepsRecords app' records') (hPending : request ∈ app'.pendingRequests) :
    SpeaksOf records' request ∨ request ∈ app.pendingRequests ∧ ∀ record ∈ records,
      record.vehicleID = request.identifier → record ∈ records' ∨ pastDue app.now record.serviceDueDate = true := by
  have hQuiet (hContext : app'.context = app.context) (hOld : request ∈ app.pendingRequests) :
      request ∈ app.pendingRequests ∧ ∀ record ∈ records, record.vehicleID = request.identifier →
        record ∈ records' ∨ pastDue app.now record.serviceDueDate = true := by
    obtain rfl := h.holds.unique (hContext ▸ hNext.holds)
    exact ⟨hOld, fun record hRecord _ => .inl hRecord⟩
  cases step_stepped h.placed hStep with
  | clock now hLater => exact .inr (hQuiet rfl (List.mem_filter.mp hPending).1)
  | selectTab tab _ _ hAppear =>
      have hSame := viewWillAppear_refreshed hAppear
      exact .inr (hQuiet hSame.context (hSame.pendingRequests ▸ hPending))
  | allVehiclesDelete row objVehicle gadgetObj context success arrVehicles _ _ _ hDelete _ =>
      obtain rfl := (h.deleted_holds hDelete).unique hNext.holds
      obtain ⟨hOld, hOther⟩ := List.mem_filter.mp hPending
      refine .inr ⟨hOld, fun record hRecord hID => .inl (List.mem_filter.mpr ⟨hRecord, ?_⟩)⟩
      simpa [hID] using hOther
  | historyDelete row objVehicle context success arrVehicles hShows hVehicle hDelete _ =>
      obtain ⟨hListed, hPast⟩ := h.shown.history hShows objVehicle (List.mem_of_getElem? hVehicle)
      obtain rfl := (h.deleted_holds hDelete).unique hNext.holds
      refine .inr ⟨hPending, fun record hRecord _ => ?_⟩
      by_cases hSame : record.vehicleID = objVehicle.vehicleID
      · obtain rfl := h.holds.distinct.eq_of_key_eq hRecord (h.mem_of_listed hListed) hSame
        exact .inr hPast
      · exact .inl (List.mem_filter.mpr ⟨hRecord, by simpa using hSame⟩)
  | form slot e form form' _ _ =>
      cases slot with
      | addTab => exact .inr (hQuiet rfl hPending)
      | editor => exact .inr (hQuiet rfl hPending)
  | saveAdd uuid objVehicle text context success gadget due added form hShows hRule hAdd _ hDue hRequest _ =>
      have hSaved := savedVehicle_of_rule hRule
      obtain rfl := h.holds.of_added hNext.holds hSaved.vehicleType hAdd
      rcases mem_add hPending with rfl | ⟨hOld, _⟩
      · exact .inl (speaksOf_scheduled (by simp) hDue hRequest)
      · exact .inr ⟨hOld, fun record hRecord _ => .inl (List.mem_append_left _ hRecord)⟩
  | saveEdit uuid form objVehicle text gadgetObj context success gadget due added _ hForm hRule _ hEdit _ hDue
      hRequest hAppear =>
      have hSame := viewWillAppear_refreshed hAppear
      have hSaved := savedVehicle_of_rule hRule
      have hVehicleID : objVehicle.vehicleID = form.objVehicle.vehicleID := by
        obtain ⟨_, rfl⟩ := AppSharedInstance.getServiceDueDate_sets hRule
        exact if_pos (h.placed.editor form hForm)
      have hHolds : Holds context (KeyedList.replace AllVehiclesI.vehicleID records objVehicle) :=
        h.edited_holds hSaved.vehicleType (by rw [hDue]; rfl) (hVehicleID ▸ h.shown.editor form hForm) hEdit
      obtain rfl := hHolds.unique (hSame.context ▸ hNext.holds)
      obtain ⟨old, hOld, hOldID⟩ := h.edited hForm
      have hReplaced (v : AllVehiclesI) := KeyedList.mem_replace hOld (hOldID.trans hVehicleID.symm) (c := v)
      rw [hSame.pendingRequests] at hPending
      rcases mem_add hPending with rfl | ⟨hKept, hOther⟩
      · exact .inl (speaksOf_scheduled ((hReplaced objVehicle).mpr (.inl rfl)) hDue hRequest)
      · refine .inr ⟨(List.mem_filter.mp hKept).1, fun record hRecord hRecordID => .inl ((hReplaced record).mpr ?_)⟩
        exact .inr ⟨hRecord, fun hSameID =>
          hOther (by rw [(request_addressed hRequest).1, ← hSameID, hRecordID])⟩
  | back form _ _ hAppear =>
      have hSame := viewWillAppear_refreshed hAppear
      exact .inr (hQuiet hSame.context (hSame.pendingRequests ▸ hPending))
  | relaunch context _ hSave hAppear =>
      have hSame := viewWillAppear_refreshed hAppear
      exact .inr (hQuiet (hSame.context.trans (h.holds.of_saveContext hSave)) (hSame.pendingRequests ▸ hPending))
  | _ => exact .inr (hQuiet rfl hPending)

/-- The requests and the records are in step, and each request says what its record says. -/
structure Announced (app : App) (records : List AllVehiclesI) : Prop where
  keeps : KeepsRecords app records
  keys : app.pendingRequests.keys.Perm (reminders app.now records)
  speaks : ∀ request ∈ app.pendingRequests, SpeaksOf records request

theorem Announced.later (h : Announced app records) (hPending : request ∈ app.pendingRequests) :
    app.now < request.trigger := by
  have hKey : (request.identifier, request.trigger) ∈ reminders app.now records :=
    h.keys.subset (List.mem_map_of_mem hPending)
  obtain ⟨vehicle, hVehicle, hReminder⟩ := List.mem_filterMap.mp hKey
  obtain ⟨record, _, rfl⟩ := List.mem_map.mp hVehicle
  exact (reminder_eq_some hReminder).2.2

theorem Announced.step (h : Announced app records) (hWrites : WritesSucceed action) (hFresh : FreshID app action)
    (hStep : app.step P action = some app') : ∃ records', Announced app' records' := by
  obtain ⟨records', hRecorded, hNext⟩ := h.keeps.step hWrites hFresh hStep
  refine ⟨records', hNext, hRecorded.reminders h.keeps.holds.distinct h.keys, fun request hPending => ?_⟩
  rcases h.keeps.scheduled hStep hNext hPending with hNew | ⟨hOld, hStays⟩
  · exact hNew
  · obtain ⟨objVehicle, hMem, hDue, hBuilt⟩ := h.speaks request hOld
    rcases hStays objVehicle hMem (request_addressed hBuilt).1.symm with hKept | hPast
    · exact ⟨objVehicle, hKept, hDue, hBuilt⟩
    · rw [hDue] at hPast
      exact absurd (of_decide_eq_true hPast) (h.later hOld).not_gt

end Wording

end ServiceBook

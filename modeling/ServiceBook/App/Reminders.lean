import ServiceBook.App.Records

/-! The pending notification requests are the reminders of the stored records
that are due in the future. Views schedule and cancel them, one request at a
time, and the clock takes out those whose time has come. -/
namespace ServiceBook

open DatabaseManager

/-- The reminder that a record needs at an instant, by its id and its due date. -/
def Vehicle.reminder (now : Date) (vehicle : Vehicle) : Option (String × Date) := do
  let vehicleID ← vehicle.vehicleID
  let serviceDueDate ← vehicle.serviceDueDate
  if now < serviceDueDate then some (vehicleID, serviceDueDate) else none

/-- There is one pending request for each stored record that is due in the
future, under the id of the record and at its due date, and no other. -/
def Reminded (app : App) : Prop :=
  (app.pendingRequests.map fun request => (request.identifier, request.trigger)).Perm
    (app.context.persisted.values.filterMap (Vehicle.reminder app.now))

/-- The reminders of a list of records. -/
def reminders (now : Date) (records : List AllVehiclesI) : List (String × Date) :=
  (records.map stored).filterMap (Vehicle.reminder now)

def PendingRequests.keys (pending : PendingRequests) : List (String × Date) :=
  pending.map fun request => (request.identifier, request.trigger)

section Reminders

variable {P : Platform} {app app' : App} {action : Action} {records records' : List AllVehiclesI}
  {objVehicle : AllVehiclesI} {now later : Date} {request : UNNotificationRequest} {pending : PendingRequests}

theorem reminder_stored (now : Date) (objVehicle : AllVehiclesI) :
    (stored objVehicle).reminder now = objVehicle.serviceDueDate.bind fun serviceDueDate =>
      if now < serviceDueDate then some (objVehicle.vehicleID, serviceDueDate) else none := rfl

theorem reminder_of_due {serviceDueDate : Date} (h : objVehicle.serviceDueDate = some serviceDueDate) :
    (stored objVehicle).reminder now =
      if now < serviceDueDate then some (objVehicle.vehicleID, serviceDueDate) else none := by
  rw [reminder_stored, h, Option.bind_some]

/-- A reminder carries the id of its record, and is not yet due. -/
theorem reminder_eq_some {entry : String × Date} (h : (stored objVehicle).reminder now = some entry) :
    entry.1 = objVehicle.vehicleID ∧ objVehicle.serviceDueDate = some entry.2 ∧ now < entry.2 := by
  cases hDue : objVehicle.serviceDueDate with
  | none =>
      rw [reminder_stored, hDue] at h
      cases h
  | some serviceDueDate =>
      rw [reminder_of_due hDue] at h
      split at h
      · next hLater =>
          obtain rfl := Option.some.inj h
          exact ⟨rfl, rfl, hLater⟩
      · cases h

theorem reminders_append (now : Date) (records records' : List AllVehiclesI) :
    reminders now (records ++ records') = reminders now records ++ reminders now records' := by
  rw [reminders, List.map_append, List.filterMap_append]
  rfl

theorem reminders_cons (now : Date) (objVehicle : AllVehiclesI) (records : List AllVehiclesI) :
    reminders now (objVehicle :: records) =
      ((stored objVehicle).reminder now).toList ++ reminders now records := by
  rw [reminders, List.map_cons, List.filterMap_cons]
  cases (stored objVehicle).reminder now <;> rfl

/-- Taking a record out takes out its reminder. -/
theorem reminders_remove (now : Date) (records : List AllVehiclesI) (vehicleID : String) :
    reminders now (KeyedList.remove AllVehiclesI.vehicleID records vehicleID) =
      (reminders now records).filter fun entry => entry.1 ≠ vehicleID := by
  induction records with
  | nil => rfl
  | cons v records ih =>
      have hHead : ((stored v).reminder now).toList.filter (fun entry => entry.1 ≠ vehicleID) =
          if v.vehicleID ≠ vehicleID then ((stored v).reminder now).toList else [] := by
        cases hReminder : (stored v).reminder now with
        | none => simp
        | some entry =>
            by_cases hSame : v.vehicleID = vehicleID
            · simp [(reminder_eq_some hReminder).1, hSame]
            · simp [(reminder_eq_some hReminder).1, hSame]
      rw [reminders_cons, List.filter_append, ← ih, hHead, KeyedList.remove, List.filter_cons]
      by_cases hSame : v.vehicleID = vehicleID
      · simp [hSame, KeyedList.remove]
      · simp [hSame, reminders_cons, KeyedList.remove]

/-- As time goes on, the reminders that have come due drop out. -/
theorem reminders_later (hLater : now ≤ later) (records : List AllVehiclesI) :
    reminders later records = (reminders now records).filter fun entry => later < entry.2 := by
  induction records with
  | nil => rfl
  | cons v records ih =>
      rw [reminders_cons, reminders_cons, List.filter_append, ih]
      congr 1
      cases hDue : v.serviceDueDate with
      | none =>
          rw [reminder_stored, reminder_stored, hDue]
          rfl
      | some due =>
          rw [reminder_of_due hDue, reminder_of_due hDue]
          by_cases hAfter : later < due
          · simp [hAfter, hLater.trans_lt hAfter]
          · by_cases hBefore : now < due
            · simp [hAfter, hBefore]
            · simp [hAfter, hBefore]

theorem keys_remove (pending : PendingRequests) (vehicleID : String) :
    (pending.remove [vehicleID]).keys = pending.keys.filter fun entry => entry.1 ≠ vehicleID := by
  rw [PendingRequests.keys, PendingRequests.remove, PendingRequests.keys, List.filter_map]
  congr 1
  apply List.filter_congr
  intro r _
  simp

theorem keys_advance (pending : PendingRequests) (later : Date) :
    (pending.advance later).keys = pending.keys.filter fun entry => later < entry.2 := by
  rw [PendingRequests.keys, PendingRequests.advance, PendingRequests.keys, List.filter_map]
  rfl

/-- Adding a request is removing the one of the same vehicle and appending. -/
theorem keys_add (hReminds : Reminds request objVehicle) (pending : PendingRequests) (now : Date) :
    (pending.add now request).keys =
      (pending.remove [objVehicle.vehicleID]).keys ++ reminders now [objVehicle] := by
  obtain ⟨hID, hDue⟩ := hReminds
  have hFilter : pending.filter (fun r => r.identifier ≠ request.identifier) =
      pending.remove [objVehicle.vehicleID] := by
    apply List.filter_congr
    intro r _
    simp [hID]
  rw [PendingRequests.add, hFilter, PendingRequests.keys, List.map_append]
  congr 1
  rw [reminders_cons, reminder_of_due hDue, ← hID]
  split <;> rfl

/-- What has been removed before need not be removed by the addition. -/
theorem remove_remove (pending : PendingRequests) (vehicleID : String) :
    (pending.remove [vehicleID]).remove [vehicleID] = pending.remove [vehicleID] := by
  simp [PendingRequests.remove]

/-- One change of the records keeps the requests in step. -/
theorem Recorded.reminders (hDistinct : KeyedList.Distinct AllVehiclesI.vehicleID records)
    (hStep : Recorded app app' records records')
    (h : app.pendingRequests.keys.Perm (ServiceBook.reminders app.now records)) :
    app'.pendingRequests.keys.Perm (ServiceBook.reminders app'.now records') := by
  have hRemove (vehicleID : String) : (app.pendingRequests.remove [vehicleID]).keys.Perm
      (ServiceBook.reminders app.now (KeyedList.remove AllVehiclesI.vehicleID records vehicleID)) := by
    rw [keys_remove, reminders_remove]
    exact h.filter _
  cases hStep with
  | quiet hNow hPending =>
      rw [hNow, hPending]
      exact h
  | clock hLater hPending =>
      rw [hPending, keys_advance, reminders_later hLater]
      exact h.filter _
  | add objVehicle request hNow hFresh hReminds hPending =>
      have hAbsent : KeyedList.remove AllVehiclesI.vehicleID records objVehicle.vehicleID = records :=
        List.filter_eq_self.mpr fun old hOld => by simpa using hFresh old hOld
      have hKept := hRemove objVehicle.vehicleID
      rw [hAbsent] at hKept
      rw [hNow, hPending, keys_add hReminds, reminders_append]
      exact hKept.append_right _
  | edit objVehicle old request hNow hOld hID hReminds hPending =>
      rw [hNow, hPending, keys_add hReminds, remove_remove]
      calc _ = (app.pendingRequests.remove [objVehicle.vehicleID]).keys ++
            ServiceBook.reminders app.now [objVehicle] := rfl
        List.Perm _ (ServiceBook.reminders app.now
            (KeyedList.remove AllVehiclesI.vehicleID records objVehicle.vehicleID ++ [objVehicle])) := by
          rw [reminders_append]
          exact (hRemove objVehicle.vehicleID).append_right _
        List.Perm _ (ServiceBook.reminders app.now
            (KeyedList.replace AllVehiclesI.vehicleID records objVehicle)) := by
          have hReplaced := (List.perm_append_singleton _ _).trans (hDistinct.replace_perm hOld hID).symm
          exact (hReplaced.map stored).filterMap _
  | delete objVehicle hNow hPending =>
      rw [hNow, hPending]
      exact hRemove objVehicle.vehicleID
  | deletePast objVehicle hNow hMem hPast hPending =>
      rw [hNow, hPending, reminders_remove, List.filter_eq_self.mpr]
      · exact h
      · -- the record under this id is past due and has no reminder
        intro entry hEntry
        obtain ⟨vehicle, hVehicle, hReminder⟩ := List.mem_filterMap.mp hEntry
        obtain ⟨record, hRecord, rfl⟩ := List.mem_map.mp hVehicle
        obtain ⟨hID, hDue, hFuture⟩ := reminder_eq_some hReminder
        rw [decide_eq_true_eq]
        intro hSame
        obtain rfl := hDistinct.eq_of_key_eq hRecord hMem (hID.symm.trans hSame)
        rw [hDue] at hPast
        exact absurd (of_decide_eq_true hPast) (not_lt.mpr hFuture.le)

/-- In every run whose local writes succeed and whose new ids are fresh, the
pending requests are exactly the reminders of the stored records. -/
theorem pending_requests_match (P : Platform) {now : Date} {actions : List Action}
    (hRun : Transition.Throughout (App.step P) (fun app action => WritesSucceed action ∧ FreshID app action)
      (App.installed now) actions) :
    Transition.Always (App.step P) Reminded (App.installed now) actions := by
  have hStart : ∃ records, KeepsRecords (App.installed now) records ∧
      (App.installed now).pendingRequests.keys.Perm (reminders (App.installed now).now records) :=
    ⟨[], keepsRecords_installed now, List.Perm.refl _⟩
  refine (Transition.always_of_throughout
    (I := fun app => ∃ records, KeepsRecords app records ∧
      app.pendingRequests.keys.Perm (reminders app.now records))
    (fun app action app' hInv hMeets hStep => ?_) hStart hRun).mono fun app hInv => ?_
  · obtain ⟨records, hKeeps, hReminders⟩ := hInv
    obtain ⟨records', hRecorded, hNext⟩ := hKeeps.step hMeets.1 hMeets.2 hStep
    exact ⟨records', hNext, hRecorded.reminders hKeeps.holds.distinct hReminders⟩
  · obtain ⟨records, hKeeps, hReminders⟩ := hInv
    rw [Reminded, hKeeps.holds.values]
    exact hReminders

/-- One vehicle is added. -/
theorem pending_requests_match_added :
    Transition.Always (App.step UTC.platform) Reminded (App.installed 1700000000)
      (addingActions "5000" "200" 1700000000 "A1") := by
  refine pending_requests_match UTC.platform (throughout_adding ?_ fun filled hRun => ⟨trivial, fun _ => ?_⟩)
  · simp [fillingActions, WritesSucceed, FreshID]
  · rw [filled_context hRun]
    simp

end Reminders

end ServiceBook

import ServiceBook.AllVehicles.AllVehiclesVC
import ServiceBook.Utilities.UTC

/-! The record that should follow a due service. The notification reaches the
Due Services screen through either delegate method of the notification center,
or through both. -/
namespace ServiceBook

/-- The delegate methods of the notification center that post a notification. -/
inductive DelegateEvent where
  | willPresent
  | didReceive
deriving DecidableEq, Repr

namespace AppSharedInstance

/-- Both methods post the user info to the observer as it is. -/
def userNotificationCenter (P : Platform) (request : UNNotificationRequest) : DelegateEvent → AppM Unit
  | .willPresent => AllVehiclesVC.methodOfReceivedNotification P (some request.content.userInfo)
  | .didReceive => AllVehiclesVC.methodOfReceivedNotification P (some request.content.userInfo)

/-- All events of one notification, in their order. -/
def deliver (P : Platform) (request : UNNotificationRequest) (events : List DelegateEvent) : AppM Unit :=
  events.forM (userNotificationCenter P request)

end AppSharedInstance

/-- The next record of a vehicle whose service was due: the same vehicle, last
serviced on the due date, due again by the rule, under a new id. -/
structure FollowUpRecord (P : Platform) (context : ManagedObjectContext) (objVehicle : AllVehiclesI)
    (serviceDueDate : Date) (next : AllVehiclesI) : Prop where
  vehicleType : next.vehicleType = objVehicle.vehicleType
  vehicleName : next.vehicleName = objVehicle.vehicleName
  vehicleNo : next.vehicleNo = objVehicle.vehicleNo
  serviceRequiredAfter : next.serviceRequiredAfter = objVehicle.serviceRequiredAfter
  averageRun : next.averageRun = objVehicle.averageRun
  notes : next.notes = objVehicle.notes
  lastServiceDate : next.lastServiceDate = some serviceDueDate
  rule : ∃ text, AppSharedInstance.getServiceDueDate P next = .ok (next, text)
  newID : ∀ vehicle ∈ context.objects.values, vehicle.vehicleID ≠ some next.vehicleID

/-- The events complete, and leave exactly one record more. -/
def ProducesFollowUp (P : Platform) (app : App) (objVehicle : AllVehiclesI) (serviceDueDate : Date)
    (request : UNNotificationRequest) (events : List DelegateEvent) : Prop :=
  ∃ app' next, (AppSharedInstance.deliver P request events).run app = .ok () app' ∧
    FollowUpRecord P app.context objVehicle serviceDueDate next ∧
    app'.context.objects.values.Perm (DatabaseManager.stored next :: app.context.objects.values)

section Deliver

variable {P : Platform} {app : App} {request : UNNotificationRequest}

/-- Whichever method posts it, the notification traps. -/
theorem userNotificationCenter_run (event : DelegateEvent) :
    (AppSharedInstance.userNotificationCenter P request event).run app =
      .error .unexpectedlyFoundNil app := by
  cases event with
  | willPresent => exact AllVehiclesVC.methodOfReceivedNotification_run P _
  | didReceive => exact AllVehiclesVC.methodOfReceivedNotification_run P _

/-- The first event ends the app, with the store as it was. -/
theorem deliver_run {events : List DelegateEvent} (h : events ≠ []) :
    (AppSharedInstance.deliver P request events).run app = .error .unexpectedlyFoundNil app := by
  cases events with
  | nil => exact absurd rfl h
  | cons event rest => exact Program.run_bind_of_error (userNotificationCenter_run event)

end Deliver

/-- No notification produces its follow-up record: whatever request it comes
from, for no vehicle, in no state of the app, and in no order of the events. -/
theorem no_follow_up (P : Platform) (app : App) (objVehicle : AllVehiclesI) (serviceDueDate : Date)
    (request : UNNotificationRequest) {events : List DelegateEvent} (hEvents : events ≠ []) :
    ¬ ProducesFollowUp P app objVehicle serviceDueDate request events := by
  rintro ⟨app', next, hRun, _, _⟩
  rw [deliver_run hEvents] at hRun
  cases hRun

private def scooter : AllVehiclesI :=
  { vehicleID := "S4", vehicleName := some "Vespa", vehicleType := some "Bike", vehicleNo := some "KA 04"
    serviceRequiredAfter := some 3000, averageRun := some 70, lastServiceDate := some 0
    notes := some "No notes available", serviceDueDate := some 25920000 }

/-- The app on the due date of the scooter it has stored. -/
private def onDueDate : App :=
  App.created ⟨Table.Rows.empty.insert (DatabaseManager.stored scooter), []⟩ [] 25920000

private def scooterRequest : UNNotificationRequest where
  identifier := "S4"
  content :=
    { title := "Vespa's Service Time"
      subtitle := "Get Ready"
      body := "KA 04 Bike needs to go to workshop"
      sound := "carsound.wav"
      userInfo :=
        [("id", .string "S4"), ("type", .string "Bike"), ("name", .string "Vespa"),
          ("no", .string "KA 04"), ("serviceReqAfter", .int 3000), ("averageRun", .int 70),
          ("lastService", .date 0), ("notes", .string "No notes available"),
          ("serviceDueDate", .date 25920000)] }
  trigger := 25920000

/-- The scooter's notification is presented in the foreground and then opened. -/
theorem no_follow_up_scooter :
    ¬ ProducesFollowUp UTC.platform onDueDate scooter 25920000 scooterRequest
      [.willPresent, .didReceive] :=
  no_follow_up UTC.platform onDueDate scooter 25920000 scooterRequest (by decide)

/-- A stored scooter whose notification is opened gets no record. -/
theorem follow_up_missing :
    ¬ ∀ (P : Platform) (app : App) (objVehicle : AllVehiclesI) (serviceDueDate : Date)
        (request : UNNotificationRequest) (events : List DelegateEvent),
      DatabaseManager.stored objVehicle ∈ app.context.objects.values →
      AppSharedInstance.notificationRequest objVehicle serviceDueDate = .ok request →
      events ∈ [[DelegateEvent.willPresent], [.didReceive], [.willPresent, .didReceive]] →
        ProducesFollowUp P app objVehicle serviceDueDate request events := by
  intro h
  obtain ⟨app', next, hRun, _, _⟩ := h UTC.platform onDueDate scooter 25920000 scooterRequest
    [.didReceive] (by decide +kernel) (by decide +kernel) (by decide)
  rw [deliver_run (by decide)] at hRun
  cases hRun

end ServiceBook

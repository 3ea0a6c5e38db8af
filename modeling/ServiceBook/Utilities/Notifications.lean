import ServiceBook.Interface.AllVehiclesI

/-! Local notifications: the requests that `AppSharedInstance` schedules and
removes, and the notification center that keeps them until they are due. -/
namespace ServiceBook

inductive UserInfoValue where
  | string (s : String)
  | int (n : Int64)
  | date (d : Date)
deriving DecidableEq, Repr

abbrev UserInfo := List (String × UserInfoValue)

/-- `dict[key] as? String`, and the same for the other two types. -/
def UserInfo.string (dict : UserInfo) (key : String) : Option String :=
  match dict.lookup key with
  | some (.string s) => some s
  | _ => none

def UserInfo.int (dict : UserInfo) (key : String) : Option Int64 :=
  match dict.lookup key with
  | some (.int n) => some n
  | _ => none

def UserInfo.date (dict : UserInfo) (key : String) : Option Date :=
  match dict.lookup key with
  | some (.date d) => some d
  | _ => none

structure UNNotificationContent where
  title : String
  subtitle : String
  body : String
  sound : String
  userInfo : UserInfo
deriving DecidableEq, Repr

/-- The trigger is the date whose components, down to the second, are matched once. -/
structure UNNotificationRequest where
  identifier : String
  content : UNNotificationContent
  trigger : Date
deriving DecidableEq, Repr

/-- The requests that are still pending. -/
abbrev PendingRequests := List UNNotificationRequest

/-- Adding replaces a request with the same identifier. A trigger in the past never fires. -/
def PendingRequests.add (pending : PendingRequests) (now : Date) (request : UNNotificationRequest) :
    PendingRequests :=
  pending.filter (fun r => r.identifier ≠ request.identifier) ++
    if now < request.trigger then [request] else []

def PendingRequests.remove (pending : PendingRequests) (identifiers : List String) : PendingRequests :=
  pending.filter fun r => r.identifier ∉ identifiers

/-- A request stops being pending once its trigger has passed. -/
def PendingRequests.advance (pending : PendingRequests) (now : Date) : PendingRequests :=
  pending.filter fun r => now < r.trigger

namespace AppSharedInstance

/-- The request that `setLocalNotification` builds. -/
def notificationRequest (vehicleObj : AllVehiclesI) (notificationDate : Date) :
    Except Trap UNNotificationRequest := do
  let vehicleName ← unwrap vehicleObj.vehicleName
  let vehicleNo ← unwrap vehicleObj.vehicleNo
  let vehicleType ← unwrap vehicleObj.vehicleType
  let lastServiceDate ← unwrap vehicleObj.lastServiceDate
  return { identifier := vehicleObj.vehicleID
           content :=
             { title := vehicleName ++ "'s Service Time"
               subtitle := "Get Ready"
               body := vehicleNo ++ " " ++ vehicleType ++ " needs to go to workshop"
               sound := "carsound.wav"
               userInfo :=
                 [("id", .string vehicleObj.vehicleID),
                   ("type", .string (vehicleObj.vehicleType.getD "")),
                   ("name", .string (vehicleObj.vehicleName.getD "")),
                   ("no", .string (vehicleObj.vehicleNo.getD "")),
                   ("serviceReqAfter", .int (vehicleObj.serviceRequiredAfter.getD 0)),
                   ("averageRun", .int (vehicleObj.averageRun.getD 0)),
                   ("lastService", .date lastServiceDate),
                   ("notes", .string (vehicleObj.notes.getD "")),
                   ("serviceDueDate", .date notificationDate)] }
           trigger := notificationDate }

end AppSharedInstance

end ServiceBook

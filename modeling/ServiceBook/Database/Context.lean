import Mathlib.Data.List.Sort
import ServiceBook.General.Table
import ServiceBook.Interface.AllVehiclesI

/-! The managed object context that all database operations share: the
persisted `Vehicle` objects and the changes made since the last successful
save. A fetch sees both. -/
namespace ServiceBook

/-- The attributes of a new object are the defaults of the data model. -/
structure Vehicle where
  vehicleID : Option String := none
  vehicleType : Option String := none
  vehicleName : Option String := none
  vehicleNo : Option String := none
  serviceRequiredAfter : Int32 := 0
  averageRun : Int16 := 0
  lastServiceDate : Option Date := none
  notes : Option String := none
  serviceDueDate : Option Date := none
deriving DecidableEq, Repr

abbrev NSPredicate := Vehicle → Bool

/-- How the persistent store answers the fetches and the save of one operation. -/
structure StoreOutcome where
  fetch : Bool
  save : Bool
deriving DecidableEq, Repr

def StoreOutcome.success : StoreOutcome := ⟨true, true⟩

/-- Ascending `serviceDueDate`, with objects that have none first. -/
def dueDateLE : Option Date → Option Date → Prop
  | none, _ => True
  | some _, none => False
  | some a, some b => a ≤ b

instance : DecidableRel dueDateLE := fun a b => by
  cases a <;> cases b <;> unfold dueDateLE <;> infer_instance

theorem dueDateLE_total (a b : Option Date) : dueDateLE a b ∨ dueDateLE b a := by
  cases a <;> cases b <;> simp [dueDateLE, le_total]

theorem dueDateLE_trans {a b c : Option Date} (hab : dueDateLE a b) (hbc : dueDateLE b c) :
    dueDateLE a c := by
  cases a <;> cases b <;> cases c <;> simp_all only [dueDateLE]
  exact hab.trans hbc

/-- The order of the sort descriptor, on anything that has a due date. -/
def byDueDate {α : Type} (due : α → Option Date) (a b : α) : Prop := dueDateLE (due a) (due b)

instance {α : Type} (due : α → Option Date) : DecidableRel (byDueDate due) := fun a b =>
  inferInstanceAs (Decidable (dueDateLE (due a) (due b)))

instance {α : Type} (due : α → Option Date) : Std.Total (byDueDate due) :=
  ⟨fun _ _ => dueDateLE_total _ _⟩

instance {α : Type} (due : α → Option Date) : IsTrans α (byDueDate due) :=
  ⟨fun _ _ _ => dueDateLE_trans⟩

def rowDueDate (row : Table.Row Vehicle) : Option Date := row.value.serviceDueDate

structure ManagedObjectContext where
  persisted : Table.Rows Vehicle
  pending : List (Table.Change Vehicle)

namespace ManagedObjectContext

def empty : ManagedObjectContext := ⟨Table.Rows.empty, []⟩

/-- What a fetch sees. -/
def objects (context : ManagedObjectContext) : Table.Rows Vehicle :=
  context.persisted.applyAll context.pending

/-- Only what remains of the changes counts: there is a new object, or a persisted
one has been updated or deleted. An object that was deleted before it was ever
saved is dropped. -/
def hasChanges (context : ManagedObjectContext) : Bool :=
  context.objects.rows.any (fun row => context.persisted.nextObjectID ≤ row.objectID) ||
    context.pending.any fun change => change.target.any (· < context.persisted.nextObjectID)

/-- The context of the next launch. -/
def loadPersistentStores (context : ManagedObjectContext) : ManagedObjectContext := ⟨context.persisted, []⟩

def perform (context : ManagedObjectContext) (change : Table.Change Vehicle) :
    ManagedObjectContext :=
  { context with pending := context.pending ++ [change] }

/-- `fetch` throws, which is `none`, or returns the matching objects. -/
def fetch (context : ManagedObjectContext) (outcome : StoreOutcome) (predicate : NSPredicate) :
    Option (List (Table.Row Vehicle)) :=
  if outcome.fetch then some (context.objects.rows.filter fun row => predicate row.value) else none

/-- The same with the sort descriptor on `serviceDueDate`. -/
def fetchSorted (context : ManagedObjectContext) (outcome : StoreOutcome)
    (predicate : NSPredicate) : Option (List (Table.Row Vehicle)) :=
  (context.fetch outcome predicate).map (List.insertionSort (byDueDate rowDueDate))

/-- A save persists all pending changes, or fails and leaves them pending. -/
def save (context : ManagedObjectContext) (outcome : StoreOutcome) : ManagedObjectContext × Bool :=
  if outcome.save then (⟨context.objects, []⟩, true) else (context, false)

variable {context : ManagedObjectContext}

@[simp] theorem objects_perform (change : Table.Change Vehicle) :
    (context.perform change).objects = context.objects.apply change := by
  simp [objects, perform]

theorem objects_of_pending_nil (h : context.pending = []) : context.objects = context.persisted := by
  simp [objects, h]

/-- Without changes a fetch sees what is persisted. -/
theorem rows_of_hasChanges (h : context.hasChanges = false) : context.objects.rows = context.persisted.rows := by
  rw [hasChanges, Bool.or_eq_false_iff, List.any_eq_false, List.any_eq_false] at h
  refine Table.Rows.rows_applyAll (fun change hChange objectID hTarget => ?_) fun row hRow => ?_
  · have hOld := h.2 change hChange
    rw [Option.mem_def.mp hTarget] at hOld
    simpa using hOld
  · simpa using h.1 row hRow

theorem hasChanges_of_pending_nil (h : context.pending = []) : context.hasChanges = false := by
  rw [hasChanges, objects_of_pending_nil h, h, Bool.or_eq_false_iff, List.any_eq_false]
  exact ⟨fun row hRow => by simpa using context.persisted.bounded row hRow, rfl⟩

theorem loadPersistentStores_of_pending_nil (h : context.pending = []) :
    context.loadPersistentStores = context := by
  rw [loadPersistentStores, ← h]

@[simp] theorem objects_loadPersistentStores : context.loadPersistentStores.objects = context.persisted := rfl

@[simp] theorem objects_empty : empty.objects.rows = [] := rfl

@[simp] theorem save_success : context.save .success = (⟨context.objects, []⟩, true) := rfl

theorem save_failure {outcome : StoreOutcome} (h : outcome.save = false) :
    context.save outcome = (context, false) := by
  simp [save, h]

end ManagedObjectContext

end ServiceBook

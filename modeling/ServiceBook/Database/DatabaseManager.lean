import ServiceBook.Database.Context

/-! The operations of `DatabaseManager`. An operation returns the context it
leaves and the arguments of its calls to the completion handler, in order;
nothing but logging follows a call. -/
namespace ServiceBook

namespace DatabaseManager

def addRecord (outcome : StoreOutcome) (context : ManagedObjectContext)
    (objVehicle : AllVehiclesI) : Except Trap (ManagedObjectContext × List Bool) := do
  let serviceRequiredAfter ← unwrap objVehicle.serviceRequiredAfter
  let serviceRequiredAfter ← int32OfInt serviceRequiredAfter
  let averageRun ← unwrap objVehicle.averageRun
  let averageRun ← int16OfInt averageRun
  -- `insertNewObject` and the nine assignments to the new object
  let context := context.perform (.insert
    { vehicleID := some objVehicle.vehicleID
      vehicleName := objVehicle.vehicleName
      vehicleType := objVehicle.vehicleType
      serviceRequiredAfter := serviceRequiredAfter
      lastServiceDate := objVehicle.lastServiceDate
      serviceDueDate := objVehicle.serviceDueDate
      averageRun := averageRun
      vehicleNo := objVehicle.vehicleNo
      notes := objVehicle.notes })
  let (context, saved) := context.save outcome
  return (context, [saved])

/-- The values `editRecord` assigns, in the order it assigns them. -/
def editedVehicle (objVehicle : AllVehiclesI) : Except Trap Vehicle := do
  let vehicleType ← unwrap objVehicle.vehicleType
  let serviceRequiredAfter ← unwrap objVehicle.serviceRequiredAfter
  let serviceRequiredAfter ← int32OfInt serviceRequiredAfter
  let averageRun ← unwrap objVehicle.averageRun
  let averageRun ← int16OfInt averageRun
  return { vehicleType := some vehicleType
           vehicleID := some objVehicle.vehicleID
           vehicleName := objVehicle.vehicleName
           serviceRequiredAfter := serviceRequiredAfter
           lastServiceDate := objVehicle.lastServiceDate
           averageRun := averageRun
           vehicleNo := objVehicle.vehicleNo
           notes := objVehicle.notes
           serviceDueDate := objVehicle.serviceDueDate }

/-- The predicate `vehicleID == recordID`. -/
def hasVehicleID (recordID : String) : NSPredicate := fun vehicle =>
  decide (vehicle.vehicleID = some recordID)

def editRecord (outcome : StoreOutcome) (context : ManagedObjectContext)
    (objVehicle : AllVehiclesI) : Except Trap (ManagedObjectContext × List Bool) :=
  match context.fetchSorted outcome (hasVehicleID objVehicle.vehicleID) with
  | none => return (context, [false])
  | some [] => do
      let (context, saved) := context.save outcome
      return (context, [saved])
  | some (obj :: _) => do
      let vehicle ← editedVehicle objVehicle
      let (context, saved) := (context.perform (.update obj.objectID vehicle)).save outcome
      return (context, [saved])

/-- `for object in resultData { delete(object) }` -/
def deleteObjects (context : ManagedObjectContext) (resultData : List (Table.Row Vehicle)) :
    ManagedObjectContext :=
  resultData.foldl (fun context object => context.perform (.delete object.objectID)) context

def deleteRecord (outcome : StoreOutcome) (context : ManagedObjectContext) (recordID : String) :
    Except Trap (ManagedObjectContext × List Bool) := do
  -- `try?` turns a failed fetch into nil, which is then unwrapped
  let resultData ← unwrap (context.fetch outcome (hasVehicleID recordID))
  let (context, saved) := (deleteObjects context resultData).save outcome
  return (context, [saved])

/-- The three operations that change the store. -/
inductive Write where
  | addRecord (objVehicle : AllVehiclesI)
  | editRecord (objVehicle : AllVehiclesI)
  | deleteRecord (recordID : String)

def Write.perform (outcome : StoreOutcome) (context : ManagedObjectContext) :
    Write → Except Trap (ManagedObjectContext × List Bool)
  | .addRecord objVehicle => DatabaseManager.addRecord outcome context objVehicle
  | .editRecord objVehicle => DatabaseManager.editRecord outcome context objVehicle
  | .deleteRecord recordID => DatabaseManager.deleteRecord outcome context recordID

/-- One element of the copying loop of `getAllRecords`. -/
def allVehicleOf (obj : Vehicle) : Except Trap AllVehiclesI := do
  let vehicleType ← unwrap obj.vehicleType
  let vehicleID ← unwrap obj.vehicleID
  return { vehicleType := some vehicleType
           vehicleID := vehicleID
           vehicleName := obj.vehicleName
           serviceRequiredAfter := some obj.serviceRequiredAfter.toInt64
           lastServiceDate := obj.lastServiceDate
           averageRun := some obj.averageRun.toInt64
           vehicleNo := obj.vehicleNo
           notes := obj.notes
           serviceDueDate := obj.serviceDueDate }

def getAllRecords (outcome : StoreOutcome) (context : ManagedObjectContext)
    (predicate : Option NSPredicate) : Except Trap (List AllVehiclesI) :=
  match context.fetchSorted outcome (predicate.getD fun _ => true) with
  | none => return []
  | some result =>
      if result.length > 0 then result.mapM fun obj => allVehicleOf obj.value else return []

end DatabaseManager

/-- `AppDelegate.saveContext`: the save at termination, where a failure is fatal. -/
def saveContext (outcome : StoreOutcome) (context : ManagedObjectContext) :
    Except Trap ManagedObjectContext :=
  if context.hasChanges then
    match context.save outcome with
    | (context, true) => .ok context
    | (_, false) => .error .uncaughtError
  else .ok context

/-- If it completes, there was nothing to save or the save has succeeded. -/
theorem saveContext_of_ok {outcome : StoreOutcome} {context context' : ManagedObjectContext}
    (h : saveContext outcome context = .ok context') :
    context.hasChanges = false ∧ context' = context ∨ context.save outcome = (context', true) := by
  unfold saveContext at h
  split at h
  · split at h
    · next saved hSave =>
        obtain rfl := Except.ok.inj h
        exact .inr hSave
    · cases h
  · next hNone => exact .inl ⟨Bool.eq_false_iff.mpr hNone, (Except.ok.inj h).symm⟩

/-- The next launch then finds what was seen at the termination. -/
theorem rows_of_saveContext {outcome : StoreOutcome} {context context' : ManagedObjectContext}
    (h : saveContext outcome context = .ok context') :
    context'.loadPersistentStores.objects.rows = context.objects.rows := by
  rw [ManagedObjectContext.objects_loadPersistentStores]
  rcases saveContext_of_ok h with ⟨hNone, rfl⟩ | hSave
  · exact (ManagedObjectContext.rows_of_hasChanges hNone).symm
  · unfold ManagedObjectContext.save at hSave
    split at hSave
    · rw [← (Prod.mk.inj hSave).1]
    · cases (Prod.mk.inj hSave).2

namespace DatabaseManager

variable {outcome : StoreOutcome} {context : ManagedObjectContext}

/-! What each operation does when it completes, stated once. -/

/-- The record that both `addRecord` and `editRecord` write, as far as the
narrowing conversions succeed. -/
def stored (objVehicle : AllVehiclesI) : Vehicle where
  vehicleID := some objVehicle.vehicleID
  vehicleType := objVehicle.vehicleType
  vehicleName := objVehicle.vehicleName
  vehicleNo := objVehicle.vehicleNo
  serviceRequiredAfter := (objVehicle.serviceRequiredAfter.getD 0).toInt32
  averageRun := (objVehicle.averageRun.getD 0).toInt16
  lastServiceDate := objVehicle.lastServiceDate
  notes := objVehicle.notes
  serviceDueDate := objVehicle.serviceDueDate

/-- The numeric fields are present and fit the attributes they are stored in. -/
def Narrow (objVehicle : AllVehiclesI) : Prop :=
  ∃ serviceRequiredAfter averageRun,
    objVehicle.serviceRequiredAfter = some serviceRequiredAfter ∧ InInt32 serviceRequiredAfter ∧
    objVehicle.averageRun = some averageRun ∧ InInt16 averageRun

@[simp] theorem stored_vehicleID (objVehicle : AllVehiclesI) :
    (stored objVehicle).vehicleID = some objVehicle.vehicleID := rfl

theorem addRecord_eq_ok {objVehicle : AllVehiclesI} {result : ManagedObjectContext × List Bool} :
    addRecord outcome context objVehicle = .ok result ↔
      Narrow objVehicle ∧ result =
        (((context.perform (.insert (stored objVehicle))).save outcome).1,
          [((context.perform (.insert (stored objVehicle))).save outcome).2]) := by
  simp only [addRecord, bind_eq_ok, unwrap_eq_ok, int32OfInt_eq_ok, int16OfInt_eq_ok, pure_eq_ok,
    Except.ok.injEq]
  constructor
  · rintro ⟨s, hs, s', ⟨hs32, rfl⟩, a, ha, a', ⟨ha16, rfl⟩, rfl⟩
    exact ⟨⟨s, a, hs, hs32, ha, ha16⟩, by simp [stored, hs, ha]⟩
  · rintro ⟨⟨s, a, hs, hs32, ha, ha16⟩, rfl⟩
    exact ⟨s, hs, _, ⟨hs32, rfl⟩, a, ha, _, ⟨ha16, rfl⟩, by simp [stored, hs, ha]⟩

theorem editedVehicle_eq_ok {objVehicle : AllVehiclesI} {vehicle : Vehicle} :
    editedVehicle objVehicle = .ok vehicle ↔
      objVehicle.vehicleType.isSome ∧ Narrow objVehicle ∧ vehicle = stored objVehicle := by
  simp only [editedVehicle, bind_eq_ok, unwrap_eq_ok, int32OfInt_eq_ok, int16OfInt_eq_ok,
    pure_eq_ok, Except.ok.injEq, Option.isSome_iff_exists]
  constructor
  · rintro ⟨t, ht, s, hs, s', ⟨hs32, rfl⟩, a, ha, a', ⟨ha16, rfl⟩, rfl⟩
    exact ⟨⟨t, ht⟩, ⟨s, a, hs, hs32, ha, ha16⟩, by simp [stored, hs, ha, ht]⟩
  · rintro ⟨⟨t, ht⟩, ⟨s, a, hs, hs32, ha, ha16⟩, rfl⟩
    exact ⟨t, ht, s, hs, _, ⟨hs32, rfl⟩, a, ha, _, ⟨ha16, rfl⟩, by simp [stored, hs, ha, ht]⟩

theorem objects_deleteObjects (resultData : List (Table.Row Vehicle)) :
    (deleteObjects context resultData).objects = context.objects.deleteAll resultData := by
  induction resultData generalizing context with
  | nil => rfl
  | cons object rest ih =>
      change (deleteObjects (context.perform _) rest).objects = _
      rw [ih, ManagedObjectContext.objects_perform]
      rfl

theorem persisted_deleteObjects (resultData : List (Table.Row Vehicle)) :
    (deleteObjects context resultData).persisted = context.persisted := by
  induction resultData generalizing context with
  | nil => rfl
  | cons object rest ih => exact ih

/-- The objects stored under an id, in the order of the table. -/
def objectsUnder (context : ManagedObjectContext) (recordID : String) : List (Table.Row Vehicle) :=
  context.objects.rows.filter fun row => row.value.vehicleID = some recordID

theorem fetch_hasVehicleID (hFetch : outcome.fetch = true) (recordID : String) :
    context.fetch outcome (hasVehicleID recordID) = some (objectsUnder context recordID) := by
  simp [ManagedObjectContext.fetch, hFetch, hasVehicleID, objectsUnder]

theorem fetchSorted_hasVehicleID (hFetch : outcome.fetch = true) (recordID : String) :
    context.fetchSorted outcome (hasVehicleID recordID) =
      some ((objectsUnder context recordID).insertionSort (byDueDate rowDueDate)) := by
  rw [ManagedObjectContext.fetchSorted, fetch_hasVehicleID hFetch, Option.map_some]

/-- A query copies every object it fetches; the early return for an empty
result is no exception. -/
theorem getAllRecords_eq (hFetch : outcome.fetch = true) (predicate : Option NSPredicate) :
    getAllRecords outcome context predicate =
      ((context.objects.rows.filter fun row => (predicate.getD fun _ => true) row.value).insertionSort
        (byDueDate rowDueDate)).mapM fun obj => allVehicleOf obj.value := by
  rw [getAllRecords, ManagedObjectContext.fetchSorted, ManagedObjectContext.fetch, if_pos hFetch,
    Option.map_some]
  dsimp only
  split_ifs with hLength
  · rfl
  · rw [List.eq_nil_of_length_eq_zero (Nat.eq_zero_of_not_pos hLength)]
    rfl

theorem mem_objectsUnder {recordID : String} {obj : Table.Row Vehicle} :
    obj ∈ objectsUnder context recordID ↔
      obj ∈ context.objects.rows ∧ obj.value.vehicleID = some recordID := by
  simp [objectsUnder]

/-- The object an edit overwrites: the earliest due of those under the id. -/
def firstUnder (context : ManagedObjectContext) (recordID : String) : Option (Table.Row Vehicle) :=
  ((objectsUnder context recordID).insertionSort (byDueDate rowDueDate)).head?

theorem mem_of_firstUnder {recordID : String} {obj : Table.Row Vehicle}
    (h : firstUnder context recordID = some obj) : obj ∈ objectsUnder context recordID :=
  (List.mem_insertionSort (byDueDate rowDueDate)).mp (List.mem_of_head? h)

theorem firstUnder_eq_none_iff {recordID : String} :
    firstUnder context recordID = none ↔
      ∀ obj ∈ context.objects.rows, obj.value.vehicleID ≠ some recordID := by
  rw [firstUnder, List.head?_eq_none_iff, ← List.length_eq_zero_iff, List.length_insertionSort,
    List.length_eq_zero_iff, objectsUnder, List.filter_eq_nil_iff]
  simp

/-- Editing an id that is not stored only saves. -/
theorem editRecord_of_absent (hFetch : outcome.fetch = true) {objVehicle : AllVehiclesI}
    (h : firstUnder context objVehicle.vehicleID = none) :
    editRecord outcome context objVehicle =
      .ok ((context.save outcome).1, [(context.save outcome).2]) := by
  rw [editRecord, fetchSorted_hasVehicleID hFetch, List.head?_eq_none_iff.mp h]
  rfl

theorem editRecord_of_present (hFetch : outcome.fetch = true) {objVehicle : AllVehiclesI}
    {obj : Table.Row Vehicle} (h : firstUnder context objVehicle.vehicleID = some obj)
    {result : ManagedObjectContext × List Bool} :
    editRecord outcome context objVehicle = .ok result ↔
      objVehicle.vehicleType.isSome ∧ Narrow objVehicle ∧ result =
        (((context.perform (.update obj.objectID (stored objVehicle))).save outcome).1,
          [((context.perform (.update obj.objectID (stored objVehicle))).save outcome).2]) := by
  obtain ⟨rest, hCons⟩ := List.head?_eq_some_iff.mp h
  rw [editRecord, fetchSorted_hasVehicleID hFetch, hCons]
  simp only [bind_eq_ok, editedVehicle_eq_ok, pure_eq_ok, Except.ok.injEq]
  constructor
  · rintro ⟨_, ⟨hType, hNarrow, rfl⟩, rfl⟩
    exact ⟨hType, hNarrow, rfl⟩
  · rintro ⟨hType, hNarrow, rfl⟩
    exact ⟨_, ⟨hType, hNarrow, rfl⟩, rfl⟩

theorem deleteRecord_eq (hFetch : outcome.fetch = true) (recordID : String) :
    deleteRecord outcome context recordID =
      .ok (((deleteObjects context (objectsUnder context recordID)).save outcome).1,
        [((deleteObjects context (objectsUnder context recordID)).save outcome).2]) := by
  rw [deleteRecord, fetch_hasVehicleID hFetch]
  rfl

/-- A copied vehicle has the id and the type of the object it was copied from. -/
theorem allVehicleOf_eq_ok {vehicle : Vehicle} {objVehicle : AllVehiclesI}
    (h : allVehicleOf vehicle = .ok objVehicle) :
    vehicle.vehicleID = some objVehicle.vehicleID ∧
      vehicle.vehicleType = objVehicle.vehicleType ∧ objVehicle.vehicleType.isSome := by
  simp only [allVehicleOf, bind_eq_ok, unwrap_eq_ok, pure_eq_ok, Except.ok.injEq] at h
  obtain ⟨vehicleType, hType, vehicleID, hID, rfl⟩ := h
  exact ⟨hID, hType, rfl⟩

/-- A vehicle that a query returns was copied from an object that the context holds. -/
theorem mem_getAllRecords {predicate : Option NSPredicate} {vehicles : List AllVehiclesI}
    {objVehicle : AllVehiclesI} (h : getAllRecords outcome context predicate = .ok vehicles)
    (hMem : objVehicle ∈ vehicles) :
    ∃ obj ∈ context.objects.rows, allVehicleOf obj.value = .ok objVehicle := by
  cases hFetch : outcome.fetch with
  | false =>
      rw [getAllRecords, ManagedObjectContext.fetchSorted, ManagedObjectContext.fetch, hFetch] at h
      cases h
      cases hMem
  | true =>
      rw [getAllRecords_eq hFetch] at h
      obtain ⟨obj, hObj, hCopy⟩ := mem_of_mapM_eq_ok h hMem
      exact ⟨obj, (List.mem_filter.mp ((List.mem_insertionSort _).mp hObj)).1, hCopy⟩

theorem firstUnder_isSome {recordID : String} {obj : Table.Row Vehicle}
    (hObj : obj ∈ context.objects.rows) (hID : obj.value.vehicleID = some recordID) :
    (firstUnder context recordID).isSome := by
  rw [Option.isSome_iff_ne_none]
  intro hNone
  exact firstUnder_eq_none_iff.mp hNone obj hObj hID

/-- Reading back what was written gives the same nine fields, with the
numbers widened again. -/
theorem allVehicleOf_stored {objVehicle : AllVehiclesI} (hType : objVehicle.vehicleType.isSome)
    (hNarrow : Narrow objVehicle) : allVehicleOf (stored objVehicle) = .ok objVehicle := by
  obtain ⟨vehicleType, hType⟩ := Option.isSome_iff_exists.mp hType
  obtain ⟨s, a, hs, hs32, ha, ha16⟩ := hNarrow
  cases objVehicle
  subst hType hs ha
  simp [allVehicleOf, stored, toInt64_toInt32 hs32, toInt64_toInt16 ha16]

end DatabaseManager

end ServiceBook

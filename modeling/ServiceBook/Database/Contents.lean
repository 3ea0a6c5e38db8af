import ServiceBook.Database.Refinement

/-! What all stored values have in common, and that their ids are distinct,
whatever the store answers to the fetches and saves: a failed save keeps its
changes pending, so the pending changes count as well. -/
namespace ServiceBook

namespace DatabaseManager

/-- The value was written from a vehicle with the property. -/
def WrittenFrom (Q : AllVehiclesI → Prop) (vehicle : Vehicle) : Prop :=
  ∃ objVehicle, Narrow objVehicle ∧ Q objVehicle ∧ stored objVehicle = vehicle

/-- So was every value that is persisted, and every one that waits to be. -/
structure Contains (Q : AllVehiclesI → Prop) (context : ManagedObjectContext) : Prop where
  persisted : ∀ vehicle ∈ context.persisted.values, WrittenFrom Q vehicle
  pending : ∀ change ∈ context.pending, ∀ vehicle ∈ change.value, WrittenFrom Q vehicle

section Contains

variable {Q : AllVehiclesI → Prop} {outcome : StoreOutcome} {context context' : ManagedObjectContext}

theorem contains_empty : Contains Q .empty :=
  ⟨by simp [ManagedObjectContext.empty, Table.Rows.empty, Table.Rows.values],
    by simp [ManagedObjectContext.empty]⟩

/-- A fetch sees such values only. -/
theorem Contains.objects (h : Contains Q context) :
    ∀ vehicle ∈ context.objects.values, WrittenFrom Q vehicle :=
  Table.Rows.forall_values_applyAll h.persisted h.pending

theorem Contains.save (h : Contains Q context) (outcome : StoreOutcome) :
    Contains Q (context.save outcome).1 := by
  unfold ManagedObjectContext.save
  split
  · exact ⟨h.objects, fun _ hNone => by cases hNone⟩
  · exact h

theorem Contains.perform (h : Contains Q context) {change : Table.Change Vehicle}
    (hChange : ∀ vehicle ∈ change.value, WrittenFrom Q vehicle) : Contains Q (context.perform change) := by
  refine ⟨h.persisted, fun other hOther => ?_⟩
  rcases List.mem_append.mp hOther with hOld | hNew
  · exact h.pending other hOld
  · rw [List.mem_singleton.mp hNew]
    exact hChange

theorem Contains.deleteObjects (h : Contains Q context) (resultData : List (Table.Row Vehicle)) :
    Contains Q (DatabaseManager.deleteObjects context resultData) := by
  induction resultData generalizing context with
  | nil => exact h
  | cons object rest ih => exact ih (h.perform fun vehicle hNone => by cases hNone)

theorem Contains.addRecord (h : Contains Q context) {objVehicle : AllVehiclesI} {calls : List Bool}
    (hWritten : Narrow objVehicle → Q objVehicle)
    (hOk : DatabaseManager.addRecord outcome context objVehicle = .ok (context', calls)) :
    Contains Q context' := by
  obtain ⟨hNarrow, hResult⟩ := addRecord_eq_ok.mp hOk
  obtain ⟨rfl, -⟩ := Prod.mk.inj hResult
  refine (h.perform fun vehicle hValue => ?_).save outcome
  exact ⟨objVehicle, hNarrow, hWritten hNarrow, Option.some.inj hValue⟩

theorem Contains.editRecord (h : Contains Q context) {objVehicle : AllVehiclesI} {calls : List Bool}
    (hWritten : Narrow objVehicle → Q objVehicle)
    (hOk : DatabaseManager.editRecord outcome context objVehicle = .ok (context', calls)) :
    Contains Q context' := by
  unfold DatabaseManager.editRecord at hOk
  split at hOk
  · obtain ⟨rfl, -⟩ := Prod.mk.inj (Except.ok.inj hOk)
    exact h
  · obtain ⟨rfl, -⟩ := Prod.mk.inj (Except.ok.inj hOk)
    exact h.save outcome
  · obtain ⟨vehicle, hVehicle, hEnd⟩ := bind_eq_ok.mp hOk
    obtain ⟨_, hNarrow, rfl⟩ := editedVehicle_eq_ok.mp hVehicle
    obtain ⟨rfl, -⟩ := Prod.mk.inj (Except.ok.inj hEnd)
    refine (h.perform fun vehicle hValue => ?_).save outcome
    exact ⟨objVehicle, hNarrow, hWritten hNarrow, Option.some.inj hValue⟩

theorem Contains.deleteRecord (h : Contains Q context) {recordID : String} {calls : List Bool}
    (hOk : DatabaseManager.deleteRecord outcome context recordID = .ok (context', calls)) :
    Contains Q context' := by
  obtain ⟨resultData, _, hEnd⟩ := bind_eq_ok.mp hOk
  obtain ⟨rfl, -⟩ := Prod.mk.inj (Except.ok.inj hEnd)
  exact (h.deleteObjects resultData).save outcome

theorem Contains.saveContext (h : Contains Q context)
    (hOk : ServiceBook.saveContext outcome context = .ok context') : Contains Q context' := by
  rcases saveContext_of_ok hOk with ⟨_, rfl⟩ | hSave
  · exact h
  · have hSaved := h.save outcome
    rwa [hSave] at hSaved

theorem Contains.loadPersistentStores (h : Contains Q context) : Contains Q context.loadPersistentStores :=
  ⟨h.persisted, fun change hNone => by cases hNone⟩

theorem exists_entries {vehicles : List Vehicle} (h : ∀ vehicle ∈ vehicles, WrittenFrom Q vehicle) :
    ∃ entries : List AllVehiclesI, vehicles = entries.map stored ∧
      ∀ objVehicle ∈ entries, Narrow objVehicle ∧ Q objVehicle := by
  induction vehicles with
  | nil => exact ⟨[], rfl, by simp⟩
  | cons vehicle vehicles ih =>
      obtain ⟨entries, hRest, hAll⟩ := ih fun other hOther => h other (List.mem_cons_of_mem _ hOther)
      obtain ⟨objVehicle, hNarrow, hQ, rfl⟩ := h vehicle (List.mem_cons_self ..)
      exact ⟨objVehicle :: entries, by rw [hRest, List.map_cons], by simpa [hNarrow, hQ] using hAll⟩

/-- What a fetch sees are the encodings of vehicles with the property. -/
theorem Contains.entries (h : Contains Q context) :
    ∃ entries : List AllVehiclesI, context.objects.values = entries.map stored ∧
      ∀ objVehicle ∈ entries, Narrow objVehicle ∧ Q objVehicle :=
  exists_entries h.objects

/-- If every such vehicle has a type, a list query completes, also when its fetch fails. -/
theorem Contains.getAllRecords (h : Contains Q context) (hTyped : ∀ objVehicle, Q objVehicle →
    objVehicle.vehicleType.isSome) (outcome : StoreOutcome) (predicate : Option Date → Bool) :
    ∃ arrVehicles, DatabaseManager.getAllRecords outcome context (some (onServiceDueDate predicate)) =
      .ok arrVehicles := by
  cases hFetch : outcome.fetch with
  | false =>
      refine ⟨[], ?_⟩
      rw [DatabaseManager.getAllRecords, ManagedObjectContext.fetchSorted, ManagedObjectContext.fetch, hFetch]
      rfl
  | true =>
      obtain ⟨entries, hValues, hAll⟩ := h.entries
      have hSuccess : StoreOutcome.success.fetch = true := rfl
      rw [getAllRecords_eq hFetch, ← getAllRecords_eq hSuccess]
      exact ⟨_, getAllRecords_of_entries hValues
        (fun objVehicle hMem => ⟨hTyped objVehicle (hAll objVehicle hMem).2, (hAll objVehicle hMem).1⟩)
        (some predicate)⟩

/-- A listed vehicle has the property, and an object is its encoding. -/
theorem Contains.of_copied (h : Contains Q context) (hTyped : ∀ objVehicle, Q objVehicle →
    objVehicle.vehicleType.isSome) {objVehicle : AllVehiclesI} {obj : Table.Row Vehicle}
    (hObj : obj ∈ context.objects.rows) (hCopy : allVehicleOf obj.value = .ok objVehicle) :
    Narrow objVehicle ∧ Q objVehicle ∧ obj.value = stored objVehicle := by
  obtain ⟨written, hNarrow, hQ, hStored⟩ := h.objects obj.value (List.mem_map_of_mem hObj)
  rw [← hStored, allVehicleOf_stored (hTyped written hQ) hNarrow] at hCopy
  obtain rfl := Except.ok.inj hCopy
  exact ⟨hNarrow, hQ, hStored.symm⟩

end Contains

/-- No two objects that a fetch sees have the same id. -/
def DistinctIDs (context : ManagedObjectContext) : Prop :=
  KeyedList.Distinct Vehicle.vehicleID context.objects.values

section DistinctIDs

variable {outcome : StoreOutcome} {context context' : ManagedObjectContext} {objVehicle : AllVehiclesI}
  {calls : List Bool}

/-- A fetch sees the same before and after a save. -/
@[simp] theorem objects_save (outcome : StoreOutcome) :
    (context.save outcome).1.objects = context.objects := by
  unfold ManagedObjectContext.save
  split <;> rfl

/-- What is seen after a successful save is persisted. -/
theorem objects_save_eq_persisted (hSave : outcome.save = true) :
    (context.save outcome).1.objects = (context.save outcome).1.persisted := by
  simp [ManagedObjectContext.save, hSave, ManagedObjectContext.objects]

theorem addRecord_persisted (hSave : outcome.save = true)
    (hOk : DatabaseManager.addRecord outcome context objVehicle = .ok (context', calls)) :
    context'.objects = context'.persisted ∧ stored objVehicle ∈ context'.objects.values := by
  obtain ⟨_, hResult⟩ := addRecord_eq_ok.mp hOk
  obtain ⟨rfl, -⟩ := Prod.mk.inj hResult
  exact ⟨objects_save_eq_persisted hSave, by simp [Table.Rows.apply]⟩

/-- The edit of a stored id. -/
theorem editRecord_persisted (hFetch : outcome.fetch = true) (hSave : outcome.save = true)
    (hStored : (firstUnder context objVehicle.vehicleID).isSome)
    (hOk : DatabaseManager.editRecord outcome context objVehicle = .ok (context', calls)) :
    Narrow objVehicle ∧ context'.objects = context'.persisted ∧
      stored objVehicle ∈ context'.objects.values := by
  obtain ⟨obj, hFirst⟩ := Option.isSome_iff_exists.mp hStored
  obtain ⟨_, hNarrow, hResult⟩ := (editRecord_of_present hFetch hFirst).mp hOk
  obtain ⟨rfl, -⟩ := Prod.mk.inj hResult
  refine ⟨hNarrow, objects_save_eq_persisted hSave, ?_⟩
  obtain ⟨hObj, _⟩ := mem_objectsUnder.mp (mem_of_firstUnder hFirst)
  obtain ⟨rest, _, hUpdated⟩ := context.objects.values_update_perm hObj (stored objVehicle)
  rw [objects_save, ManagedObjectContext.objects_perform]
  exact hUpdated.mem_iff.mpr (List.mem_cons_self ..)

theorem values_of_addRecord
    (hOk : DatabaseManager.addRecord outcome context objVehicle = .ok (context', calls)) :
    context'.objects.values = context.objects.values ++ [stored objVehicle] := by
  obtain ⟨_, hResult⟩ := addRecord_eq_ok.mp hOk
  obtain ⟨rfl, -⟩ := Prod.mk.inj hResult
  simp [Table.Rows.apply]

/-- An edit overwrites the first object under the id, if the fetch succeeds and there is one. -/
theorem objects_of_editRecord
    (hOk : DatabaseManager.editRecord outcome context objVehicle = .ok (context', calls)) :
    context'.objects = context.objects ∨ ∃ obj, firstUnder context objVehicle.vehicleID = some obj ∧
      context'.objects = context.objects.update obj.objectID (stored objVehicle) := by
  cases hFetch : outcome.fetch with
  | false =>
      rw [DatabaseManager.editRecord, ManagedObjectContext.fetchSorted, ManagedObjectContext.fetch, hFetch] at hOk
      obtain ⟨rfl, -⟩ := Prod.mk.inj (Except.ok.inj hOk)
      exact .inl rfl
  | true =>
      cases hFirst : firstUnder context objVehicle.vehicleID with
      | none =>
          rw [editRecord_of_absent hFetch hFirst] at hOk
          obtain ⟨rfl, -⟩ := Prod.mk.inj (Except.ok.inj hOk)
          exact .inl (objects_save outcome)
      | some obj =>
          obtain ⟨_, _, hResult⟩ := (editRecord_of_present hFetch hFirst).mp hOk
          obtain ⟨rfl, -⟩ := Prod.mk.inj hResult
          exact .inr ⟨obj, rfl, by simp [Table.Rows.apply]⟩

/-- The edit of a stored id completes, and overwrites the object unless its fetch fails. -/
theorem editRecord_completes {obj : Table.Row Vehicle}
    (hFirst : firstUnder context objVehicle.vehicleID = some obj) (hType : objVehicle.vehicleType.isSome)
    (hNarrow : Narrow objVehicle) (outcome : StoreOutcome) :
    ∃ context' success, DatabaseManager.editRecord outcome context objVehicle = .ok (context', [success]) ∧
      context'.objects =
        if outcome.fetch then context.objects.update obj.objectID (stored objVehicle) else context.objects := by
  cases hFetch : outcome.fetch with
  | false =>
      refine ⟨context, false, ?_, rfl⟩
      rw [DatabaseManager.editRecord, ManagedObjectContext.fetchSorted, ManagedObjectContext.fetch, hFetch]
      rfl
  | true =>
      refine ⟨_, _, (editRecord_of_present hFetch hFirst).mpr ⟨hType, hNarrow, rfl⟩, ?_⟩
      rw [objects_save, ManagedObjectContext.objects_perform]
      rfl

theorem distinctIDs_empty : DistinctIDs .empty := List.nodup_nil

theorem DistinctIDs.addRecord (h : DistinctIDs context)
    (hFresh : ∀ vehicle ∈ context.objects.values, vehicle.vehicleID ≠ some objVehicle.vehicleID)
    (hOk : DatabaseManager.addRecord outcome context objVehicle = .ok (context', calls)) :
    DistinctIDs context' := by
  rw [DistinctIDs, values_of_addRecord hOk]
  exact h.append_new hFresh

/-- Values after the update of the object that is under the id. -/
theorem DistinctIDs.values_update (h : DistinctIDs context) {obj : Table.Row Vehicle}
    (hFirst : firstUnder context objVehicle.vehicleID = some obj) :
    (context.objects.update obj.objectID (stored objVehicle)).values =
      KeyedList.replace Vehicle.vehicleID context.objects.values (stored objVehicle) := by
  obtain ⟨hObj, hID⟩ := mem_objectsUnder.mp (mem_of_firstUnder hFirst)
  exact context.objects.values_update_replace h hObj (by rw [hID, stored_vehicleID])

theorem DistinctIDs.editRecord (h : DistinctIDs context)
    (hOk : DatabaseManager.editRecord outcome context objVehicle = .ok (context', calls)) :
    DistinctIDs context' := by
  rcases objects_of_editRecord hOk with hSame | ⟨obj, hFirst, hUpdated⟩
  · rwa [DistinctIDs, hSame]
  · rw [DistinctIDs, hUpdated, h.values_update hFirst]
    exact h.replace _

theorem DistinctIDs.deleteRecord (h : DistinctIDs context) {recordID : String}
    (hOk : DatabaseManager.deleteRecord outcome context recordID = .ok (context', calls)) :
    DistinctIDs context' := by
  obtain ⟨resultData, _, hEnd⟩ := bind_eq_ok.mp hOk
  have hContext : ((deleteObjects context resultData).save outcome).1 = context' :=
    (Prod.mk.inj (Except.ok.inj hEnd)).1
  have hRows : (deleteObjects context resultData).objects.rows.Sublist context.objects.rows := by
    rw [objects_deleteObjects, Table.Rows.deleteAll_rows]
    exact List.filter_sublist
  rw [DistinctIDs, ← hContext, objects_save]
  exact List.Nodup.sublist ((hRows.map _).map _) h

theorem DistinctIDs.saveContext (h : DistinctIDs context)
    (hOk : ServiceBook.saveContext outcome context = .ok context') :
    DistinctIDs context'.loadPersistentStores := by
  rwa [DistinctIDs, Table.Rows.values, rows_of_saveContext hOk]

/-- With distinct ids the object under an id is the only one. -/
theorem DistinctIDs.filter_eq (h : DistinctIDs context) (hMem : stored objVehicle ∈ context.objects.values) :
    context.objects.values.filter (fun vehicle => vehicle.vehicleID = some objVehicle.vehicleID) =
      [stored objVehicle] :=
  KeyedList.Distinct.filter_key h hMem

theorem DistinctIDs.firstUnder_eq (h : DistinctIDs context) {obj : Table.Row Vehicle} {recordID : String}
    (hObj : obj ∈ context.objects.rows) (hID : obj.value.vehicleID = some recordID) :
    firstUnder context recordID = some obj := by
  obtain ⟨first, hFirst⟩ := Option.isSome_iff_exists.mp (firstUnder_isSome hObj hID)
  obtain ⟨hMem, hFirstID⟩ := mem_objectsUnder.mp (mem_of_firstUnder hFirst)
  have hKeys : (context.objects.rows.map fun row => row.value.vehicleID).Nodup := by
    simpa [DistinctIDs, KeyedList.Distinct, Table.Rows.values, Function.comp_def] using h
  rw [hFirst, List.inj_on_of_nodup_map hKeys hMem hObj (hFirstID.trans hID.symm)]

end DistinctIDs

end DatabaseManager

end ServiceBook

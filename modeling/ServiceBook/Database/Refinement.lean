import ServiceBook.General.Transition
import ServiceBook.Database.DatabaseManager

/-! With all fetches and saves succeeding, the database layer is a finite map
from vehicle id to vehicle. Nothing in Core Data keeps the ids unique; the
uniqueness is an invariant of how the operations are used. -/
namespace ServiceBook

namespace DatabaseManager

/-- What the store is for: at most one vehicle under each id. -/
abbrev VehicleMap := String → Option AllVehiclesI

/-- A vehicle that the store can hold without loss. -/
structure Storable (objVehicle : AllVehiclesI) : Prop where
  typed : objVehicle.vehicleType.isSome
  dated : objVehicle.serviceDueDate.isSome
  narrow : Narrow objVehicle

/-- The saved objects are the encodings of vehicles with distinct ids, and the
map looks these vehicles up. -/
structure Represents (context : ManagedObjectContext) (m : VehicleMap) : Prop where
  saved : context.pending = []
  entries : ∃ entries : List AllVehiclesI,
    context.persisted.values = entries.map stored ∧
    (∀ objVehicle ∈ entries, Storable objVehicle) ∧
    KeyedList.Distinct AllVehiclesI.vehicleID entries ∧
    m = KeyedList.find AllVehiclesI.vehicleID entries

inductive Call where
  | write (operation : Write)
  | getAllRecords (predicate : Option (Option Date → Bool))

inductive Answer where
  | completed (calls : List Bool)
  | records (arrVehicles : List AllVehiclesI)

/-- A predicate that looks at the due date only. -/
def onServiceDueDate (predicate : Option Date → Bool) : NSPredicate := fun vehicle =>
  predicate vehicle.serviceDueDate

def Call.perform (context : ManagedObjectContext) :
    Call → Except Trap (ManagedObjectContext × Answer)
  | .write operation => do
      let (context, calls) ← operation.perform .success context
      return (context, .completed calls)
  | .getAllRecords predicate => do
      let arrVehicles ← DatabaseManager.getAllRecords .success context
        (predicate.map onServiceDueDate)
      return (context, .records arrVehicles)

/-- The map operation each call stands for. -/
def Call.onMap (m : VehicleMap) : Call → VehicleMap
  | .write (.addRecord objVehicle) => Function.update m objVehicle.vehicleID (some objVehicle)
  | .write (.editRecord objVehicle) =>
      if (m objVehicle.vehicleID).isSome then
        Function.update m objVehicle.vehicleID (some objVehicle)
      else m
  | .write (.deleteRecord recordID) => Function.update m recordID none
  | .getAllRecords _ => m

/-- The answers a map gives: every change is confirmed once, and a query lists
exactly the entries with a matching due date, each once, in due-date order. -/
def Call.Answers (m : VehicleMap) : Call → Answer → Prop
  | .write _, .completed calls => calls = [true]
  | .getAllRecords predicate, .records arrVehicles =>
      arrVehicles.Nodup ∧
      (∀ objVehicle, objVehicle ∈ arrVehicles ↔
        m objVehicle.vehicleID = some objVehicle ∧
          (predicate.getD fun _ => true) objVehicle.serviceDueDate = true) ∧
      arrVehicles.Pairwise (byDueDate AllVehiclesI.serviceDueDate)
  | _, _ => False

/-- Vehicles that can be held, and no second record under an id. -/
def Call.Allowed (m : VehicleMap) : Call → Prop
  | .write (.addRecord objVehicle) => Storable objVehicle ∧ m objVehicle.vehicleID = none
  | .write (.editRecord objVehicle) => Storable objVehicle
  | _ => True

def AllAllowed : VehicleMap → List Call → Prop
  | _, [] => True
  | m, call :: calls => call.Allowed m ∧ AllAllowed (call.onMap m) calls

/-- Along the whole sequence the context represents the map, no call traps and
every answer is the map's. -/
def Follows : ManagedObjectContext → VehicleMap → List Call → Prop
  | context, m, [] => Represents context m
  | context, m, call :: calls =>
      Represents context m ∧
      ∃ context' answer, call.perform context = .ok (context', answer) ∧
        call.Answers m answer ∧ Follows context' (call.onMap m) calls

/-- The saved objects are the encodings of these vehicles, in this order. -/
structure Holds (context : ManagedObjectContext) (entries : List AllVehiclesI) : Prop where
  saved : context.pending = []
  values : context.persisted.values = entries.map stored
  storable : ∀ objVehicle ∈ entries, Storable objVehicle
  distinct : KeyedList.Distinct AllVehiclesI.vehicleID entries

theorem holds_empty : Holds .empty [] := ⟨rfl, rfl, by simp, List.nodup_nil⟩

theorem Holds.represents {context : ManagedObjectContext} {entries : List AllVehiclesI}
    (h : Holds context entries) : Represents context (KeyedList.find AllVehiclesI.vehicleID entries) :=
  ⟨h.saved, entries, h.values, h.storable, h.distinct, rfl⟩

theorem Represents.holds {context : ManagedObjectContext} {m : VehicleMap} (h : Represents context m) :
    ∃ entries, Holds context entries ∧ m = KeyedList.find AllVehiclesI.vehicleID entries := by
  obtain ⟨entries, hValues, hAll, hDistinct, hMap⟩ := h.entries
  exact ⟨entries, ⟨h.saved, hValues, hAll, hDistinct⟩, hMap⟩

theorem represents_empty : Represents .empty fun _ => none := holds_empty.represents

section Entries

variable {context : ManagedObjectContext} {entries : List AllVehiclesI} {objVehicle : AllVehiclesI}

theorem Holds.objects_eq (h : Holds context entries) : context.objects = context.persisted :=
  context.objects_of_pending_nil h.saved

theorem Holds.objects_values (h : Holds context entries) : context.objects.values = entries.map stored := by
  rw [h.objects_eq, h.values]

/-- What is found under an id is the encoding of the vehicle with that id. -/
theorem Holds.firstUnder_eq (h : Holds context entries) (recordID : String) :
    (firstUnder context recordID).map Table.Row.value =
      (KeyedList.find AllVehiclesI.vehicleID entries recordID).map stored := by
  cases hFirst : firstUnder context recordID with
  | none =>
      have hAbsent : KeyedList.find AllVehiclesI.vehicleID entries recordID = none := by
        rw [KeyedList.find_eq_none_iff]
        intro v hv hID
        have hStored : stored v ∈ context.objects.values := h.objects_values ▸ List.mem_map_of_mem hv
        obtain ⟨row, hRow, hEq⟩ := List.mem_map.mp hStored
        apply firstUnder_eq_none_iff.mp hFirst row hRow
        rw [hEq, stored_vehicleID, hID]
      rw [hAbsent]
      rfl
  | some obj =>
      obtain ⟨hRow, hID⟩ := mem_objectsUnder.mp (mem_of_firstUnder hFirst)
      obtain ⟨old, hOld, hOldStored⟩ : ∃ old ∈ entries, stored old = obj.value :=
        List.mem_map.mp (h.objects_values ▸ List.mem_map_of_mem hRow)
      have hKey : old.vehicleID = recordID := by
        rw [← hOldStored, stored_vehicleID] at hID
        exact Option.some.inj hID
      rw [h.distinct.find_eq_some_iff.mpr ⟨hOld, hKey⟩, Option.map_some, Option.map_some, hOldStored]

theorem addRecord_holds (h : Holds context entries) (hStorable : Storable objVehicle)
    (hFresh : ∀ v ∈ entries, v.vehicleID ≠ objVehicle.vehicleID) :
    ∃ context', addRecord .success context objVehicle = .ok (context', [true]) ∧
      Holds context' (entries ++ [objVehicle]) := by
  refine ⟨⟨context.persisted.insert (stored objVehicle), []⟩, ?_, rfl, ?_, ?_,
    h.distinct.append_new hFresh⟩
  · rw [addRecord_eq_ok]
    refine ⟨hStorable.narrow, ?_⟩
    rw [ManagedObjectContext.save_success, ManagedObjectContext.objects_perform, h.objects_eq]
    rfl
  · simp [h.values]
  · intro v hv
    rcases List.mem_append.mp hv with hv | hv
    · exact h.storable v hv
    · exact List.mem_singleton.mp hv ▸ hStorable

/-- Editing an id that is not stored changes nothing. -/
theorem editRecord_holds (h : Holds context entries) (hStorable : Storable objVehicle) :
    ∃ context', editRecord .success context objVehicle = .ok (context', [true]) ∧
      Holds context' (KeyedList.replace AllVehiclesI.vehicleID entries objVehicle) := by
  have hFind := h.firstUnder_eq objVehicle.vehicleID
  cases hFirst : firstUnder context objVehicle.vehicleID with
  | none =>
      rw [hFirst, Option.map_none, eq_comm, Option.map_eq_none_iff, KeyedList.find_eq_none_iff] at hFind
      rw [KeyedList.replace_eq_self hFind]
      refine ⟨⟨context.persisted, []⟩, ?_, rfl, h.values, h.storable, h.distinct⟩
      rw [editRecord_of_absent rfl hFirst, ManagedObjectContext.save_success, h.objects_eq]
  | some obj =>
      obtain ⟨hRow, hID⟩ := mem_objectsUnder.mp (mem_of_firstUnder hFirst)
      rw [h.objects_eq] at hRow
      rw [hFirst, Option.map_some, eq_comm, Option.map_eq_some_iff] at hFind
      obtain ⟨old, hOld, _⟩ := hFind
      have hKeys : KeyedList.Distinct Vehicle.vehicleID context.persisted.values := by
        rw [h.values]
        exact (KeyedList.distinct_map (Option.some_injective String) stored_vehicleID).mpr h.distinct
      refine ⟨⟨context.persisted.update obj.objectID (stored objVehicle), []⟩, ?_, rfl, ?_, ?_,
        h.distinct.replace objVehicle⟩
      · rw [editRecord_of_present rfl hFirst]
        refine ⟨hStorable.typed, hStorable.narrow, ?_⟩
        rw [ManagedObjectContext.save_success, ManagedObjectContext.objects_perform, h.objects_eq]
        rfl
      · rw [context.persisted.values_update_replace hKeys hRow (by rw [hID, stored_vehicleID]),
          h.values, KeyedList.replace_map (Option.some_injective String) stored_vehicleID]
      · intro v hv
        rcases (KeyedList.mem_replace (KeyedList.mem_of_find hOld) (KeyedList.key_of_find hOld)).mp hv with
          rfl | ⟨hv, _⟩
        · exact hStorable
        · exact h.storable v hv

theorem deleteRecord_holds (h : Holds context entries) (recordID : String) :
    ∃ context', deleteRecord .success context recordID = .ok (context', [true]) ∧
      Holds context' (KeyedList.remove AllVehiclesI.vehicleID entries recordID) := by
  refine ⟨_, deleteRecord_eq rfl recordID, rfl, ?_,
    fun v hv => h.storable v (List.mem_filter.mp hv).1, h.distinct.remove recordID⟩
  rw [ManagedObjectContext.save_success, objects_deleteObjects, objectsUnder, h.objects_eq,
    context.persisted.values_deleteAll_remove (some recordID) (List.Perm.refl _), h.values,
    KeyedList.remove_map (Option.some_injective String) stored_vehicleID]

/-- The same for a call that has completed. -/
theorem Holds.of_addRecord (h : Holds context entries) {context' : ManagedObjectContext} {calls : List Bool}
    (hType : objVehicle.vehicleType.isSome) (hDue : objVehicle.serviceDueDate.isSome)
    (hFresh : ∀ v ∈ entries, v.vehicleID ≠ objVehicle.vehicleID)
    (hAdd : addRecord .success context objVehicle = .ok (context', calls)) :
    Holds context' (entries ++ [objVehicle]) := by
  have hNarrow := (addRecord_eq_ok.mp hAdd).1
  obtain ⟨next, hOk, hHolds⟩ := addRecord_holds h ⟨hType, hDue, hNarrow⟩ hFresh
  obtain ⟨rfl, _⟩ := Prod.mk.inj (Except.ok.inj (hOk.symm.trans hAdd))
  exact hHolds

theorem Holds.of_editRecord (h : Holds context entries) {context' : ManagedObjectContext} {calls : List Bool}
    (hType : objVehicle.vehicleType.isSome) (hDue : objVehicle.serviceDueDate.isSome)
    (hStored : (firstUnder context objVehicle.vehicleID).isSome)
    (hEdit : editRecord .success context objVehicle = .ok (context', calls)) :
    Holds context' (KeyedList.replace AllVehiclesI.vehicleID entries objVehicle) := by
  obtain ⟨obj, hFirst⟩ := Option.isSome_iff_exists.mp hStored
  obtain ⟨_, hNarrow, _⟩ := (editRecord_of_present rfl hFirst).mp hEdit
  obtain ⟨next, hOk, hHolds⟩ := editRecord_holds h ⟨hType, hDue, hNarrow⟩
  obtain ⟨rfl, _⟩ := Prod.mk.inj (Except.ok.inj (hOk.symm.trans hEdit))
  exact hHolds

theorem Holds.of_deleteRecord (h : Holds context entries) {context' : ManagedObjectContext}
    {calls : List Bool} {recordID : String}
    (hDelete : deleteRecord .success context recordID = .ok (context', calls)) :
    Holds context' (KeyedList.remove AllVehiclesI.vehicleID entries recordID) := by
  obtain ⟨next, hOk, hHolds⟩ := deleteRecord_holds h recordID
  obtain ⟨rfl, _⟩ := Prod.mk.inj (Except.ok.inj (hOk.symm.trans hDelete))
  exact hHolds

/-- Everything is saved already when the app terminates, and the next launch finds it. -/
theorem Holds.of_saveContext (h : Holds context entries) {outcome : StoreOutcome}
    {context' : ManagedObjectContext} (hSave : saveContext outcome context = .ok context') :
    context'.loadPersistentStores = context := by
  rw [saveContext, ManagedObjectContext.hasChanges_of_pending_nil h.saved] at hSave
  obtain rfl := Except.ok.inj hSave
  exact ManagedObjectContext.loadPersistentStores_of_pending_nil h.saved

/-- Something is stored under the id of an entry. -/
theorem Holds.firstUnder_isSome (h : Holds context entries) (hMem : objVehicle ∈ entries) :
    (firstUnder context objVehicle.vehicleID).isSome := by
  have hFirst := h.firstUnder_eq objVehicle.vehicleID
  rw [h.distinct.find_eq_some_iff.mpr ⟨hMem, rfl⟩] at hFirst
  rw [← Option.isSome_map, hFirst]
  rfl

end Entries

section Step

variable {context : ManagedObjectContext} {m : VehicleMap} {objVehicle : AllVehiclesI}

theorem addRecord_represents (h : Represents context m) (hStorable : Storable objVehicle)
    (hNew : m objVehicle.vehicleID = none) :
    ∃ context', addRecord .success context objVehicle = .ok (context', [true]) ∧
      Represents context' (Function.update m objVehicle.vehicleID (some objVehicle)) := by
  obtain ⟨entries, hHolds, rfl⟩ := h.holds
  have hFresh := KeyedList.find_eq_none_iff.mp hNew
  obtain ⟨context', hOk, hNext⟩ := addRecord_holds hHolds hStorable hFresh
  exact ⟨context', hOk, KeyedList.find_append_new hFresh ▸ hNext.represents⟩

theorem editRecord_represents (h : Represents context m) (hStorable : Storable objVehicle) :
    ∃ context', editRecord .success context objVehicle = .ok (context', [true]) ∧
      Represents context' ((Call.write (.editRecord objVehicle)).onMap m) := by
  obtain ⟨entries, hHolds, rfl⟩ := h.holds
  obtain ⟨context', hOk, hNext⟩ := editRecord_holds hHolds hStorable
  refine ⟨context', hOk, ?_⟩
  cases hFind : KeyedList.find AllVehiclesI.vehicleID entries objVehicle.vehicleID with
  | none =>
      -- nothing is stored under the id, and neither side changes
      rw [KeyedList.replace_eq_self (KeyedList.find_eq_none_iff.mp hFind)] at hNext
      rw [Call.onMap, hFind, if_neg (by simp)]
      exact hNext.represents
  | some old =>
      have hPresent : (KeyedList.find AllVehiclesI.vehicleID entries objVehicle.vehicleID).isSome := by
        rw [hFind]
        rfl
      rw [Call.onMap, if_pos hPresent, ← KeyedList.find_replace hHolds.distinct
        (KeyedList.mem_of_find hFind) (KeyedList.key_of_find hFind)]
      exact hNext.represents

theorem deleteRecord_represents (h : Represents context m) (recordID : String) :
    ∃ context', deleteRecord .success context recordID = .ok (context', [true]) ∧
      Represents context' (Function.update m recordID none) := by
  obtain ⟨entries, hHolds, rfl⟩ := h.holds
  obtain ⟨context', hOk, hNext⟩ := deleteRecord_holds hHolds recordID
  rw [← KeyedList.find_remove]
  exact ⟨context', hOk, hNext.represents⟩

/-- The copying loop over encoded vehicles gives the vehicles back. -/
theorem mapM_allVehicleOf {vehicles : List Vehicle} {entries : List AllVehiclesI}
    (hValues : vehicles = entries.map stored)
    (hAll : ∀ objVehicle ∈ entries, objVehicle.vehicleType.isSome ∧ Narrow objVehicle) :
    vehicles.mapM allVehicleOf = .ok entries := by
  subst hValues
  induction entries with
  | nil => rfl
  | cons v entries ih =>
      obtain ⟨hType, hNarrow⟩ := hAll v (List.mem_cons_self ..)
      rw [List.map_cons, List.mapM_cons, allVehicleOf_stored hType hNarrow,
        ih fun w hw => hAll w (List.mem_cons_of_mem _ hw)]
      rfl

/-- What a query returns: the matching entries, sorted by due date. -/
theorem getAllRecords_of_entries {entries : List AllVehiclesI}
    (hObjects : context.objects.values = entries.map stored)
    (hAll : ∀ objVehicle ∈ entries, objVehicle.vehicleType.isSome ∧ Narrow objVehicle)
    (predicate : Option (Option Date → Bool)) :
    getAllRecords .success context (predicate.map onServiceDueDate) =
      .ok ((entries.filter fun objVehicle =>
        (predicate.getD fun _ => true) objVehicle.serviceDueDate).insertionSort
          (byDueDate AllVehiclesI.serviceDueDate)) := by
  have hPredicate : ((predicate.map onServiceDueDate).getD fun _ => true) =
      fun vehicle : Vehicle => (predicate.getD fun _ => true) vehicle.serviceDueDate := by
    cases predicate <;> rfl
  rw [getAllRecords_eq rfl, hPredicate]
  change List.mapM (allVehicleOf ∘ Table.Row.value) _ = _
  rw [← List.mapM_map]
  apply mapM_allVehicleOf
  · -- sorting and filtering by due date commute with the encoding
    rw [List.map_insertionSort (byDueDate rowDueDate) (byDueDate Vehicle.serviceDueDate) _ _
        (fun _ _ _ _ => Iff.rfl),
      List.map_insertionSort (byDueDate AllVehiclesI.serviceDueDate)
        (byDueDate Vehicle.serviceDueDate) _ _ (fun _ _ _ _ => Iff.rfl)]
    congr 1
    calc _ = context.objects.values.filter fun vehicle =>
          (predicate.getD fun _ => true) vehicle.serviceDueDate := List.filter_map.symm
      _ = _ := by
          rw [hObjects, List.filter_map]
          rfl
  · intro v hv
    exact hAll v (List.mem_filter.mp ((List.mem_insertionSort _).mp hv)).1

theorem getAllRecords_of_holds {entries : List AllVehiclesI} (h : Holds context entries)
    (predicate : Option (Option Date → Bool)) :
    getAllRecords .success context (predicate.map onServiceDueDate) =
      .ok ((entries.filter fun objVehicle =>
        (predicate.getD fun _ => true) objVehicle.serviceDueDate).insertionSort
          (byDueDate AllVehiclesI.serviceDueDate)) :=
  getAllRecords_of_entries h.objects_values
    (fun objVehicle hMem => ⟨(h.storable objVehicle hMem).typed, (h.storable objVehicle hMem).narrow⟩)
    predicate

theorem getAllRecords_represents (h : Represents context m)
    (predicate : Option (Option Date → Bool)) :
    ∃ arrVehicles,
      getAllRecords .success context (predicate.map onServiceDueDate) = .ok arrVehicles ∧
      (Call.getAllRecords predicate).Answers m (.records arrVehicles) := by
  obtain ⟨entries, hHolds, rfl⟩ := h.holds
  refine ⟨_, getAllRecords_of_holds hHolds predicate, ?_, ?_, ?_⟩
  · exact (List.perm_insertionSort _ _).nodup_iff.mpr (hHolds.distinct.nodup.filter _)
  · intro v
    rw [List.mem_insertionSort, List.mem_filter, hHolds.distinct.find_eq_some_iff]
    simp
  · exact List.pairwise_insertionSort _ _

/-- One call keeps the correspondence and answers as the map does. -/
theorem Call.perform_represents (h : Represents context m) {call : Call} (hAllowed : call.Allowed m) :
    ∃ context' answer, call.perform context = .ok (context', answer) ∧
      call.Answers m answer ∧ Represents context' (call.onMap m) := by
  cases call with
  | write operation =>
      obtain ⟨context', hOk, hRep⟩ : ∃ context',
          operation.perform .success context = .ok (context', [true]) ∧
            Represents context' ((Call.write operation).onMap m) := by
        cases operation with
        | addRecord objVehicle => exact addRecord_represents h hAllowed.1 hAllowed.2
        | editRecord objVehicle => exact editRecord_represents h hAllowed
        | deleteRecord recordID => exact deleteRecord_represents h recordID
      exact ⟨context', .completed [true], by simp [Call.perform, hOk], rfl, hRep⟩
  | getAllRecords predicate =>
      obtain ⟨arrVehicles, hOk, hAnswers⟩ := getAllRecords_represents h predicate
      exact ⟨context, .records arrVehicles, by simp [Call.perform, hOk], hAnswers, h⟩

end Step

/-- The database layer refines the map: every allowed sequence of calls, from
any context that represents a map, runs through, and at every point the
context represents the map of the same operations and the answers agree. -/
theorem follows_map {context : ManagedObjectContext} {m : VehicleMap} {calls : List Call}
    (h : Represents context m) (hAllowed : AllAllowed m calls) : Follows context m calls := by
  induction calls generalizing context m with
  | nil => exact h
  | cons call calls ih =>
      obtain ⟨context', answer, hOk, hAnswers, hNext⟩ := Call.perform_represents h hAllowed.1
      exact ⟨h, context', answer, hOk, hAnswers, ih hNext hAllowed.2⟩

/-- A bike that is added, edited, listed and deleted again. -/
theorem follows_map_bike :
    let bike : AllVehiclesI :=
      { vehicleID := "A1", vehicleType := some "Bike", serviceRequiredAfter := some 5000
        averageRun := some 200, lastServiceDate := some 0, serviceDueDate := some 15120000 }
    Follows .empty (fun _ => none)
      [.write (.addRecord bike), .write (.editRecord { bike with averageRun := some 250 }),
        .getAllRecords none, .write (.deleteRecord "A1")] := by
  intro bike
  refine follows_map represents_empty ⟨⟨⟨rfl, rfl, 5000, 200, rfl, ?_, rfl, ?_⟩, rfl⟩,
    ⟨rfl, rfl, 5000, 250, rfl, ?_, rfl, ?_⟩, trivial, trivial, trivial⟩
  all_goals decide

end DatabaseManager

end ServiceBook

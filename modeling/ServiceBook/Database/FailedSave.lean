import Mathlib.Data.Multiset.ZeroCons
import ServiceBook.Database.DatabaseManager

/-! A failed save rolls nothing back: the changes stay in the shared context,
show up in later fetches and are written by the next save that succeeds. -/
namespace ServiceBook

namespace DatabaseManager

/-- A later operation on the same context, with a save that succeeds. -/
inductive Later where
  | write (fetched : Bool) (operation : Write)
  | saveContext

def Later.perform (context : ManagedObjectContext) : Later → Except Trap ManagedObjectContext
  | .write fetched operation => do
      let (context, _) ← operation.perform ⟨fetched, true⟩ context
      return context
  | .saveContext => ServiceBook.saveContext .success context

/-- The persisted records after a sequence of later operations. -/
def storeAfter (context : ManagedObjectContext) : List Later → Except Trap (Multiset Vehicle)
  | [] => .ok context.persisted.values
  | later :: rest => do storeAfter (← later.perform context) rest

/-- The two contexts cannot be told apart: not by a query, and not by the
store that any later operations leave behind. -/
def Indistinguishable (context context' : ManagedObjectContext) : Prop :=
  (∀ outcome predicate,
    getAllRecords outcome context' predicate = getAllRecords outcome context predicate) ∧
  ∀ later, storeAfter context' later = storeAfter context later

/-- The operation would write nothing new. -/
def Write.Vacuous (context : ManagedObjectContext) : Write → Prop
  | .addRecord _ => False
  | .editRecord objVehicle => ∀ obj, firstUnder context objVehicle.vehicleID = some obj →
      obj.value = stored objVehicle
  | .deleteRecord recordID => firstUnder context recordID = none

/-- Same persisted records and same fetches, but perhaps different pending changes. -/
structure SameView (context context' : ManagedObjectContext) : Prop where
  persisted : context'.persisted.values = context.persisted.values
  objects : context'.objects = context.objects

/-- `saveContext` leaves exactly the fetched view, whether or not it has to write. -/
theorem saveContext_success (context : ManagedObjectContext) :
    ∃ saved, ServiceBook.saveContext .success context = .ok saved ∧ saved.objects = context.objects ∧
      saved.persisted.values = context.objects.values := by
  unfold ServiceBook.saveContext
  split
  · exact ⟨⟨context.objects, []⟩, rfl, rfl, rfl⟩
  · next hNone =>
      have hRows := ManagedObjectContext.rows_of_hasChanges (Bool.eq_false_iff.mpr hNone)
      exact ⟨context, rfl, rfl, congrArg (List.map Table.Row.value) hRows.symm⟩

section SameView

variable {context context' : ManagedObjectContext}

theorem SameView.fetch (h : SameView context context') (outcome : StoreOutcome)
    (predicate : NSPredicate) :
    context'.fetch outcome predicate = context.fetch outcome predicate := by
  simp only [ManagedObjectContext.fetch, h.objects]

theorem SameView.getAllRecords (h : SameView context context') (outcome : StoreOutcome)
    (predicate : Option NSPredicate) :
    DatabaseManager.getAllRecords outcome context' predicate =
      DatabaseManager.getAllRecords outcome context predicate := by
  simp only [DatabaseManager.getAllRecords, ManagedObjectContext.fetchSorted, h.fetch]

/-- A successful save of the same objects leaves the same context. -/
theorem save_of_objects (h : context'.objects = context.objects) (fetched : Bool) :
    context'.save ⟨fetched, true⟩ = context.save ⟨fetched, true⟩ := by
  show (ManagedObjectContext.mk context'.objects [], true) = (ManagedObjectContext.mk context.objects [], true)
  rw [h]

/-- So does one after the same changes. -/
theorem SameView.save_perform (h : SameView context context') (fetched : Bool)
    (change : Table.Change Vehicle) :
    (context'.perform change).save ⟨fetched, true⟩ =
      (context.perform change).save ⟨fetched, true⟩ := by
  apply save_of_objects
  rw [ManagedObjectContext.objects_perform, ManagedObjectContext.objects_perform, h.objects]

theorem SameView.save_deleteObjects (h : SameView context context') (fetched : Bool)
    (resultData : List (Table.Row Vehicle)) :
    (deleteObjects context' resultData).save ⟨fetched, true⟩ =
      (deleteObjects context resultData).save ⟨fetched, true⟩ := by
  apply save_of_objects
  rw [objects_deleteObjects, objects_deleteObjects, h.objects]

/-- One later operation ends in the same context on both sides. Only an edit
whose fetch fails leaves each side as it is. -/
theorem SameView.perform (h : SameView context context') (fetched : Bool) (operation : Write) :
    operation.perform ⟨fetched, true⟩ context' = operation.perform ⟨fetched, true⟩ context ∨
      (operation.perform ⟨fetched, true⟩ context = .ok (context, [false]) ∧
        operation.perform ⟨fetched, true⟩ context' = .ok (context', [false])) := by
  cases operation with
  | addRecord objVehicle =>
      left
      simp only [Write.perform, addRecord, h.save_perform]
  | editRecord objVehicle =>
      cases fetched with
      | false => exact Or.inr ⟨rfl, rfl⟩
      | true =>
          left
          simp only [Write.perform, editRecord, ManagedObjectContext.fetchSorted, h.fetch,
            h.save_perform, save_of_objects h.objects]
          rw [ManagedObjectContext.fetch, if_pos rfl, Option.map_some]
          cases (context.objects.rows.filter _).insertionSort (byDueDate rowDueDate) <;> rfl
  | deleteRecord recordID =>
      left
      simp only [Write.perform, deleteRecord, h.fetch, h.save_deleteObjects]

theorem SameView.later (h : SameView context context') (later : Later) :
    later.perform context' = later.perform context ∨
      ∃ next next', later.perform context = .ok next ∧ later.perform context' = .ok next' ∧ SameView next next' := by
  cases later with
  | write fetched operation =>
      rcases h.perform fetched operation with hSame | ⟨hLeft, hRight⟩
      · exact Or.inl (by rw [Later.perform, hSame]; rfl)
      · exact Or.inr ⟨context, context', by simp [Later.perform, hLeft], by simp [Later.perform, hRight], h⟩
  | saveContext =>
      obtain ⟨saved, hSaved, hObjects, hPersisted⟩ := saveContext_success context
      obtain ⟨saved', hSaved', hObjects', hPersisted'⟩ := saveContext_success context'
      exact Or.inr ⟨saved, saved', hSaved, hSaved', by rw [hPersisted', hPersisted, h.objects],
        by rw [hObjects', hObjects, h.objects]⟩

/-- After any later operations both sides have persisted the same records. -/
theorem SameView.storeAfter (h : SameView context context') (later : List Later) :
    DatabaseManager.storeAfter context' later = DatabaseManager.storeAfter context later := by
  induction later generalizing context context' with
  | nil => rw [DatabaseManager.storeAfter, DatabaseManager.storeAfter, h.persisted]
  | cons first rest ih =>
      rw [DatabaseManager.storeAfter, DatabaseManager.storeAfter]
      rcases h.later first with hSame | ⟨next, next', hLeft, hRight, hNext⟩
      · rw [hSame]
      · rw [hLeft, hRight]
        exact ih hNext

theorem SameView.indistinguishable (h : SameView context context') :
    Indistinguishable context context' :=
  ⟨h.getAllRecords, h.storeAfter⟩

end SameView

section FailedSave

variable {context context' : ManagedObjectContext}

/-- What an operation leaves behind when its save fails: its changes, pending. -/
theorem changes_of_failed {operation : Write} {calls : List Bool}
    (hFail : operation.perform ⟨true, false⟩ context = .ok (context', calls)) :
    context'.persisted = context.persisted ∧
    match operation with
    | .addRecord objVehicle => context'.objects = context.objects.insert (stored objVehicle)
    | .editRecord objVehicle =>
        match firstUnder context objVehicle.vehicleID with
        | none => context'.objects = context.objects
        | some obj => context'.objects = context.objects.update obj.objectID (stored objVehicle)
    | .deleteRecord recordID =>
        context'.objects = context.objects.deleteAll (objectsUnder context recordID) := by
  cases operation with
  | addRecord objVehicle =>
      change addRecord ⟨true, false⟩ context objVehicle = _ at hFail
      obtain ⟨_, hResult⟩ := addRecord_eq_ok.mp hFail
      rw [ManagedObjectContext.save_failure rfl] at hResult
      obtain ⟨rfl, _⟩ := Prod.mk.inj hResult
      exact ⟨rfl, ManagedObjectContext.objects_perform _⟩
  | editRecord objVehicle =>
      change editRecord ⟨true, false⟩ context objVehicle = _ at hFail
      dsimp only
      cases hFirst : firstUnder context objVehicle.vehicleID with
      | none =>
          rw [editRecord_of_absent rfl hFirst, ManagedObjectContext.save_failure rfl] at hFail
          obtain ⟨rfl, _⟩ := Prod.mk.inj (Except.ok.inj hFail)
          exact ⟨rfl, rfl⟩
      | some obj =>
          obtain ⟨_, _, hResult⟩ := (editRecord_of_present rfl hFirst).mp hFail
          rw [ManagedObjectContext.save_failure rfl] at hResult
          obtain ⟨rfl, _⟩ := Prod.mk.inj hResult
          exact ⟨rfl, ManagedObjectContext.objects_perform _⟩
  | deleteRecord recordID =>
      change deleteRecord ⟨true, false⟩ context recordID = _ at hFail
      rw [deleteRecord_eq rfl, ManagedObjectContext.save_failure rfl] at hFail
      obtain ⟨rfl, _⟩ := Prod.mk.inj (Except.ok.inj hFail)
      exact ⟨persisted_deleteObjects _, objects_deleteObjects _⟩

/-- A failed operation that would have written nothing new cannot be noticed. -/
theorem sameView_of_vacuous {operation : Write} {calls : List Bool}
    (hFail : operation.perform ⟨true, false⟩ context = .ok (context', calls))
    (hVacuous : operation.Vacuous context) : SameView context context' := by
  obtain ⟨hPersisted, hObjects⟩ := changes_of_failed hFail
  refine ⟨congrArg Table.Rows.values hPersisted, ?_⟩
  cases operation with
  | addRecord objVehicle => exact hVacuous.elim
  | editRecord objVehicle =>
      dsimp only at hObjects
      cases hFirst : firstUnder context objVehicle.vehicleID with
      | none => rwa [hFirst] at hObjects
      | some obj =>
          rw [hFirst] at hObjects
          rw [hObjects, ← hVacuous obj hFirst]
          exact context.objects.update_self (mem_objectsUnder.mp (mem_of_firstUnder hFirst)).1
  | deleteRecord recordID =>
      have hNone : objectsUnder context recordID = [] := by
        rw [objectsUnder, List.filter_eq_nil_iff]
        intro obj hObj
        simpa using firstUnder_eq_none_iff.mp hVacuous obj hObj
      dsimp only at hObjects
      rw [hObjects, hNone, Table.Rows.deleteAll_nil]

/-- A failed operation with something to write is noticed by the next save
of the context. -/
theorem vacuous_of_indistinguishable {operation : Write} {calls : List Bool}
    (hFail : operation.perform ⟨true, false⟩ context = .ok (context', calls))
    (h : Indistinguishable context context') : operation.Vacuous context := by
  obtain ⟨_, hObjects⟩ := changes_of_failed hFail
  have hSame : (context'.objects.values : Multiset Vehicle) = context.objects.values := by
    obtain ⟨saved, hSaved, _, hPersisted⟩ := saveContext_success context
    obtain ⟨saved', hSaved', _, hPersisted'⟩ := saveContext_success context'
    have hStores := h.2 [.saveContext]
    simpa [storeAfter, Later.perform, hSaved, hSaved', hPersisted, hPersisted'] using hStores
  cases operation with
  | addRecord objVehicle =>
      dsimp only at hObjects
      have hCard := congrArg Multiset.card hSame
      rw [hObjects, Table.Rows.values_insert, Multiset.coe_card, Multiset.coe_card,
        List.length_append, List.length_singleton] at hCard
      omega
  | editRecord objVehicle =>
      intro obj hFirst
      dsimp only at hObjects
      rw [hFirst] at hObjects
      obtain ⟨rest, hBefore, hAfter⟩ := context.objects.values_update_perm
        (mem_objectsUnder.mp (mem_of_firstUnder hFirst)).1 (stored objVehicle)
      have hCons : (stored objVehicle) ::ₘ (rest : Multiset Vehicle) = obj.value ::ₘ rest := by
        calc (stored objVehicle) ::ₘ (rest : Multiset Vehicle)
            = context'.objects.values := by
              rw [hObjects]
              exact (Multiset.coe_eq_coe.mpr hAfter).symm
          _ = context.objects.values := hSame
          _ = obj.value ::ₘ rest := Multiset.coe_eq_coe.mpr hBefore
      exact ((Multiset.cons_inj_left _).mp hCons).symm
  | deleteRecord recordID =>
      dsimp only at hObjects
      have hCard := congrArg Multiset.card hSame
      rw [hObjects, Multiset.coe_card, Multiset.coe_card, Table.Rows.values, Table.Rows.values,
        List.length_map, List.length_map, objectsUnder,
        context.objects.deleteAll_filter_rows _ (List.Perm.refl _)] at hCard
      rw [Write.Vacuous, firstUnder_eq_none_iff]
      intro obj hObj
      simpa using List.length_filter_eq_length_iff.mp hCard obj hObj

end FailedSave

/-- A failed save is atomic only by accident: afterwards queries and all later
stores are as if the operation had not been issued exactly when it had nothing
to write. -/
theorem failed_save_atomic_iff {context context' : ManagedObjectContext} {operation : Write}
    {calls : List Bool}
    (hFail : operation.perform ⟨true, false⟩ context = .ok (context', calls)) :
    Indistinguishable context context' ↔ operation.Vacuous context :=
  ⟨vacuous_of_indistinguishable hFail, fun h => (sameView_of_vacuous hFail h).indistinguishable⟩

private def scooter : AllVehiclesI :=
  { vehicleID := "A1", vehicleType := some "Bike", serviceRequiredAfter := some 3000
    averageRun := some 70, lastServiceDate := some 0, serviceDueDate := some 25920000 }

private theorem scooter_add_fails :
    (Write.addRecord scooter).perform ⟨true, false⟩ .empty =
      .ok (ManagedObjectContext.empty.perform (.insert (stored scooter)), [false]) := by
  have hNarrow : Narrow scooter := ⟨3000, 70, rfl, by decide, rfl, by decide⟩
  show addRecord ⟨true, false⟩ .empty scooter = _
  exact addRecord_eq_ok.mpr ⟨hNarrow, rfl⟩

/-- The scooter is not stored, and yet its record would survive. -/
theorem failed_save_atomic_iff_scooter :
    Indistinguishable .empty (ManagedObjectContext.empty.perform (.insert (stored scooter))) ↔
      (Write.addRecord scooter).Vacuous .empty :=
  failed_save_atomic_iff scooter_add_fails

/-- Failed operations are not atomic. -/
theorem failed_save_not_atomic :
    ¬ ∀ (context context' : ManagedObjectContext) (operation : Write) (calls : List Bool),
      context.pending = [] → operation.perform ⟨true, false⟩ context = .ok (context', calls) →
        Indistinguishable context context' := by
  intro h
  have hStore := (h _ _ _ _ rfl scooter_add_fails).2 [.saveContext]
  have hCard := congrArg (Except.map Multiset.card) hStore
  revert hCard
  decide

end DatabaseManager

end ServiceBook

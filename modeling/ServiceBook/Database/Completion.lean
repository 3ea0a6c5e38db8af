import ServiceBook.Database.DatabaseManager

/-! What the completion handler of a write is told, compared with what the
persisted store then holds, for every answer of the store to the fetch and to
the save of the operation. -/
namespace ServiceBook

namespace DatabaseManager

/-- The numeric fields of a vehicle that is written are in range. -/
def Write.InRange : Write → Prop
  | .addRecord objVehicle | .editRecord objVehicle => Narrow objVehicle
  | .deleteRecord _ => True

/-- The persisted store holds what was requested. -/
def Write.Fulfilled (context : ManagedObjectContext) : Write → Prop
  | .addRecord objVehicle | .editRecord objVehicle => stored objVehicle ∈ context.persisted.values
  | .deleteRecord recordID => ∀ vehicle ∈ context.persisted.values, vehicle.vehicleID ≠ some recordID

/-- The operation ends without a trap, and with one call of the completion
handler, which is not told more than is true. -/
def Write.Truthful (outcome : StoreOutcome) (context : ManagedObjectContext) (operation : Write) : Prop :=
  ∃ context' success, operation.perform outcome context = .ok (context', [success]) ∧
    (success = true → operation.Fulfilled context')

/-- Nothing can go wrong with an addition. An edit whose fetch succeeds needs
an object to write to and a type to write, or a save that fails; a deletion
needs its fetch to succeed. -/
def Write.Sound (outcome : StoreOutcome) (context : ManagedObjectContext) : Write → Prop
  | .addRecord _ => True
  | .editRecord objVehicle => outcome.fetch = true →
      if (firstUnder context objVehicle.vehicleID).isSome then objVehicle.vehicleType.isSome
      else outcome.save = false
  | .deleteRecord _ => outcome.fetch = true

section Completion

variable {outcome : StoreOutcome} {context : ManagedObjectContext} {objVehicle : AllVehiclesI}
  {recordID : String}

/-- After a save that succeeds the store is what was fetched before it. -/
theorem persisted_of_save {before : ManagedObjectContext} (h : (before.save outcome).2 = true) :
    (before.save outcome).1.persisted = before.objects := by
  unfold ManagedObjectContext.save at h ⊢
  split at h
  · next hSave => rw [if_pos hSave]
  · cases h

theorem addRecord_truthful (hRange : Narrow objVehicle) :
    (Write.addRecord objVehicle).Truthful outcome context := by
  refine ⟨_, _, addRecord_eq_ok.mpr ⟨hRange, rfl⟩, fun hSuccess => ?_⟩
  rw [Write.Fulfilled, persisted_of_save hSuccess, ManagedObjectContext.objects_perform]
  simp [Table.Rows.apply]

/-- An edit that finds an object fails only for want of a type. -/
theorem editRecord_truthful_of_present (hFetch : outcome.fetch = true) (hRange : Narrow objVehicle)
    {obj : Table.Row Vehicle} (hFirst : firstUnder context objVehicle.vehicleID = some obj) :
    (Write.editRecord objVehicle).Truthful outcome context ↔ objVehicle.vehicleType.isSome := by
  constructor
  · rintro ⟨context', success, hOk, _⟩
    exact ((editRecord_of_present hFetch hFirst).mp hOk).1
  · intro hType
    refine ⟨_, _, (editRecord_of_present hFetch hFirst).mpr ⟨hType, hRange, rfl⟩, fun hSuccess => ?_⟩
    have hRow := (mem_objectsUnder.mp (mem_of_firstUnder hFirst)).1
    rw [Write.Fulfilled, persisted_of_save hSuccess, ManagedObjectContext.objects_perform]
    obtain ⟨rest, _, hAfter⟩ := context.objects.values_update_perm hRow (stored objVehicle)
    exact hAfter.mem_iff.mpr (List.mem_cons_self ..)

/-- An edit that finds none reports its save, which writes nothing of it. -/
theorem editRecord_truthful_of_absent (hFetch : outcome.fetch = true)
    (hFirst : firstUnder context objVehicle.vehicleID = none) :
    (Write.editRecord objVehicle).Truthful outcome context ↔ outcome.save = false := by
  have hRun : (Write.editRecord objVehicle).perform outcome context =
      .ok ((context.save outcome).1, [(context.save outcome).2]) := editRecord_of_absent hFetch hFirst
  constructor
  · rintro ⟨context', success, hOk, hTold⟩
    obtain ⟨rfl, hSuccess⟩ := Prod.mk.inj (Except.ok.inj (hRun.symm.trans hOk))
    obtain rfl := (List.singleton_inj.mp hSuccess).symm
    cases hSave : outcome.save with
    | false => rfl
    | true =>
        have hTrue : (context.save outcome).2 = true := by simp [ManagedObjectContext.save, hSave]
        have hMem := hTold hTrue
        rw [Write.Fulfilled, persisted_of_save hTrue] at hMem
        obtain ⟨row, hRow, hValue⟩ := List.mem_map.mp hMem
        exact absurd (by rw [hValue, stored_vehicleID]) (firstUnder_eq_none_iff.mp hFirst row hRow)
  · intro hSave
    refine ⟨_, _, hRun, fun hTrue => ?_⟩
    rw [ManagedObjectContext.save_failure hSave] at hTrue
    cases hTrue

/-- A deletion leaves no object under the id, if it gets to save. -/
theorem deleteRecord_truthful_iff :
    (Write.deleteRecord recordID).Truthful outcome context ↔ outcome.fetch = true := by
  constructor
  · rintro ⟨context', success, hOk, _⟩
    cases hFetch : outcome.fetch with
    | true => rfl
    | false =>
        change deleteRecord outcome context recordID = _ at hOk
        rw [deleteRecord, ManagedObjectContext.fetch, hFetch] at hOk
        cases hOk
  · intro hFetch
    refine ⟨_, _, deleteRecord_eq hFetch recordID, fun hSuccess => ?_⟩
    rw [Write.Fulfilled, persisted_of_save hSuccess, objects_deleteObjects]
    intro vehicle hVehicle
    obtain ⟨row, hRow, rfl⟩ := List.mem_map.mp hVehicle
    rw [objectsUnder, context.objects.deleteAll_filter_rows _ (List.Perm.refl _)] at hRow
    simpa using (List.mem_filter.mp hRow).2

/-- For every store, operation and answer of the store, the completion handler
is called once and told the truth exactly under this condition. -/
theorem truthful_iff_sound (operation : Write) (hRange : operation.InRange) :
    operation.Truthful outcome context ↔ operation.Sound outcome context := by
  cases operation with
  | addRecord objVehicle => exact ⟨fun _ => trivial, fun _ => addRecord_truthful hRange⟩
  | editRecord objVehicle =>
      rw [Write.Sound]
      cases hFetch : outcome.fetch with
      | false =>
          -- the failed fetch is caught and reported
          have hRun : (Write.editRecord objVehicle).perform outcome context = .ok (context, [false]) := by
            simp [Write.perform, editRecord, ManagedObjectContext.fetchSorted, ManagedObjectContext.fetch,
              hFetch]
          exact ⟨fun _ hTrue => (by cases hTrue), fun _ => ⟨_, _, hRun, fun hTrue => (by cases hTrue)⟩⟩
      | true =>
          cases hFirst : firstUnder context objVehicle.vehicleID with
          | none => simpa [hFetch] using editRecord_truthful_of_absent hFetch hFirst
          | some obj => simpa [hFetch] using editRecord_truthful_of_present hFetch hRange hFirst
  | deleteRecord recordID => exact deleteRecord_truthful_iff

private def tricycle : AllVehiclesI :=
  { vehicleID := "T3", vehicleType := some "Bicycle", serviceRequiredAfter := some 900
    averageRun := some 30, lastServiceDate := some 0, serviceDueDate := some 18144000 }

theorem truthful_iff_sound_tricycle :
    (Write.editRecord tricycle).Truthful .success .empty ↔ (Write.editRecord tricycle).Sound .success .empty :=
  truthful_iff_sound (.editRecord tricycle) ⟨900, 30, rfl, by decide, rfl, by decide⟩

/-- Editing a record that is not stored reports success. -/
theorem not_truthful :
    ¬ ∀ (outcome : StoreOutcome) (context : ManagedObjectContext) (operation : Write),
      operation.InRange → operation.Truthful outcome context := by
  intro h
  have hTruthful := h .success .empty (.editRecord tricycle) ⟨900, 30, rfl, by decide, rfl, by decide⟩
  have hAbsent : firstUnder .empty tricycle.vehicleID = none := rfl
  cases (editRecord_truthful_of_absent rfl hAbsent).mp hTruthful

end Completion

end DatabaseManager

end ServiceBook

import Mathlib.Data.List.Nodup
import Mathlib.Data.List.Perm.Basic
import ServiceBook.General.KeyedList

/-! Tables whose rows carry a surrogate identity next to their value, so that
two rows with equal values are still two rows. Changes can be kept back as a
list and applied to the table later. -/
namespace Table

universe u v

structure Row (α : Type u) where
  objectID : Nat
  value : α
deriving DecidableEq, Repr

/-- Row identities never repeat, and new ones come from a counter. -/
structure Rows (α : Type u) where
  rows : List (Row α)
  nextObjectID : Nat
  bounded : ∀ row ∈ rows, row.objectID < nextObjectID
  distinct : (rows.map Row.objectID).Nodup
deriving DecidableEq

variable {α : Type u} {κ : Type v} [DecidableEq κ]

@[ext] theorem Rows.ext {t t' : Rows α} (hRows : t.rows = t'.rows)
    (hNext : t.nextObjectID = t'.nextObjectID) : t = t' := by
  cases t
  cases t'
  cases hRows
  cases hNext
  rfl

namespace Rows

def empty : Rows α := ⟨[], 0, by simp, by simp⟩

def values (t : Rows α) : List α := t.rows.map Row.value

def insert (t : Rows α) (a : α) : Rows α where
  rows := t.rows ++ [⟨t.nextObjectID, a⟩]
  nextObjectID := t.nextObjectID + 1
  bounded := by
    intro row hRow
    rcases List.mem_append.mp hRow with h | h
    · exact Nat.lt_succ_of_lt (t.bounded row h)
    · rw [List.mem_singleton.mp h]
      exact Nat.lt_succ_self _
  distinct := by
    rw [List.map_append, List.map_singleton, List.nodup_append]
    refine ⟨t.distinct, List.nodup_singleton _, ?_⟩
    rintro x hx y hy rfl
    obtain ⟨row, hRow, hID⟩ := List.mem_map.mp hx
    have hLt := t.bounded row hRow
    rw [hID, List.mem_singleton.mp hy] at hLt
    exact Nat.lt_irrefl _ hLt

private theorem map_objectID_update (l : List (Row α)) (objectID : Nat) (a : α) :
    (l.map fun row => if row.objectID = objectID then { row with value := a } else row).map
      Row.objectID = l.map Row.objectID := by
  rw [List.map_map]
  apply List.map_congr_left
  intro row _
  simp only [Function.comp_apply]
  split <;> rfl

/-- Overwrite the value of one row. -/
def update (t : Rows α) (objectID : Nat) (a : α) : Rows α where
  rows := t.rows.map fun row => if row.objectID = objectID then { row with value := a } else row
  nextObjectID := t.nextObjectID
  bounded := by
    intro row hRow
    have hMem := List.mem_map_of_mem (f := Row.objectID) hRow
    rw [map_objectID_update] at hMem
    obtain ⟨old, hOld, hID⟩ := List.mem_map.mp hMem
    rw [← hID]
    exact t.bounded old hOld
  distinct := by
    rw [map_objectID_update]
    exact t.distinct

def delete (t : Rows α) (objectID : Nat) : Rows α where
  rows := t.rows.filter fun row => row.objectID ≠ objectID
  nextObjectID := t.nextObjectID
  bounded := fun row hRow => t.bounded row (List.mem_filter.mp hRow).1
  distinct := t.distinct.sublist (List.filter_sublist.map _)

@[simp] theorem values_insert (t : Rows α) (a : α) : (t.insert a).values = t.values ++ [a] := by
  simp [values, insert]

theorem row_eq_of_objectID_eq (t : Rows α) {row row' : Row α} (h : row ∈ t.rows)
    (h' : row' ∈ t.rows) (hID : row.objectID = row'.objectID) : row = row' :=
  List.inj_on_of_nodup_map t.distinct h h' hID

/-- Writing the value a row already has changes nothing. -/
theorem update_self (t : Rows α) {row : Row α} (h : row ∈ t.rows) :
    t.update row.objectID row.value = t := by
  refine Rows.ext ?_ rfl
  change t.rows.map _ = t.rows
  conv_rhs => rw [← List.map_id' t.rows]
  apply List.map_congr_left
  intro other hOther
  split
  · next hID => rw [t.row_eq_of_objectID_eq hOther h hID]
  · rfl

/-- An update of a row changes the table exactly if it brings another value. -/
theorem update_eq_self_iff (t : Rows α) {row : Row α} (h : row ∈ t.rows) {a : α} :
    t.update row.objectID a = t ↔ a = row.value := by
  constructor
  · intro hSame
    have hWritten : (⟨row.objectID, a⟩ : Row α) ∈ (t.update row.objectID a).rows :=
      List.mem_map.mpr ⟨row, h, if_pos rfl⟩
    rw [hSame] at hWritten
    exact congrArg Row.value (t.row_eq_of_objectID_eq hWritten h rfl)
  · intro hValue
    rw [hValue, t.update_self h]

/-- One update exchanges one element of the multiset of values. -/
theorem values_update_perm (t : Rows α) {row : Row α} (h : row ∈ t.rows) (a : α) :
    ∃ rest : List α, t.values.Perm (row.value :: rest) ∧
      (t.update row.objectID a).values.Perm (a :: rest) := by
  obtain ⟨before, after, hSplit⟩ := List.append_of_mem h
  have hDistinct := t.distinct
  rw [hSplit, List.map_append, List.map_cons, List.nodup_append] at hDistinct
  obtain ⟨_, hTail, hCross⟩ := hDistinct
  have hBefore : ∀ r ∈ before, r.objectID ≠ row.objectID := fun r hr =>
    hCross _ (List.mem_map_of_mem hr) _ (List.mem_cons_self ..)
  have hAfter : ∀ r ∈ after, r.objectID ≠ row.objectID := fun r hr hEq =>
    (List.nodup_cons.mp hTail).1 (hEq ▸ List.mem_map_of_mem hr)
  refine ⟨(before ++ after).map Row.value, ?_, ?_⟩
  · rw [values, hSplit, List.map_append, List.map_append, List.map_cons]
    exact List.perm_middle
  · have hRows : (t.update row.objectID a).rows = before ++ { row with value := a } :: after := by
      change t.rows.map _ = _
      rw [hSplit, List.map_append, List.map_cons, if_pos rfl,
        List.map_congr_left (fun r hr => if_neg (hBefore r hr)),
        List.map_congr_left (fun r hr => if_neg (hAfter r hr)), List.map_id', List.map_id']
    rw [values, hRows, List.map_append, List.map_append, List.map_cons]
    exact List.perm_middle

/-- Delete a whole batch of rows, one after the other. -/
def deleteAll (t : Rows α) (batch : List (Row α)) : Rows α :=
  batch.foldl (fun t row => t.delete row.objectID) t

theorem deleteAll_rows (t : Rows α) (batch : List (Row α)) :
    (t.deleteAll batch).rows =
      t.rows.filter fun row => row.objectID ∉ batch.map Row.objectID := by
  induction batch generalizing t with
  | nil => simp [deleteAll]
  | cons row batch ih =>
      change ((t.delete row.objectID).deleteAll batch).rows = _
      rw [ih, delete, List.filter_filter]
      congr 1
      funext other
      rw [List.map_cons, Bool.eq_iff_iff]
      simp only [Bool.and_eq_true, decide_eq_true_eq, List.mem_cons, not_or, ne_eq]
      exact and_comm

/-- Deleting the rows a query returned leaves exactly the other rows. -/
theorem deleteAll_filter_rows (t : Rows α) (p : Row α → Bool) {batch : List (Row α)}
    (hBatch : batch.Perm (t.rows.filter p)) :
    (t.deleteAll batch).rows = t.rows.filter fun row => !p row := by
  rw [deleteAll_rows]
  apply List.filter_congr
  intro row hRow
  have hMem : row.objectID ∈ batch.map Row.objectID ↔ p row = true := by
    rw [(hBatch.map _).mem_iff, List.mem_map]
    constructor
    · rintro ⟨other, hOther, hID⟩
      obtain ⟨hIn, hp⟩ := List.mem_filter.mp hOther
      rwa [← t.row_eq_of_objectID_eq hIn hRow hID]
    · exact fun hp => ⟨row, List.mem_filter.mpr ⟨hRow, hp⟩, rfl⟩
  rw [Bool.eq_iff_iff]
  simp [hMem]

/-- A query that returns one row deletes that row. -/
theorem deleteAll_filter_erase [DecidableEq α] (t : Rows α) {p : Row α → Bool} {row : Row α}
    (hp : p row = true) (hOnly : ∀ other ∈ t.rows, p other = true → other = row) :
    (t.deleteAll (t.rows.filter p)).rows = t.rows.erase row := by
  have hNodup : t.rows.Nodup := List.Nodup.of_map _ t.distinct
  rw [t.deleteAll_filter_rows p (List.Perm.refl _), hNodup.erase_eq_filter]
  apply List.filter_congr
  intro other hOther
  by_cases hSame : other = row
  · simp [hSame, hp]
  · have hNot : p other = false := by
      rw [Bool.eq_false_iff]
      exact fun hTrue => hSame (hOnly other hOther hTrue)
    simp [hSame, hNot]

/-- Deleting nothing. -/
theorem deleteAll_nil (t : Rows α) : t.deleteAll [] = t := rfl

/-! Under distinct keys the rows a key query returns are one row or none, and
the table operations on them are the keyed-list operations on the values. -/

variable {key : α → κ}

theorem values_update_replace (t : Rows α) (hKeys : KeyedList.Distinct key t.values)
    {row : Row α} (h : row ∈ t.rows) {a : α} (hKey : key row.value = key a) :
    (t.update row.objectID a).values = KeyedList.replace key t.values a := by
  change (t.rows.map _).map Row.value = (t.rows.map Row.value).map _
  rw [List.map_map, List.map_map]
  apply List.map_congr_left
  intro other hOther
  simp only [Function.comp_apply]
  by_cases hID : other.objectID = row.objectID
  · rw [t.row_eq_of_objectID_eq hOther h hID, if_pos rfl, if_pos hKey]
  · have hne : key other.value ≠ key a := by
      intro hEq
      have hInj := List.inj_on_of_nodup_map (f := fun r : Row α => key r.value)
        (by simpa [KeyedList.Distinct, values, Function.comp_def] using hKeys) hOther h
        (hEq.trans hKey.symm)
      exact hID (by rw [hInj])
    rw [if_neg hID, if_neg hne]

theorem values_deleteAll_remove (t : Rows α) (k : κ) {batch : List (Row α)}
    (hBatch : batch.Perm (t.rows.filter fun row => key row.value = k)) :
    (t.deleteAll batch).values = KeyedList.remove key t.values k := by
  rw [values, t.deleteAll_filter_rows _ hBatch, values, KeyedList.remove, List.filter_map]
  congr 1
  apply List.filter_congr
  intro row _
  simp

end Rows

/-- A change that has been made but not yet written. -/
inductive Change (α : Type u) where
  | insert (a : α)
  | update (objectID : Nat) (a : α)
  | delete (objectID : Nat)
deriving DecidableEq, Repr

/-- The value that a change writes. -/
def Change.value : Change α → Option α
  | .insert a => some a
  | .update _ a => some a
  | .delete _ => none

/-- The row that a change looks for. -/
def Change.target : Change α → Option Nat
  | .insert _ => none
  | .update objectID _ => some objectID
  | .delete objectID => some objectID

def Rows.apply (t : Rows α) : Change α → Rows α
  | .insert a => t.insert a
  | .update objectID a => t.update objectID a
  | .delete objectID => t.delete objectID

def Rows.applyAll (t : Rows α) (changes : List (Change α)) : Rows α := changes.foldl Rows.apply t

@[simp] theorem Rows.applyAll_nil (t : Rows α) : t.applyAll [] = t := rfl

@[simp] theorem Rows.applyAll_append (t : Rows α) (first second : List (Change α)) :
    t.applyAll (first ++ second) = (t.applyAll first).applyAll second :=
  List.foldl_append

@[simp] theorem Rows.applyAll_singleton (t : Rows α) (change : Change α) :
    t.applyAll [change] = t.apply change := rfl

/-- A change brings no value into the table but its own. -/
theorem Rows.forall_values_apply {R : α → Prop} {t : Rows α} {change : Change α}
    (h : ∀ a ∈ t.values, R a) (hChange : ∀ a ∈ change.value, R a) : ∀ a ∈ (t.apply change).values, R a := by
  intro a ha
  obtain ⟨row, hRow, rfl⟩ := List.mem_map.mp ha
  have hOld : ∀ row ∈ t.rows, R row.value := fun row hRow => h row.value (List.mem_map_of_mem hRow)
  cases change with
  | insert b =>
      rcases List.mem_append.mp hRow with hRow | hNew
      · exact hOld row hRow
      · rw [List.mem_singleton.mp hNew]
        exact hChange b rfl
  | update objectID b =>
      obtain ⟨old, hMem, rfl⟩ := List.mem_map.mp hRow
      split
      · exact hChange b rfl
      · exact hOld old hMem
  | delete objectID => exact hOld row (List.mem_filter.mp hRow).1

theorem Rows.forall_values_applyAll {R : α → Prop} {t : Rows α} {changes : List (Change α)}
    (h : ∀ a ∈ t.values, R a) (hChanges : ∀ change ∈ changes, ∀ a ∈ change.value, R a) :
    ∀ a ∈ (t.applyAll changes).values, R a := by
  induction changes generalizing t with
  | nil => exact h
  | cons change changes ih =>
      have hFirst := forall_values_apply h (hChanges change (List.mem_cons_self ..))
      exact ih hFirst fun later hLater => hChanges later (List.mem_cons_of_mem _ hLater)

/-- A change that looks for no row below the counter leaves these rows alone. -/
theorem Rows.filter_apply {t : Rows α} {n : Nat} (hCounter : n ≤ t.nextObjectID) {change : Change α}
    (hTarget : ∀ objectID ∈ change.target, n ≤ objectID) :
    n ≤ (t.apply change).nextObjectID ∧
      (t.apply change).rows.filter (fun row => row.objectID < n) = t.rows.filter fun row => row.objectID < n := by
  cases change with
  | insert a =>
      refine ⟨Nat.le_succ_of_le hCounter, ?_⟩
      change (t.rows ++ [_]).filter _ = _
      have hNew : ¬ t.nextObjectID < n := by omega
      rw [List.filter_append, List.filter_singleton, decide_eq_false hNew]
      exact List.append_nil _
  | update objectID a =>
      have hBeyond : n ≤ objectID := hTarget objectID rfl
      refine ⟨hCounter, ?_⟩
      change (t.rows.map _).filter _ = _
      rw [List.filter_map]
      conv_rhs => rw [← List.map_id' (t.rows.filter _)]
      have hSame : t.rows.filter ((fun row => decide (row.objectID < n)) ∘ fun row =>
          if row.objectID = objectID then { row with value := a } else row) =
            t.rows.filter fun row => row.objectID < n := by
        apply List.filter_congr
        intro row _
        simp only [Function.comp_apply]
        split <;> rfl
      rw [hSame]
      apply List.map_congr_left
      intro row hRow
      have hBelow : row.objectID < n := of_decide_eq_true (List.mem_filter.mp hRow).2
      exact if_neg (by omega)
  | delete objectID =>
      have hBeyond : n ≤ objectID := hTarget objectID rfl
      refine ⟨hCounter, ?_⟩
      change (t.rows.filter _).filter _ = _
      rw [List.filter_filter]
      apply List.filter_congr
      intro row _
      by_cases hBelow : row.objectID < n
      · simp [hBelow, show row.objectID ≠ objectID by omega]
      · simp [hBelow]

theorem Rows.filter_applyAll {t : Rows α} {n : Nat} (hCounter : n ≤ t.nextObjectID) {changes : List (Change α)}
    (hTargets : ∀ change ∈ changes, ∀ objectID ∈ change.target, n ≤ objectID) :
    (t.applyAll changes).rows.filter (fun row => row.objectID < n) = t.rows.filter fun row => row.objectID < n := by
  induction changes generalizing t with
  | nil => rfl
  | cons change changes ih =>
      obtain ⟨hNext, hSame⟩ := filter_apply hCounter (hTargets change (List.mem_cons_self ..))
      exact (ih hNext fun later hLater => hTargets later (List.mem_cons_of_mem _ hLater)).trans hSame

/-- Changes that look for no old row, and leave no new one, have changed no row. -/
theorem Rows.rows_applyAll {t : Rows α} {changes : List (Change α)}
    (hTargets : ∀ change ∈ changes, ∀ objectID ∈ change.target, t.nextObjectID ≤ objectID)
    (hOld : ∀ row ∈ (t.applyAll changes).rows, row.objectID < t.nextObjectID) :
    (t.applyAll changes).rows = t.rows := by
  have hSame := filter_applyAll (Nat.le_refl _) hTargets
  rwa [List.filter_eq_self.mpr fun row hRow => decide_eq_true (hOld row hRow),
    List.filter_eq_self.mpr fun row hRow => decide_eq_true (t.bounded row hRow)] at hSame

end Table

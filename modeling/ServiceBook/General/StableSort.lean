import Mathlib.Data.List.Sort
import Mathlib.Data.List.Nodup

/-! Insertion sort of a list without repetitions is its only ordered
arrangement that keeps equivalent elements in their order. -/
namespace StableSort

universe u

variable {α : Type u} {r : α → α → Prop} {l l' : List α} {a b : α} {i j : Nat}

/-- `a` stands before `b` in a stable sort of `l`. -/
def Before (r : α → α → Prop) (l : List α) (a b : α) : Prop :=
  r a b ∧ (r b a → [a, b].Sublist l)

theorem pair_sublist_cons {c : α} : [a, b].Sublist (c :: l) ↔ [a, b].Sublist l ∨ (a = c ∧ b ∈ l) := by
  rw [List.sublist_cons_iff]
  simp [eq_comm]

/-- Without repetitions two elements stand in one order only. -/
theorem not_pair_sublist (hl : l.Nodup) (h : [a, b].Sublist l) : ¬ [b, a].Sublist l := by
  induction l with
  | nil => simp at h
  | cons c l ih =>
      obtain ⟨hc, hTail⟩ := List.nodup_cons.mp hl
      have hMem : ∀ {x y : α}, [x, y].Sublist l → x ∈ l ∧ y ∈ l := fun hPair =>
        ⟨hPair.subset (by simp), hPair.subset (by simp)⟩
      rw [pair_sublist_cons]
      rcases pair_sublist_cons.mp h with hInTail | ⟨rfl, hb⟩
      · intro hBack
        rcases hBack with hBackInTail | ⟨rfl, ha⟩
        · exact ih hTail hInTail hBackInTail
        · exact hc (hMem hInTail).2
      · intro hBack
        rcases hBack with hBackInTail | ⟨rfl, ha⟩
        · exact hc (hMem hBackInTail).2
        · exact hc ha

theorem pair_sublist_or (ha : a ∈ l) (hb : b ∈ l) (hne : a ≠ b) :
    [a, b].Sublist l ∨ [b, a].Sublist l := by
  induction l with
  | nil => cases ha
  | cons c l ih =>
      rw [pair_sublist_cons, pair_sublist_cons]
      rcases List.mem_cons.mp ha with rfl | haTail
      · rcases List.mem_cons.mp hb with rfl | hbTail
        · exact absurd rfl hne
        · exact Or.inl (Or.inr ⟨rfl, hbTail⟩)
      · rcases List.mem_cons.mp hb with rfl | hbTail
        · exact Or.inr (Or.inr ⟨rfl, haTail⟩)
        · exact (ih haTail hbTail).imp Or.inl Or.inl

/-- The order in the list is the order of the positions. -/
theorem pair_sublist_iff_lt (hl : l.Nodup) (ha : l[i]? = some a) (hb : l[j]? = some b) :
    [a, b].Sublist l ↔ i < j := by
  have hPair : ∀ {i j : Nat} {a b : α}, l[i]? = some a → l[j]? = some b → i < j → [a, b].Sublist l := by
    intro i j a b ha hb hij
    obtain ⟨hi, rfl⟩ := List.getElem?_eq_some_iff.mp ha
    have hLater : b ∈ l.drop (i + 1) := by
      apply List.mem_of_getElem? (i := j - (i + 1))
      rw [List.getElem?_drop, ← hb]
      congr 1
      omega
    have hCons : [l[i], b].Sublist (l.drop i) := by
      rw [List.drop_eq_getElem_cons hi]
      exact (List.singleton_sublist.mpr hLater).cons_cons _
    exact hCons.trans (List.drop_sublist i l)
  refine ⟨fun h => ?_, hPair ha hb⟩
  rcases Nat.lt_trichotomy i j with hij | rfl | hji
  · exact hij
  · obtain rfl := Option.some.inj (ha.symm.trans hb)
    exact absurd h (not_pair_sublist hl h)
  · exact absurd (hPair hb ha hji) (not_pair_sublist hl h)

section Stable

variable [DecidableRel r] [Std.Total r] [IsTrans α r]

/-- Insertion sort is ordered and stable. -/
theorem before_insertionSort (hl : l.Nodup) : (l.insertionSort r).Pairwise (Before r l) := by
  have hSorted := List.pairwise_insertionSort r l
  have hNodup : (l.insertionSort r).Nodup := (List.perm_insertionSort r l).nodup_iff.mpr hl
  rw [List.pairwise_iff_forall_sublist] at hSorted ⊢
  intro a b hPair
  refine ⟨hSorted hPair, fun hBack => ?_⟩
  have ha : a ∈ l := (List.mem_insertionSort r).mp (hPair.subset (by simp))
  have hb : b ∈ l := (List.mem_insertionSort r).mp (hPair.subset (by simp))
  have hne : a ≠ b := by
    intro hEq
    subst hEq
    exact not_pair_sublist hNodup hPair hPair
  -- the other order would survive the sort
  rcases pair_sublist_or ha hb hne with h | h
  · exact h
  · exact absurd (List.pair_sublist_insertionSort hBack h) (not_pair_sublist hNodup hPair)

/-- Nothing else is. -/
theorem eq_insertionSort_iff (hl : l.Nodup) (hPerm : l'.Perm l) :
    l' = l.insertionSort r ↔ l'.Pairwise (Before r l) := by
  constructor
  · rintro rfl
    exact before_insertionSort hl
  · intro h
    refine List.Perm.eq_of_pairwise (fun a b _ _ hab hba => ?_) h (before_insertionSort hl)
      (hPerm.trans (List.perm_insertionSort r l).symm)
    exact absurd (hba.2 hab.1) (not_pair_sublist hl (hab.2 hba.1))

end Stable

end StableSort

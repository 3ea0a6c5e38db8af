import Mathlib.Order.Lattice
import Mathlib.Order.Defs.LinearOrder
import ServiceBook.General.KeyedList

/-! Finite maps kept as a list in increasing key order, so that enumeration
has a fixed order. Writing and erasing are the keyed-list operations on the
entries; only the place of a new entry is decided by the order. -/
namespace SortedMap

universe u v w

variable {κ : Type u} {ν : Type v} [LinearOrder κ]

structure Map (κ : Type u) (ν : Type v) [LinearOrder κ] where
  entries : List (κ × ν)
  sorted : entries.Pairwise fun a b => a.1 < b.1
deriving DecidableEq

def insertEntry (k : κ) (a : ν) : List (κ × ν) → List (κ × ν)
  | [] => [(k, a)]
  | e :: rest =>
      if k < e.1 then (k, a) :: e :: rest
      else if k = e.1 then (k, a) :: rest
      else e :: insertEntry k a rest

theorem mem_insertEntry {k : κ} {a : ν} {l : List (κ × ν)}
    (hl : l.Pairwise fun a b => a.1 < b.1) {e : κ × ν} :
    e ∈ insertEntry k a l ↔ e = (k, a) ∨ (e ∈ l ∧ e.1 ≠ k) := by
  induction l with
  | nil => simp [insertEntry]
  | cons d rest ih =>
      obtain ⟨hHead, hRest⟩ := List.pairwise_cons.mp hl
      have hAbove : ∀ x ∈ rest, k ≤ d.1 → x.1 ≠ k := fun x hx hk =>
        (lt_of_le_of_lt hk (hHead x hx)).ne'
      unfold insertEntry
      split_ifs with hlt heq
      · have hd : ∀ x ∈ d :: rest, x.1 ≠ k := by
          intro x hx
          rcases List.mem_cons.mp hx with rfl | hx
          · exact hlt.ne'
          · exact hAbove x hx hlt.le
        rw [List.mem_cons]
        exact or_congr_right ⟨fun h => ⟨h, hd e h⟩, And.left⟩
      · rw [List.mem_cons, List.mem_cons]
        refine or_congr_right ⟨fun h => ⟨Or.inr h, hAbove e h heq.le⟩, ?_⟩
        rintro ⟨rfl | h, hne⟩
        · exact absurd heq.symm hne
        · exact h
      · rw [List.mem_cons, List.mem_cons, ih hRest]
        constructor
        · rintro (rfl | rfl | ⟨h, hne⟩)
          · exact Or.inr ⟨Or.inl rfl, Ne.symm heq⟩
          · exact Or.inl rfl
          · exact Or.inr ⟨Or.inr h, hne⟩
        · rintro (rfl | ⟨rfl | h, hne⟩)
          · exact Or.inr (Or.inl rfl)
          · exact Or.inl rfl
          · exact Or.inr (Or.inr ⟨h, hne⟩)

theorem insertEntry_sorted {k : κ} {a : ν} {l : List (κ × ν)}
    (hl : l.Pairwise fun a b => a.1 < b.1) :
    (insertEntry k a l).Pairwise fun a b => a.1 < b.1 := by
  induction l with
  | nil => simp [insertEntry]
  | cons d rest ih =>
      obtain ⟨hHead, hRest⟩ := List.pairwise_cons.mp hl
      unfold insertEntry
      split_ifs with hlt heq
      · refine List.pairwise_cons.mpr ⟨fun x hx => ?_, hl⟩
        rcases List.mem_cons.mp hx with rfl | hx
        · exact hlt
        · exact hlt.trans (hHead x hx)
      · exact List.pairwise_cons.mpr ⟨fun x hx => heq ▸ hHead x hx, hRest⟩
      · refine List.pairwise_cons.mpr ⟨fun x hx => ?_, ih hRest⟩
        rcases (mem_insertEntry hRest).mp hx with rfl | ⟨hx, _⟩
        · exact lt_of_le_of_ne (not_lt.mp hlt) (Ne.symm heq)
        · exact hHead x hx

namespace Map

def empty : Map κ ν := ⟨[], List.Pairwise.nil⟩

def set (m : Map κ ν) (k : κ) (a : ν) : Map κ ν :=
  ⟨insertEntry k a m.entries, insertEntry_sorted m.sorted⟩

def erase (m : Map κ ν) (k : κ) : Map κ ν :=
  ⟨KeyedList.remove Prod.fst m.entries k, m.sorted.filter _⟩

def keys (m : Map κ ν) : List κ := m.entries.map Prod.fst

def get (m : Map κ ν) (k : κ) : Option ν := (KeyedList.find Prod.fst m.entries k).map Prod.snd

@[ext] theorem ext {m m' : Map κ ν} (h : m.entries = m'.entries) : m = m' := by
  cases m
  cases m'
  cases h
  rfl

theorem keys_sorted (m : Map κ ν) : m.keys.Pairwise (· < ·) := List.pairwise_map.mpr m.sorted

/-- A relation that follows the order of the keys holds along the key list. -/
theorem pairwise_keys_iff {m : Map κ ν} {R : κ → κ → Prop} :
    m.keys.Pairwise R ↔ ∀ k ∈ m.keys, ∀ k' ∈ m.keys, k < k' → R k k' := by
  have hSorted := List.pairwise_iff_getElem.mp m.keys_sorted
  constructor
  · intro h k hk k' hk' hLt
    obtain ⟨i, hi, rfl⟩ := List.getElem_of_mem hk
    obtain ⟨j, hj, rfl⟩ := List.getElem_of_mem hk'
    rcases Nat.lt_trichotomy i j with hij | rfl | hji
    · exact List.pairwise_iff_getElem.mp h i j hi hj hij
    · exact absurd hLt (lt_irrefl _)
    · exact absurd (hLt.trans (hSorted j i hj hi hji)) (lt_irrefl _)
  · intro h
    rw [List.pairwise_iff_getElem]
    intro i j hi hj hij
    exact h _ (List.getElem_mem hi) _ (List.getElem_mem hj) (hSorted i j hi hj hij)

theorem distinct (m : Map κ ν) : KeyedList.Distinct Prod.fst m.entries :=
  m.keys_sorted.imp ne_of_lt

theorem mem_keys_iff {m : Map κ ν} {k : κ} : k ∈ m.keys ↔ ∃ a, (k, a) ∈ m.entries := by
  simp [keys]

theorem get_eq_some_iff {m : Map κ ν} {k : κ} {a : ν} :
    m.get k = some a ↔ (k, a) ∈ m.entries := by
  rw [get, Option.map_eq_some_iff]
  constructor
  · rintro ⟨e, he, rfl⟩
    have hKey := KeyedList.key_of_find he
    exact hKey ▸ KeyedList.mem_of_find he
  · exact fun h => ⟨(k, a), m.distinct.find_eq_some_iff.mpr ⟨h, rfl⟩, rfl⟩

theorem mem_set {m : Map κ ν} {k : κ} {a : ν} {e : κ × ν} :
    e ∈ (m.set k a).entries ↔ e = (k, a) ∨ (e ∈ m.entries ∧ e.1 ≠ k) :=
  mem_insertEntry m.sorted

theorem mem_erase {m : Map κ ν} {k : κ} {e : κ × ν} :
    e ∈ (m.erase k).entries ↔ e ∈ m.entries ∧ e.1 ≠ k := by
  simp [erase, KeyedList.remove]

/-- Two sorted maps with the same entries are the same map. -/
theorem entries_eq_of_mem_iff {m : Map κ ν} {l : List (κ × ν)}
    (hl : l.Pairwise fun a b => a.1 < b.1) (h : ∀ e, e ∈ m.entries ↔ e ∈ l) : m.entries = l := by
  refine List.Perm.eq_of_pairwise (fun a b _ _ hab hba => absurd (hab.trans hba) (lt_irrefl _))
    m.sorted hl ?_
  exact (List.perm_ext_iff_of_nodup m.distinct.nodup
    (List.Nodup.of_map Prod.fst ((List.pairwise_map.mpr hl).imp ne_of_lt))).mpr h

/-- Writing a present key overwrites its entry in place. -/
theorem set_entries_of_mem {m : Map κ ν} {k : κ} (h : k ∈ m.keys) (a : ν) :
    (m.set k a).entries = KeyedList.replace Prod.fst m.entries (k, a) := by
  obtain ⟨b, hb⟩ := mem_keys_iff.mp h
  refine entries_eq_of_mem_iff ?_ fun e => ?_
  · have hKeys : (KeyedList.replace Prod.fst m.entries (k, a)).map Prod.fst = m.keys :=
      KeyedList.map_key_replace
    exact List.pairwise_map.mp (hKeys ▸ m.keys_sorted)
  · have hReplace : e ∈ KeyedList.replace Prod.fst m.entries (k, a) ↔
        e = (k, a) ∨ (e ∈ m.entries ∧ e.1 ≠ k) :=
      KeyedList.mem_replace hb (show Prod.fst (k, b) = Prod.fst (k, a) from rfl)
    rw [mem_set, hReplace]

/-- Writing a new key adds one entry. -/
theorem set_entries_perm {m : Map κ ν} {k : κ} (h : k ∉ m.keys) (a : ν) :
    (m.set k a).entries.Perm ((k, a) :: m.entries) := by
  have hNew : ∀ e ∈ m.entries, e.1 ≠ k := fun e he hk =>
    h (hk ▸ List.mem_map_of_mem (f := Prod.fst) he)
  refine (List.perm_ext_iff_of_nodup (m.set k a).distinct.nodup
    (List.nodup_cons.mpr ⟨fun hIn => hNew _ hIn rfl, m.distinct.nodup⟩)).mpr fun e => ?_
  rw [mem_set, List.mem_cons]
  exact or_congr_right ⟨And.left, fun he => ⟨he, hNew e he⟩⟩

theorem mem_keys_set {m : Map κ ν} {k k' : κ} {a : ν} : k' ∈ (m.set k a).keys ↔ k' = k ∨ k' ∈ m.keys := by
  simp only [mem_keys_iff, mem_set, Prod.mk.injEq]
  constructor
  · rintro ⟨b, ⟨rfl, _⟩ | ⟨hb, _⟩⟩
    · exact Or.inl rfl
    · exact Or.inr ⟨b, hb⟩
  · by_cases hk : k' = k
    · exact fun _ => ⟨a, Or.inl ⟨hk, rfl⟩⟩
    · rintro (h | ⟨b, hb⟩)
      · exact absurd h hk
      · exact ⟨b, Or.inr ⟨hb, hk⟩⟩

theorem mem_keys_erase {m : Map κ ν} {k k' : κ} : k' ∈ (m.erase k).keys ↔ k' ∈ m.keys ∧ k' ≠ k := by
  simp only [mem_keys_iff, mem_erase]
  exact ⟨fun ⟨b, hb, hne⟩ => ⟨⟨b, hb⟩, hne⟩, fun ⟨⟨b, hb⟩, hne⟩ => ⟨b, hb, hne⟩⟩

theorem get_set (m : Map κ ν) (k : κ) (a : ν) : (m.set k a).get = Function.update m.get k (some a) := by
  funext k'
  apply Option.ext
  intro b
  rw [get_eq_some_iff, mem_set]
  by_cases hk : k' = k
  · subst hk
    simp [eq_comm]
  · rw [Function.update_of_ne hk, get_eq_some_iff]
    simp [hk]

theorem get_erase (m : Map κ ν) (k : κ) : (m.erase k).get = Function.update m.get k none := by
  funext k'
  apply Option.ext
  intro b
  rw [get_eq_some_iff, mem_erase]
  by_cases hk : k' = k
  · subst hk
    simp
  · rw [Function.update_of_ne hk, get_eq_some_iff]
    simp [hk]

/-- Maps that look up the same everywhere are equal. -/
theorem ext_get {m m' : Map κ ν} (h : m.get = m'.get) : m = m' := by
  apply ext
  apply entries_eq_of_mem_iff m'.sorted
  rintro ⟨k, a⟩
  rw [← get_eq_some_iff, ← get_eq_some_iff, h]

/-- The values in the order of their keys. -/
def values (m : Map κ ν) : List ν := m.entries.map Prod.snd

/-- The value under one key, if there is one, and the others. -/
theorem values_perm_erase (m : Map κ ν) (k : κ) :
    m.values.Perm ((m.get k).toList ++ (m.erase k).values) := by
  have hEntries := (m.distinct.perm_find_remove k).map Prod.snd
  rw [List.map_append, ← Option.toList_map] at hEntries
  exact hEntries

/-- After a write it is the new value and the others. -/
theorem values_set_perm (m : Map κ ν) (k : κ) (a : ν) :
    (m.set k a).values.Perm (a :: (m.erase k).values) := by
  have hErased : (m.set k a).erase k = m.erase k := by
    apply ext_get
    rw [get_erase, get_set, get_erase, Function.update_idem]
  have hSplit := (m.set k a).values_perm_erase k
  rwa [get_set, Function.update_self, hErased] at hSplit

/-- The entries with the property. -/
def filter (m : Map κ ν) (p : κ → ν → Bool) : Map κ ν :=
  ⟨m.entries.filter fun e => p e.1 e.2, m.sorted.filter _⟩

theorem get_filter (m : Map κ ν) (p : κ → ν → Bool) (k : κ) : (m.filter p).get k = (m.get k).filter (p k) := by
  apply Option.ext
  intro b
  rw [get_eq_some_iff, Option.filter_eq_some_iff, get_eq_some_iff, filter, List.mem_filter]

/-- The value under one key, where there is one, replaced by its image. -/
def modify (m : Map κ ν) (k : κ) (f : ν → ν) : Map κ ν := (m.get k).elim m fun a => m.set k (f a)

theorem get_modify (m : Map κ ν) (k : κ) (f : ν → ν) :
    (m.modify k f).get = Function.update m.get k ((m.get k).map f) := by
  unfold modify
  cases hGet : m.get k with
  | none => exact (Function.update_eq_self_iff.mpr hGet.symm).symm
  | some a => exact m.get_set k (f a)

section MapValues

variable {ν' : Type w} {f : ν → ν'}

def mapValues (f : ν → ν') (m : Map κ ν) : Map κ ν' :=
  ⟨m.entries.map fun e => (e.1, f e.2), List.pairwise_map.mpr m.sorted⟩

@[simp] theorem keys_mapValues (m : Map κ ν) : (m.mapValues f).keys = m.keys := by
  simp [keys, mapValues]

theorem get_mapValues (m : Map κ ν) (k : κ) : (m.mapValues f).get k = (m.get k).map f := by
  apply Option.ext
  intro b
  rw [get_eq_some_iff, Option.map_eq_some_iff]
  simp only [mapValues, List.mem_map, Prod.mk.injEq, get_eq_some_iff]
  constructor
  · rintro ⟨⟨k', a⟩, hMem, rfl, rfl⟩
    exact ⟨a, hMem, rfl⟩
  · rintro ⟨a, hMem, rfl⟩
    exact ⟨(k, a), hMem, rfl, rfl⟩

/-- Writing and erasing commute with a map of the values. -/
theorem mapValues_set (m : Map κ ν) (k : κ) (a : ν) :
    (m.set k a).mapValues f = (m.mapValues f).set k (f a) := by
  apply ext_get
  funext k'
  rw [get_mapValues, get_set, get_set]
  by_cases hk : k' = k
  · simp [hk]
  · simp [Function.update_of_ne hk, get_mapValues]

theorem mapValues_erase (m : Map κ ν) (k : κ) :
    (m.erase k).mapValues f = (m.mapValues f).erase k := by
  apply ext_get
  funext k'
  rw [get_mapValues, get_erase, get_erase]
  by_cases hk : k' = k
  · simp [hk]
  · simp [Function.update_of_ne hk, get_mapValues]

end MapValues

end Map

end SortedMap

import Mathlib.Data.List.Nodup
import Mathlib.Logic.Function.Basic

/-! A list of records read as a finite map through a key of each record.
Insertion appends, replacement overwrites in place and removal filters. With
distinct keys these are the map operations at one key, and every other key
keeps its record. -/
namespace KeyedList

universe u v w

variable {α : Type u} {β : Type w} {κ : Type v} [DecidableEq κ]

def find (key : α → κ) (l : List α) (k : κ) : Option α := l.find? fun a => key a = k

def Distinct (key : α → κ) (l : List α) : Prop := (l.map key).Nodup

/-- Overwrite every record under the key of `a`. -/
def replace (key : α → κ) (l : List α) (a : α) : List α :=
  l.map fun b => if key b = key a then a else b

def remove (key : α → κ) (l : List α) (k : κ) : List α := l.filter fun a => key a ≠ k

variable {key : α → κ} {l : List α} {a b : α} {k : κ}

theorem find_eq_none_iff : find key l k = none ↔ ∀ a ∈ l, key a ≠ k := by
  simp [find]

theorem mem_of_find (h : find key l k = some a) : a ∈ l := List.mem_of_find?_eq_some h

theorem key_of_find (h : find key l k = some a) : key a = k := by
  simpa using List.find?_some h

omit [DecidableEq κ] in
theorem Distinct.eq_of_key_eq (hl : Distinct key l) (ha : a ∈ l) (hb : b ∈ l)
    (h : key a = key b) : a = b :=
  List.inj_on_of_nodup_map hl ha hb h

omit [DecidableEq κ] in
theorem Distinct.nodup (hl : Distinct key l) : l.Nodup := List.Nodup.of_map key hl

/-- With distinct keys the map is the membership relation of the list. -/
theorem Distinct.find_eq_some_iff (hl : Distinct key l) :
    find key l k = some a ↔ a ∈ l ∧ key a = k := by
  constructor
  · exact fun h => ⟨mem_of_find h, key_of_find h⟩
  · rintro ⟨ha, rfl⟩
    cases hf : find key l (key a) with
    | none => exact absurd rfl (find_eq_none_iff.mp hf a ha)
    | some b => rw [hl.eq_of_key_eq (mem_of_find hf) ha (key_of_find hf)]

omit [DecidableEq κ] in
theorem Distinct.append_new (hl : Distinct key l) (hNew : ∀ b ∈ l, key b ≠ key a) :
    Distinct key (l ++ [a]) := by
  unfold Distinct at hl ⊢
  rw [List.map_append, List.map_singleton, List.nodup_append]
  refine ⟨hl, List.nodup_singleton _, ?_⟩
  intro x hx y hy hxy
  obtain ⟨b, hb, rfl⟩ := List.mem_map.mp hx
  exact hNew b hb (hxy.trans (List.mem_singleton.mp hy))

/-- Appending under a new key inserts at that key only. -/
theorem find_append_new (hNew : ∀ b ∈ l, key b ≠ key a) :
    find key (l ++ [a]) = Function.update (find key l) (key a) (some a) := by
  funext k
  by_cases hk : k = key a
  · subst hk
    have hNone : List.find? (fun b => key b = key a) l = none := find_eq_none_iff.mpr hNew
    simp [find, List.find?_append, hNone]
  · simp [find, List.find?_append, Function.update_of_ne hk, Ne.symm hk]

theorem map_key_replace : (replace key l a).map key = l.map key := by
  rw [replace, List.map_map]
  apply List.map_congr_left
  intro b _
  by_cases h : key b = key a <;> simp [h]

theorem Distinct.replace (hl : Distinct key l) (a : α) : Distinct key (KeyedList.replace key l a) := by
  rw [Distinct, map_key_replace]
  exact hl

/-- Replacing under a key that is not present changes nothing. -/
theorem replace_eq_self (h : ∀ b ∈ l, key b ≠ key a) : replace key l a = l := by
  rw [replace, List.map_congr_left (fun b hb => if_neg (h b hb)), List.map_id']

theorem mem_replace (hb : b ∈ l) (hKey : key b = key a) {c : α} :
    c ∈ replace key l a ↔ c = a ∨ (c ∈ l ∧ key c ≠ key a) := by
  simp only [replace, List.mem_map]
  constructor
  · rintro ⟨d, hd, rfl⟩
    by_cases h : key d = key a
    · simp [h]
    · simp [h, hd]
  · rintro (rfl | ⟨hc, hne⟩)
    · exact ⟨b, hb, if_pos hKey⟩
    · exact ⟨c, hc, if_neg hne⟩

/-- Replacing under a present key updates the map at that key only. -/
theorem find_replace (hl : Distinct key l) (hb : b ∈ l) (hKey : key b = key a) :
    find key (replace key l a) = Function.update (find key l) (key a) (some a) := by
  funext k
  apply Option.ext
  intro c
  rw [(hl.replace a).find_eq_some_iff, mem_replace hb hKey]
  by_cases hk : k = key a
  · subst hk
    rw [Function.update_self]
    constructor
    · rintro ⟨rfl | ⟨_, hne⟩, hc⟩
      · rfl
      · exact absurd hc hne
    · rintro ⟨rfl⟩
      exact ⟨Or.inl rfl, rfl⟩
  · rw [Function.update_of_ne hk, hl.find_eq_some_iff]
    constructor
    · rintro ⟨rfl | ⟨hc, _⟩, hck⟩
      · exact absurd hck.symm hk
      · exact ⟨hc, hck⟩
    · rintro ⟨hc, rfl⟩
      exact ⟨Or.inr ⟨hc, hk⟩, rfl⟩

theorem Distinct.remove (hl : Distinct key l) (k : κ) : Distinct key (KeyedList.remove key l k) :=
  List.Nodup.sublist (List.filter_sublist.map key) hl

/-- Removing a key clears the map at that key only. No distinctness is
needed: every record under the key goes. -/
theorem find_remove : find key (remove key l k) = Function.update (find key l) k none := by
  funext k'
  by_cases hk : k' = k
  · subst hk
    rw [Function.update_self, find_eq_none_iff]
    intro a ha
    simpa using (List.mem_filter.mp ha).2
  · rw [Function.update_of_ne hk, find, find, remove, List.find?_filter]
    congr 1
    funext a
    by_cases ha : key a = k'
    · simp [ha, hk]
    · simp [ha]

/-- The records under one key are at most one. -/
theorem Distinct.filter_key (hl : Distinct key l) (ha : a ∈ l) :
    l.filter (fun b => key b = key a) = [a] := by
  induction l with
  | nil => cases ha
  | cons c l ih =>
      obtain ⟨hc, hTail⟩ := List.nodup_cons.mp (show (key c :: l.map key).Nodup from hl)
      have hOther : ∀ b ∈ l, key b ≠ key c := fun b hb h => hc (h ▸ List.mem_map_of_mem hb)
      rcases List.mem_cons.mp ha with rfl | ha
      · simpa using hOther
      · have hne : key c ≠ key a := fun h => hOther a ha h.symm
        simpa [hne] using ih hTail ha

/-- A list is the record under a key, if there is one, and the others. -/
theorem Distinct.perm_find_remove (hl : Distinct key l) (k : κ) :
    l.Perm ((find key l k).toList ++ KeyedList.remove key l k) := by
  have hUnder : l.filter (fun b => key b = k) = (find key l k).toList := by
    cases hFind : find key l k with
    | none => simpa using find_eq_none_iff.mp hFind
    | some a =>
        obtain rfl := key_of_find hFind
        exact hl.filter_key (mem_of_find hFind)
  rw [← hUnder]
  simpa [KeyedList.remove] using (List.filter_append_perm (fun b => key b = k) l).symm

/-- After a replacement it is the new record and the others. -/
theorem Distinct.replace_perm (hl : Distinct key l) (hb : b ∈ l) (hKey : key b = key a) :
    (KeyedList.replace key l a).Perm (a :: KeyedList.remove key l (key a)) := by
  have hNew : a ∉ KeyedList.remove key l (key a) := by simp [KeyedList.remove]
  refine (List.perm_ext_iff_of_nodup (hl.replace a).nodup
    (List.nodup_cons.mpr ⟨hNew, (hl.remove (key a)).nodup⟩)).mpr fun c => ?_
  rw [mem_replace hb hKey, List.mem_cons, KeyedList.remove, List.mem_filter, decide_eq_true_eq]

omit [DecidableEq κ] in
/-- Of two lists that agree up to order, the remainders agree after one record
of each is taken out, or none, exactly if the same was taken. -/
theorem perm_rest_iff {o o' : Option α} {l' : List α} (h : (o.toList ++ l).Perm (o'.toList ++ l')) :
    l.Perm l' ↔ o = o' := by
  constructor
  · intro hRest
    have hTaken : o.toList.Perm o'.toList :=
      (List.perm_append_right_iff l').mp (((List.Perm.append_left _ hRest).symm.trans h))
    cases o with
    | none =>
        cases o' with
        | none => rfl
        | some b => cases (List.nil_perm.mp hTaken)
    | some a =>
        cases o' with
        | none => cases (List.perm_nil.mp hTaken)
        | some b => rw [List.singleton_perm_singleton.mp hTaken]
  · intro hSame
    subst hSame
    exact (List.perm_append_left_iff _).mp h

omit [DecidableEq κ] in
/-- A list that is no longer than the image of another, and agrees with it
wherever that has an element, is the image. -/
theorem eq_map_of_getElem? {m : List β} {f : α → β}
    (hRows : ∀ (i : Nat) (a : α), l[i]? = some a → m[i]? = some (f a)) (hLength : m.length ≤ l.length) :
    m = l.map f := by
  apply List.ext_getElem?
  intro i
  rw [List.getElem?_map]
  cases hRow : l[i]? with
  | some a => exact hRows i a hRow
  | none =>
      rw [List.getElem?_eq_none_iff] at hRow
      rw [Option.map_none, List.getElem?_eq_none_iff]
      omega

section Map

variable {κ' : Type*} [DecidableEq κ'] {key' : β → κ'} {f : α → β} {g : κ → κ'}

/-- An encoding of the records that keeps their keys apart carries replacement
over, and likewise removal and distinctness. -/
theorem replace_map (hg : Function.Injective g) (hKey : ∀ a, key' (f a) = g (key a)) :
    replace key' (l.map f) (f a) = (replace key l a).map f := by
  simp only [replace, List.map_map]
  apply List.map_congr_left
  intro b _
  by_cases h : key b = key a
  · simp [hKey, h]
  · simp [hKey, h, hg.eq_iff]

theorem remove_map (hg : Function.Injective g) (hKey : ∀ a, key' (f a) = g (key a)) :
    remove key' (l.map f) (g k) = (remove key l k).map f := by
  simp only [remove, List.filter_map, Function.comp_def, hKey, hg.ne_iff]

omit [DecidableEq κ] [DecidableEq κ'] in
theorem distinct_map (hg : Function.Injective g) (hKey : ∀ a, key' (f a) = g (key a)) :
    Distinct key' (l.map f) ↔ Distinct key l := by
  have hKeys : (l.map f).map key' = (l.map key).map g := by
    rw [List.map_map, List.map_map]
    exact List.map_congr_left fun a _ => hKey a
  rw [Distinct, Distinct, hKeys, List.nodup_map_iff hg]

end Map

end KeyedList

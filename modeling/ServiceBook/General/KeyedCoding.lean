import Mathlib.Data.String.Basic
import ServiceBook.General.SortedMap
import ServiceBook.General.BinaryFloat

/-! Coding records with optional members as flat JSON objects. An absent
member is left out, and a missing key or a null is read back as absent. The
result of code that throws is missing; nothing below looks at the error. -/
namespace KeyedCoding

universe u

/-- A JSON value. Arrays and objects have no place in a flat record, so they
are not told apart. -/
inductive JsonValue where
  | string (s : String)
  | number (x : ℚ)
  | bool (b : Bool)
  | null
  | compound
deriving DecidableEq, Repr

abbrev JsonObject := SortedMap.Map String JsonValue

/-- How the values of one type are written and read. -/
structure Codec (α : Type u) where
  encode : α → Option JsonValue
  decode : JsonValue → Option α

def Codec.string : Codec String where
  encode s := some (.string s)
  decode
    | .string s => some s
    | _ => none

/-- A number is an `Int` only if it is integral and in range. -/
def Codec.int : Codec Int64 where
  encode n := some (.number n.toInt)
  decode
    | .number x =>
        if x.den = 1 ∧ -2 ^ 63 ≤ x.num ∧ x.num < 2 ^ 63 then some (Int64.ofInt x.num) else none
    | _ => none

/-- JSON has no infinities and no NaN. A number is read as what it denotes; see
`JsonValue.asDouble` for numbers that no `Double` holds. -/
def Codec.double : Codec BinaryFloat.Value where
  encode
    | .finite x => some (.number x)
    | _ => none
  decode
    | .number x => some (.finite x)
    | _ => none

/-- A number that no `Double` holds, as a decoder rounds it. -/
def JsonValue.asDouble : JsonValue → JsonValue
  | .number x => .number (BinaryFloat.round 53 x)
  | v => v

theorem JsonValue.asDouble_asDouble (v : JsonValue) : v.asDouble.asDouble = v.asDouble := by
  cases v with
  | number x => exact congrArg JsonValue.number (BinaryFloat.round_round (by norm_num) x)
  | _ => rfl

variable {α : Type u} {codec : Codec α}

/-- The codec writes this value, and what it writes is read as the value. -/
def Codec.Keeps (codec : Codec α) (a : α) : Prop :=
  ∃ v, codec.encode a = some v ∧ v ≠ .null ∧ codec.decode v = some a

theorem Codec.string_keeps (s : String) : Codec.string.Keeps s :=
  ⟨.string s, rfl, by simp, rfl⟩

theorem Codec.int_keeps (n : Int64) : Codec.int.Keeps n := by
  have hLower := Int64.le_toInt n
  have hUpper := Int64.toInt_lt n
  refine ⟨.number n.toInt, rfl, by simp, ?_⟩
  show (if _ then _ else _) = _
  rw [if_pos ⟨Rat.den_intCast _, by simpa using hLower, by simpa using hUpper⟩]
  simp

theorem Codec.double_keeps {x : BinaryFloat.Value} (h : x.IsFinite) : Codec.double.Keeps x := by
  cases x with
  | finite x => exact ⟨.number x, rfl, by simp, rfl⟩
  | infinite negative => exact h.elim
  | nan => exact h.elim

/-- One member of a record under its key. It may be absent, and writing a
present one may throw. -/
structure Member where
  key : String
  value : Option (Option JsonValue)

def Codec.member (codec : Codec α) (key : String) (a : Option α) : Member :=
  ⟨key, a.map codec.encode⟩

def Member.write (m : Member) (json : JsonObject) : Option JsonObject :=
  match m.value with
  | none => some json
  | some v => v.map (json.set m.key)

def encodeMembers : List Member → Option JsonObject
  | [] => some .empty
  | m :: rest => (encodeMembers rest).bind m.write

def decodeIfPresent (codec : Codec α) (key : String) (json : JsonObject) : Option (Option α) :=
  match json.get key with
  | none => some none
  | some .null => some none
  | some v => (codec.decode v).map some

/-- The value that the first present member under a key writes. -/
def jsonAt : List Member → String → Option JsonValue
  | [], _ => none
  | m :: rest, k =>
      match m.value with
      | none => jsonAt rest k
      | some v => if k = m.key then v else jsonAt rest k

/-- Members that can all be written make an object with exactly these members. -/
theorem encodeMembers_eq {members : List Member} (h : ∀ m ∈ members, m.value ≠ some none) :
    ∃ json, encodeMembers members = some json ∧ json.get = jsonAt members := by
  induction members with
  | nil => exact ⟨.empty, rfl, rfl⟩
  | cons m rest ih =>
      obtain ⟨json, hRest, hGet⟩ := ih fun m' hm' => h m' (List.mem_cons_of_mem _ hm')
      rw [encodeMembers, hRest, Option.bind_some]
      cases hValue : m.value with
      | none => exact ⟨json, by rw [Member.write, hValue], by funext k; rw [jsonAt, hValue, hGet]⟩
      | some v =>
          cases v with
          | none => exact absurd hValue (h m (List.mem_cons_self ..))
          | some v =>
              refine ⟨json.set m.key v, by rw [Member.write, hValue]; rfl, ?_⟩
              funext k
              rw [SortedMap.Map.get_set, jsonAt, hValue, hGet]
              exact Function.update_apply ..

theorem Codec.member_value_ne (key : String) {a : Option α} (h : ∀ x ∈ a, codec.Keeps x) :
    (codec.member key a).value ≠ some none := by
  cases a with
  | none => simp [Codec.member]
  | some x =>
      obtain ⟨v, hEncode, _⟩ := h x rfl
      simp [Codec.member, hEncode]

theorem jsonAt_of_ne {m : Member} {rest : List Member} {k : String} (h : k ≠ m.key) :
    jsonAt (m :: rest) k = jsonAt rest k := by
  rw [jsonAt]
  split
  · rfl
  · exact if_neg h

theorem jsonAt_of_not_mem {members : List Member} {k : String}
    (h : k ∉ members.map Member.key) : jsonAt members k = none := by
  induction members with
  | nil => rfl
  | cons m rest ih =>
      rw [List.map_cons, List.mem_cons, not_or] at h
      rw [jsonAt_of_ne h.1, ih h.2]

/-- With distinct keys every member stands under its own key. -/
theorem jsonAt_member {members : List Member} (hKeys : (members.map Member.key).Nodup)
    {key : String} {a : Option α} (h : codec.member key a ∈ members) :
    jsonAt members key = a.bind codec.encode := by
  induction members with
  | nil => cases h
  | cons m rest ih =>
      obtain ⟨hFirst, hRest⟩ := List.nodup_cons.mp hKeys
      rcases List.mem_cons.mp h with rfl | h
      · cases a with
        | none =>
            show jsonAt rest key = none
            exact jsonAt_of_not_mem hFirst
        | some x => exact if_pos rfl
      · have hne : key ≠ m.key := by
          intro hEq
          exact hFirst (hEq ▸ List.mem_map_of_mem h)
        rw [jsonAt_of_ne hne, ih hRest h]

/-- Reading a key under which a member was written gives the member back,
absent or not. -/
theorem decodeIfPresent_eq {key : String} {a : Option α} {json : JsonObject}
    (hKeeps : ∀ x ∈ a, codec.Keeps x) (hGet : json.get key = a.bind codec.encode) :
    decodeIfPresent codec key json = some a := by
  unfold decodeIfPresent
  cases a with
  | none => rw [hGet, Option.bind_none]
  | some x =>
      obtain ⟨v, hEncode, hNull, hDecode⟩ := hKeeps x rfl
      rw [hGet, Option.bind_some, hEncode]
      cases v with
      | null => exact absurd rfl hNull
      | _ => exact congrArg (Option.map some) hDecode

/-- A null counts as missing. -/
def present (v : Option JsonValue) : Option JsonValue := v.filter fun v => v ≠ .null

theorem present_of_ne {v : JsonValue} (h : v ≠ .null) : present (some v) = some v := by
  rw [present, Option.filter_some, if_pos (by simpa using h)]

theorem present_present (v : Option JsonValue) : present (present v) = present v := by
  simp [present, Option.filter_filter]

theorem present_map_asDouble (v : Option JsonValue) :
    (present (v.map JsonValue.asDouble)).map JsonValue.asDouble = present (v.map JsonValue.asDouble) := by
  cases v with
  | none => rfl
  | some v =>
      rw [Option.map_some]
      by_cases hNull : v.asDouble = .null
      · rw [hNull]
        rfl
      · rw [present_of_ne hNull, Option.map_some, JsonValue.asDouble_asDouble]

/-- What the codec reads it writes again. -/
def Codec.Canonical (codec : Codec α) : Prop := ∀ v a, codec.decode v = some a → codec.encode a = some v

theorem Codec.string_canonical : Codec.string.Canonical := by
  intro v s h
  cases v with
  | string t => exact congrArg (fun s => some (JsonValue.string s)) (Option.some.inj h).symm
  | _ => cases h

theorem Codec.int_canonical : Codec.int.Canonical := by
  intro v n h
  cases v with
  | number x =>
      have hRead : (if x.den = 1 ∧ -2 ^ 63 ≤ x.num ∧ x.num < 2 ^ 63 then some (Int64.ofInt x.num) else none) =
          some n := h
      split at hRead
      · next hInt =>
          obtain ⟨hDen, hLower, hUpper⟩ := hInt
          obtain rfl := Option.some.inj hRead
          have hNum : (Int64.ofInt x.num).toInt = x.num := Int64.toInt_ofInt_of_le hLower hUpper
          show some (JsonValue.number ((Int64.ofInt x.num).toInt : ℚ)) = some (.number x)
          rw [hNum, Rat.coe_int_num_of_den_eq_one hDen]
      · cases hRead
  | _ => cases h

theorem Codec.double_canonical : Codec.double.Canonical := by
  intro v x h
  cases v with
  | number y =>
      obtain rfl := Option.some.inj h
      rfl
  | _ => cases h

/-- Whether the codec reads the value. -/
def Codec.reads (codec : Codec α) (v : JsonValue) : Bool := (codec.decode v).isSome

/-- A key is read exactly if it has no value or a value that the codec reads. -/
theorem decodeIfPresent_isSome_iff {key : String} {json : JsonObject} :
    (decodeIfPresent codec key json).isSome ↔ ∀ v ∈ present (json.get key), codec.reads v = true := by
  unfold decodeIfPresent present Codec.reads
  cases json.get key with
  | none => simp
  | some v => cases v <;> simp

/-- Only a missing key or a null is read as absent. -/
theorem present_of_decodeIfPresent_none {key : String} {json : JsonObject}
    (h : decodeIfPresent codec key json = some none) : present (json.get key) = none := by
  unfold decodeIfPresent at h
  cases hValue : json.get key with
  | none => rfl
  | some v =>
      rw [hValue] at h
      cases v with
      | null => rfl
      | _ =>
          obtain ⟨_, _, hNever⟩ := Option.map_eq_some_iff.mp h
          cases hNever

/-- A value that was read stands under the key. -/
theorem value_of_decodeIfPresent {key : String} {json : JsonObject} {x : α}
    (h : decodeIfPresent codec key json = some (some x)) :
    ∃ v, v ≠ .null ∧ json.get key = some v ∧ codec.decode v = some x := by
  unfold decodeIfPresent at h
  cases hValue : json.get key with
  | none =>
      rw [hValue] at h
      cases h
  | some v =>
      rw [hValue] at h
      cases v with
      | null => cases h
      | _ =>
          obtain ⟨y, hDecode, hSame⟩ := Option.map_eq_some_iff.mp h
          obtain rfl := Option.some.inj hSame
          exact ⟨_, by simp, rfl, hDecode⟩

/-- Writing a member that was read gives the value back, if there was one. -/
theorem encode_of_decodeIfPresent (h : codec.Canonical) {key : String} {json : JsonObject} {a : Option α}
    (hRead : decodeIfPresent codec key json = some a) : a.bind codec.encode = present (json.get key) := by
  cases a with
  | none => exact (present_of_decodeIfPresent_none hRead).symm
  | some x =>
      obtain ⟨v, hNull, hValue, hDecode⟩ := value_of_decodeIfPresent hRead
      rw [hValue, present_of_ne hNull]
      exact h v x hDecode

end KeyedCoding

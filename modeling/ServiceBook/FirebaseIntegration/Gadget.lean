import ServiceBook.General.KeyedCoding

/-! The `Gadget` that the `gadgets` collection stores, with the synthesized
`Codable` conformance and the two extensions that encode and decode it. -/
namespace ServiceBook

open KeyedCoding

structure Gadget where
  id : Option String := none
  vehicleType : Option String := none
  vehicleName : Option String := none
  vehicleNo : Option String := none
  notes : Option String := none
  serviceRequiredAfter : Option Int64 := none
  averageRun : Option Int64 := none
  lastServiceDate : Option BinaryFloat.Value := none
  serviceDueDate : Option BinaryFloat.Value := none
deriving DecidableEq, Repr

namespace Gadget

def init (name type number notes : String) (serviceRequiredAfter averageRun : Int64)
    (lastServiceDate serviceDueDate : BinaryFloat.Value) : Gadget where
  vehicleName := some name
  vehicleType := some type
  vehicleNo := some number
  notes := some notes
  serviceRequiredAfter := some serviceRequiredAfter
  averageRun := some averageRun
  lastServiceDate := some lastServiceDate
  serviceDueDate := some serviceDueDate

/-- The keys of the synthesized `Codable` conformance are the field names. -/
def members (gadget : Gadget) : List Member :=
  [ Codec.string.member "id" gadget.id,
    Codec.string.member "vehicleType" gadget.vehicleType,
    Codec.string.member "vehicleName" gadget.vehicleName,
    Codec.string.member "vehicleNo" gadget.vehicleNo,
    Codec.string.member "notes" gadget.notes,
    Codec.int.member "serviceRequiredAfter" gadget.serviceRequiredAfter,
    Codec.int.member "averageRun" gadget.averageRun,
    Codec.double.member "lastServiceDate" gadget.lastServiceDate,
    Codec.double.member "serviceDueDate" gadget.serviceDueDate ]

/-- `JSONEncoder().encode(self)`, read as a JSON object. -/
def encode (gadget : Gadget) : Option JsonObject := encodeMembers gadget.members

/-- `JSONDecoder().decode(Gadget.self, from:)` of a JSON object. -/
def decode (json : JsonObject) : Option Gadget := do
  let id ← decodeIfPresent .string "id" json
  let vehicleType ← decodeIfPresent .string "vehicleType" json
  let vehicleName ← decodeIfPresent .string "vehicleName" json
  let vehicleNo ← decodeIfPresent .string "vehicleNo" json
  let notes ← decodeIfPresent .string "notes" json
  let serviceRequiredAfter ← decodeIfPresent .int "serviceRequiredAfter" json
  let averageRun ← decodeIfPresent .int "averageRun" json
  let lastServiceDate ← decodeIfPresent .double "lastServiceDate" json
  let serviceDueDate ← decodeIfPresent .double "serviceDueDate" json
  return { id, vehicleType, vehicleName, vehicleNo, notes, serviceRequiredAfter, averageRun
           lastServiceDate, serviceDueDate }

/-- `Encodable.toJson(excluding:)` -/
def toJson (gadget : Gadget) (keys : List String) : Option JsonObject := do
  let json ← gadget.encode
  return keys.foldl SortedMap.Map.erase json

/-- `DocumentSnapshot.decode(as:includingId:)` with the id included. -/
def decodeDocument (documentID : String) (data : JsonObject) : Option Gadget :=
  decode (data.set "id" (.string documentID))

/-- Both dates, where present, are finite numbers. -/
structure Finite (gadget : Gadget) : Prop where
  lastServiceDate : ∀ x ∈ gadget.lastServiceDate, x.IsFinite
  serviceDueDate : ∀ x ∈ gadget.serviceDueDate, x.IsFinite

/-- A gadget with finite dates can be written in full. -/
theorem Finite.members {gadget : Gadget} (h : gadget.Finite) :
    ∀ m ∈ gadget.members, m.value ≠ some none := by
  have hLast : ∀ x ∈ gadget.lastServiceDate, Codec.double.Keeps x := fun x hx =>
    Codec.double_keeps (h.lastServiceDate x hx)
  have hDue : ∀ x ∈ gadget.serviceDueDate, Codec.double.Keeps x := fun x hx =>
    Codec.double_keeps (h.serviceDueDate x hx)
  intro m hm
  simp only [Gadget.members, List.mem_cons, List.not_mem_nil, or_false] at hm
  rcases hm with rfl | rfl | rfl | rfl | rfl | rfl | rfl | rfl | rfl
  · exact Codec.member_value_ne _ fun s _ => Codec.string_keeps s
  · exact Codec.member_value_ne _ fun s _ => Codec.string_keeps s
  · exact Codec.member_value_ne _ fun s _ => Codec.string_keeps s
  · exact Codec.member_value_ne _ fun s _ => Codec.string_keeps s
  · exact Codec.member_value_ne _ fun s _ => Codec.string_keeps s
  · exact Codec.member_value_ne _ fun n _ => Codec.int_keeps n
  · exact Codec.member_value_ne _ fun n _ => Codec.int_keeps n
  · exact Codec.member_value_ne _ hLast
  · exact Codec.member_value_ne _ hDue

/-- The document without its id has the other eight members. -/
theorem toJson_eq {gadget : Gadget} (h : gadget.Finite) :
    ∃ json, gadget.toJson ["id"] = some json ∧
      json.get = Function.update (jsonAt gadget.members) "id" none := by
  obtain ⟨json, hEncode, hGet⟩ := encodeMembers_eq h.members
  refine ⟨json.erase "id", ?_, ?_⟩
  · rw [toJson, encode, hEncode]
    rfl
  · rw [SortedMap.Map.get_erase, hGet]

theorem members_keys (gadget : Gadget) : (gadget.members.map Member.key).Nodup := by
  show ["id", "vehicleType", "vehicleName", "vehicleNo", "notes", "serviceRequiredAfter",
    "averageRun", "lastServiceDate", "serviceDueDate"].Nodup
  decide

/-- Decoding any object with the members of a gadget gives the gadget. -/
theorem decode_eq {gadget : Gadget} (h : gadget.Finite) {json : JsonObject}
    (hGet : json.get = jsonAt gadget.members) : decode json = some gadget := by
  have hString (key : String) (s : Option String) (hMem : Codec.string.member key s ∈ gadget.members) :
      decodeIfPresent .string key json = some s :=
    decodeIfPresent_eq (fun s _ => Codec.string_keeps s) (hGet ▸ jsonAt_member gadget.members_keys hMem)
  have hInt (key : String) (n : Option Int64) (hMem : Codec.int.member key n ∈ gadget.members) :
      decodeIfPresent .int key json = some n :=
    decodeIfPresent_eq (fun n _ => Codec.int_keeps n) (hGet ▸ jsonAt_member gadget.members_keys hMem)
  have hDouble (key : String) (x : Option BinaryFloat.Value) (hFinite : ∀ y ∈ x, y.IsFinite)
      (hMem : Codec.double.member key x ∈ gadget.members) :
      decodeIfPresent .double key json = some x :=
    decodeIfPresent_eq (fun y hy => Codec.double_keeps (hFinite y hy))
      (hGet ▸ jsonAt_member gadget.members_keys hMem)
  rw [decode, hString "id" gadget.id (by simp [members]),
    hString "vehicleType" gadget.vehicleType (by simp [members]),
    hString "vehicleName" gadget.vehicleName (by simp [members]),
    hString "vehicleNo" gadget.vehicleNo (by simp [members]),
    hString "notes" gadget.notes (by simp [members]),
    hInt "serviceRequiredAfter" gadget.serviceRequiredAfter (by simp [members]),
    hInt "averageRun" gadget.averageRun (by simp [members]),
    hDouble "lastServiceDate" gadget.lastServiceDate h.lastServiceDate (by simp [members]),
    hDouble "serviceDueDate" gadget.serviceDueDate h.serviceDueDate (by simp [members])]
  rfl

/-- The round trip: a document written from a gadget is read back as that
gadget, except that its id is the document's. -/
theorem decodeDocument_toJson {gadget : Gadget} (h : gadget.Finite) {json : JsonObject}
    (hJson : gadget.toJson ["id"] = some json) (documentID : String) :
    decodeDocument documentID json = some { gadget with id := some documentID } := by
  obtain ⟨json', hJson', hGet⟩ := toJson_eq h
  obtain rfl : json' = json := Option.some.inj (hJson'.symm.trans hJson)
  have hFinite : ({ gadget with id := some documentID } : Gadget).Finite :=
    ⟨h.lastServiceDate, h.serviceDueDate⟩
  apply decode_eq hFinite
  funext k
  rw [SortedMap.Map.get_set, hGet, Function.update_idem]
  by_cases hk : k = "id"
  · subst hk
    rw [Function.update_self]
    rfl
  · rw [Function.update_of_ne hk]
    -- the other members do not mention the id
    calc jsonAt gadget.members k = jsonAt gadget.members.tail k := jsonAt_of_ne hk
      _ = _ := (jsonAt_of_ne hk).symm

/-- Whatever a document holds, what it decodes to has the id of the document. -/
theorem decodeDocument_id {documentID : String} {data : JsonObject} {gadget : Gadget}
    (h : decodeDocument documentID data = some gadget) : gadget.id = some documentID := by
  have hKeeps : ∀ x ∈ some documentID, Codec.string.Keeps x := fun x _ => Codec.string_keeps x
  have hMember : decodeIfPresent .string "id" (data.set "id" (.string documentID)) =
      some (some documentID) := by
    apply decodeIfPresent_eq hKeeps
    rw [SortedMap.Map.get_set, Function.update_self]
    rfl
  obtain ⟨id, hID, h⟩ := Option.bind_eq_some_iff.mp h
  obtain rfl := Option.some.inj (hMember.symm.trans hID)
  simp only [Option.bind_eq_bind, Option.bind_eq_some_iff] at h
  obtain ⟨_, _, _, _, _, _, _, _, _, _, _, _, _, _, _, _, h⟩ := h
  exact congrArg Gadget.id (Option.some.inj h).symm

end Gadget

end ServiceBook

import ServiceBook.FirebaseIntegration.Refinement

/-! Documents of any origin. One is accepted exactly if what it has under the eight
keys of a gadget is of the right type. Writing a gadget that was read from it back
keeps the values under these keys and drops everything else, nulls included. The
dates are kept as far as a `Double` holds them. -/
namespace ServiceBook

open KeyedCoding

namespace Gadget

/-- The keys of a document, and which values are read under them. -/
def fields : List (String × (JsonValue → Bool)) :=
  [ ("vehicleType", Codec.string.reads),
    ("vehicleName", Codec.string.reads),
    ("vehicleNo", Codec.string.reads),
    ("notes", Codec.string.reads),
    ("serviceRequiredAfter", Codec.int.reads),
    ("averageRun", Codec.int.reads),
    ("lastServiceDate", Codec.double.reads),
    ("serviceDueDate", Codec.double.reads) ]

/-- A field may be missing or null. -/
def Readable (data : JsonObject) : Prop :=
  ∀ field ∈ fields, ∀ v ∈ present (data.get field.1), field.2 v = true

/-- The fields of the document and nothing else. -/
def canonical (data : JsonObject) : JsonObject :=
  data.filter fun key v => key ∈ fields.map Prod.fst ∧ v ≠ .null

/-- The document as it is decoded: its dates are numbers that a `Double` holds. -/
def rounded (data : JsonObject) : JsonObject :=
  (data.modify "lastServiceDate" JsonValue.asDouble).modify "serviceDueDate" JsonValue.asDouble

section Canonical

variable {data json : JsonObject} {gadget : Gadget} {documentID : String}

theorem get_canonical (data : JsonObject) (key : String) :
    (canonical data).get key = if key ∈ fields.map Prod.fst then present (data.get key) else none := by
  rw [canonical, SortedMap.Map.get_filter]
  split
  · next hKey => simp [present, hKey]
  · next hKey => simp [hKey]

theorem canonical_canonical (data : JsonObject) : canonical (canonical data) = canonical data := by
  apply SortedMap.Map.ext_get
  funext key
  rw [get_canonical, get_canonical]
  split
  · exact present_present _
  · rfl

theorem get_rounded (data : JsonObject) (key : String) :
    (rounded data).get key =
      if key = "lastServiceDate" ∨ key = "serviceDueDate" then (data.get key).map JsonValue.asDouble
      else data.get key := by
  rw [rounded, SortedMap.Map.get_modify, SortedMap.Map.get_modify]
  by_cases hDue : key = "serviceDueDate"
  · subst hDue
    simp
  · by_cases hLast : key = "lastServiceDate"
    · subst hLast
      simp
    · simp [Function.update_of_ne, hDue, hLast]

/-- What has been read and written back is not rounded again. -/
theorem rounded_canonical (data : JsonObject) :
    rounded (canonical (rounded data)) = canonical (rounded data) := by
  apply SortedMap.Map.ext_get
  funext key
  rw [get_rounded]
  split
  · next hDate =>
      have hField : key ∈ fields.map Prod.fst := by
        rcases hDate with rfl | rfl <;> decide
      rw [get_canonical, if_pos hField, get_rounded, if_pos hDate, present_map_asDouble]
  · rfl

/-- A gadget is decoded field by field. -/
theorem decode_eq_some :
    decode json = some gadget ↔
      decodeIfPresent .string "id" json = some gadget.id ∧
      decodeIfPresent .string "vehicleType" json = some gadget.vehicleType ∧
      decodeIfPresent .string "vehicleName" json = some gadget.vehicleName ∧
      decodeIfPresent .string "vehicleNo" json = some gadget.vehicleNo ∧
      decodeIfPresent .string "notes" json = some gadget.notes ∧
      decodeIfPresent .int "serviceRequiredAfter" json = some gadget.serviceRequiredAfter ∧
      decodeIfPresent .int "averageRun" json = some gadget.averageRun ∧
      decodeIfPresent .double "lastServiceDate" json = some gadget.lastServiceDate ∧
      decodeIfPresent .double "serviceDueDate" json = some gadget.serviceDueDate := by
  constructor
  · intro h
    simp only [decode, Option.bind_eq_bind, Option.bind_eq_some_iff] at h
    obtain ⟨id, hID, type, hType, name, hName, no, hNo, notes, hNotes, required, hRequired, run, hRun, last, hLast,
      due, hDue, hEnd⟩ := h
    obtain rfl := Option.some.inj hEnd
    exact ⟨hID, hType, hName, hNo, hNotes, hRequired, hRun, hLast, hDue⟩
  · rintro ⟨hID, hType, hName, hNo, hNotes, hRequired, hRun, hLast, hDue⟩
    rw [decode, hID, hType, hName, hNo, hNotes, hRequired, hRun, hLast, hDue]
    rfl

/-- Under its eight keys a document is decoded as it is. -/
theorem decodeIfPresent_set_id {α : Type} (codec : Codec α) {key : String} (hKey : key ≠ "id") (v : JsonValue) :
    decodeIfPresent codec key (data.set "id" v) = decodeIfPresent codec key data := by
  unfold decodeIfPresent
  rw [SortedMap.Map.get_set, Function.update_of_ne hKey]

theorem decodeIfPresent_id (data : JsonObject) (documentID : String) :
    decodeIfPresent .string "id" (data.set "id" (.string documentID)) = some (some documentID) := by
  unfold decodeIfPresent
  rw [SortedMap.Map.get_set, Function.update_self]
  rfl

theorem decodeDocument_eq_some :
    decodeDocument documentID data = some gadget ↔
      gadget.id = some documentID ∧
      decodeIfPresent .string "vehicleType" data = some gadget.vehicleType ∧
      decodeIfPresent .string "vehicleName" data = some gadget.vehicleName ∧
      decodeIfPresent .string "vehicleNo" data = some gadget.vehicleNo ∧
      decodeIfPresent .string "notes" data = some gadget.notes ∧
      decodeIfPresent .int "serviceRequiredAfter" data = some gadget.serviceRequiredAfter ∧
      decodeIfPresent .int "averageRun" data = some gadget.averageRun ∧
      decodeIfPresent .double "lastServiceDate" data = some gadget.lastServiceDate ∧
      decodeIfPresent .double "serviceDueDate" data = some gadget.serviceDueDate := by
  rw [decodeDocument, decode_eq_some, decodeIfPresent_id, Option.some.injEq, @eq_comm _ (some documentID)]
  simp only [decodeIfPresent_set_id, ne_eq, String.reduceEq, not_false_eq_true]

/-- A document is accepted exactly if its fields are of their types. -/
theorem decodeDocument_isSome_iff (documentID : String) :
    (decodeDocument documentID data).isSome ↔ Readable data := by
  simp only [Readable, fields, List.forall_mem_cons, List.not_mem_nil, IsEmpty.forall_iff, implies_true, and_true,
    ← decodeIfPresent_isSome_iff]
  constructor
  · intro h
    obtain ⟨gadget, hGadget⟩ := Option.isSome_iff_exists.mp h
    obtain ⟨_, hType, hName, hNo, hNotes, hRequired, hRun, hLast, hDue⟩ := decodeDocument_eq_some.mp hGadget
    simp [hType, hName, hNo, hNotes, hRequired, hRun, hLast, hDue]
  · simp only [Option.isSome_iff_exists]
    rintro ⟨⟨type, hType⟩, ⟨name, hName⟩, ⟨no, hNo⟩, ⟨notes, hNotes⟩, ⟨required, hRequired⟩, ⟨run, hRun⟩,
      ⟨last, hLast⟩, ⟨due, hDue⟩⟩
    exact ⟨⟨some documentID, type, name, no, notes, required, run, last, due⟩,
      decodeDocument_eq_some.mpr ⟨rfl, hType, hName, hNo, hNotes, hRequired, hRun, hLast, hDue⟩⟩

/-- JSON has no other numbers, so the dates of a decoded gadget are finite. -/
theorem finite_of_decodeIfPresent {key : String} {x : Option BinaryFloat.Value}
    (h : decodeIfPresent .double key data = some x) : ∀ y ∈ x, y.IsFinite := by
  rintro y rfl
  obtain ⟨v, _, _, hDecode⟩ := value_of_decodeIfPresent h
  cases v with
  | number z =>
      obtain rfl := Option.some.inj hDecode
      trivial
  | _ => cases hDecode

theorem finite_of_decodeDocument (h : decodeDocument documentID data = some gadget) : gadget.Finite := by
  obtain ⟨_, _, _, _, _, _, _, hLast, hDue⟩ := decodeDocument_eq_some.mp h
  exact ⟨finite_of_decodeIfPresent hLast, finite_of_decodeIfPresent hDue⟩

/-- What is read from a document is written back as its fields and nothing else. -/
theorem document_of_decodeDocument (h : decodeDocument documentID data = some gadget) :
    gadget.document = canonical data := by
  obtain ⟨json, hJson, hGet⟩ := toJson_eq (finite_of_decodeDocument h)
  have hDocument : gadget.document = json := by rw [Gadget.document, hJson, Option.getD_some]
  obtain ⟨_, hType, hName, hNo, hNotes, hRequired, hRun, hLast, hDue⟩ := decodeDocument_eq_some.mp h
  have hMember {α : Type} {codec : Codec α} (hCodec : codec.Canonical) {key : String} {a : Option α}
      (hMem : codec.member key a ∈ gadget.members) (hRead : decodeIfPresent codec key data = some a) :
      jsonAt gadget.members key = present (data.get key) :=
    (jsonAt_member gadget.members_keys hMem).trans (encode_of_decodeIfPresent hCodec hRead)
  apply SortedMap.Map.ext_get
  funext key
  rw [hDocument, hGet, get_canonical]
  by_cases hKey : key ∈ fields.map Prod.fst
  · rw [if_pos hKey]
    have hID : key ≠ "id" := fun hID => absurd (hID ▸ hKey) (by decide)
    rw [Function.update_of_ne hID]
    simp only [fields, List.map_cons, List.map_nil, List.mem_cons, List.not_mem_nil, or_false] at hKey
    rcases hKey with rfl | rfl | rfl | rfl | rfl | rfl | rfl | rfl
    · exact hMember Codec.string_canonical (by simp [members]) hType
    · exact hMember Codec.string_canonical (by simp [members]) hName
    · exact hMember Codec.string_canonical (by simp [members]) hNo
    · exact hMember Codec.string_canonical (by simp [members]) hNotes
    · exact hMember Codec.int_canonical (by simp [members]) hRequired
    · exact hMember Codec.int_canonical (by simp [members]) hRun
    · exact hMember Codec.double_canonical (by simp [members]) hLast
    · exact hMember Codec.double_canonical (by simp [members]) hDue
  · rw [if_neg hKey]
    by_cases hID : key = "id"
    · rw [hID, Function.update_self]
    · rw [Function.update_of_ne hID]
      apply jsonAt_of_not_mem
      show key ∉ "id" :: fields.map Prod.fst
      exact fun hMem => (List.mem_cons.mp hMem).elim hID hKey

/-- The document that is written back is read as the same gadget. -/
theorem decodeDocument_canonical (h : decodeDocument documentID data = some gadget) :
    decodeDocument documentID (canonical data) = some gadget := by
  have hAgain := FIRFireStoreService.decodeDocument_document (finite_of_decodeDocument h) documentID
  rw [document_of_decodeDocument h, ← decodeDocument_id h] at hAgain
  exact hAgain

end Canonical

end Gadget

namespace FIRFireStoreService

section Rewriting

variable {collection : Collection} {gadgets : List Gadget} {gadget : Gadget}

theorem read_cons (document : String × JsonObject) (rest : List (String × JsonObject)) :
    read (document :: rest) =
      (Gadget.decodeDocument document.1 document.2).bind fun gadget => (read rest).map (gadget :: ·) := by
  rw [read, List.mapM_cons]
  cases Gadget.decodeDocument document.1 document.2 with
  | none => rfl
  | some gadget =>
      show (read rest >>= fun others => pure (gadget :: others)) = (read rest).map (gadget :: ·)
      cases read rest <;> rfl

/-- A snapshot is delivered exactly if every document is accepted. -/
theorem read_isSome_iff (documents : List (String × JsonObject)) :
    (read documents).isSome ↔ ∀ document ∈ documents, Gadget.Readable document.2 := by
  induction documents with
  | nil => simp [read]
  | cons document rest ih =>
      rw [read_cons, List.forall_mem_cons, ← Gadget.decodeDocument_isSome_iff document.1, ← ih]
      cases Gadget.decodeDocument document.1 document.2 with
      | none => simp
      | some gadget => simp

/-- A delivered gadget was read from the document with its id. -/
theorem document_of_read {documents : List (String × JsonObject)} (h : read documents = some gadgets)
    (hGadget : gadget ∈ gadgets) :
    ∃ document ∈ documents, Gadget.decodeDocument document.1 document.2 = some gadget := by
  induction documents generalizing gadgets with
  | nil =>
      obtain rfl := Option.some.inj h
      cases hGadget
  | cons document rest ih =>
      rw [read_cons] at h
      obtain ⟨first, hDecode, h⟩ := Option.bind_eq_some_iff.mp h
      obtain ⟨others, hRest, rfl⟩ := Option.map_eq_some_iff.mp h
      rcases List.mem_cons.mp hGadget with rfl | hOther
      · exact ⟨document, List.mem_cons_self .., hDecode⟩
      · obtain ⟨other, hMem, hRead⟩ := ih hRest hOther
        exact ⟨other, List.mem_cons_of_mem _ hMem, hRead⟩

/-- Documents that decode to the same gadgets make the same snapshot. -/
theorem read_map {rewrite : String × JsonObject → String × JsonObject} {documents : List (String × JsonObject)}
    (h : ∀ document ∈ documents, Gadget.decodeDocument (rewrite document).1 (rewrite document).2 =
      Gadget.decodeDocument document.1 document.2) : read (documents.map rewrite) = read documents := by
  induction documents with
  | nil => rfl
  | cons document rest ih =>
      rw [List.map_cons, read_cons, read_cons, h document (List.mem_cons_self ..),
        ih fun other hOther => h other (List.mem_cons_of_mem _ hOther)]

/-- A gadget is written back as it was delivered. -/
def writeBack (collection : Collection) (gadget : Gadget) : Collection := (Call.update gadget).perform collection

theorem writeBack_eq {documentID : String} {data : JsonObject}
    (h : Gadget.decodeDocument documentID data = some gadget) :
    writeBack collection gadget = collection.set documentID (Gadget.canonical data) := by
  rw [writeBack, Call.perform, Call.requests,
    update_eq (Gadget.finite_of_decodeDocument h) (Gadget.decodeDocument_id h), Gadget.document_of_decodeDocument h]
  rfl

/-- The gadgets of a snapshot whose documents are of any origin. -/
def readRounded (collection : Collection) : Option (List Gadget) :=
  read (collection.mapValues Gadget.rounded).entries

/-- A `Double` holds every date. -/
def Held (collection : Collection) : Prop :=
  ∀ document ∈ collection.entries, Gadget.rounded document.2 = document.2

/-- Then nothing is rounded. -/
theorem Held.readRounded_eq (h : Held collection) : readRounded collection = read collection.entries := by
  have hSame : (collection.mapValues Gadget.rounded).entries = collection.entries :=
    (List.map_congr_left fun document hDocument => congrArg (document.1, ·) (h document hDocument)).trans
      (List.map_id _)
  rw [readRounded, hSame]

/-- A document as it is after the gadget read from it has been written back. -/
def rewritten (data : JsonObject) : JsonObject := Gadget.canonical (Gadget.rounded data)

theorem rewritten_rewritten (data : JsonObject) : rewritten (rewritten data) = rewritten data := by
  rw [rewritten, rewritten, Gadget.rounded_canonical, Gadget.canonical_canonical]

/-- One gadget written back changes its own document, and not for a reader. -/
theorem readRounded_writeBack (h : readRounded collection = some gadgets) (hGadget : gadget ∈ gadgets) :
    readRounded (writeBack collection gadget) = some gadgets ∧
      ∀ documentID, (writeBack collection gadget).get documentID =
        if some documentID = gadget.id then (collection.get documentID).map rewritten
        else collection.get documentID := by
  obtain ⟨⟨id, json⟩, hDocument, hDecode⟩ := document_of_read h hGadget
  have hGet := SortedMap.Map.get_eq_some_iff.mpr hDocument
  rw [SortedMap.Map.get_mapValues] at hGet
  obtain ⟨data, hData, rfl⟩ := Option.map_eq_some_iff.mp hGet
  rw [writeBack_eq hDecode, Gadget.decodeDocument_id hDecode]
  constructor
  · have hKey : id ∈ (collection.mapValues Gadget.rounded).keys := List.mem_map_of_mem hDocument
    rw [readRounded, SortedMap.Map.mapValues_set, Gadget.rounded_canonical, SortedMap.Map.set_entries_of_mem hKey,
      KeyedList.replace, ← h, readRounded]
    refine read_map fun document hMem => ?_
    split
    · next hSame =>
        -- the document under this id is the one the gadget was read from
        obtain ⟨other, contents⟩ := document
        obtain rfl : other = id := hSame
        have hContents := SortedMap.Map.get_eq_some_iff.mpr hMem
        rw [SortedMap.Map.get_eq_some_iff.mpr hDocument] at hContents
        obtain rfl := Option.some.inj hContents
        rw [Gadget.decodeDocument_canonical hDecode, hDecode]
    · rfl
  · intro documentID
    rw [SortedMap.Map.get_set]
    by_cases hSame : documentID = id
    · subst hSame
      rw [Function.update_self, if_pos rfl, hData]
      rfl
    · rw [Function.update_of_ne hSame, if_neg fun hID => hSame (Option.some.inj hID)]

theorem readRounded_writeBacks {written : List Gadget} (h : readRounded collection = some gadgets)
    (hWritten : ∀ gadget ∈ written, gadget ∈ gadgets) :
    readRounded (written.foldl writeBack collection) = some gadgets ∧
      ∀ documentID, (written.foldl writeBack collection).get documentID =
        if some documentID ∈ written.map Gadget.id then (collection.get documentID).map rewritten
        else collection.get documentID := by
  -- the documents stay readable as the same gadgets, so each write finds the one it was read from
  induction written generalizing collection with
  | nil => exact ⟨h, fun documentID => rfl⟩
  | cons gadget rest ih =>
      obtain ⟨hRead, hGet⟩ := readRounded_writeBack h (hWritten gadget (List.mem_cons_self ..))
      obtain ⟨hRest, hAll⟩ := ih hRead fun other hOther => hWritten other (List.mem_cons_of_mem _ hOther)
      refine ⟨hRest, fun documentID => ?_⟩
      rw [List.foldl_cons, hAll, hGet, List.map_cons]
      by_cases hFirst : some documentID = gadget.id
      · rw [if_pos hFirst, if_pos (List.mem_cons.mpr (.inl hFirst)), Option.map_map]
        have hAgain : rewritten ∘ rewritten = rewritten := funext rewritten_rewritten
        rw [hAgain, ite_self]
      · simp [hFirst]

/-- Whatever is written back, in any order and any number of times, a reader sees no
difference, and the documents that were written have their fields and nothing else.
Where a `Double` holds every date, the fields are kept as they are. -/
theorem read_writeBacks {written : List Gadget} (h : readRounded collection = some gadgets)
    (hWritten : ∀ gadget ∈ written, gadget ∈ gadgets) :
    readRounded (written.foldl writeBack collection) = some gadgets ∧
      (∀ documentID, (written.foldl writeBack collection).get documentID =
        if some documentID ∈ written.map Gadget.id then (collection.get documentID).map rewritten
        else collection.get documentID) ∧
      (Held collection → read (written.foldl writeBack collection).entries = some gadgets ∧
        ∀ documentID, (written.foldl writeBack collection).get documentID =
          if some documentID ∈ written.map Gadget.id then (collection.get documentID).map Gadget.canonical
          else collection.get documentID) := by
  obtain ⟨hRead, hGet⟩ := readRounded_writeBacks h hWritten
  refine ⟨hRead, hGet, fun hHeld => ⟨?_, fun documentID => ?_⟩⟩
  · have hStays : Held (written.foldl writeBack collection) := by
      intro document hDocument
      have hSome := SortedMap.Map.get_eq_some_iff.mpr hDocument
      rw [hGet] at hSome
      split at hSome
      · obtain ⟨data, _, hData⟩ := Option.map_eq_some_iff.mp hSome
        rw [← hData, rewritten, Gadget.rounded_canonical]
      · exact hHeld document (SortedMap.Map.get_eq_some_iff.mp hSome)
    rw [← hStays.readRounded_eq, hRead]
  · rw [hGet]
    cases hSome : collection.get documentID with
    | none => rfl
    | some data =>
        have hData := hHeld (documentID, data) (SortedMap.Map.get_eq_some_iff.mp hSome)
        rw [Option.map_some, Option.map_some, rewritten, hData]

/-- A document with a key that no gadget has, with a null, and with a date that is
one more than the last of the consecutive integers that a `Double` holds. -/
private def foreign : Collection :=
  let data : JsonObject :=
    ((SortedMap.Map.empty.set "colour" (.string "red")).set "notes" .null).set "vehicleName" (.string "Beetle")
  SortedMap.Map.empty.set "d1" (data.set "serviceDueDate" (.number (2 ^ 53 + 1)))

private def beetle : Gadget :=
  { id := some "d1", vehicleName := some "Beetle", serviceDueDate := some (.finite (2 ^ 53)) }

/-- Once written back, the document is one that nothing is rounded of. -/
private def beetles : Collection := writeBack foreign beetle

theorem read_writeBacks_foreign :
    (readRounded ([beetle, beetle].foldl writeBack foreign) = some [beetle] ∧
      ∀ documentID, ([beetle, beetle].foldl writeBack foreign).get documentID =
        if some documentID ∈ [beetle, beetle].map Gadget.id then (foreign.get documentID).map rewritten
        else foreign.get documentID) ∧
    (read ([beetle].foldl writeBack beetles).entries = some [beetle] ∧
      ∀ documentID, ([beetle].foldl writeBack beetles).get documentID =
        if some documentID ∈ [beetle].map Gadget.id then (beetles.get documentID).map Gadget.canonical
        else beetles.get documentID) := by
  have hHeld : Held beetles := by
    unfold Held
    decide +kernel
  have hForeign : readRounded foreign = some [beetle] := by decide +kernel
  have hBeetles : readRounded beetles = some [beetle] := by decide +kernel
  obtain ⟨hRead, hGet, -⟩ := read_writeBacks hForeign (show ∀ gadget ∈ [beetle, beetle], gadget ∈ [beetle] by simp)
  exact ⟨⟨hRead, hGet⟩, (read_writeBacks hBeetles (by simp)).2.2 hHeld⟩

end Rewriting

end FIRFireStoreService

end ServiceBook

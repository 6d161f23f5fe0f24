import PersonRegistry.Proofs.Spellings
import PersonRegistry.Proofs.Store.ReadableRows
import PersonRegistry.Proofs.Web.GivenUp
import PersonRegistry.Proofs.Web.Listings

/-! One identifier is one key: however a request spells it, the row, the copy in the cache and the answer are
those of the identifier's one text.
-/

namespace PersonRegistry

open Time (Span)

namespace Service

-----------------------------------------------------------------------------------------
-- Calls about one person
-----------------------------------------------------------------------------------------

/-- A call about one person: its row, or its copy in the cache. -/
def Call.Concerns (id : Uuid) : Call → Prop
  | .get other | .delete other => other = id
  | .update p => p.id = some id
  | .cacheGet key | .cacheSet key _ _ | .cacheDelete key => key = id.text
  | .lookUp _ | .create _ | .list _ | .publish _ | .report _ => False

variable (id : Uuid)

theorem get_concerns (span : Span) : (get span id).Keeps (Call.Concerns id) Call.AnsweredById :=
  get_keeps rfl rfl fun _ => rfl

theorem clearing_concerns {α : Type} (result : α)
    : (clearing id result).Keeps (Call.Concerns id) Call.AnsweredById := by
  refine ⟨rfl, fun answer _ => ?_⟩
  cases answer <;> trivial

/-- The person that is written back is the one that was read, under the identifier it was read by. -/
theorem update_concerns (patch : Patch)
    : (update id patch).Keeps (Call.Concerns id) Call.AnsweredById := by
  refine ⟨rfl, fun found own => ?_⟩
  rcases found with e | none | held
  · trivial
  · trivial
  simp only
  split
  next => trivial
  next =>
    refine ⟨own, fun written _ => ?_⟩
    rcases written with e | none | written
    · trivial
    · trivial
    · exact clearing_concerns id written

theorem delete_concerns : (delete id).Keeps (Call.Concerns id) Call.AnsweredById := by
  refine ⟨rfl, fun deleted _ => ?_⟩
  rcases deleted with e | _ | _
  · trivial
  · trivial
  · exact clearing_concerns id ()

end Service

namespace Web

open Service (Backend Call Program cacheKey)
open Text (Octets)
open Text.Utf8 (asciiOctet ofString)

-----------------------------------------------------------------------------------------
-- Spellings in a path
-----------------------------------------------------------------------------------------

/-- A character that stands in a path for itself, as one octet. -/
structure IsPathChar (c : Char) : Prop where
  ascii : c.toNat < 0x80
  allowed : Target.isPathOctet (asciiOctet c) = true
  plain : asciiOctet c ≠ 0x25 ∧ asciiOctet c ≠ 0x2f

instance (c : Char) : Decidable (IsPathChar c) :=
  decidable_of_iff (c.toNat < 0x80 ∧ Target.isPathOctet (asciiOctet c) = true
      ∧ asciiOctet c ≠ 0x25 ∧ asciiOctet c ≠ 0x2f)
    ⟨fun ⟨ascii, allowed, plain⟩ => ⟨ascii, allowed, plain⟩,
      fun ⟨ascii, allowed, plain⟩ => ⟨ascii, allowed, plain⟩⟩

variable {id : Uuid} {text : String}

/-- An identifier is spelled with characters that stand in a path for themselves. -/
theorem isPathChar_of_spelled (spelled : id.IsSpelled text) : ∀ c ∈ text.toList, IsPathChar c := by
  intro c member
  have small := Uuid.mem_alphabet spelled _ (List.mem_map_of_mem member)
  revert small
  refine Uuid.toLower_induction (p := fun c d => d ∈ Uuid.alphabet → IsPathChar c) ?_ ?_ c
  · intro c member
    have checked : Uuid.alphabet.all (fun c => decide (IsPathChar c)) = true := by decide
    exact of_decide_eq_true (List.all_eq_true.mp checked c member)
  · decide

/-- So do its octets. -/
theorem pathOctets_of_spelled (spelled : id.IsSpelled text)
    : ∀ b ∈ ofString text, Target.isPathOctet b = true ∧ b ≠ 0x25 ∧ b ≠ 0x2f := by
  have good := isPathChar_of_spelled spelled
  rw [ofString, Text.Utf8.encode_of_ascii fun c member => (good c member).ascii]
  refine List.forall_mem_map.mpr fun c member => ?_
  exact ⟨(good c member).allowed, (good c member).plain⟩

theorem length_of_spelled (spelled : id.IsSpelled text)
    : 0 < (ofString text).length ∧ (ofString text).length ≤ 45 := by
  have good := isPathChar_of_spelled spelled
  rw [ofString, Text.Utf8.length_encode_of_ascii fun c member => (good c member).ascii,
    ← List.length_map Char.toLower]
  exact Uuid.length_of_mem_spellings spelled

theorem pathId_of_spelled (spelled : id.IsSpelled text) : pathId (ofString text) = .ok id := by
  have plain : 0x25 ∉ ofString text := fun member => (pathOctets_of_spelled spelled _ member).2.1 rfl
  rw [pathId, percentDecode_plain plain, ofString, Text.Utf8.decode_encode, String.ofList_toList]
  simp only [Uuid.ofText_eq_ok_iff.mpr spelled]

/-- Octets that stand in a path for themselves are all of a target. -/
theorem ofPath_plain {octets : Octets} (plain : ∀ b ∈ octets, Target.isPathOctet b = true)
    : Target.ofPath octets = some ⟨octets, none⟩ := by
  have goesOn : ∀ b, Target.isPathOctet b = true → (b != 0x3f && b != 0x23) = true := by
    intro b allowed
    rw [Bool.and_eq_true, bne_iff_ne, bne_iff_ne]
    constructor <;> rintro rfl <;> exact absurd allowed (by decide)
  have whole : octets.takeWhile (fun b => b != 0x3f && b != 0x23) = octets :=
    List.takeWhile_eq_self_iff.mpr fun b member => goesOn b (plain b member)
  simp only [Target.ofPath, whole, List.drop_length, List.all_eq_true.mpr plain, Bool.not_true,
    Bool.false_eq_true, if_false, List.head?_nil, reduceCtorEq]

/-- The target of a person, by a text for its identifier. -/
def personTarget (text : String) : Target := ⟨Resource.personsPath ++ 0x2f :: ofString text, none⟩

theorem ofText_person (spelled : id.IsSpelled text)
    : Target.ofText ("/person/" ++ text) = some (personTarget text) := by
  have octets : ofString ("/person/" ++ text) = Resource.personsPath ++ 0x2f :: ofString text := by
    rw [ofString, String.toList_append, Text.Utf8.encode_append]
    rfl
  have plain : ∀ b ∈ Resource.personsPath ++ 0x2f :: ofString text, Target.isPathOctet b = true :=
    List.forall_mem_append.mpr ⟨by decide +kernel, List.forall_mem_cons.mpr
      ⟨by decide, fun b member => (pathOctets_of_spelled spelled b member).1⟩⟩
  have short : ¬Target.sizeLimit < (Resource.personsPath ++ 0x2f :: ofString text).length := by
    have few := (length_of_spelled spelled).2
    have start : Resource.personsPath.length = 7 := rfl
    rw [List.length_append, List.length_cons, start, Target.sizeLimit]
    omega
  have first : Resource.personsPath ++ 0x2f :: ofString text
      = 0x2f :: (Resource.personsPath.tail ++ 0x2f :: ofString text) := rfl
  have nonempty : ¬(Resource.personsPath ++ 0x2f :: ofString text = []) := by
    rw [first]
    exact List.cons_ne_nil _ _
  have more : ¬(Resource.personsPath ++ 0x2f :: ofString text = [0x2a]) := by
    intro same
    rw [first] at same
    exact absurd (List.cons.inj same).1 (by decide)
  simp only [Target.ofText, octets, nonempty, more, short, decide_false, Bool.or_self, Bool.false_eq_true,
    if_false]
  rw [if_pos (by rw [first]; rfl), ofPath_plain plain, personTarget]

theorem ofPath?_person {segment : Octets} (nonempty : segment ≠ []) (single : 0x2f ∉ segment)
    : Resource.ofPath? (Resource.personsPath ++ 0x2f :: segment) = some (.person segment) := by
  have after : Resource.personsPath.isPrefixOf? (Resource.personsPath ++ 0x2f :: segment)
      = some (0x2f :: segment) := rfl
  simp [Resource.ofPath?, after, nonempty, single]

/-- The target of a person by a spelling of its identifier names the person. -/
theorem names_of_spelled (spelled : id.IsSpelled text) {request : Request}
    (target : request.target = personTarget text)
    : request.Names id := by
  refine ⟨ofString text, ?_, pathId_of_spelled spelled⟩
  rw [target]
  refine ofPath?_person (List.ne_nil_of_length_pos (length_of_spelled spelled).1) fun member => ?_
  exact (pathOctets_of_spelled spelled _ member).2.2 rfl

-----------------------------------------------------------------------------------------
-- Requests by any spelling
-----------------------------------------------------------------------------------------

variable {request : Request}

theorem isSpelled_text (id : Uuid) : id.IsSpelled id.text := Uuid.ofText_eq_ok_iff.mp id.ofText_text

/-- The request for a person by the one text of its identifier. -/
def Request.naming (request : Request) (id : Uuid) : Request :=
  { request with target := personTarget id.text }

/-- Whichever way a request names a person, the response is a matter of the identifier alone. -/
theorem respond_naming (names : request.Names id) (span : Span)
    : respond span request = respond span (request.naming id) := by
  have canonical : (request.naming id).Names id := names_of_spelled (isSpelled_text id) rfl
  obtain ⟨segment, path, own⟩ := names
  obtain ⟨other, otherPath, otherOwn⟩ := canonical
  have sameMethod : (request.naming id).method = request.method := rfl
  rw [respond, respond, path, otherPath, sameMethod]
  simp only [respondGet, respondUpdate, respondDelete, own, otherOwn]
  rfl

/-- So is what the request does: it makes no calls but about that person. -/
theorem respond_concerns (names : request.Names id) (span : Span)
    : (respond span request).Keeps (Call.Concerns id) Call.AnsweredById := by
  have answers {α : Type} {program : Program (Except Service.Error α)} (respond : α → Response)
      (keeps : program.Keeps (Call.Concerns id) Call.AnsweredById)
      : (answering respond program).Keeps (Call.Concerns id) Call.AnsweredById := by
    refine keeps.bind fun result => ?_
    cases result <;> trivial
  obtain ⟨segment, path, own⟩ := names
  rw [respond, path]
  simp only [respondGet, respondUpdate, respondDelete, own, reading]
  split
  next => exact answers _ (Service.get_concerns id span)
  next => exact (answers _ (Service.get_concerns id span)).bind fun _ => trivial
  next =>
    split
    next patch _ => exact answers _ (Service.update_concerns id patch)
    next => trivial
  next => exact answers _ (Service.delete_concerns id)
  next => trivial

/-- An identifier has one text, by which it is read back and which is the key of its copy in the cache. What
is written under it is read under it, and no call of the store fails to read the identifier of a row. A text is
read as an identifier just if it spells it in one of the four ways, and stands in a path as it is; and however
a path names a person, the request is responded to as by that text, the surroundings are left as by that text,
and no calls are made but about that person's row and copy.
-/
theorem one_key_per_person
    : (∀ id : Uuid, Uuid.ofText id.text = .ok id ∧ cacheKey id = id.text)
      ∧ (∀ id other : Uuid, id ≠ other → id.text ≠ other.text)
      ∧ (∀ (id : Uuid) (now : Time.Instant) (p : Person),
        (Store.Row.ofPerson id now p).person = .ok { p with id := some id })
      ∧ (∀ (turns : List Store.Turn) (flaw : Uuid.Flaw),
        .error (.badId flaw) ∉ Store.Table.answers {} turns)
      ∧ (∀ (id : Uuid) (text : String), Uuid.ofText text = .ok id ↔ id.IsSpelled text)
      ∧ (∀ (id : Uuid) (text : String), Uuid.ofText text = .ok id →
        Target.ofText ("/person/" ++ text) = some (personTarget text)
          ∧ ∀ request : Request, request.target = personTarget text → request.Names id)
      ∧ ∀ (id : Uuid) (request : Request) (span : Span), request.Names id →
        respond span request = respond span (request.naming id)
          ∧ (∀ limit fresh b, respondWithin limit span fresh request b
            = respondWithin limit span fresh (request.naming id) b)
          ∧ (respond span request).Keeps (Call.Concerns id) Call.AnsweredById := by
  refine ⟨fun id => ⟨id.ofText_text, rfl⟩, ?_, ?_, ?_, fun _ _ => Uuid.ofText_eq_ok_iff, ?_, ?_⟩
  · intro id other unlike same
    exact unlike (Uuid.text_injective same)
  · intro id now p
    exact Store.Row.person_of_text rfl
  · intro turns flaw
    exact Store.Table.identified_empty.answers turns flaw
  · intro id text read
    have spelled := Uuid.ofText_eq_ok_iff.mp read
    exact ⟨ofText_person spelled, fun request target => names_of_spelled spelled target⟩
  · intro id request span names
    have same := respond_naming names span
    refine ⟨same, fun limit fresh b => ?_, respond_concerns names span⟩
    rw [respondWithin, respondWithin, same]
    rfl

/-- Ada is in the store and in the cache. She is deleted by a URN in capitals, and is gone from both under her
one text.
-/
theorem one_key_per_person_urn
    : let text := "URN:UUID:00000000-0000-0000-0000-000000000000"
      let b : Backend :=
        { Backend.holding Service.ada with
          cache := ({} : Cache).set 0 (cacheKey .nil) Service.ada.encode Service.defaultCacheSpan }
      let request : Request := { method := "DELETE", target := personTarget text }
      let ended := b.run (respond Service.defaultCacheSpan request)
      Uuid.ofText text = .ok .nil
        ∧ request.Names .nil
        ∧ ended.1.status = 204
        ∧ ended.2.table.get .nil = .ok none
        ∧ ended.2.cache.get 0 (cacheKey .nil) = none := by
  intro text b request ended
  obtain ⟨-, -, -, -, spelled, stands, alike⟩ := one_key_per_person
  have read : Uuid.ofText text = .ok .nil := (spelled .nil text).mpr (by decide)
  have names : request.Names .nil := (stands .nil text read).2 request rfl
  have same : ended = b.run (respond Service.defaultCacheSpan (request.naming .nil)) :=
    congrArg b.run (alike .nil request Service.defaultCacheSpan names).1
  rw [same]
  exact ⟨read, names, by decide +kernel, by decide +kernel, by decide +kernel⟩

end Web
end PersonRegistry

import PersonRegistry.Proofs.Person.Decoding
import PersonRegistry.Proofs.Web.Effects

/-! Bodies of requests that are objects of any members. What a draft does not have is ignored, and what a patch
does not have is refused.
-/

namespace PersonRegistry.Web

open Json (AnyObject Gap Items Tree plainGlyphs)
open Service (Backend)
open Text (Octets)
open Time (Span)

variable {request : Request}

theorem decode_of_readBody {α : Type} {decode : Octets → Except Json.DecodeError α} {a : α}
    (read : readBody decode request = .ok a)
    : decode request.body = .ok a := by
  rw [readBody] at read
  split at read
  next => cases read
  next =>
    split at read
    next => cases read
    next =>
      split at read
      next decoded => rw [decoded, Except.ok.inj read]
      next => cases read

/-- A patch that cannot be read is refused before anything is asked for. -/
theorem respondUpdate_unreadable (b : Backend) (segment : Octets)
    (unreadable : (Patch.decode request.body).toOption = none)
    : (b.run (respondUpdate segment request)).1.status = 400
      ∧ (b.run (respondUpdate segment request)).2 = b := by
  rw [respondUpdate]
  cases named : pathId segment with
  | error response =>
      obtain ⟨reason, rfl⟩ := eq_badRequest_of_pathId named
      exact ⟨rfl, rfl⟩
  | ok id =>
      cases read : readBody Patch.decode request with
      | error response =>
          obtain ⟨reason, rfl⟩ := eq_badRequest_of_readBody read
          exact ⟨rfl, rfl⟩
      | ok patch =>
          rw [decode_of_readBody read] at unreadable
          cases unreadable

/-- An object is read as the draft that its name, its surname and its patronymic make, so other members, the
order of members and the space between them make no difference. No object with a member that patches do not
have is read as a patch, whatever stands around that member; a request to change a person by it is answered
with 400, and leaves everything as it was.
-/
theorem drafts_tolerant_patches_strict
    : (∀ object : AnyObject, (Draft.decode object.octets).toOption = Draft.ofMembers? object)
      ∧ (∀ left right : AnyObject, left.isKeyed = true → right.isKeyed = true →
          ((left.named ["name", "surname", "patronymic"]).map fun m => (m.1, m.2.bare)).Perm
            ((right.named ["name", "surname", "patronymic"]).map fun m => (m.1, m.2.bare)) →
          (Draft.decode left.octets).toOption = (Draft.decode right.octets).toOption)
      ∧ ∀ object : AnyObject,
          (∃ e ∈ object.entries, ∀ name ∈ ["name", "surname", "patronymic", "age", "gender", "nationality"],
            e.1 ≠ some name) →
          (Patch.decode object.octets).toOption = none
          ∧ ∀ (b : Backend) (span : Span) (request : Request) (segment : Octets), request.method = "PATCH" →
              Resource.ofPath? request.target.path = some (.person segment) → request.body = object.octets →
              (b.run (respond span request)).1.status = 400 ∧ (b.run (respond span request)).2 = b := by
  refine ⟨Draft.toOption_decode, fun left right leftKeyed rightKeyed same => ?_, fun object stray => ?_⟩
  · exact Json.toOption_decode_congr Draft.layout_knows rfl Draft.commute_taken Draft.taken_bare leftKeyed
      rightKeyed same
  · have unreadable := Patch.toOption_decode_stray stray
    refine ⟨unreadable, fun b span request segment patches path body => ?_⟩
    have update : respond span request = respondUpdate segment request := by
      rw [respond, path]
      simp only [patches]
    rw [update]
    exact respondUpdate_unreadable b segment (by rwa [body])

/-- A key of characters that need no escape. -/
def plainKey (before : Gap) (chars : List Char)
    (proper : ∀ c ∈ chars, c ≠ '"' ∧ c ≠ '\\' ∧ ¬c.toNat < 0x20) : Json.Label .object :=
  .key before (plainGlyphs chars proper) .none

/-- Ann Lee is read from an object that spells a key by an escape, and holds a number beyond all bounds and half
of a pair under another name. A patch of her does not go through with such a name in it.
-/
theorem drafts_tolerant_patches_strict_deep
    : let ann : Tree := .text (plainGlyphs ['A', 'n', 'n'] (by simp))
      let lee : Tree := .text (plainGlyphs ['L', 'e', 'e'] (by simp))
      let half : Tree := .text [.code 0x64 0x38 0x30 0x30 0xd800 rfl]
      let huge : Tree := .number ⟨false, ['1'], [], ['e', '9', '9', '9'], .digits (by decide) (by simp), .none,
        @Json.IsExponent.digits 'e' '9' [] ['9', '9'] (.inl rfl) (.inl rfl) (by simp)⟩
      let nested : Tree := .filled .list .element .none huge .one (.cons .element .one half .none .nil)
      let plain : AnyObject :=
        { before := .none, after := .none, isObject := rfl
          tree := .filled .object (plainKey .none ['n', 'a', 'm', 'e'] (by simp)) .none ann .none
            (.cons (plainKey .none ['s', 'u', 'r', 'n', 'a', 'm', 'e'] (by simp)) .none lee .none .nil) }
      let deep : AnyObject :=
        { before := .one, after := .one, isObject := rfl
          tree := .filled .object (plainKey .one ['n'] (by simp)) .one nested .none
            (.cons (plainKey .one ['s', 'u', 'r', 'n', 'a', 'm', 'e'] (by simp)) .one lee .one
              (.cons (.key .one (plainGlyphs ['n'] (by simp)
                ++ .code 0x30 0x30 0x36 0x31 0x61 rfl :: plainGlyphs ['m', 'e'] (by simp)) .none) .one ann .none
                .nil)) }
      let segment := Text.Utf8.ofString Uuid.nil.text
      let patch : Request :=
        { method := "PATCH", target := ⟨Resource.personsPath ++ 0x2f :: segment, none⟩
          headers := [.ofText "content-type" "application/json"], body := deep.octets }
      plain.octets = Text.Utf8.encode "\x7b\"name\":\"Ann\",\"surname\":\"Lee\"\x7d".toList
        ∧ deep.octets = Text.Utf8.encode
          " \x7b \"n\": [1e999 , \"\\ud800\"], \"surname\": \"Lee\" , \"n\\u0061me\": \"Ann\"\x7d ".toList
        ∧ (Draft.decode plain.octets).toOption = some { name := "Ann", surname := "Lee" }
        ∧ (Draft.decode deep.octets).toOption = some { name := "Ann", surname := "Lee" }
        ∧ ((Backend.answering .nil).run (respond Service.defaultCacheSpan patch)).1.status = 400 := by
  intro ann lee half huge nested plain deep segment patch
  obtain ⟨decodes, alike, strict⟩ := drafts_tolerant_patches_strict
  have same := alike plain deep (by decide) (by decide) (.swap _ _ _)
  have read : (Draft.decode plain.octets).toOption = some { name := "Ann", surname := "Lee" } :=
    (decodes plain).trans (by rfl)
  have refused := (strict deep ⟨(some "n", nested), .head _, by decide⟩).2 (Backend.answering .nil)
    Service.defaultCacheSpan patch segment rfl (by decide +kernel) rfl
  exact ⟨by decide, by decide, read, same.symm.trans read, refused.1⟩

end PersonRegistry.Web

import PersonRegistry.Person.Coding
import PersonRegistry.Proofs.Json.AnyObjects

/-! Drafts and patches read from any object that a text spells. A draft is made by the members that it has, in
any order and beside any others; an object with another member is no patch.
-/

namespace PersonRegistry

open Json (AnyObject Layout Takes Tree applied named)

-----------------------------------------------------------------------------------------
-- Drafts
-----------------------------------------------------------------------------------------

namespace Draft

/-- How a member changes a draft: a name and a surname must be texts, and a patronymic may be null. -/
def taken : String → Tree → Option (Draft → Draft)
  | "name", value => value.text?.map fun name d => { d with name }
  | "surname", value => value.text?.map fun surname d => { d with surname }
  | "patronymic", value => (value.orNull Tree.text?).map fun patronymic d => { d with patronymic }
  | _, _ => none

theorem layout_knows : layout.Knows taken := by
  refine Layout.knows_of_members (by decide) fun m member => ?_
  simp only [layout, List.mem_cons, List.not_mem_nil, or_false] at member
  rcases member with rfl | rfl | rfl
  case inl => exact Json.takes_text.map _
  case inr.inl => exact Json.takes_text.map _
  case inr.inr => exact Json.takes_text.orNull.map _

/-- A member changes the part of its name and no other. -/
theorem eq_of_taken {name : String} {value : Tree} {change : Draft → Draft}
    (takes : taken name value = some change)
    : (name = "name" ∧ ∃ part, change = fun d => { d with name := part })
      ∨ (name = "surname" ∧ ∃ part, change = fun d => { d with surname := part })
      ∨ name = "patronymic" ∧ ∃ part, change = fun d => { d with patronymic := part } := by
  unfold taken at takes
  split at takes
  next =>
    obtain ⟨part, -, rfl⟩ := Option.map_eq_some_iff.mp takes
    exact .inl ⟨rfl, part, rfl⟩
  next =>
    obtain ⟨part, -, rfl⟩ := Option.map_eq_some_iff.mp takes
    exact .inr (.inl ⟨rfl, part, rfl⟩)
  next =>
    obtain ⟨part, -, rfl⟩ := Option.map_eq_some_iff.mp takes
    exact .inr (.inr ⟨rfl, part, rfl⟩)
  next => cases takes

theorem commute_taken : Json.Commute taken := by
  intro name other unlike value second change later first behind record
  rcases eq_of_taken first with ⟨rfl, part, rfl⟩ | ⟨rfl, part, rfl⟩ | ⟨rfl, part, rfl⟩
  all_goals
    rcases eq_of_taken behind with ⟨rfl, rest, rfl⟩ | ⟨rfl, rest, rfl⟩ | ⟨rfl, rest, rfl⟩
  all_goals first | rfl | exact absurd rfl unlike

theorem taken_bare (name : String) (value : Tree) : taken name value.bare = taken name value := by
  unfold taken
  split
  next => rw [value.text?_bare]
  next => rw [value.text?_bare]
  next => rw [Tree.orNull_bare Tree.text?_bare]
  next => rfl

/-- What the members of an object make, if they make a draft. -/
def ofMembers? (object : AnyObject) : Option Draft :=
  let members := object.named ["name", "surname", "patronymic"]
  if object.isKeyed ∧ (members.map Prod.fst).Nodup then applied taken members {} else none

theorem toOption_decode (object : AnyObject) : (decode object.octets).toOption = ofMembers? object :=
  Json.toOption_decode_opened layout_knows rfl object

end Draft

-----------------------------------------------------------------------------------------
-- Patches
-----------------------------------------------------------------------------------------

namespace Patch

/-- How a member changes a patch. Null says no more than leaving the member out. -/
def taken : String → Tree → Option (Patch → Patch)
  | "name", value => (value.orNull Tree.text?).map fun name d => { d with name }
  | "surname", value => (value.orNull Tree.text?).map fun surname d => { d with surname }
  | "patronymic", value => (value.orNull Tree.text?).map fun patronymic d => { d with patronymic }
  | "age", value => (value.orNull Tree.signed32?).map fun age d => { d with age }
  | "gender", value => (value.orNull Tree.text?).map fun gender d => { d with gender }
  | "nationality", value => (value.orNull Tree.text?).map fun nationality d => { d with nationality }
  | _, _ => none

theorem layout_knows : layout.Knows taken := by
  refine Layout.knows_of_members (by decide) fun m member => ?_
  simp only [layout, List.mem_cons, List.not_mem_nil, or_false] at member
  rcases member with rfl | rfl | rfl | rfl | rfl | rfl
  case inr.inr.inr.inl => exact Json.takes_signed32.orNull.map _
  all_goals exact Json.takes_text.orNull.map _

/-- An object with a member that patches do not have is none. -/
theorem toOption_decode_stray {object : AnyObject}
    (stray : ∃ e ∈ object.entries, ∀ name ∈ layout.names, e.1 ≠ some name)
    : (decode object.octets).toOption = none :=
  (Json.toOption_decode_object layout_knows object).trans (Layout.gathered_closed rfl stray [] _)

end Patch
end PersonRegistry

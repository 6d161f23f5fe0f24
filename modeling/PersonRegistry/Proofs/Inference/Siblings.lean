import PersonRegistry.Proofs.Inference.AlikeLookups
import PersonRegistry.Proofs.Json.OpenRecords

/-! What the payload of a service says besides its own trait. Members that are about no trait are ignored, and
so is what a payload says about a sibling, as long as that is of the right type; a sibling of another type
spoils the whole payload.
-/

namespace PersonRegistry.Inference

open Json (Member ObjectText Takes Tree applied)
open Text (Octets)
open Time (Span)

-----------------------------------------------------------------------------------------
-- What single members say
-----------------------------------------------------------------------------------------

namespace Trait

/-- How a value changes what is known about a trait. Null says that nothing is; a value of another type says
nothing.
-/
def change? : Trait → Tree → Option (Enrichment → Enrichment)
  | .age, value => (value.orNull Tree.signed32?).map fun age e => { e with age }
  | .gender, value => (value.orNull Tree.text?).map fun gender e => { e with gender }
  | .nationality, value => (value.orNull Tree.text?).map fun nationality e => { e with nationality }

/-- What a value says about a trait. -/
def said? (t : Trait) (value : Tree) : Option Enrichment := (t.change? value).map fun change => change {}

/-- The trait that a member is about, by its name. -/
def named? (name : String) : Option Trait := all.find? (·.text == name)

/-- The member of an enrichment that holds a trait. -/
def member : Trait → Member Enrichment
  | .age => .of "age" .defaulted (Json.orNull Json.signed32) fun age e => { e with age }
  | .gender => .of "gender" .defaulted (Json.orNull Json.text) fun gender e => { e with gender }
  | .nationality =>
      .of "nationality" .defaulted (Json.orNull Json.text) fun nationality e => { e with nationality }

variable {t u : Trait} {name : String}

theorem text_of_named? (about : named? name = some t) : t.text = name := by
  have found := List.find?_some about
  exact beq_iff_eq.mp found

theorem named?_text (t : Trait) : named? t.text = some t := by
  cases t <;> rfl

theorem takes_member (t : Trait) : Takes t.member.read t.change? := by
  cases t with
  | age => exact Json.takes_signed32.orNull.map _
  | gender => exact Json.takes_text.orNull.map _
  | nationality => exact Json.takes_text.orNull.map _

/-- A value changes the trait it is about to what it says, and no other. -/
theorem only_change {value : Tree} {change : Enrichment → Enrichment}
    (changes : t.change? value = some change) (e : Enrichment)
    : t.said? value = some ((change e).only t) ∧ ∀ u, u ≠ t → (change e).only u = e.only u := by
  rw [said?, changes]
  cases t <;> obtain ⟨found, -, rfl⟩ := Option.map_eq_some_iff.mp changes
  all_goals exact ⟨rfl, fun u unlike => by cases u <;> first | rfl | exact absurd rfl unlike⟩

end Trait

/-- What a member says, by its name. One that is about no trait says nothing, whatever its value. -/
def taken (name : String) (value : Tree) : Option (Enrichment → Enrichment) :=
  match Trait.named? name with
  | some t => t.change? value
  | none => some id

theorem layout_member? (name : String)
    : Enrichment.layout.member? name = (Trait.named? name).map Trait.member := by
  have members : Enrichment.layout.members = Trait.all.map Trait.member := rfl
  have names : (fun m : Member Enrichment => m.name == name) ∘ Trait.member = fun t => t.text == name := by
    funext t
    cases t <;> rfl
  rw [Json.Layout.member?, members, List.find?_map, names, Trait.named?]

theorem layout_reads : Enrichment.layout.Reads taken := by
  refine ⟨rfl, by decide, fun name m known => ?_, fun name unknown tree => ?_⟩
  · rw [layout_member?, Option.map_eq_some_iff] at known
    obtain ⟨t, about, rfl⟩ := known
    have same : taken name = t.change? := by
      funext value
      rw [taken, about]
    rw [same]
    exact t.takes_member
  · rw [layout_member?, Option.map_eq_none_iff] at unknown
    rw [taken, unknown]

-----------------------------------------------------------------------------------------
-- What payloads say
-----------------------------------------------------------------------------------------

/-- Every trait is what its member says, or what it was before if there is no such member. By induction on
the members.
-/
theorem only_applied {members : List (String × Tree)} (distinct : (members.map Prod.fst).Nodup)
    {e result : Enrichment} (applies : applied taken members e = some result) (t : Trait)
    : match members.lookup t.text with
      | some value => t.said? value = some (result.only t)
      | none => result.only t = e.only t := by
  induction members generalizing e with
  | nil =>
      obtain rfl := Option.some.inj applies
      rfl
  | cons m members ih =>
      obtain ⟨name, value⟩ := m
      obtain ⟨unlike, distinct⟩ := List.nodup_cons.mp distinct
      rw [Json.applied_cons, Option.bind_eq_some_iff] at applies
      obtain ⟨change, changes, applies⟩ := applies
      have later := ih distinct applies
      by_cases own : t.text = name
      · subst own
        have absent : members.lookup t.text = none := by
          refine List.lookup_eq_none_iff.mpr fun m member => ?_
          exact bne_iff_ne.mpr fun same => unlike (List.mem_map.mpr ⟨m, member, same.symm⟩)
        rw [absent] at later
        rw [taken, Trait.named?_text] at changes
        simp only [List.lookup_cons, beq_self_eq_true]
        rw [later]
        exact (Trait.only_change changes e).1
      · have kept : (change e).only t = e.only t := by
          rw [taken] at changes
          split at changes
          next u about =>
            refine (Trait.only_change changes e).2 t fun same => own ?_
            rw [same]
            exact Trait.text_of_named? about
          next => rw [← Option.some.inj changes]; rfl
        rw [List.lookup_cons, beq_eq_false_iff_ne.mpr own, ← kept]
        exact later

/-- What a payload says about a trait, if it says anything, is of the right type. -/
def usable (text : ObjectText) (t : Trait) : Bool :=
  (text.member? t.text).all fun value => (t.said? value).isSome

def siblingsUsable (text : ObjectText) (t : Trait) : Bool := (Trait.all.filter (· ≠ t)).all (usable text)

/-- What a payload tells about a trait, if it tells any. -/
def ownFound? (text : ObjectText) (t : Trait) : Option Enrichment :=
  ((text.member? t.text).bind t.said?).filter (·.has t)

variable {text : ObjectText} {t : Trait}

theorem toOption_decode (text : ObjectText)
    : (Enrichment.decode text.octets).toOption = applied taken text.members {} :=
  Json.toOption_decode_record layout_reads text

theorem usable_of_decode {e : Enrichment} (decodes : (Enrichment.decode text.octets).toOption = some e)
    (t : Trait)
    : usable text t = true := by
  rw [toOption_decode] at decodes
  have only := only_applied text.distinct decodes t
  rw [usable, ObjectText.member?]
  split at only
  next value found => rw [found, Option.all_some, only]; rfl
  next absent => rw [absent]; rfl

/-- A payload is read if it is usable for all traits: members about no trait cannot spoil it. -/
theorem isSome_decode (all : ∀ t, usable text t = true)
    : (Enrichment.decode text.octets).toOption.isSome = true := by
  rw [toOption_decode, Json.isSome_applied, List.all_eq_true]
  rintro ⟨name, value⟩ member
  rw [taken]
  split
  next t about =>
    have said := all t
    have found := Json.ObjectText.member?_of_mem member
    have name : t.text = name := Trait.text_of_named? about
    rw [← name] at found
    rw [usable, found, Option.all_some, Trait.said?, Option.isSome_map] at said
    exact said
  next => rfl

theorem usable_of_siblings (siblings : siblingsUsable text t = true) {u : Trait} (unlike : u ≠ t)
    : usable text u = true :=
  List.all_eq_true.mp siblings u (List.mem_filter.mpr ⟨u.mem_all, decide_eq_true unlike⟩)

theorem ownFound?_of_unusable (unusable : usable text t ≠ true) : ownFound? text t = none := by
  rw [usable] at unusable
  rw [ownFound?]
  cases found : text.member? t.text with
  | none => rfl
  | some value =>
      rw [found, Option.all_some] at unusable
      rw [Option.bind_some, Option.not_isSome_iff_eq_none.mp unusable, Option.filter_none]

theorem toOption_traitOf_of_decode (t : Trait) (payload : Octets)
    : (traitOf t payload).toOption
      = (Enrichment.decode payload).toOption.bind fun e =>
          if (e.only t).has t then some (e.only t) else none := by
  rw [traitOf]
  cases Enrichment.decode payload with
  | error failure => rfl
  | ok e =>
      simp only [Except.toOption, Option.bind_some]
      cases (e.only t).has t <;> rfl

/-- The trait that is found in a payload is what its own member says, unless a sibling is of another type. -/
theorem toOption_traitOf (t : Trait) (text : ObjectText)
    : (traitOf t text.octets).toOption
      = if siblingsUsable text t then ownFound? text t else none := by
  rw [toOption_traitOf_of_decode]
  cases decodes : (Enrichment.decode text.octets).toOption with
  | some e =>
      have siblings : siblingsUsable text t = true :=
        List.all_eq_true.mpr fun u _ => usable_of_decode decodes u
      rw [toOption_decode] at decodes
      have only := only_applied text.distinct decodes t
      rw [if_pos siblings, Option.bind_some, ownFound?, ObjectText.member?]
      split at only
      next value found => rw [found, Option.bind_some, only, Option.filter_some]
      next absent =>
        rw [absent, only]
        cases t <;> rfl
  | none =>
      split
      next siblings =>
        have unusable : usable text t ≠ true := by
          intro own
          have all (u : Trait) : usable text u = true := by
            by_cases same : u = t
            · exact same ▸ own
            · exact usable_of_siblings siblings same
          have decoded := isSome_decode all
          rw [decodes] at decoded
          cases decoded
        rw [ownFound?_of_unusable unusable]
        rfl
      next => rfl

-----------------------------------------------------------------------------------------
-- Payloads that differ in siblings
-----------------------------------------------------------------------------------------

theorem toOption_traitOf_congr_iff {left right : ObjectText}
    (own : left.member? t.text = right.member? t.text)
    : (traitOf t left.octets).toOption = (traitOf t right.octets).toOption
      ↔ siblingsUsable left t = siblingsUsable right t ∨ ownFound? left t = none := by
  have same : ownFound? left t = ownFound? right t := by rw [ownFound?, ownFound?, own]
  rw [toOption_traitOf, toOption_traitOf, ← same]
  cases siblingsUsable left t <;> cases siblingsUsable right t <;> simp [eq_comm]

/-- Replies that are the same, or whose payloads say the same about a trait. What they say besides spoils both
of them or neither, unless the trait is not found there in any case.
-/
inductive Reply.DiffersBeside (t : Trait) : Reply → Reply → Prop
  | same (reply : Reply) : DiffersBeside t reply reply
  | payloads (delay : Span) {left right : ObjectText} (own : left.member? t.text = right.member? t.text)
      (spoiled : siblingsUsable left t = siblingsUsable right t ∨ ownFound? left t = none)
      : DiffersBeside t ⟨delay, .ok left.octets⟩ ⟨delay, .ok right.octets⟩

theorem Reply.DiffersBeside.alike {left right : Reply} (differs : left.DiffersBeside t right)
    : left.Alike t right := by
  cases differs with
  | same => exact ⟨rfl, rfl⟩
  | payloads delay own spoiled =>
      have same := (toOption_traitOf_congr_iff own).mpr spoiled
      refine ⟨rfl, ?_⟩
      simp only [Reply.taken]
      generalize traitOf t _ = first at same ⊢
      generalize traitOf t _ = second at same ⊢
      cases first with
      | error flaw =>
          cases second with
          | error other => rfl
          | ok e => cases same
      | ok e =>
          cases second with
          | error other => cases same
          | ok e => rw [Option.some.inj same]

/-- Two payloads that say the same about a trait are taken for the same exactly if what they say about its
siblings is of the right types in both of them or in neither, or if they do not tell it anyway. A payload with
a sibling of another type is refused. Lookups whose replies differ no further take the same course and come to
the same result, but for what exactly is wrong with a payload that is of no use.
-/
theorem siblings_ignored_iff (t : Trait) (left right : ObjectText)
    (own : left.member? t.text = right.member? t.text)
    : ((traitOf t left.octets).toOption = (traitOf t right.octets).toOption
          ↔ siblingsUsable left t = siblingsUsable right t ∨ ownFound? left t = none)
        ∧ (siblingsUsable left t = false → ∃ flaw, traitOf t left.octets = .error flaw)
        ∧ ∀ (replies others : Trait → Reply), (∀ u, (replies u).DiffersBeside u (others u)) →
            ∀ (deadline : Span) (name : String),
              (lookUp deadline replies name).blurred = (lookUp deadline others name).blurred := by
  refine ⟨toOption_traitOf_congr_iff own, fun spoiled => ?_,
    fun replies others differ => lookUp_blurred_congr fun u => (differ u).alike⟩
  have refused := toOption_traitOf t left
  rw [spoiled, if_neg (by decide)] at refused
  cases found : traitOf t left.octets with
  | ok e => rw [found] at refused; cases refused
  | error flaw => exact ⟨flaw, rfl⟩

/-- A number of digits alone. -/
def digits (whole : List Char) (isWhole : Json.IsWhole whole) : Tree :=
  .number ⟨false, whole, [], [], isWhole, .none, .none⟩

def fortyTwo : Tree := digits ['4', '2'] (.digits (by decide) (by simp))

/-- A payload that says an age, and something else under another name. -/
def ageAnd (name : List Char) (proper : ∀ c ∈ name, c ≠ '"' ∧ c ≠ '\\' ∧ ¬c.toNat < 0x20) (value : Tree)
    (unlike : "age" ≠ String.ofList name) : ObjectText where
  before := .none
  tree := .filled .object (.key .none (Json.plainGlyphs ['a', 'g', 'e'] (by simp)) .none) .none fortyTwo
    .none (.cons (.key .one (Json.plainGlyphs name proper) .none) .none value .none .nil)
  after := .none
  members := [("age", fortyTwo), (String.ofList name, value)]
  spells := by
    simp only [Tree.members?, Json.Items.members?, Json.Label.member?, Json.Label.name?,
      Json.chars?_plainGlyphs]
    rfl
  distinct := by simpa using unlike

/-- A text for the gender, and a list under a name that no trait has. -/
theorem siblings_ignored_iff_list
    : let text := ageAnd ['g', 'e', 'n', 'd', 'e', 'r'] (by simp)
        (.text (Json.plainGlyphs ['m'] (by simp))) (by decide)
      let list := ageAnd ['l', 'o', 'g'] (by simp) (.empty .list .one) (by decide)
      text.octets = Text.Utf8.encode "\x7b\"age\":42, \"gender\":\"m\"\x7d".toList
        ∧ list.octets = Text.Utf8.encode "\x7b\"age\":42, \"log\":[ ]\x7d".toList
        ∧ (traitOf .age text.octets).toOption = (traitOf .age list.octets).toOption := by
  intro text list
  exact ⟨by decide, by decide, (siblings_ignored_iff .age text list rfl).1.mpr (.inl (by decide))⟩

/-- The same age is found beside a text for the gender, but not beside a number for it. -/
theorem siblings_not_ignored
    : let text := ageAnd ['g', 'e', 'n', 'd', 'e', 'r'] (by simp)
        (.text (Json.plainGlyphs ['m'] (by simp))) (by decide)
      let number := ageAnd ['g', 'e', 'n', 'd', 'e', 'r'] (by simp)
        (digits ['5'] (.digits (by decide) (by simp))) (by decide)
      text.member? Trait.age.text = number.member? Trait.age.text
        ∧ traitOf .age text.octets = .ok { age := some 42 }
        ∧ number.octets = Text.Utf8.encode "\x7b\"age\":42, \"gender\":5\x7d".toList
        ∧ traitOf .age number.octets
          = .error (.malformed ⟨.invalidType (.integer 5) .text, 1, 21, [.member "gender"]⟩) := by
  intro text number
  exact ⟨rfl, rfl, by decide, by rfl⟩

end PersonRegistry.Inference

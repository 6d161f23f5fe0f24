import PersonRegistry.Proofs.Json.AnyObjects

/-! Records read from any object that a text spells, where the layout requires no member and passes over
those it does not know: every member changes the record by what its value is taken for, and one member of
the wrong kind spoils the whole record.
-/

namespace PersonRegistry.Json

open Text (Octets)

variable {α : Type}

-----------------------------------------------------------------------------------------
-- The members of an object
-----------------------------------------------------------------------------------------

/-- A member in front of others. -/
def Label.member? {bracket : Bracket} (label : Label bracket) (value : Tree)
    (others : Option (List (String × Tree))) : Option (List (String × Tree)) :=
  label.name?.bind fun name => others.map ((name, value) :: ·)

def Items.members? : {bracket : Bracket} → Items bracket → Option (List (String × Tree))
  | _, .nil => some []
  | _, .cons label _ value _ others => label.member? value others.members?

/-- The members of an object whose keys are texts. -/
def Tree.members? : Tree → Option (List (String × Tree))
  | .empty .object _ => some []
  | .filled _ label _ first _ others => label.member? first others.members?
  | _ => none

variable {bracket : Bracket} {label : Label bracket} {value : Tree} {others : Option (List (String × Tree))}
  {members : List (String × Tree)}

theorem Label.eq_cons_of_member? (spells : label.member? value others = some members)
    : ∃ name more, label.name? = some name ∧ others = some more ∧ members = (name, value) :: more := by
  rw [Label.member?, Option.bind_eq_some_iff] at spells
  obtain ⟨name, named, spells⟩ := spells
  rw [Option.map_eq_some_iff] at spells
  obtain ⟨more, behind, rfl⟩ := spells
  exact ⟨name, more, named, behind, rfl⟩

theorem Items.entries_of_members? {bracket : Bracket} : (items : Items bracket) →
    (members : List (String × Tree)) → items.members? = some members →
    items.entries = members.map fun m => (some m.1, m.2)
  | .nil, members, spells => by
      obtain rfl := Option.some.inj spells
      rfl
  | .cons label before value after others, members, spells => by
      obtain ⟨name, more, named, behind, rfl⟩ := Label.eq_cons_of_member? spells
      rw [Items.entries, named, others.entries_of_members? more behind, List.map_cons]

/-- What has members is an object, and the members are its entries. -/
theorem Tree.entries_of_members? {tree : Tree} (spells : tree.members? = some members)
    : tree.isObject = true ∧ tree.entries = members.map fun m => (some m.1, m.2) := by
  cases tree with
  | word | text | number => cases spells
  | empty bracket space =>
      cases bracket with
      | list => cases spells
      | object =>
          obtain rfl := Option.some.inj spells
          exact ⟨rfl, rfl⟩
  | filled bracket label before first after others =>
      obtain ⟨name, more, named, behind, rfl⟩ := Label.eq_cons_of_member? spells
      refine ⟨?_, by rw [Tree.entries, named, others.entries_of_members? more behind, List.map_cons]⟩
      cases label with
      | element => cases named
      | key => rfl

-----------------------------------------------------------------------------------------
-- Layouts that pass over what they do not know
-----------------------------------------------------------------------------------------

/-- What the values of members are taken for, by their names. The layout requires none of them, and what it
does not know changes nothing.
-/
structure Layout.Reads (layout : Layout α) (taken : String → Tree → Option (α → α)) : Prop where
  opened : layout.closed = false
  lenient : ∀ m ∈ layout.members, m.presence ≠ .required
  known : ∀ name m, layout.member? name = some m → Takes m.read (taken name)
  foreign : ∀ name, layout.member? name = none → ∀ tree, taken name tree = some id

/-- The changes are applied if every member is taken for one, by induction on the members. -/
theorem isSome_applied (taken : String → Tree → Option (α → α)) (members : List (String × Tree)) (record : α)
    : (applied taken members record).isSome = members.all fun m => (taken m.1 m.2).isSome := by
  induction members generalizing record with
  | nil => rfl
  | cons m members ih =>
      obtain ⟨name, value⟩ := m
      rw [applied_cons, List.all_cons]
      cases taken name value with
      | none => rfl
      | some change => exact ih (change record)

namespace Layout

variable {layout : Layout α} {taken : String → Tree → Option (α → α)}

theorem Reads.knows (reads : layout.Reads taken) : layout.Knows taken := ⟨reads.lenient, reads.known⟩

/-- Members of different names that were not read before make the record with their changes, by induction on
them.
-/
theorem gathered_members (reads : layout.Reads taken) (distinct : (members.map Prod.fst).Nodup)
    {read : List String} (fresh : ∀ m ∈ members, m.1 ∉ read) (record : α)
    : layout.gathered taken read record (members.map fun m => (some m.1, m.2))
      = applied taken members record := by
  induction members generalizing read record with
  | nil => rfl
  | cons m members ih =>
      obtain ⟨name, value⟩ := m
      obtain ⟨unlike, distinct⟩ := List.nodup_cons.mp distinct
      have change : layout.change? taken read name value = taken name value := by
        rw [change?]
        split
        next => rw [if_neg (fresh (name, value) List.mem_cons_self)]
        next unknown =>
          rw [reads.foreign name (Option.not_isSome_iff_eq_none.mp unknown), reads.opened]
          rfl
      rw [List.map_cons, gathered_cons, Option.bind_some, change, applied_cons]
      congr 1
      funext change
      refine ih distinct (fun m member before => ?_) (change record)
      rcases mem_noted before with same | before
      · exact unlike (List.mem_map.mpr ⟨m, member, same⟩)
      · exact fresh m (by simp [member]) before

end Layout

-----------------------------------------------------------------------------------------
-- Whole objects
-----------------------------------------------------------------------------------------

/-- A text that holds one object whose members have different names. -/
structure ObjectText where
  before : Gap
  tree : Tree
  after : Gap
  members : List (String × Tree)
  spells : tree.members? = some members
  distinct : (members.map Prod.fst).Nodup

namespace ObjectText

def octets (text : ObjectText) : Octets := text.before.octets ++ (text.tree.octets ++ text.after.octets)

def member? (text : ObjectText) (name : String) : Option Tree := text.members.lookup name

theorem member?_of_mem {text : ObjectText} {name : String} {value : Tree}
    (member : (name, value) ∈ text.members)
    : text.member? name = some value := by
  obtain ⟨before, after, parts⟩ := List.append_of_mem member
  have distinct := text.distinct
  rw [parts, List.map_append, List.nodup_append] at distinct
  refine List.lookup_eq_some_iff.mpr ⟨before, after, parts, fun m earlier => bne_iff_ne.mpr fun same => ?_⟩
  exact distinct.2.2 m.1 (List.mem_map_of_mem earlier) name (by simp) same.symm

end ObjectText

/-- An object of any members is read as the record with the changes that they are taken for. -/
theorem toOption_decode_record {layout : Layout α} {taken : String → Tree → Option (α → α)}
    (reads : layout.Reads taken) (text : ObjectText)
    : (decode (record layout) text.octets).toOption = applied taken text.members layout.blank := by
  obtain ⟨isObject, entries⟩ := Tree.entries_of_members? text.spells
  have decodes := toOption_decode_object reads.knows ⟨text.before, text.tree, text.after, isObject⟩
  rw [AnyObject.entries, entries, Layout.gathered_members reads text.distinct (by simp)] at decodes
  exact decodes

end PersonRegistry.Json

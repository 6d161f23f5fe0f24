import PersonRegistry.Proofs.Json.Readings
import PersonRegistry.Proofs.Json.Records

/-! Records read from any object that a text spells, by layouts that require no member. Every entry of the
object is read in its place: a key that spells no text spoils the object, and so does a member that is there
twice or whose value is of the wrong kind; members that the layout does not know are passed over, unless the
layout is closed.
-/

namespace PersonRegistry.Json

open Text (Octets)

variable {α : Type}

-----------------------------------------------------------------------------------------
-- The entries of an object
-----------------------------------------------------------------------------------------

/-- The name that a key spells. -/
def Label.name? : {bracket : Bracket} → Label bracket → Option String
  | _, .element => none
  | _, .key _ name _ => (chars? name).map String.ofList

def Items.entries : {bracket : Bracket} → Items bracket → List (Option String × Tree)
  | _, .nil => []
  | _, .cons label _ value _ others => (label.name?, value) :: others.entries

/-- The elements of a container in order, in an object with what their keys spell. -/
def Tree.entries : Tree → List (Option String × Tree)
  | .filled _ label _ first _ others => (label.name?, first) :: others.entries
  | _ => []

def Tree.isObject : Tree → Bool
  | .empty .object _ | .filled .object _ _ _ _ _ => true
  | _ => false

/-- The elements behind a first one have an octet each at least. -/
theorem Items.length_entries_le {bracket : Bracket} : (items : Items bracket) →
    items.entries.length ≤ items.octets.length
  | .nil => Nat.le_refl _
  | .cons label before value after others => by
      have few := others.length_entries_le
      simp only [Items.entries, Items.octets, List.length_cons, List.length_append]
      omega

-----------------------------------------------------------------------------------------
-- What layouts make of entries
-----------------------------------------------------------------------------------------

/-- What the values of the members of a layout are taken for, by their names. None of them is required. -/
structure Layout.Knows (layout : Layout α) (taken : String → Tree → Option (α → α)) : Prop where
  lenient : ∀ m ∈ layout.members, m.presence ≠ .required
  known : ∀ name m, layout.member? name = some m → Takes m.read (taken name)

namespace Layout

variable (layout : Layout α) (taken : String → Tree → Option (α → α))

/-- The names read so far, with one more if the layout has such a member. -/
def noted (read : List String) (name : String) : List String :=
  if (layout.member? name).isSome then name :: read else read

/-- How an entry changes the record, if it may stand there. -/
def change? (read : List String) (name : String) (value : Tree) : Option (α → α) :=
  if (layout.member? name).isSome then
    if name ∈ read then none else taken name value
  else if layout.closed then none
  else some id

/-- The record that entries make, if all of them may stand where they do. -/
def gathered (read : List String) (record : α) : List (Option String × Tree) → Option α
  | [] => some record
  | (none, _) :: _ => none
  | (some name, value) :: others =>
      (layout.change? taken read name value).bind fun change =>
        gathered (layout.noted read name) (change record) others

end Layout

theorem Layout.gathered_cons (layout : Layout α) (taken : String → Tree → Option (α → α)) (read : List String)
    (record : α) (key : Option String) (value : Tree) (others : List (Option String × Tree))
    : layout.gathered taken read record ((key, value) :: others)
      = key.bind fun name => (layout.change? taken read name value).bind fun change =>
          layout.gathered taken (layout.noted read name) (change record) others := by
  cases key <;> rfl

/-- A record with the changes that members are taken for, if all of them are. -/
def applied (taken : String → Tree → Option (α → α)) (members : List (String × Tree)) (record : α) :
    Option α :=
  members.foldlM (fun record m => (taken m.1 m.2).map (· record)) record

theorem applied_cons (taken : String → Tree → Option (α → α)) (name : String) (value : Tree)
    (members : List (String × Tree)) (record : α)
    : applied taken ((name, value) :: members) record
      = (taken name value).bind fun change => applied taken members (change record) := by
  rw [applied, List.foldlM_cons]
  cases taken name value <;> rfl

/-- The changes for different names may be made in any order. -/
def Commute (taken : String → Tree → Option (α → α)) : Prop :=
  ∀ name other, name ≠ other → ∀ value second change later, taken name value = some change →
    taken other second = some later → ∀ record, later (change record) = change (later record)

/-- So members of different names make the same record in any order, by induction on how they are moved. -/
theorem applied_perm {taken : String → Tree → Option (α → α)} (commute : Commute taken)
    {left right : List (String × Tree)} (moved : left.Perm right) (distinct : (left.map Prod.fst).Nodup)
    (record : α)
    : applied taken left record = applied taken right record := by
  induction moved generalizing record with
  | nil => rfl
  | cons m _ ih =>
      obtain ⟨name, value⟩ := m
      rw [applied_cons, applied_cons]
      congr 1
      funext change
      exact ih (List.nodup_cons.mp distinct).2 (change record)
  | swap m other members =>
      obtain ⟨name, value⟩ := m
      obtain ⟨second, later⟩ := other
      have unlike : second ≠ name := by
        rintro rfl
        simp at distinct
      simp only [applied_cons]
      cases first : taken name value with
      | none => cases taken second later <;> rfl
      | some change =>
          cases behind : taken second later with
          | none => rfl
          | some other =>
              simp only [Option.bind_some]
              rw [commute name second unlike.symm value later change other first behind]
  | trans moved _ first second =>
      exact (first distinct record).trans (second ((moved.map Prod.fst).nodup_iff.mp distinct) record)

/-- The value that a reading settles on with what is left, if neither fails. -/
def settled (read : Reader (Except Cause α)) (octets : Octets) : Option (α × Octets) :=
  (read octets).toOption.bind fun r => r.1.toOption.map (·, r.2)

namespace Layout

variable {layout : Layout α} {taken : String → Tree → Option (α → α)} {read : List String}

/-- What the members of a layout are taken for, where none is required. -/
theorem knows_of_members (lenient : ∀ m ∈ layout.members, m.presence ≠ .required)
    (takes : ∀ m ∈ layout.members, Takes m.read (taken m.name))
    : layout.Knows taken := by
  refine ⟨lenient, fun name m found => ?_⟩
  rw [member?] at found
  have same := List.find?_some found
  obtain rfl : m.name = name := beq_iff_eq.mp same
  exact takes m (List.mem_of_find?_eq_some found)

theorem mem_noted {name other : String} (member : other ∈ layout.noted read name)
    : other = name ∨ other ∈ read := by
  rw [noted] at member
  split at member
  next => exact List.mem_cons.mp member
  next => exact .inr member

theorem nothingMissing (knows : layout.Knows taken) (read : List String) : layout.missing? read = none := by
  simp only [missing?, Option.map_eq_none_iff, List.find?_eq_none]
  intro m member
  simp [knows.lenient m member]

theorem nextKey_gap (first : Bool) (gap : Gap) (rest : Octets)
    : nextKey first (gap.octets ++ rest) = nextKey first rest := by
  rw [nextKey, Reader.run_bind, Reader.run_bind, gap.token_append]

theorem nextKey_comma (gap : Gap) (rest : Octets)
    : nextKey false (Octet.comma :: (gap.octets ++ Octet.quote :: rest))
      = .ok (true, Octet.quote :: rest) := by
  have next : token (gap.octets ++ Octet.quote :: rest) = .ok (some Octet.quote, Octet.quote :: rest) :=
    (gap.token_append _).trans (token_cons rfl rest)
  rw [nextKey, Reader.run_bind, token_cons rfl]
  change (advance >>= _) _ = _
  rw [Reader.run_bind, advance_cons]
  change (token >>= _) _ = _
  rw [Reader.run_bind, next]
  rfl

/-- The octets of a member behind the opening quote of its key. -/
def memberOctets (name : List Glyph) (behind before : Gap) (value : Tree) (rest : Octets) : Octets :=
  quoted name ++ (behind.octets ++ Octet.colon :: (before.octets ++ (value.octets ++ rest)))

/-- Without another key the record is done. -/
theorem settled_membersWith_close (knows : layout.Knows taken) {first : Bool} {octets left : Octets}
    (key : nextKey first octets = .ok (false, left)) (rounds : Nat) (record : α)
    : settled (layout.membersWith (rounds + 1) first read record) octets = some (record, left) := by
  rw [settled, membersWith, Reader.run_bind, key]
  simp only [nothingMissing knows]
  rfl

/-- One round reads one entry, and goes on with it noted. -/
theorem settled_membersWith_key (knows : layout.Knows taken) (name : List Glyph) {first : Bool}
    {octets : Octets} (behind before : Gap) (value : Tree) (rest : Octets) (ends : EndsNumeral rest)
    (key : nextKey first octets = .ok (true, Octet.quote :: memberOctets name behind before value rest))
    (rounds : Nat) (record : α)
    : settled (layout.membersWith (rounds + 1) first read record) octets
      = ((chars? name).map String.ofList).bind fun name =>
          (layout.change? taken read name value).bind fun change =>
            settled (layout.membersWith rounds false (layout.noted read name) (change record)) rest := by
  have passed (octets : Octets) : colon (behind.octets ++ Octet.colon :: octets) = .ok ((), octets) := by
    rw [colon, Reader.run_bind, behind.token_append]
    rfl
  have body := toOption_textBody name
    (behind.octets ++ Octet.colon :: (before.octets ++ (value.octets ++ rest)))
  rw [settled, membersWith, Reader.run_bind, key]
  simp only [if_true, Reader.run_bind, advance_cons, memberOctets]
  cases characters : chars? name with
  | none =>
      rw [characters] at body
      cases found : textBody (quoted name
          ++ (behind.octets ++ Octet.colon :: (before.octets ++ (value.octets ++ rest)))) with
      | error failure => rfl
      | ok result => rw [found] at body; cases body
  | some chars =>
      rw [characters] at body
      simp only [ok_of_toOption body, Option.map_some, Option.bind_some]
      generalize String.ofList chars = name
      cases member : layout.member? name with
      | none =>
          simp only [change?, noted, member, Option.isSome_none, Bool.false_eq_true, if_false]
          cases closed : layout.closed with
          | true => rfl
          | false =>
              have skipped := skipValue_tree before value ends
              simp only [Bool.false_eq_true, if_false, Reader.run_bind, passed, within, skipped]
              rfl
      | some m =>
          simp only [change?, noted, member, Option.isSome_some, if_true, List.contains_iff_mem]
          by_cases again : name ∈ read
          · simp only [again, if_true]
            rfl
          · have takes := knows.known name m member before value rest ends
            simp only [again, if_false, Reader.run_bind, passed, within]
            cases found : m.read (before.octets ++ (value.octets ++ rest)) with
            | error failure =>
                rw [found] at takes
                rw [Option.map_eq_none_iff.mp takes.symm]
                rfl
            | ok result =>
                rw [found] at takes
                obtain ⟨change, accepted, rfl⟩ := Option.map_eq_some_iff.mp takes.symm
                rw [accepted]
                rfl

/-- The entries behind a first one are read in order, by recursion on them. The rounds suffice. -/
theorem settled_membersWith_items (knows : layout.Knows taken) : (items : Items .object) →
    (read : List String) → (gap : Gap) → (rounds : Nat) → items.entries.length < rounds → (record : α) →
    (rest : Octets) →
    settled (layout.membersWith rounds false read record)
        (gap.octets ++ (items.octets ++ Octet.closeObject :: rest))
      = (layout.gathered taken read record items.entries).map (·, Octet.closeObject :: rest)
  | .nil, read, gap, rounds, enough, record, rest => by
      obtain ⟨rounds, rfl⟩ := Nat.exists_eq_succ_of_ne_zero (Nat.ne_zero_of_lt enough)
      exact settled_membersWith_close knows
        ((nextKey_gap false gap _).trans (nextKey_close false rest)) rounds record
  | .cons (.key space name behind) before value after others, read, gap, rounds, enough, record, rest => by
      obtain ⟨rounds, rfl⟩ := Nat.exists_eq_succ_of_ne_zero (Nat.ne_zero_of_lt enough)
      have key : nextKey false (gap.octets
            ++ ((Items.cons (.key space name behind) before value after others).octets
              ++ Octet.closeObject :: rest))
          = .ok (true, Octet.quote :: memberOctets name behind before value
              (after.octets ++ (others.octets ++ Octet.closeObject :: rest))) := by
        rw [nextKey_gap]
        simp only [Items.octets, Label.octets, memberOctets, List.append_assoc, List.cons_append,
          List.nil_append]
        exact nextKey_comma space _
      rw [settled_membersWith_key knows name behind before value
        (after.octets ++ (others.octets ++ Octet.closeObject :: rest))
        (after.ends_append (others.ends rest)) key]
      have later (read : List String) (record : α) := settled_membersWith_items knows others read after rounds
        (by simpa [Items.entries] using enough) record rest
      simp only [later, Items.entries, Label.name?, gathered_cons, Option.map_bind, Function.comp_def]

/-- All entries of an object are read, up to the octet that closes it. -/
theorem settled_membersWith_tree (knows : layout.Knows taken) {tree : Tree} (isObject : tree.isObject = true)
    (record : α) (rest : Octets)
    : ∃ inside, tree.octets ++ rest = Octet.openObject :: inside
      ∧ settled (layout.membersWith (inside.length + 1) true [] record) inside
        = (layout.gathered taken [] record tree.entries).map (·, Octet.closeObject :: rest) := by
  cases tree with
  | word | text | number => cases isObject
  | empty bracket space =>
      cases bracket with
      | list => cases isObject
      | object =>
          refine ⟨space.octets ++ Octet.closeObject :: rest, ?_, ?_⟩
          · simp only [Tree.octets, List.cons_append, List.append_assoc, List.nil_append]
            rfl
          · exact settled_membersWith_close knows
              ((nextKey_gap true space _).trans (nextKey_close true rest)) _ record
  | filled bracket label before first after others =>
      cases label with
      | element => cases isObject
      | key space name behind =>
          have few := others.length_entries_le
          have key : nextKey true (space.octets ++ Octet.quote :: memberOctets name behind before first
                (after.octets ++ (others.octets ++ Octet.closeObject :: rest)))
              = .ok (true, Octet.quote :: memberOctets name behind before first
                  (after.octets ++ (others.octets ++ Octet.closeObject :: rest))) :=
            nextKey_gap true space _
          refine ⟨space.octets ++ Octet.quote :: memberOctets name behind before first
            (after.octets ++ (others.octets ++ Octet.closeObject :: rest)), ?_, ?_⟩
          · simp only [Tree.octets, Label.octets, memberOctets, List.cons_append, List.append_assoc,
              List.nil_append]
            rfl
          · rw [settled_membersWith_key knows name behind before first
              (after.octets ++ (others.octets ++ Octet.closeObject :: rest))
              (after.ends_append (others.ends rest)) key]
            have later (read : List String) (record : α) := settled_membersWith_items knows others read after
              (space.octets ++ Octet.quote :: memberOctets name behind before first
                (after.octets ++ (others.octets ++ Octet.closeObject :: rest))).length
              (by simp only [memberOctets, List.length_append, List.length_cons]; omega) record rest
            simp only [later, Tree.entries, Label.name?, gathered_cons, Option.map_bind, Function.comp_def]

end Layout

-----------------------------------------------------------------------------------------
-- Whole objects
-----------------------------------------------------------------------------------------

theorem never_failAfterObject (cause : Cause) : Yields (fun _ : α => False) (failAfterObject cause) := by
  refine .bind fun next => ?_
  split
  next => exact .bind fun _ => .fail cause
  next => exact .fail cause

/-- An opened object is read as the record that its members settle on, if its end comes next. -/
theorem toOption_record_openObject (layout : Layout α) (inside : Octets)
    : (record layout (Octet.openObject :: inside)).toOption
      = (settled (layout.membersWith (inside.length + 1) true [] layout.blank) inside).bind fun r =>
          ((advance >>= fun _ => pure r.1) r.2).toOption := by
  rw [record_openObject, Reader.toOption_bind, settled, Option.bind_assoc]
  congr 1
  funext ⟨outcome, left⟩
  cases outcome with
  | error cause => exact (never_failAfterObject cause).toOption_eq_none left
  | ok value => rfl

/-- An object is read as the record that its entries make. -/
theorem toOption_record_object {layout : Layout α} {taken : String → Tree → Option (α → α)}
    (knows : layout.Knows taken) (gap : Gap) {tree : Tree} (isObject : tree.isObject = true) (rest : Octets)
    : (record layout (gap.octets ++ (tree.octets ++ rest))).toOption
      = (layout.gathered taken [] layout.blank tree.entries).map (·, rest) := by
  obtain ⟨inside, octets, settles⟩ := Layout.settled_membersWith_tree knows isObject layout.blank rest
  have space (octets : Octets) : record layout (gap.octets ++ octets) = record layout octets := by
    rw [record, Reader.run_bind, Reader.run_bind, gap.valueStart_append]
  rw [space, octets, toOption_record_openObject, settles]
  cases layout.gathered taken [] layout.blank tree.entries <;> rfl

/-- Behind the value of a text only space may stand. -/
theorem toOption_decode (read : Reader α) (text : Octets)
    : (decode read text).toOption
      = (read text).toOption.bind fun r => (finish r.2).toOption.map fun _ => r.1 := by
  rw [decode, Reader.run_bind]
  cases reads : read text with
  | error failure => rfl
  | ok result =>
      simp only [Reader.run_bind]
      cases ends : finish result.2 <;> simp [Except.toOption, ends]

-----------------------------------------------------------------------------------------
-- Layouts that are open, and such that are closed
-----------------------------------------------------------------------------------------

def Layout.names (layout : Layout α) : List String := layout.members.map (·.name)

/-- The entries whose keys spell one of the names. -/
def named (names : List String) (entries : List (Option String × Tree)) : List (String × Tree) :=
  entries.filterMap fun e => (e.1.filter names.contains).map (·, e.2)

theorem named_cons_of_mem {names : List String} {name : String} (asked : name ∈ names) (value : Tree)
    (entries : List (Option String × Tree))
    : named names ((some name, value) :: entries) = (name, value) :: named names entries :=
  List.filterMap_cons_some (by simp [asked])

theorem named_cons_of_not_mem {names : List String} {name : String} (foreign : name ∉ names) (value : Tree)
    (entries : List (Option String × Tree))
    : named names ((some name, value) :: entries) = named names entries :=
  List.filterMap_cons_none (by simp [foreign])

namespace Layout

variable {layout : Layout α} {taken : String → Tree → Option (α → α)}

theorem isSome_member?_iff {name : String} : (layout.member? name).isSome ↔ name ∈ layout.names := by
  simp [member?, names]

/-- An open layout looks at its own members only. They make the record if all keys are texts and no member is
read twice. By induction on the entries.
-/
theorem gathered_opened (opened : layout.closed = false) (entries : List (Option String × Tree))
    {read : List String} (distinct : read.Nodup) (record : α)
    : layout.gathered taken read record entries
      = if entries.all (·.1.isSome) ∧ ((named layout.names entries).map Prod.fst ++ read).Nodup
        then applied taken (named layout.names entries) record else none := by
  induction entries generalizing read record with
  | nil => simp [gathered, named, applied, distinct]
  | cons e entries ih =>
      obtain ⟨key, value⟩ := e
      cases key with
      | none => simp [gathered]
      | some name =>
          rw [gathered_cons, Option.bind_some, change?, noted]
          by_cases own : name ∈ layout.names
          · have moved : (name :: ((named layout.names entries).map Prod.fst ++ read)).Nodup
                ↔ ((named layout.names entries).map Prod.fst ++ name :: read).Nodup :=
              List.perm_middle.symm.nodup_iff
            simp only [isSome_member?_iff.mpr own, if_true, named_cons_of_mem own, applied_cons, List.all_cons,
              Option.isSome_some, Bool.true_and, List.map_cons, List.cons_append, moved]
            by_cases again : name ∈ read
            · have twice : ¬((named layout.names entries).map Prod.fst ++ name :: read).Nodup := fun once =>
                (List.nodup_cons.mp (List.nodup_append.mp once).2.1).1 again
              rw [if_pos again, if_neg fun conditions => twice conditions.2, Option.bind_none]
            · simp only [again, if_false, ih (List.nodup_cons.mpr ⟨again, distinct⟩)]
              split
              next => rfl
              next => exact Option.bind_fun_none _
          · simp only [own, isSome_member?_iff, if_false, opened, Bool.false_eq_true, Option.bind_some, id_eq,
              named_cons_of_not_mem own, ih distinct, List.all_cons, Option.isSome_some, Bool.true_and]

/-- A closed layout makes nothing of entries with one that it does not know, by induction on them. -/
theorem gathered_closed (closed : layout.closed = true) {entries : List (Option String × Tree)}
    (stray : ∃ e ∈ entries, ∀ name ∈ layout.names, e.1 ≠ some name) (read : List String) (record : α)
    : layout.gathered taken read record entries = none := by
  induction entries generalizing read record with
  | nil => simp at stray
  | cons e entries ih =>
      obtain ⟨key, value⟩ := e
      cases key with
      | none => rfl
      | some name =>
          rw [gathered_cons, Option.bind_some]
          by_cases own : name ∈ layout.names
          · obtain ⟨other, member, unknown⟩ := stray
            have behind : other ∈ entries := by
              rcases List.mem_cons.mp member with rfl | behind
              · exact absurd rfl (unknown name own)
              · exact behind
            simp only [ih ⟨other, behind, unknown⟩, Option.bind_fun_none]
          · simp only [change?, isSome_member?_iff, own, closed, if_false, if_true, Option.bind_none]

end Layout

-----------------------------------------------------------------------------------------
-- Space inside values
-----------------------------------------------------------------------------------------

def Label.bare : {bracket : Bracket} → Label bracket → Label bracket
  | _, .element => .element
  | _, .key _ name _ => .key .none name .none

mutual

/-- A value without the space inside it. -/
def Tree.bare : Tree → Tree
  | .word w => .word w
  | .text glyphs => .text glyphs
  | .number n => .number n
  | .empty bracket _ => .empty bracket .none
  | .filled bracket label _ first _ others =>
      .filled bracket label.bare .none first.bare .none others.bare

def Items.bare : {bracket : Bracket} → Items bracket → Items bracket
  | _, .nil => .nil
  | _, .cons label _ value _ others => .cons label.bare .none value.bare .none others.bare

end

theorem Tree.text?_bare (tree : Tree) : tree.bare.text? = tree.text? := by
  cases tree <;> rfl

theorem Tree.orNull_bare {β : Type} {taken : Tree → Option β}
    (spaced : ∀ tree : Tree, taken tree.bare = taken tree) (tree : Tree)
    : Tree.orNull taken tree.bare = Tree.orNull taken tree := by
  cases tree with
  | word w => rfl
  | text glyphs => rfl
  | number n => rfl
  | empty bracket inside => exact congrArg (Option.map some) (spaced (.empty bracket inside))
  | filled bracket label before first after others =>
      exact congrArg (Option.map some) (spaced (.filled bracket label before first after others))

/-- Members make the same record without the space inside their values. -/
theorem applied_bare {taken : String → Tree → Option (α → α)}
    (spaced : ∀ name (value : Tree), taken name value.bare = taken name value) (members : List (String × Tree))
    (record : α)
    : applied taken (members.map fun m => (m.1, m.2.bare)) record = applied taken members record := by
  simp only [applied, List.foldlM_map, spaced]

/-- A text that holds one object and nothing else. -/
structure AnyObject where
  before : Gap
  tree : Tree
  after : Gap
  isObject : tree.isObject = true

namespace AnyObject

def octets (object : AnyObject) : Octets :=
  object.before.octets ++ (object.tree.octets ++ object.after.octets)

def entries (object : AnyObject) : List (Option String × Tree) := object.tree.entries

/-- All keys are texts. -/
def isKeyed (object : AnyObject) : Bool := object.entries.all (·.1.isSome)

/-- The members of the names, in the order in which they stand. -/
def named (object : AnyObject) (names : List String) : List (String × Tree) := Json.named names object.entries

end AnyObject

/-- A text that holds an object is read as the record that its entries make. -/
theorem toOption_decode_object {layout : Layout α} {taken : String → Tree → Option (α → α)}
    (knows : layout.Knows taken) (object : AnyObject)
    : (decode (record layout) object.octets).toOption
      = layout.gathered taken [] layout.blank object.entries := by
  have ends : finish object.after.octets = .ok ((), []) := by
    rw [← List.append_nil object.after.octets, finish, Reader.run_bind, object.after.token_append]
    rfl
  rw [toOption_decode, AnyObject.octets, toOption_record_object knows object.before object.isObject,
    AnyObject.entries]
  cases layout.gathered taken [] layout.blank object.tree.entries with
  | none => rfl
  | some record => simp [ends, Except.toOption]

/-- By an open layout, the members that it has make the record. -/
theorem toOption_decode_opened {layout : Layout α} {taken : String → Tree → Option (α → α)}
    (knows : layout.Knows taken) (opened : layout.closed = false) (object : AnyObject)
    : (decode (record layout) object.octets).toOption
      = if object.isKeyed ∧ ((object.named layout.names).map Prod.fst).Nodup
        then applied taken (object.named layout.names) layout.blank else none := by
  rw [toOption_decode_object knows, Layout.gathered_opened opened _ List.nodup_nil, List.append_nil]
  rfl

/-- So objects with the same such members make the same record, in whatever order and with whatever space in
them, if changes for different names may be made in any order.
-/
theorem toOption_decode_congr {layout : Layout α} {taken : String → Tree → Option (α → α)}
    (knows : layout.Knows taken) (opened : layout.closed = false) (commute : Commute taken)
    (spaced : ∀ name (value : Tree), taken name value.bare = taken name value) {left right : AnyObject}
    (leftKeyed : left.isKeyed = true) (rightKeyed : right.isKeyed = true)
    (same : ((left.named layout.names).map fun m => (m.1, m.2.bare)).Perm
      ((right.named layout.names).map fun m => (m.1, m.2.bare)))
    : (decode (record layout) left.octets).toOption = (decode (record layout) right.octets).toOption := by
  have names (members : List (String × Tree))
      : (members.map fun m => (m.1, m.2.bare)).map Prod.fst = members.map Prod.fst := by
    rw [List.map_map]
    rfl
  have distinct := (same.map Prod.fst).nodup_iff
  rw [names, names] at distinct
  rw [toOption_decode_opened knows opened, toOption_decode_opened knows opened, leftKeyed, rightKeyed]
  simp only [true_and, ← distinct]
  split
  next once =>
    rw [← applied_bare spaced, ← applied_bare spaced (right.named layout.names)]
    exact applied_perm commute same (by rwa [names]) layout.blank
  next => rfl

end PersonRegistry.Json

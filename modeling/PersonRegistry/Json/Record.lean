import PersonRegistry.Json.Skip

/-! Records: values read from an object by the names of its members, or from a list by their order. -/

namespace PersonRegistry.Json

/-- What becomes of a member that a text leaves out. -/
inductive Presence
  | required
  /-- An object may leave it out, a list may not. -/
  | optional
  | defaulted
  deriving DecidableEq, Repr

/-- A member of a record: how its value is read, and how that changes the record. -/
structure Member (α : Type) where
  name : String
  presence : Presence
  read : Reader (α → α)

def Member.of (name : String) (presence : Presence) (read : Reader β) (store : β → α → α) :
    Member α :=
  ⟨name, presence, store <$> read⟩

/-- How a record is read: it starts blank, and each member read is stored in it. -/
structure Layout (α : Type) where
  title : String
  blank : α
  members : List (Member α)
  /-- Members of other names are refused, not passed over. -/
  closed : Bool := false

namespace Layout

variable (layout : Layout α)

def member? (name : String) : Option (Member α) :=
  layout.members.find? (·.name == name)

/-- The first member that must be there and was not read. -/
def missing? (read : List String) : Option String :=
  (layout.members.find? fun m => m.presence == .required && !read.contains m.name).map (·.name)

/-- Passes over what stands before the next key of an object. Gives whether there is one. -/
def nextKey (first : Bool) : Reader Bool := do
  match ← token with
  | none => fail .endInObject
  | some Octet.closeObject => pure false
  | some b =>
      if first then
        if b = Octet.quote then pure true else failNext .keyNotText
      else if b = Octet.comma then
        advance
        match ← token with
        | some Octet.quote => pure true
        | some Octet.closeObject => failNext .trailingComma
        | some _ => failNext .keyNotText
        | none => fail .endInValue
      else failNext .expectedObjectEnd

/-- Passes over what stands before the next element of a list. Gives whether there is one. -/
def nextElement (first : Bool) : Reader Bool := do
  match ← token with
  | none => fail .endInList
  | some Octet.closeList => pure false
  | some b =>
      if first then pure true
      else if b = Octet.comma then
        advance
        match ← token with
        | some Octet.closeList => failNext .trailingComma
        | some _ => pure true
        | none => fail .endInValue
      else failNext .expectedListEnd

/-- Reads the members of an object into a record. `read` holds the names read before. A fault of the
record as a whole is not reported on the spot but handed back. Each round takes an octet at least.
-/
def membersWith : (rounds : Nat) → (first : Bool) → (read : List String) → α →
    Reader (Except Cause α)
  | 0, _, _, record => pure (.ok record)
  | rounds + 1, first, read, record => do
      if ← nextKey first then
        advance
        let name ← textBody
        match layout.member? name with
        | some m =>
            if read.contains name then pure (.error (.duplicateField name))
            else
              colon
              let change ← within (.member name) m.read
              membersWith rounds false (name :: read) (change record)
        | none =>
            if layout.closed then
              within (.member name)
                (fail (.unknownField name (layout.members.map (·.name))))
            else
              colon
              within (.member name) skipValue
              membersWith rounds false read record
      else
        match layout.missing? read with
        | some name => pure (.error (.missingField name))
        | none => pure (.ok record)

/-- Reads the members from the elements of a list, in order. -/
def elementsFrom (size : Nat) : (index : Nat) → (first : Bool) → List (Member α) → α →
    Reader (Except Cause α)
  | _, _, [], record => pure (.ok record)
  | index, first, m :: members, record => do
      if ← nextElement first then
        let change ← within (.element index) m.read
        elementsFrom size (index + 1) false members (change record)
      else if m.presence = .defaulted then
        elementsFrom size (index + 1) first members record
      else pure (.error (.invalidLength index (.recordOf layout.title size)))

end Layout

/-- Passes over the end of a list, where nothing but its bracket may stand. -/
def endList : Reader Unit := do
  match ← token with
  | none => fail .endInList
  | some Octet.closeList => advance
  | some Octet.comma =>
      advance
      match ← token with
      | some Octet.closeList => failNext .trailingComma
      | _ => failNext .trailingCharacters
  | some _ => failNext .trailingCharacters

/-- Reports a fault of a whole list, behind the bracket if that comes next. -/
def failAfterList (cause : Cause) : Reader α := do
  match ← token with
  | some Octet.closeList => advance
  | some Octet.comma =>
      advance
      skipSpace
  | _ => pure ()
  fail cause

/-- Reports a fault of a whole object, behind the brace if that comes next. -/
def failAfterObject (cause : Cause) : Reader α := do
  match ← token with
  | some Octet.closeObject => advance
  | _ => pure ()
  fail cause

/-- Reads a record from an object or from a list. -/
def record (layout : Layout α) : Reader α := do
  match ← valueStart with
  | Octet.openObject =>
      advance
      match ← layout.membersWith ((← get).length + 1) true [] layout.blank with
      | .ok value =>
          advance
          pure value
      | .error cause => failAfterObject cause
  | Octet.openList =>
      advance
      match ← layout.elementsFrom layout.members.length 0 true layout.members layout.blank with
      | .ok value =>
          endList
          pure value
      | .error cause => failAfterList cause
  | _ => mismatch (.record layout.title)

/-- Reads the elements of a list. Each round takes an octet at least. -/
def elementsWith (read : Reader α) : (rounds : Nat) → (index : Nat) → (first : Bool) →
    Reader (List α)
  | 0, _, _ => pure []
  | rounds + 1, index, first => do
      if ← Layout.nextElement first then
        let value ← within (.element index) read
        let more ← elementsWith read rounds (index + 1) false
        pure (value :: more)
      else pure []

def list (read : Reader α) : Reader (List α) := do
  match ← valueStart with
  | Octet.openList =>
      advance
      let values ← elementsWith read ((← get).length + 1) 0 true
      advance
      pure values
  | _ => mismatch .list

end PersonRegistry.Json

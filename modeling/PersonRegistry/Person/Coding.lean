import PersonRegistry.Json.Printer
import PersonRegistry.Person.Patch

/-! Persons, drafts and patches as JSON texts. -/

namespace PersonRegistry

open Json (Layout Member Reader Value)

/-- A signed number of 32 bits in decimal digits. -/
def printInt32 (n : Int32) : List Char := Text.decimalInteger n.toInt

def Uuid.read : Reader Uuid :=
  Json.textAs .uuid fun s => (Uuid.ofText s).mapError fun flaw => "UUID parsing failed: " ++ flaw.message

def Uuid.print (id : Uuid) : List Char := Json.printText id.text

namespace Person

/-- How a person is read: only the name and the surname must be there. -/
def layout : Layout Person where
  title := "Person"
  blank := {}
  members :=
    [.of "id" .defaulted (Json.orNull Uuid.read) fun id p => { p with id },
      .of "name" .required Json.text fun name p => { p with name },
      .of "surname" .required Json.text fun surname p => { p with surname },
      .of "patronymic" .defaulted (Json.orNull Json.text) fun patronymic p => { p with patronymic },
      .of "age" .defaulted (Json.orNull Json.signed32) fun age p => { p with age },
      .of "gender" .defaulted (Json.orNull Json.text) fun gender p => { p with gender },
      .of "nationality" .defaulted (Json.orNull Json.text) fun nationality p =>
        { p with nationality }]

/-- The members of a person as text. A missing identifier and a missing patronymic are left out; other
missing fields are null.
-/
def printedMembers (p : Person) : List (String × List Char) :=
  (p.id.map fun id => ("id", id.print)).toList
    ++ [("name", Json.printText p.name), ("surname", Json.printText p.surname)]
    ++ (p.patronymic.map fun patronymic => ("patronymic", Json.printText patronymic)).toList
    ++ [("age", Json.printOption printInt32 p.age),
      ("gender", Json.printOption Json.printText p.gender),
      ("nationality", Json.printOption Json.printText p.nationality)]

def print (p : Person) : List Char := Json.printMembers p.printedMembers

def toText (p : Person) : String := String.ofList p.print

def encode (p : Person) : Text.Octets := Text.Utf8.encode p.print

def decode (octets : Text.Octets) : Except Json.DecodeError Person :=
  Json.decode (Json.record layout) octets

/-- The reason given when a text is no person. -/
def decodeMessage (e : Json.DecodeError) : String := "serialization error: " ++ e.message

def value (p : Person) : Value :=
  .ofMembers
    ((p.id.map fun id => ("id", Value.text id.text)).toList
      ++ [("name", .text p.name), ("surname", .text p.surname)]
      ++ (p.patronymic.map fun patronymic => ("patronymic", Value.text patronymic)).toList
      ++ [("age", .ofInteger? (p.age.map Int32.toInt)), ("gender", .ofText? p.gender),
        ("nationality", .ofText? p.nationality)])

end Person

namespace Draft

/-- How a draft is read: nothing must be there, so that a missing part is at fault and not the text. -/
def layout : Layout Draft where
  title := "NewPerson"
  blank := {}
  members :=
    [.of "name" .defaulted Json.text fun name d => { d with name },
      .of "surname" .defaulted Json.text fun surname d => { d with surname },
      .of "patronymic" .defaulted (Json.orNull Json.text) fun patronymic d => { d with patronymic }]

def decode (octets : Text.Octets) : Except Json.DecodeError Draft :=
  Json.decode (Json.record layout) octets

/-- A draft as JSON. A missing patronymic is left out. -/
def print (draft : Draft) : List Char :=
  Json.printMembers
    ([("name", Json.printText draft.name), ("surname", Json.printText draft.surname)]
      ++ (draft.patronymic.map fun patronymic => ("patronymic", Json.printText patronymic)).toList)

end Draft

namespace Patch

/-- How a patch is read: any member may be left out, and no other may be there. -/
def layout : Layout Patch where
  title := "PersonPatch"
  blank := {}
  members :=
    [.of "name" .optional (Json.orNull Json.text) fun name d => { d with name },
      .of "surname" .optional (Json.orNull Json.text) fun surname d => { d with surname },
      .of "patronymic" .optional (Json.orNull Json.text) fun patronymic d => { d with patronymic },
      .of "age" .optional (Json.orNull Json.signed32) fun age d => { d with age },
      .of "gender" .optional (Json.orNull Json.text) fun gender d => { d with gender },
      .of "nationality" .optional (Json.orNull Json.text) fun nationality d =>
        { d with nationality }]
  closed := true

def decode (octets : Text.Octets) : Except Json.DecodeError Patch :=
  Json.decode (Json.record layout) octets

/-- A patch as JSON, with null for what is not to change. -/
def print (patch : Patch) : List Char :=
  Json.printMembers
    [("name", Json.printOption Json.printText patch.name),
      ("surname", Json.printOption Json.printText patch.surname),
      ("patronymic", Json.printOption Json.printText patch.patronymic),
      ("age", Json.printOption printInt32 patch.age),
      ("gender", Json.printOption Json.printText patch.gender),
      ("nationality", Json.printOption Json.printText patch.nationality)]

end Patch
end PersonRegistry

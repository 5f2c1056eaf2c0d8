import CharMachine.Literal

/-!
# Catalogues

A catalogue lists the members of a closed set in their order of definition, each with a name and a
key that outside data uses for it. It leaves none out. Members are found by exact name or by key.
-/

namespace CharMachine

/-- What a member is keyed by: a number or a text. -/
inductive Key where
  | number (n : Int)
  | text (s : String)
  deriving DecidableEq, Repr

/-- A key as a message shows it: a number bare, a text as a literal. -/
def Key.show : Key → String
  | .number n => toString n
  | .text s => Literal.write s

/-- A closed set of named and keyed members. -/
structure Catalogue (α : Type) where
  title : String
  members : List α
  name : α → String
  key : α → Key
  complete : ∀ member, member ∈ members

/-- Why a catalogue holds no such member. -/
inductive CatalogueError where
  | unknownKey (key : Key) (title : String)
  | unknownName (name : String)
  deriving DecidableEq, Repr

def CatalogueError.message : CatalogueError → String
  | .unknownKey key title => key.show ++ " is not a valid " ++ title
  | .unknownName name => Literal.write name

namespace Catalogue

variable {α : Type}

def byKey (catalogue : Catalogue α) (key : Key) : Except CatalogueError α :=
  match catalogue.members.find? fun member => catalogue.key member == key with
  | some member => .ok member
  | none => .error (.unknownKey key catalogue.title)

def byName (catalogue : Catalogue α) (name : String) : Except CatalogueError α :=
  match catalogue.members.find? fun member => catalogue.name member == name with
  | some member => .ok member
  | none => .error (.unknownName name)

end Catalogue

end CharMachine

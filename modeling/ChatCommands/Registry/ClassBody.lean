import ChatCommands.Registry.Member
import ChatCommands.Text.Identifier

set_option autoImplicit false

/-!
# Class bodies

A class is made of attributes and of the classes that it derives from. Besides
the attributes that are written it has some of its own: its text, its module and,
where equality is redefined, that it has no hash. Its objects have a table for
members of their own, unless the class says for which names they have room
instead; a class derived from one with a table keeps it.
-/
namespace ChatCommands

/-- What a class provides under a name. -/
inductive Provision where
  | member (m : Member)
  /-- room for one member of the object's own -/
  | room
  /-- the table of the other members of the object's own -/
  | table
  /-- a reference to the object that does not keep it; there is none -/
  | reference

structure ClassBody where
  name : String
  /-- the name that its methods are shown with -/
  qualifiedName : String
  provisions : Assoc Provision
  /-- its objects have a table -/
  keepsTable : Bool
  /-- its objects can be referred to without being kept -/
  referable : Bool

namespace ClassBody
open Text

def roomsName : String := "__slots__"
def tableName : String := "__dict__"
def referenceName : String := "__weakref__"
def qualifiedNameName : String := "__qualname__"
def cellName : String := "__classcell__"
def moduleName : String := "__module__"
def textName : String := "__doc__"
def equalityName : String := "__eq__"
def hashName : String := "__hash__"

/-- The attributes that are no longer there once the class is made. -/
def consumed : List String := [qualifiedNameName, cellName]

/-- A name for which there may be room. -/
def roomName? : Value → Except Fault String
  | .text s => if isIdentifier s then .ok s else .error (.ofType "__slots__ must be identifiers")
  | v => .error (.ofType ("__slots__ items must be strings, not '" ++ v.typeName ++ "'"))

/-- The names that a class makes room for: a single one, or several. -/
def roomNames? (m : Member) : Except Fault (List String) :=
  match m.value with
  | .value (.text s) => do return [← roomName? (.text s)]
  | .value v => do (← v.elements?).mapM roomName?
  | _ => .error (.notIterable m.typeName)

/-- The parts of the layout that are asked for among the names with room, each at most once. -/
structure Layout where
  table : Bool
  reference : Bool
  rooms : List String := []

def Layout.add (l : Layout) (name : String) : Except Fault Layout :=
  if name = tableName then
    if l.table then .error (.ofType "__dict__ slot disallowed: we already got one")
    else .ok { l with table := true }
  else if name = referenceName then
    if l.reference then
      .error (.ofType ("__weakref__ slot disallowed: either we already got one, " ++
        "or __itemsize__ != 0"))
    else .ok { l with reference := true }
  else .ok { l with rooms := l.rooms ++ [name] }

/-- Two underscores in front hide a name, unless two more stand behind. -/
def isHidden (name : String) : Bool := name.startsWith "__" && !name.endsWith "__"

/-- A hidden name with the name of its class in front. -/
def mangled (className name : String) : String :=
  let bare := String.ofList (className.toList.dropWhile (· == '_'))
  if isHidden name && bare != "" then "_" ++ bare ++ name else name

def checkRooms (attributes : Assoc Member) : List String → Except Fault Unit
  | [] => .ok ()
  | name :: names =>
    if attributes.keys.contains name && !consumed.contains name then
      .error (.ofContent (quoted name ++ " in __slots__ conflicts with class variable"))
    else checkRooms attributes names

/-- The layout of the objects of a class, after that of the class it derives from. -/
def layout (inherited : Layout) (className : String) (attributes : Assoc Member) :
    Except Fault Layout :=
  match attributes.find? roomsName with
  | none => .ok { inherited with table := true, reference := true }
  | some m => do
    let l ← (← roomNames? m).foldlM Layout.add inherited
    let rooms := l.rooms.map (mangled className)
    checkRooms attributes rooms
    return { l with rooms := rooms.mergeSort }

/-- Refuses a name that no class can have. -/
def checkName (name : String) : Except Fault Unit :=
  if name.toList.contains '\x00' then
    .error (.ofContent "type name must not contain null characters")
  else .ok ()

/-- The name that methods are shown with: the one given, or that of the class. -/
def qualified (name : String) (attributes : Assoc Member) : Except Fault String :=
  match attributes.find? qualifiedNameName with
  | none => .ok name
  | some { value := .value (.text s), .. } => .ok s
  | some m => .error (.ofType ("type __qualname__ must be a str, not " ++ m.typeName))

/-- Refuses an attribute that only a compiler may give. -/
def checkCell (attributes : Assoc Member) : Except Fault Unit :=
  match attributes.find? cellName with
  | none => .ok ()
  | some m =>
    .error (.ofType ("__classcell__ must be a nonlocal cell, not <class '" ++ m.typeName ++ "'>"))

/-- The first provision of a name, from the most derived class on. -/
def provision? (classes : List ClassBody) (name : String) : Option Provision :=
  classes.findSome? fun c => c.provisions.find? name

/-- Refuses what the classes provide under a name that is called for, if it cannot be called. -/
def checkSpecial (classes : List ClassBody) (name : String) : Except Fault Unit :=
  match provision? classes name with
  | some (.member m) => m.checkCallable
  | _ => .ok ()

/-- A provision that does not hide one that is there. -/
def provide (provisions : Assoc Provision) (name : String) (p : Provision) : Assoc Provision :=
  if (provisions.find? name).isSome then provisions else provisions ++ [(name, p)]

/-- All that a class provides: first what is written. -/
def provisionsOf (base own : Layout) (attributes : Assoc Member) : Assoc Provision :=
  let written := (attributes.filter fun e => !consumed.contains e.1).map fun e =>
    (e.1, Provision.member e.2)
  let ps := provide written moduleName (.member (.ofValue (.text "__main__")))
  let ps := own.rooms.foldl (fun ps name => provide ps name .room) ps
  let ps := if own.table && !base.table then provide ps tableName .table else ps
  let ps := if own.reference && !base.reference then provide ps referenceName .reference else ps
  let ps := provide ps textName (.member (.ofValue .none))
  if (attributes.find? equalityName).isNone then ps
  else provide ps hashName (.member (.ofValue .none))

/-- Makes a class that derives from others, of which the most derived one comes first. -/
def make (bases : List ClassBody) (name : String) (attributes : Assoc Member) :
    Except Fault ClassBody := do
  let base : Layout :=
    { table := bases.any (·.keepsTable), reference := bases.any (·.referable) }
  let own ← layout base name attributes
  checkName name
  let qualifiedName ← qualified name attributes
  checkCell attributes
  checkSpecial bases "__init_subclass__"
  return { name, qualifiedName, provisions := provisionsOf base own attributes,
           keepsTable := own.table, referable := own.reference }

end ClassBody
end ChatCommands

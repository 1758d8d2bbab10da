import ChatCommands.Registry.ClassBody
import ChatCommands.Registry.Inherited

set_option autoImplicit false

/-!
# Declaring objects

An object has members of its own and those of its classes. What a name means is
decided by the most derived class that provides it: if that makes room for it,
the object's own member there; otherwise the object's own member in its table,
then that of the class, then an inherited one. Some names change this when a
class provides them: they are called for, and that fails if they cannot be.
-/
namespace ChatCommands
open Text

structure DeclaringObject where
  /-- the members in its table -/
  own : Assoc Member
  /-- the members for which its classes make room -/
  placed : Assoc Member := []
  /-- from the most derived class on -/
  classes : List ClassBody

namespace DeclaringObject

def typeName (o : DeclaringObject) : String := (o.classes.head?.map (·.name)).getD "object"

def qualifiedName (o : DeclaringObject) : String :=
  (o.classes.head?.map (·.qualifiedName)).getD "object"

def keepsTable (o : DeclaringObject) : Bool := (o.classes.head?.map (·.keepsTable)).getD false

def provision? (o : DeclaringObject) (name : String) : Option Provision :=
  ClassBody.provision? o.classes name

def provider (o : DeclaringObject) (name : String) : String :=
  ((o.classes.find? fun c => (c.provisions.find? name).isSome).map (·.name)).getD o.typeName

def inherited? (o : DeclaringObject) (name : String) : Option Member :=
  Inherited.member? o.typeName o.qualifiedName name

def table (o : DeclaringObject) : Value :=
  .dict (o.own.map fun e => (e.1, match e.2.value with
    | .value v => v
    | _ => .none))

def member? (o : DeclaringObject) (name : String) : Option Member :=
  match o.provision? name with
  | some .room => o.placed.find? name
  | some .table => some (.ofValue o.table)
  | some .reference => some (.ofValue .none)
  | some (.member m) => (o.own.find? name).or (some m)
  | none => (o.own.find? name).or (o.inherited? name)

/-- Looks a name up, if looking up has not been given another meaning that cannot be called. -/
def lookUp (o : DeclaringObject) (name : String) : Except Fault (Option Member) := do
  ClassBody.checkSpecial o.classes "__getattribute__"
  match o.member? name with
  | some m => return some m
  | none =>
    ClassBody.checkSpecial o.classes "__getattr__"
    return none

/-- A fault that names the type of the object, of which so many bytes are shown. -/
def attributeFault (o : DeclaringObject) (limit : Nat) (what : String) : Fault :=
  .ofAttribute ("'" ++ clipped limit o.typeName ++ "' object " ++ what)

def missing (o : DeclaringObject) (name : String) : Fault :=
  match o.provision? name with
  | some .room => o.attributeFault 200 ("has no attribute '" ++ name ++ "'")
  | _ => .noAttribute o.typeName name

/-- The fault that a member cannot be given to an object without a table. -/
def refusal (o : DeclaringObject) (name : String) : Fault :=
  if (o.provision? name).isSome || (o.inherited? name).isSome then
    o.attributeFault 50 ("attribute '" ++ name ++ "' is read-only")
  else o.attributeFault 100 ("has no attribute '" ++ name ++ "'")

/-- Gives the object a member of its own: in its room, or in the table. -/
def place (o : DeclaringObject) (name : String) (m : Member) : Except Fault DeclaringObject :=
  match o.provision? name with
  | some .room => .ok { o with placed := o.placed.put name m }
  | some .table =>
    match m.value with
    | .value (.dict entries) => .ok { o with own := entries.map fun e => (e.1, .ofValue e.2) }
    | _ => .error (.ofType ("__dict__ must be set to a dictionary, not a '" ++ m.typeName ++ "'"))
  | some .reference =>
    .error (.ofAttribute ("attribute '__weakref__' of '" ++ clipped 100 (o.provider name) ++
      "' objects is not writable"))
  | provision =>
    if provision.isNone && name == "__class__" then
      .error (.ofType ("__class__ must be set to a class, not '" ++ m.typeName ++ "' object"))
    else if o.keepsTable then .ok { o with own := o.own.put name m }
    else .error (o.refusal name)

/-- Gives the object members of its own one after the other. -/
def placeAll (o : DeclaringObject) : List (String × Member) → Except Fault DeclaringObject
  | [] => .ok o
  | (name, m) :: rest => do
    ClassBody.checkSpecial o.classes "__setattr__"
    (← o.place name m).placeAll rest

/-- Makes classes one after the other, each deriving from those before; the most derived one comes
first in the result. -/
def makeClasses (made : List ClassBody) :
    List (String × Assoc Member) → Except Fault (List ClassBody)
  | [] => .ok made
  | (name, attributes) :: rest => do
    let next ← ClassBody.make made name attributes
    makeClasses (next :: made) rest

/-- An object of the last of some classes, each with its attributes one after the other, and with
members of its own. Classes may be made without a table. -/
def make (withoutTable : Bool) (classes : List (String × List (String × Member)))
    (own : List (String × Member)) : Except Fault DeclaringObject := do
  let noRooms := if withoutTable then [(ClassBody.roomsName, Member.ofValue (.list []))] else []
  let classes ← makeClasses [] (classes.map fun c => (c.1, Assoc.putAll noRooms c.2))
  ClassBody.checkSpecial classes "__new__"
  ClassBody.checkSpecial classes "__init__"
  placeAll { own := [], classes } own

/-- A name that can be looked up. -/
def nameOf : Value → Except Fault String
  | .text s => .ok s
  | v => do
    discard v.key?
    .error (.ofType ("attribute name must be string, not '" ++ v.typeName ++ "'"))

/-- Names one after the other, up to a fault if something else is among them. -/
structure NameSequence where
  names : List String
  stop : Option Fault := none

def NameSequence.ofValues : List Value → NameSequence
  | [] => { names := [] }
  | v :: vs =>
    match nameOf v with
    | .ok name => { ofValues vs with names := name :: (ofValues vs).names }
    | .error f => { names := [], stop := some f }

/-- The names that the table is said to have. -/
def ownNames (o : DeclaringObject) : Except Fault NameSequence := do
  match ← o.lookUp ClassBody.tableName with
  | none => return { names := [] }
  | some m =>
    match m.value with
    | .value v => return .ofValues (← v.elements?)
    | _ =>
      let type := if (o.own.find? ClassBody.tableName).isSome then m.typeName else "method"
      .error (.notIterable type)

/-- The names that classes and every object have: those of each class from the most derived one on,
then the inherited ones. -/
def classNames (o : DeclaringObject) : List String :=
  o.classes.flatMap (·.provisions.keys) ++ Inherited.names

/-- All names, each where it comes first: those of the object itself before the others. -/
def memberNames (o : DeclaringObject) : Except Fault NameSequence := do
  let own ← o.ownNames
  let names := if own.stop.isNone then own.names ++ o.classNames else own.names
  return { own with names := names.eraseDups }

end DeclaringObject
end ChatCommands

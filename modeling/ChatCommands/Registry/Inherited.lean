import ChatCommands.Registry.Member

set_option autoImplicit false

/-!
# Inherited members

Every object has some members that no class body provides. One is a text; the
others can be called. They do not take what a guard is called with: those that
compare objects have no answer to it, and all others refuse it.
-/
namespace ChatCommands.Inherited
open Text

def names : List String :=
  ["__new__", "__repr__", "__hash__", "__str__", "__getattribute__", "__setattr__", "__delattr__",
   "__lt__", "__le__", "__eq__", "__ne__", "__gt__", "__ge__", "__init__", "__reduce_ex__",
   "__reduce__", "__getstate__", "__subclasshook__", "__init_subclass__", "__format__",
   "__sizeof__", "__dir__", "__class__", "__doc__"]

/-- What a guard is called with. -/
def argumentType : String := "GuardPayload"

def comparisons : List String :=
  ["__eq__", "__ge__", "__gt__", "__le__", "__lt__", "__ne__", "__subclasshook__"]

def withoutArguments : List String :=
  ["__dir__", "__getstate__", "__init_subclass__", "__reduce__", "__sizeof__"]

/-- What members say of the argument that they do not take, for a type and the name that its methods
are shown with. -/
def refusals (type qualified : String) : List (String × String) :=
  (withoutArguments.map fun name =>
    (name, qualified ++ "." ++ name ++ "() takes no arguments (1 given)")) ++
  ["__delattr__", "__getattribute__"].map
    (fun name => (name, "attribute name must be string, not '" ++ argumentType ++ "'")) ++
  ["__hash__", "__repr__", "__str__"].map (fun name => (name, "expected 0 arguments, got 1")) ++
  [("__class__", clipped 200 type ++ "() takes no arguments"),
   ("__format__", "__format__() argument must be str, not " ++ argumentType),
   ("__init__", clipped 200 type ++
     ".__init__() takes exactly one argument (the instance to initialize)"),
   ("__new__", "object.__new__(X): X is not a type object (" ++ argumentType ++ ")"),
   ("__reduce_ex__", "'" ++ argumentType ++ "' object cannot be interpreted as an integer"),
   ("__setattr__", " expected 2 arguments, got 1")]

/-- The text of objects of no class. -/
def text : String :=
  "The base class of the class hierarchy.\n\nWhen called, it accepts no arguments and returns a " ++
    "new featureless\ninstance that has no instance attributes and cannot be given any.\n"

def member? (type qualified name : String) : Option Member :=
  if name = "__doc__" then some (.ofValue (.text text))
  else if comparisons.contains name then some { value := .fixed (.ok .none) }
  else ((refusals type qualified).lookup name).map fun message =>
    { value := .fixed (.error (.ofType message)) }

end ChatCommands.Inherited

/-!
# Values

What expressions evaluate to. An object is a value by its identity: two objects are the same value
only if they are the same object, whatever their properties.
-/

namespace ScriptLang

/-- The identity of an object: its place in the order of creation. -/
structure ObjectId where
  index : Nat
deriving DecidableEq, Repr

/-- A value. -/
inductive Value where
  | null
  | boolean (value : Bool)
  | number (value : Int64)
  | string (value : String)
  | object (id : ObjectId)
deriving DecidableEq, Repr

end ScriptLang

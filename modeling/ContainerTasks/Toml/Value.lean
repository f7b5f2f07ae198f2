/-!
# TOML values

## Main definitions

* `Toml.Value`
* `Toml.Value.isReadable`: whether the numbers of a value are in range
-/

namespace ContainerTasks.Toml

/-- A value of a TOML document. A number may be out of range, which does no harm as long as nobody
reads it: a whole number is then missing, and of a floating-point number, of which nothing else is
kept, it is known. A moment is a date, a time or both, in its normal form. -/
inductive Value where
  | string (s : String)
  | integer (n : Option Int)
  | float (inRange : Bool)
  | boolean (b : Bool)
  | moment (text : String)
  | array (items : List Value)
  | table (fields : List (String × Value))
  deriving Inhabited

mutual
/-- Whether every number of a value is in range. -/
def Value.isReadable : Value → Bool
  | .integer n => n.isSome
  | .float inRange => inRange
  | .array items => areReadable items
  | .table fields => fieldsAreReadable fields
  | .string _ | .boolean _ | .moment _ => true

/-- Whether every number of some values is in range. -/
def areReadable : List Value → Bool
  | [] => true
  | value :: rest => value.isReadable && areReadable rest

/-- Whether every number of the values of some fields is in range. -/
def fieldsAreReadable : List (String × Value) → Bool
  | [] => true
  | (_, value) :: rest => value.isReadable && fieldsAreReadable rest
end

end ContainerTasks.Toml

import DocumentStore.Calendar.Reader
import DocumentStore.Error

/-! Terms read as values of a type, and JSON literals read as terms.

A term is read as exactly the shape it has; only a scalar integer is read as a double too. A JSON
literal determines the type of its term, an array by its first element. -/
namespace DocumentStore
open Json (Value Number)
open Calendar (Instant)

namespace Term

/-- The failure of reading a term as a shape. -/
def mismatch (t : Term) (type : DataType) (array : Bool) : Error :=
  .typeMismatch t.shape (shapeName type array)

def asString : Term → Result String
  | string s => .ok s
  | t => .error (t.mismatch .string false)

def asInteger : Term → Result Int
  | integer n => .ok n
  | t => .error (t.mismatch .integer false)

/-- A scalar integer is widened. -/
def asDouble : Term → Result Float
  | double x => .ok x
  | integer n => .ok (Float.ofInt n)
  | t => .error (t.mismatch .double false)

def asBoolean : Term → Result Bool
  | boolean b => .ok b
  | t => .error (t.mismatch .boolean false)

def asDate : Term → Result Instant
  | date t => .ok t
  | t => .error (t.mismatch .date false)

def asStrings : Term → Result (List String)
  | strings ss => .ok ss
  | t => .error (t.mismatch .string true)

def asIntegers : Term → Result (List Int)
  | integers ns => .ok ns
  | t => .error (t.mismatch .integer true)

def asDoubles : Term → Result (List Float)
  | doubles xs => .ok xs
  | t => .error (t.mismatch .double true)

def asBooleans : Term → Result (List Bool)
  | booleans bs => .ok bs
  | t => .error (t.mismatch .boolean true)

def asDates : Term → Result (List Instant)
  | dates ts => .ok ts
  | t => .error (t.mismatch .date true)

/-! ### Literals -/

/-- A JSON number as a term: an integer where it fits in 64 signed bits, a double otherwise. -/
def ofNumber (n : Number) : Term :=
  match n.signed? with
  | some i => integer i
  | none => double n.toFloat

/-- A JSON string as a term: a date where it is one. -/
def ofText (s : String) : Term :=
  match Instant.read? s with
  | some t => date t
  | none => string s

/-- A JSON scalar as a term. -/
def ofScalar : Value → Result Term
  | .null => .ok null
  | .bool b => .ok (boolean b)
  | .num n => .ok (ofNumber n)
  | .str s => .ok (ofText s)
  | v => .error (.validation (.nestedLiteral v))

/-- An array element read by the type of the array. -/
def ofElement (type : DataType) (pick : Value → Term → Option α) (v : Value) : Result α := do
  let t ← ofScalar v
  match pick v t with
  | some a => .ok a
  | none => .error (.validation (.mixedArray type t.dataType))

/-- Among strings, text that looks like a date stays text. -/
def pickString (v : Value) : Term → Option String
  | string s => some s
  | date _ => v.text?
  | _ => none

def pickInteger (_ : Value) : Term → Option Int
  | integer n => some n
  | _ => none

/-- Among doubles, integers are widened. -/
def pickDouble (_ : Value) : Term → Option Float
  | double x => some x
  | integer n => some (Float.ofInt n)
  | _ => none

def pickBoolean (_ : Value) : Term → Option Bool
  | boolean b => some b
  | _ => none

def pickDate (_ : Value) : Term → Option Instant
  | date t => some t
  | _ => none

/-- A JSON array as a term: its first element gives the type; an empty array and one that starts
with null are null. -/
def ofArray : List Value → Result Term
  | [] => .ok null
  | first :: rest => do
    let vs := first :: rest
    match (← ofScalar first).dataType with
    | .string => strings <$> vs.mapM (ofElement .string pickString)
    | .integer => integers <$> vs.mapM (ofElement .integer pickInteger)
    | .double => doubles <$> vs.mapM (ofElement .double pickDouble)
    | .boolean => booleans <$> vs.mapM (ofElement .boolean pickBoolean)
    | .date => dates <$> vs.mapM (ofElement .date pickDate)
    | .unknown => .ok null

/-- A JSON literal as a term. -/
def ofValue : Value → Result Term
  | .arr vs => ofArray vs
  | .obj _ => .error (.validation .objectLiteral)
  | v => ofScalar v

end Term
end DocumentStore

import DocumentStore.Calendar.Printer
import DocumentStore.Decimal.Printer

/-! Terms: the typed literals that stand on the right of a predicate.

A term is a scalar of one of five types, a list of scalars of one type, or the null term. -/
namespace DocumentStore
open Calendar (Instant)

/-- The type of a term's scalars; the null term has none. -/
inductive DataType where
  | date
  | double
  | integer
  | boolean
  | string
  | unknown
deriving Repr, DecidableEq

def DataType.name : DataType → String
  | date => "Date"
  | double => "Double"
  | integer => "Integer"
  | boolean => "Boolean"
  | string => "String"
  | unknown => "Unknown"

/-- A scalar, a list of scalars of one type, or null. -/
inductive Term where
  | null
  | string (s : String)
  | integer (n : Int)
  | double (x : Float)
  | boolean (b : Bool)
  | date (t : Instant)
  | strings (ss : List String)
  | integers (ns : List Int)
  | doubles (xs : List Float)
  | booleans (bs : List Bool)
  | dates (ts : List Instant)
deriving DecidableEq

namespace Term

def dataType : Term → DataType
  | null => .unknown
  | string _ | strings _ => .string
  | integer _ | integers _ => .integer
  | double _ | doubles _ => .double
  | boolean _ | booleans _ => .boolean
  | date _ | dates _ => .date

def isArray : Term → Bool
  | strings _ | integers _ | doubles _ | booleans _ | dates _ => true
  | _ => false

def isNull : Term → Bool
  | null => true
  | _ => false

/-- The name of a type, marked where it is that of a list. -/
def shapeName (type : DataType) (array : Bool) : String :=
  if array then type.name ++ "[]" else type.name

def shape (t : Term) : String := shapeName t.dataType t.isArray

/-- The scalars of a list; a scalar stands for itself. -/
def elements : Term → List Term
  | strings ss => ss.map string
  | integers ns => ns.map integer
  | doubles xs => xs.map double
  | booleans bs => bs.map boolean
  | dates ts => ts.map date
  | scalar => [scalar]

def boolText (b : Bool) : String := if b then "true" else "false"

/-- Texts between brackets, with commas between them. -/
def bracketed (parts : List String) : String := "[" ++ ", ".intercalate parts ++ "]"

/-- A term as messages show it. -/
def text : Term → String
  | null => "null"
  | string s => s
  | integer n => toString n
  | double x => Decimal.plain x
  | boolean b => boolText b
  | date t => t.text
  | strings ss => bracketed (ss.map fun s => "\"" ++ s ++ "\"")
  | integers ns => bracketed (ns.map fun n => toString n)
  | doubles xs => bracketed (xs.map Decimal.plain)
  | booleans bs => bracketed (bs.map boolText)
  | dates ts => bracketed (ts.map Instant.text)

end Term
end DocumentStore

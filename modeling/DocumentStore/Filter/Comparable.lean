import DocumentStore.Calendar.Reader
import DocumentStore.Json.Value
import DocumentStore.Term.Basic

/-! What values and terms are when they are compared.

Integers and doubles are numbers alike, compared as doubles. Text meets a date as the instant it
denotes in RFC 3339. Values of different kinds are neither equal nor ordered, and arrays and objects
are equal to nothing a term can be. -/
namespace DocumentStore
open Json (Value)
open Calendar (Instant)

/-- A value or a term as a side of a comparison. -/
inductive Comparable where
  | null
  | bool (b : Bool)
  | number (x : Float)
  | instant (t : Instant)
  | text (s : String)
  /-- An array or an object. -/
  | compound
deriving DecidableEq

namespace Comparable

def ofValue : Value → Comparable
  | .null => null
  | .bool b => bool b
  | .num n => number n.toFloat
  | .str s => text s
  | .arr _ | .obj _ => compound

/-- A list of scalars compares as null does. -/
def ofTerm : Term → Comparable
  | .string s => text s
  | .integer n => number (Float.ofInt n)
  | .double x => number x
  | .boolean b => bool b
  | .date t => instant t
  | _ => null

/-- The sides are equal. -/
def same : Comparable → Comparable → Bool
  | null, null => true
  | bool a, bool b => a == b
  | number a, number b => a == b
  | instant a, instant b => a == b
  | text a, text b => a == b
  | text a, instant b => Instant.zoned? a == some b
  | instant a, text b => Instant.zoned? b == some a
  | _, _ => false

/-- The order of two doubles; a value that is no number has none. -/
def floatOrder? (a b : Float) : Option Ordering :=
  if a < b then some .lt else if b < a then some .gt else if a == b then some .eq else none

/-- The order of the sides, where they have one. -/
def order? : Comparable → Comparable → Option Ordering
  | bool a, bool b => some (compare a b)
  | number a, number b => floatOrder? a b
  | instant a, instant b => some (a.order b)
  | text a, text b => some (compare a b)
  | text a, instant b => (Instant.zoned? a).map (·.order b)
  | instant a, text b => (Instant.zoned? b).map a.order
  | _, _ => none

end Comparable
end DocumentStore

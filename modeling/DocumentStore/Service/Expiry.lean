import DocumentStore.Item
import DocumentStore.Term.Reading

/-! When an item expires.

The attribute that the expiry is derived from holds a date, or a count of ticks: tenths of a
microsecond since the start of the year 1. -/
namespace DocumentStore
open Json (Value)

namespace Ticks

def perSecond : Int := 10000000

/-- The tick of 1970-01-01T00:00:00Z. -/
def ofEpoch : Int := 621355968000000000

/-- The last tick of the year 9999. -/
def last : Int := 3155378975999999999

/-- Seconds since 1970, rounded down, of a tick in the years 1 to 9999, where a word holds the ticks since
1970. -/
def seconds? (ticks : Int) : Option Int :=
  if 0 ≤ ticks ∧ ticks ≤ last then (Word.signed? (ticks - ofEpoch)).map (· / perSecond) else none

end Ticks

/-- Seconds since 1970 of what an attribute holds, where it holds anything. -/
def expirySeconds? (name : String) : Option Value → Result (Option Int)
  | none | some .null => .ok none
  | some (.num n) =>
    match n.signed?.bind Ticks.seconds? with
    | some s => .ok (some s)
    | none => .error (.validation (.badExpiry name (.num n)))
  | some (.str text) =>
    match Term.ofText text with
    | .date t => .ok (some t.seconds)
    | _ => .error (.validation (.badExpiry name (.str text)))
  | some v => .error (.validation (.badExpiry name v))

/-- The item with the expiry derived from the given attribute. -/
def Item.withExpiry (source : Option String) (item : Item) : Result Item :=
  match source with
  | none => .ok item
  | some name => do
    match ← expirySeconds? name (item.get? name) with
    | some seconds => return item.insert Reserved.ttl (.int seconds)
    | none => return item

end DocumentStore

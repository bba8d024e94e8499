import DocumentStore.Text.Blank

/-! Reading from the front of a text: a scanner takes what it reads off the characters it is
given and leaves the rest, or fails. -/
namespace DocumentStore.Text

/-- A reader that consumes characters from the front of a text. -/
abbrev Scan := StateT (List Char) Option

namespace Scan

/-- The value of a run of decimal digits. -/
def digitsValue (ds : List Char) : Nat := ds.foldl (fun n d => 10 * n + (d.toNat - 48)) 0

/-- One given character. -/
def char (c : Char) : Scan Unit := fun
  | [] => none
  | d :: rest => if d = c then some ((), rest) else none

/-- One character that passes a test. -/
def satisfy (p : Char → Bool) : Scan Char := fun
  | [] => none
  | d :: rest => if p d then some (d, rest) else none

/-- Whether a given character comes next, consuming it if so. -/
def optional (c : Char) : Scan Bool := fun
  | [] => some (false, [])
  | d :: rest => if d = c then some (true, rest) else some (false, d :: rest)

/-- The longest run of decimal digits, of at most `most` where a bound is given; fewer than
`least` fail. -/
def digits (least : Nat) (most : Option Nat) : Scan (List Char) := fun cs =>
  let run := cs.takeWhile Char.isDigit
  let taken := match most with
    | some n => run.take n
    | none => run
  if least ≤ taken.length then some (taken, cs.drop taken.length) else none

/-- The value of a run of decimal digits. -/
def number (least : Nat) (most : Option Nat) : Scan Nat := digitsValue <$> digits least most

/-- Skips white space. -/
def blanks : Scan Unit := fun cs => some ((), dropBlank cs)

/-- What the scanner reads when it reads the whole text. -/
def all? (p : Scan α) (s : String) : Option α :=
  match p s.toList with
  | some (a, []) => some a
  | _ => none

end Scan
end DocumentStore.Text

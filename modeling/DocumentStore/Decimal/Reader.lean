import DocumentStore.Text.Scan

/-! Decimal text read as the nearest double.

The text is an optional sign and either digits with at most one point among them and an optional
exponent, or one of the names of infinity and of the value that is no number. -/
namespace DocumentStore.Decimal
open Text (Scan)

/-- Whether a text is one of the given names, letter case aside. -/
def isName (names : List String) (s : List Char) : Bool :=
  names.any fun name => name.toList == s.map Char.toLower

/-- An optional sign: whether it is a minus. -/
def sign : Scan Bool := do
  if ← Scan.optional '-' then return true
  let _ ← Scan.optional '+'
  return false

/-- An optional power of ten. -/
def power : Scan Int := do
  let marked ← Scan.optional 'e'
  let marked ← if marked then pure true else Scan.optional 'E'
  if marked then
    let negative ← sign
    let n ← Scan.number 1 none
    return if negative then -n else n
  return 0

/-- Digits with at most one point among them, and a power of ten: the nearest double. -/
def magnitude : Scan Float := do
  let whole ← Scan.digits 0 none
  let fraction ← if ← Scan.optional '.' then Scan.digits 0 none else pure []
  if whole.isEmpty && fraction.isEmpty then failure
  let e ← power
  -- Past these bounds the value is zero or infinite whatever the digits of a readable text.
  let e := max (-100000) (min 100000 (e - fraction.length))
  return Float.ofScientific (Scan.digitsValue (whole ++ fraction)) (e < 0) e.natAbs

/-- The double nearest to a decimal text. -/
def read? (s : String) : Option Float := do
  let (negative, rest) ← sign s.toList
  let size ←
    if isName ["inf", "infinity"] rest then some (1.0 / 0.0)
    else if isName ["nan"] rest then some (0.0 / 0.0)
    else Scan.all? magnitude (String.ofList rest)
  return if negative then -size else size

end DocumentStore.Decimal

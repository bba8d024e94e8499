import DocumentStore.Decimal.Shortest

/-! Doubles as text.

Two layouts of the shortest digits are in use: `plain` never writes an exponent and writes integral
values without a point; `scientific` is the layout of JSON text, positional near one and with an
exponent elsewhere. -/
namespace DocumentStore.Decimal

/-- Digits with the point set, zeros filled in on either side. -/
def positional (d : Decimal) : List Char :=
  let ds := d.digits
  if 0 ≤ d.exponent then ds ++ List.replicate d.exponent.toNat '0'
  else
    let places := (-d.exponent).toNat
    if places < ds.length then
      ds.take (ds.length - places) ++ '.' :: ds.drop (ds.length - places)
    else '0' :: '.' :: List.replicate (places - ds.length) '0' ++ ds

/-- One digit, the others after a point, and the exponent with its sign. -/
def exponential (d : Decimal) : List Char :=
  let mantissa := match d.digits with
    | [] => []
    | [c] => [c]
    | c :: rest => c :: '.' :: rest
  let e := d.firstExponent
  mantissa ++ 'e' :: (if e < 0 then '-' else '+') :: Nat.toDigits 10 e.natAbs

/-- The sign of a double before the text of its magnitude. -/
def signed (x : Float) (cs : List Char) : String :=
  String.ofList (if isNegative x then '-' :: cs else cs)

/-- A double without an exponent: `1`, `-0`, `0.00001`, `NaN`, `inf`. -/
def plain (x : Float) : String :=
  if x.isNaN then "NaN"
  else if x.isInf then signed x "inf".toList
  else signed x (shortest .up x).positional

/-- A finite double as JSON text: positional with a digit after the point from `1e-5` up to below
`1e16`, with an exponent outside. -/
def scientific (x : Float) : String :=
  let d := shortest .toEven x
  let e := d.firstExponent
  if -5 ≤ e ∧ e < 16 then
    signed x (if 0 ≤ d.exponent then d.positional ++ ['.', '0'] else d.positional)
  else signed x d.exponential

end DocumentStore.Decimal

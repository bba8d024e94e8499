/-! The fewest decimal digits that read back to a double.

A finite double has the magnitude `m × 2 ^ q`; the reals that round to it form an interval whose
ends are the midpoints to its neighbours, the ends included when `m` is even. On the grid of
decimals with `n` digits the value lies between two neighbours; the first `n` for which one of them
falls into the interval gives the digits. Everything is exact arithmetic on naturals. -/
namespace DocumentStore

/-- The decimal `coefficient × 10 ^ exponent`. -/
structure Decimal where
  coefficient : Nat
  exponent : Int
deriving Repr, DecidableEq

namespace Decimal

/-- Which of two equally close candidates of the same length is taken. -/
inductive Tie where
  | toEven
  | up
deriving Repr, DecidableEq

/-- The magnitude `significand × 2 ^ exponent` of a double. `narrow` says that the next smaller
double is half as far away as the next larger one. -/
structure Magnitude where
  significand : Nat
  exponent : Int
  narrow : Bool
deriving Repr, DecidableEq

/-- The magnitude of a finite double, from its bits. -/
def Magnitude.ofFloat (x : Float) : Magnitude :=
  let bits : Nat := x.toBits.toNat
  let fraction : Nat := bits % Nat.pow 2 52
  let scale : Nat := bits / Nat.pow 2 52 % Nat.pow 2 11
  if scale = 0 then ⟨fraction, -1074, false⟩
  else ⟨fraction + Nat.pow 2 52, (scale : Int) - 1075, fraction = 0 && 1 < scale⟩

/-- Whether the sign bit of a double is set. -/
def isNegative (x : Float) : Bool := x.toBits.toNat / Nat.pow 2 63 = 1

/-- A positive value `value / scale` and the ends of an interval around it over the same scale. -/
structure Interval where
  value : Nat
  low : Nat
  high : Nat
  scale : Nat
  /-- Whether the ends belong to the interval. -/
  closed : Bool

/-- The reals that round to a magnitude. -/
def Magnitude.interval (x : Magnitude) : Interval :=
  let unit := Nat.pow 2 x.exponent.toNat
  let value := 4 * x.significand * unit
  { value
    low := value - (if x.narrow then 1 else 2) * unit
    high := value + 2 * unit
    scale := 4 * Nat.pow 2 (-x.exponent).toNat
    closed := x.significand % 2 = 0 }

/-- The least `k ≤ bound` with `scale ≤ value × 10 ^ k`. -/
def shift (value scale : Nat) : (bound : Nat) → Nat
  | 0 => 0
  | bound + 1 => if scale ≤ value then 0 else shift (value * 10) scale bound + 1

/-- The exponent of the first digit of `value / scale`: the value lies between that power of ten
and the next. -/
def leadingExponent (value scale : Nat) : Int :=
  if scale ≤ value then (Nat.toDigits 10 (value / scale)).length - 1 else -shift value scale 400

/-- Whether `c` units of the grid lie in an interval given over that grid. -/
def Interval.contains (i : Interval) (c : Nat) : Bool :=
  if i.closed then i.low ≤ c * i.scale && c * i.scale ≤ i.high
  else i.low < c * i.scale && c * i.scale < i.high

/-- The interval measured in units of `10 ^ s`. -/
def Interval.onGrid (i : Interval) (s : Int) : Interval :=
  let up := Nat.pow 10 (-s).toNat
  { i with
    value := i.value * up
    low := i.low * up
    high := i.high * up
    scale := i.scale * Nat.pow 10 s.toNat }

/-- The neighbour of the value on the grid `10 ^ s` that lies in the interval, the closer of two. -/
def candidate? (tie : Tie) (i : Interval) (s : Int) : Option Decimal :=
  let g := i.onGrid s
  let below := g.value / g.scale
  let rest := g.value % g.scale
  let above := below + 1
  let closer :=
    if 2 * rest < g.scale then below
    else if g.scale < 2 * rest then above
    else match tie with
      | .toEven => if below % 2 = 0 then below else above
      | .up => above
  match g.contains below, g.contains above with
  | true, true => some ⟨closer, s⟩
  | true, false => some ⟨below, s⟩
  | false, true => some ⟨above, s⟩
  | false, false => none

/-- The decimal with its trailing zeros moved into the exponent, at most `bound` of them. -/
def trim (bound : Nat) (d : Decimal) : Decimal :=
  match bound with
  | 0 => d
  | bound + 1 =>
    if d.coefficient ≠ 0 ∧ d.coefficient % 10 = 0 then trim bound ⟨d.coefficient / 10, d.exponent + 1⟩
    else d

/-- The fewest digits that read back to the magnitude of a finite double; 17 always suffice. -/
def shortest (tie : Tie) (x : Float) : Decimal :=
  let m := Magnitude.ofFloat x
  if m.significand = 0 then ⟨0, 0⟩
  else
    let i := m.interval
    let e := leadingExponent i.value i.scale
    let found := (List.range 17).findSome? fun (n : Nat) => candidate? tie i (e - n)
    (found.getD ⟨0, 0⟩).trim 20

/-- The digits of the coefficient. -/
def digits (d : Decimal) : List Char := Nat.toDigits 10 d.coefficient

/-- The exponent of the first digit. -/
def firstExponent (d : Decimal) : Int := d.exponent + d.digits.length - 1

end Decimal
end DocumentStore

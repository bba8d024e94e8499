import DocumentStore.Json.Value
import DocumentStore.Text.Scan

/-! Numbers in JSON text.

A numeral without fraction and exponent is an integer when it fits in 64 bits, signed or unsigned;
minus zero, wider integers and all other numerals are doubles. A double is read in two roundings:
the leading digits that fit in 64 unsigned bits become a double, which is then scaled by a power of
ten; digits behind them count by their place only. A numeral whose double would be infinite denotes
no number. -/
namespace DocumentStore.Json
open Text (Scan)

/-- A numeral as written. -/
structure Numeral where
  negative : Bool
  whole : List Char
  fraction : List Char
  /-- The exponent: whether it is negative, and its digits. -/
  exponent : Option (Bool × List Char)

namespace Numeral

/-- The digits before the point: a leading zero stands alone. -/
def scanWhole : Scan (List Char) := do
  let ds ← Scan.digits 1 none
  if ds.head? = some '0' ∧ 1 < ds.length then failure
  return ds

def scanFraction : Scan (List Char) := do
  if ← Scan.optional '.' then Scan.digits 1 none else return []

def scanExponent : Scan (Option (Bool × List Char)) := do
  let marked ← Scan.optional 'e'
  let marked ← if marked then pure true else Scan.optional 'E'
  if !marked then return none
  let negative ← Scan.optional '-'
  if !negative then
    let _ ← Scan.optional '+'
  return some (negative, ← Scan.digits 1 none)

/-- A numeral at the front of a text. -/
def scan : Scan Numeral := do
  let negative ← Scan.optional '-'
  let whole ← scanWhole
  let fraction ← scanFraction
  let exponent ← scanExponent
  return { negative, whole, fraction, exponent }

/-- Appends digits to a significand while it stays in 64 bits; the digits left over follow. -/
def absorb (significand : Nat) : List Char → Nat × List Char
  | [] => (significand, [])
  | d :: rest =>
    let next := 10 * significand + (d.toNat - 48)
    if next < Word.unsignedEnd then absorb next rest else (significand, d :: rest)

/-- A double times a power of ten, by one multiplication or division and, for powers below
`10 ^ -308`, divisions by `10 ^ 308` before it; none where the result is infinite. -/
def scale (x : Float) (e : Int) : Option Float :=
  if 0 ≤ e then
    if e ≤ 308 then
      let y := x * Float.ofScientific 1 false e.toNat
      if y.isInf then none else some y
    else if x == 0 then some x else none
  else if -308 ≤ e then some (x / Float.ofScientific 1 false (-e).toNat)
  else if x == 0 then some x
  else scale (x / Float.ofScientific 1 false 308) (e + 308)
termination_by (-e).toNat

/-- The double of a numeral, none where it would be infinite. -/
def double? (n : Numeral) : Option Float := do
  let (whole, dropped) := absorb 0 n.whole
  let (significand, left) := absorb whole n.fraction
  let places : Int := dropped.length - (n.fraction.length - left.length : Nat)
  let size ← match n.exponent with
    | none => scale (Float.ofNat significand) places
    | some (negative, ds) =>
      let e := Scan.digitsValue ds
      if e < 2147483648 then scale (Float.ofNat significand) (if negative then places - e else places + e)
      else if significand = 0 ∨ negative then some 0
      else none
  return if n.negative then -size else size

/-- The integer of a numeral without fraction and exponent, where it fits in 64 bits. -/
def integer? (n : Numeral) : Option Int :=
  if n.fraction.isEmpty && n.exponent.isNone then
    let size := Scan.digitsValue n.whole
    if n.negative then
      if 0 < size ∧ size ≤ Word.signedEnd then some (-size) else none
    else if size < Word.unsignedEnd then some size else none
  else none

/-- The number a numeral denotes. -/
def number? (n : Numeral) : Option Number :=
  match n.integer? with
  | some i => some (.int i)
  | none => n.double?.bind Number.ofFloat?

end Numeral
end DocumentStore.Json

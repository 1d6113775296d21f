import FederatedRounds.Json.Basic
import FederatedRounds.Number.Decimal
/-! Numbers in messages. A single is written with the fewest digits that read back, and NaN and the
infinities as null. A literal is read by scaling its leading digits as a double, one rounding at a
time, which is exact for short literals and close for long ones; an integer that fits a word becomes
a single in one rounding. -/
namespace FederatedRounds

namespace Numeral

/-- The literal for a decimal: without an exponent when its leading digit stands at most six places
behind the units or twelve before them, else with one digit before the point. -/
def ofDecimal (d : Decimal) : Numeral :=
  let digits := Digit.spell d.coefficient
  let order := d.order
  if -6 ≤ order ∧ order ≤ 12 then
    if 0 ≤ d.exponent then ⟨d.negative, d.coefficient * Nat.pow 10 d.exponent.toNat, [Digit.zero], none⟩
    else
      let places := (-d.exponent).toNat
      let fraction := Digit.spell (d.coefficient % Nat.pow 10 places)
      ⟨d.negative, d.coefficient / Nat.pow 10 places,
        Digit.zeros (places - fraction.length) ++ fraction, none⟩
  else ⟨d.negative, Digit.value (digits.take 1), digits.drop 1, some order⟩

/-- Appends digits to a number as long as it fits a word, and counts the digits left over. -/
def absorb (n : Nat) : List Digit → Nat × Nat
  | [] => (n, 0)
  | d :: rest =>
    if 10 * n + d.val < UInt64.size then absorb (10 * n + d.val) rest else (n, rest.length + 1)

/-- The leading digits of a literal and the power of ten that they count. -/
def significand (n : Numeral) : Nat × Int :=
  let (whole, left) := absorb 0 (Digit.spell n.whole)
  let (value, dropped) := absorb whole n.fraction
  (value, n.exponent.getD 0 + left - (n.fraction.length - dropped : Nat))

def powerOfTen (exponent : Nat) : Double := .ofNat (Nat.pow 10 exponent)

def scale (x : Double) (exponent : Int) : Option Double :=
  if exponent.natAbs ≤ 308 then
    if 0 ≤ exponent then
      let scaled := x.mul (powerOfTen exponent.natAbs)
      if scaled.isFinite then some scaled else none
    else some (x.div (powerOfTen exponent.natAbs))
  else if x = .zero then some x
  else if 0 < exponent then none
  else scale (x.div (powerOfTen 308)) (exponent + 308)
termination_by exponent.natAbs
decreasing_by omega

/-- The double that a literal is read as; there is none beyond the finite ones. -/
def double? (n : Numeral) : Option Double :=
  let (digits, exponent) := n.significand
  (scale (.ofNat digits) exponent).map fun x => if n.negative then x.neg else x

/-- An integer that fits a word: unsigned without a sign, or signed and below zero with one. -/
def isWord (n : Numeral) : Bool :=
  n.isInteger &&
    if n.negative then decide (0 < n.whole ∧ 2 * n.whole ≤ UInt64.size)
    else decide (n.whole < UInt64.size)

/-- The single that a literal is read as; it is infinite when the double is too large for one. -/
def single? (n : Numeral) : Option Single :=
  if n.isWord then some (Ieee.ofFraction n.negative n.whole 1) else n.double?.map Ieee.convert

end Numeral

namespace Single

def numeral? : Single → Option Numeral
  | .finite negative code => some (.ofDecimal (Ieee.shortest .toEven negative code))
  | _ => none

def toJson (x : Single) : Json :=
  match numeral? x with
  | some literal => .number literal
  | none => .null

def ofJson? : Json → Option Single
  | .number literal => literal.single?
  | _ => none

end Single

namespace Json

def nat? (bits : Nat) : Json → Option Nat
  | number literal => literal.nat?.filter fun n => n < Nat.pow 2 bits
  | _ => none

def text? : Json → Option String
  | string text => text
  | _ => none

def items? : Json → Option (List Json)
  | array items => some items
  | _ => none

/-- The members of an object whose names are all texts. -/
def members? : Json → Option (List (String × Json))
  | object members => members.mapM fun (name, value) => name.map fun name => (name, value)
  | _ => none

end Json
end FederatedRounds

import FederatedRounds.Number.Ieee
import FederatedRounds.Number.Digits
/-! Decimal numbers beside binary ones: the binary number nearest to a decimal, the shortest decimal
that lies among the reals rounding to a binary number, and a number cut to fixed places. -/
namespace FederatedRounds

/-- The number `coefficient * 10 ^ exponent`, with a sign that zero has too. -/
structure Decimal where
  negative : Bool
  coefficient : Nat
  exponent : Int
deriving DecidableEq

/-- Which of two equally near shortest decimals is taken. -/
inductive Tie where
  | toEven
  | up
deriving DecidableEq

namespace Decimal

/-- Decimals of at least this order are infinite in every format in use, and below its inverse they
are zero. -/
def reach : Int := 400

/-- The position of the leading digit relative to the units, for a coefficient other than zero. -/
def order (d : Decimal) : Int := d.exponent + (Digit.spell d.coefficient).length - 1

def nearest {f : Format} (d : Decimal) : Ieee f :=
  if d.coefficient = 0 ∨ d.order < -reach then Ieee.ofUnits d.negative 0 1
  else if reach < d.order then .infinite d.negative
  else if 0 ≤ d.exponent then
    Ieee.ofFraction d.negative (d.coefficient * Nat.pow 10 d.exponent.toNat) 1
  else Ieee.ofFraction d.negative d.coefficient (Nat.pow 10 (-d.exponent).toNat)

/-- Digits without an exponent; a point only when there are digits behind it. -/
def positional (d : Decimal) : String :=
  let digits := Digit.spell d.coefficient
  let body :=
    if 0 ≤ d.exponent then
      Digit.text (digits ++ Digit.zeros (if d.coefficient = 0 then 0 else d.exponent.toNat))
    else
      let places := (-d.exponent).toNat
      let padded := Digit.zeros (places + 1 - digits.length) ++ digits
      let whole := padded.length - places
      Digit.text (padded.take whole) ++ '.' :: Digit.text (padded.drop whole)
  String.ofList (if d.negative then '-' :: body else body)

end Decimal

namespace Ieee

/-- The ends of the reals that round to a code, in half units, and whether they round to it too. -/
def interval (f : Format) (code : Nat) : Nat × Nat × Bool :=
  (f.units (code - 1) + f.units code, f.units code + f.units (code + 1), code % 2 == 0)

/-- The multiple of `10 ^ exponent` nearest to a code among those that round to it. -/
def gridPoint? (f : Format) (tie : Tie) (code : Nat) (exponent : Int) : Option Nat :=
  let (low, high, closed) := interval f code
  let step := Nat.pow 10 exponent.toNat * (2 * f.one)
  let parts := Nat.pow 10 (-exponent).toNat
  let target := 2 * f.units code * parts
  let below := target / step
  let rest := 2 * (target - below * step)
  let fits (n : Nat) : Bool :=
    if closed then decide (low * parts ≤ n * step ∧ n * step ≤ high * parts)
    else decide (low * parts < n * step ∧ n * step < high * parts)
  let downward : Bool :=
    decide (rest < step) || (rest == step && tie == .toEven && below % 2 == 0)
  match fits below, fits (below + 1) with
  | false, false => none
  | true, false => some below
  | false, true => some (below + 1)
  | true, true => some (if downward then below else below + 1)

/-- Descends through the powers of ten to the first that has a multiple rounding to the code. -/
def shortestFrom (f : Format) (tie : Tie) (code : Nat) : Nat → Int → Nat × Int
  | 0, exponent => ((gridPoint? f tie code exponent).getD 0, exponent)
  | steps + 1, exponent =>
    match gridPoint? f tie code exponent with
    | some n => (n, exponent)
    | none => shortestFrom f tie code steps (exponent - 1)

/-- A power of ten that is above a code, and less than a thousand times so. -/
def ceilingExponent (f : Format) (code : Nat) : Int :=
  let bits : Int := (f.units (code + 1)).log2 + 1 - f.scale
  if 0 ≤ bits then bits * 30103 / 100000 + 1 else -(-bits * 30103 / 100000) + 1

/-- The decimal with the fewest digits that rounds to a finite number, and of those the nearest. -/
def shortest {f : Format} (tie : Tie) (negative : Bool) (code : Fin f.top) : Decimal :=
  if code.val = 0 then ⟨negative, 0, 0⟩
  else
    let (coefficient, exponent) :=
      shortestFrom f tie code.val f.precision (ceilingExponent f code.val)
    ⟨negative, coefficient, exponent⟩

/-- A finite number cut to a count of decimal places, a half going to the even neighbour. -/
def toPlaces {f : Format} (places : Nat) (negative : Bool) (code : Fin f.top) : Decimal :=
  ⟨negative, Format.halfEven (f.units code * Nat.pow 10 places) f.one, -places⟩

/-- A text for any number, given one for the finite numbers. -/
def textWith {f : Format} (finiteText : Bool → Fin f.top → String) : Ieee f → String
  | nan => "NaN"
  | infinite negative => if negative then "-inf" else "inf"
  | finite negative code => finiteText negative code

/-- The shortest digits that read back, never with an exponent. -/
def text {f : Format} (x : Ieee f) : String :=
  x.textWith fun negative code => (shortest .up negative code).positional

def fixedText {f : Format} (places : Nat) (x : Ieee f) : String :=
  x.textWith fun negative code => (toPlaces places negative code).positional

end Ieee

namespace Decimal

private def sign : List Char → Bool × List Char
  | '-' :: rest => (true, rest)
  | '+' :: rest => (false, rest)
  | text => (false, text)

/-- What follows the digits of a mantissa: nothing, or an exponent. -/
private def exponent? : List Char → Option Int
  | [] => some 0
  | mark :: rest =>
    if mark = 'e' ∨ mark = 'E' then
      let (negative, digits) := sign rest
      match Digit.run digits with
      | (d :: ds, []) => some (if negative then -(Digit.value (d :: ds)) else Digit.value (d :: ds))
      | _ => none
    else none

/-- Digits with an optional point among or beside them and an optional exponent. -/
private def unsigned? (negative : Bool) (text : List Char) : Option Decimal :=
  let (whole, rest) := Digit.run text
  let (fraction, rest) :=
    match rest with
    | '.' :: rest => Digit.run rest
    | rest => ([], rest)
  if whole.isEmpty && fraction.isEmpty then none
  else (exponent? rest).map fun e =>
    ⟨negative, Digit.value (whole ++ fraction), e - fraction.length⟩

/-- Reads a number in decimal notation, or one of the words for infinity and NaN in any case. -/
def read? {f : Format} (text : String) : Option (Ieee f) :=
  let (negative, body) := sign text.toList
  match String.ofList (body.map Char.toLower) with
  | "inf" => some (.infinite negative)
  | "infinity" => some (.infinite negative)
  | "nan" => some .nan
  | _ => (unsigned? negative body).map nearest

end Decimal
end FederatedRounds

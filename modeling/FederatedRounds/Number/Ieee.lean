/-! Binary floating-point numbers with one NaN, in exact integer arithmetic. Every finite magnitude
is a whole number of units, the unit being the least positive magnitude of the format, so sums,
products and quotients are exact fractions of units that are rounded once, ties to even. The
magnitudes of a format are numbered in increasing order by their codes, which are also their bit
patterns without the sign. Signalling, payloads and other rounding modes are not modelled. -/
namespace FederatedRounds

/-- A binary interchange format: bits of significand, hidden bit included, and of exponent. -/
structure Format where
  precision : Nat
  width : Nat
deriving DecidableEq

namespace Format

def single : Format := ⟨24, 8⟩

def double : Format := ⟨53, 11⟩

/-- Number of codes that share an exponent. -/
def binade (f : Format) : Nat := Nat.pow 2 (f.precision - 1)

/-- Number of bit patterns without a sign, those of NaNs included. -/
def patterns (f : Format) : Nat := Nat.pow 2 f.width * f.binade

/-- The code of infinity, above the codes of all finite magnitudes. -/
def top (f : Format) : Nat := (Nat.pow 2 f.width - 1) * f.binade

/-- The exponent of the number one, in units. -/
def scale (f : Format) : Nat := Nat.pow 2 (f.width - 1) + f.precision - 3

/-- The number one, in units. -/
def one (f : Format) : Nat := Nat.pow 2 f.scale

/-- The magnitude with the given code, in units. -/
def units (f : Format) (code : Nat) : Nat :=
  if code < 2 * f.binade then code
  else (f.binade + code % f.binade) * Nat.pow 2 (code / f.binade - 1)

/-- The whole number nearest to `num / den`, a half going to the even neighbour. -/
def halfEven (num den : Nat) : Nat :=
  let whole := num / den
  let rest := 2 * (num % den)
  if rest < den then whole else if den < rest then whole + 1 else whole + whole % 2

/-- The code nearest to `num / den` units; it may reach or pass `top`. -/
def nearest (f : Format) (num den : Nat) : Nat :=
  let dropped := (num / den).log2 + 1 - f.precision
  dropped * f.binade + halfEven num (den * Nat.pow 2 dropped)

end Format

/-- A number of a binary format. All NaNs are one. -/
inductive Ieee (f : Format) where
  | nan
  | infinite (negative : Bool)
  | finite (negative : Bool) (code : Fin f.top)
deriving DecidableEq

abbrev Single := Ieee .single

abbrev Double := Ieee .double

namespace Ieee
variable {f : Format}

/-- The number of `num / den` units, rounded; infinite when its magnitude has no finite code. -/
def ofUnits (negative : Bool) (num den : Nat) : Ieee f :=
  let code := f.nearest num den
  if bound : code < f.top then .finite negative ⟨code, bound⟩ else .infinite negative

def ofFraction (negative : Bool) (num den : Nat) : Ieee f :=
  ofUnits negative (num * f.one) den

def ofNat (n : Nat) : Ieee f := ofFraction false n 1

def ofInt (i : Int) : Ieee f := ofFraction (i < 0) i.natAbs 1

def zero : Ieee f := ofUnits false 0 1

def one : Ieee f := ofNat 1

def isFinite : Ieee f → Bool
  | finite _ _ => true
  | _ => false

def neg : Ieee f → Ieee f
  | nan => nan
  | infinite negative => infinite (!negative)
  | finite negative code => finite (!negative) code

def signedUnits (negative : Bool) (code : Fin f.top) : Int :=
  if negative then -(f.units code : Int) else f.units code

/-- A sum that cancels exactly is `+0` unless both terms are negative. -/
def add : Ieee f → Ieee f → Ieee f
  | nan, _ => nan
  | _, nan => nan
  | infinite s, infinite t => if s = t then infinite s else nan
  | infinite s, finite _ _ => infinite s
  | finite _ _, infinite t => infinite t
  | finite s x, finite t y =>
    let sum := signedUnits s x + signedUnits t y
    let negative := if sum = 0 then s && t else decide (sum < 0)
    ofUnits negative sum.natAbs 1

def mul : Ieee f → Ieee f → Ieee f
  | nan, _ => nan
  | _, nan => nan
  | infinite s, infinite t => infinite (s != t)
  | infinite s, finite t y => if y.val = 0 then nan else infinite (s != t)
  | finite s x, infinite t => if x.val = 0 then nan else infinite (s != t)
  | finite s x, finite t y => ofUnits (s != t) (f.units x * f.units y) f.one

def div : Ieee f → Ieee f → Ieee f
  | nan, _ => nan
  | _, nan => nan
  | infinite _, infinite _ => nan
  | infinite s, finite t _ => infinite (s != t)
  | finite s _, infinite t => ofUnits (s != t) 0 1
  | finite s x, finite t y =>
    if y.val = 0 then if x.val = 0 then nan else infinite (s != t)
    else ofUnits (s != t) (f.units x * f.one) (f.units y)

/-- The order of the numbers; NaN is below and above nothing, and the zeros are equal. -/
def lt : Ieee f → Ieee f → Bool
  | nan, _ => false
  | _, nan => false
  | infinite s, infinite t => s && !t
  | infinite s, finite _ _ => s
  | finite _ _, infinite t => !t
  | finite s x, finite t y => decide (signedUnits s x < signedUnits t y)

def le (x y : Ieee f) : Bool :=
  match x, y with
  | nan, _ => false
  | _, nan => false
  | x, y => !(y.lt x)

def convert {g : Format} : Ieee f → Ieee g
  | nan => nan
  | infinite negative => infinite negative
  | finite negative code => ofFraction negative (f.units code) f.one

def most (bits : Nat) : Nat := Nat.pow 2 bits - 1

/-- The largest whole number of at most `bits` bits that is not above a number, and 0 for NaN and
below zero. -/
def floorToNat (bits : Nat) : Ieee f → Nat
  | nan => 0
  | infinite negative => if negative then 0 else most bits
  | finite true _ => 0
  | finite false code => min (most bits) (f.units code / f.one)

/-- The least whole number that is not below a number, kept to `bits` bits, and 0 for NaN and below
zero. -/
def ceilToNat (bits : Nat) : Ieee f → Nat
  | nan => 0
  | infinite negative => if negative then 0 else most bits
  | finite true _ => 0
  | finite false code => min (most bits) ((f.units code + (f.one - 1)) / f.one)

/-- The whole number nearest to a number, a half going away from zero, kept to `bits` bits, and 0
for NaN and below zero. -/
def roundToNat (bits : Nat) : Ieee f → Nat
  | nan => 0
  | infinite negative => if negative then 0 else most bits
  | finite true _ => 0
  | finite false code => min (most bits) ((2 * f.units code + f.one) / (2 * f.one))

def bits? : Ieee f → Option Nat
  | nan => none
  | infinite negative => some (negative.toNat * f.patterns + f.top)
  | finite negative code => some (negative.toNat * f.patterns + code.val)

def ofBits (bits : Nat) : Ieee f :=
  let negative := bits / f.patterns % 2 == 1
  let code := bits % f.patterns
  if bound : code < f.top then .finite negative ⟨code, bound⟩
  else if code = f.top then .infinite negative
  else .nan

end Ieee
end FederatedRounds

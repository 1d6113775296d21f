/-! Hexadecimal digits, written in lower case and read in either. -/
namespace FederatedRounds.Hexadecimal

def char (digit : Nat) : Char :=
  if digit < 10 then Char.ofNat ('0'.toNat + digit) else Char.ofNat ('a'.toNat + (digit - 10))

def digit? (c : Char) : Option Nat :=
  if '0' ≤ c ∧ c ≤ '9' then some (c.toNat - '0'.toNat)
  else if 'a' ≤ c ∧ c ≤ 'f' then some (c.toNat - 'a'.toNat + 10)
  else if 'A' ≤ c ∧ c ≤ 'F' then some (c.toNat - 'A'.toNat + 10)
  else none

/-- The digits of a number, without leading zeros. -/
def spell (n : Nat) : List Char :=
  if n < 16 then [char n] else spell (n / 16) ++ [char (n % 16)]
termination_by n
decreasing_by omega

/-- The last so many digits of a number. -/
def padded (count n : Nat) : List Char :=
  (List.range count).reverse.map fun i => char (n / Nat.pow 16 i % 16)

end FederatedRounds.Hexadecimal

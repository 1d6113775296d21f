/-! Decimal digits of natural numbers, most significant first, and their characters. A number other
than zero is written without a leading zero. -/
namespace FederatedRounds

abbrev Digit := Fin 10

namespace Digit

def zero : Digit := ⟨0, by decide⟩

def zeros (count : Nat) : List Digit := List.replicate count zero

def char (d : Digit) : Char := Char.ofNat ('0'.toNat + d.val)

def ofChar? (c : Char) : Option Digit :=
  let value := c.toNat - '0'.toNat
  if bound : '0' ≤ c ∧ value < 10 then some ⟨value, bound.2⟩ else none

/-- The digits a text starts with, and the rest of it. -/
def run : List Char → List Digit × List Char
  | [] => ([], [])
  | c :: rest =>
    match ofChar? c with
    | none => ([], c :: rest)
    | some d => (d :: (run rest).1, (run rest).2)

/-- Digits read from a text are taken off its front. -/
theorem run_length (text : List Char) :
    (run text).1.length + (run text).2.length = text.length := by
  induction text with
  | nil => rfl
  | cons c rest ih =>
    unfold run
    split
    · simp
    · simp only [List.length_cons]
      omega

def all? (text : List Char) : Option (List Digit) :=
  text.mapM ofChar?

def value (digits : List Digit) : Nat :=
  digits.foldl (fun n d => 10 * n + d.val) 0

/-- An unsigned number of so many bits: digits, and maybe a plus before them. -/
def unsigned? (bits : Nat) (text : List Char) : Option Nat :=
  let body :=
    match text with
    | '+' :: rest => rest
    | text => text
  if body = [] then none else ((all? body).map value).filter fun n => n < Nat.pow 2 bits

def spell (n : Nat) : List Digit :=
  if small : n < 10 then [⟨n, small⟩]
  else spell (n / 10) ++ [⟨n % 10, Nat.mod_lt n (by decide)⟩]
termination_by n
decreasing_by omega

def text (digits : List Digit) : List Char := digits.map char

end Digit

def natText (n : Nat) : String := String.ofList (Digit.text (Digit.spell n))

end FederatedRounds

import FederatedRounds.Number.Digits
/-! Dates and times in one spelling: date and time are joined by a capital `T`, a zero offset by `Z`
is in upper case, and a fraction of a second has no zeros at its end and at most nine places. -/
namespace FederatedRounds.Toml

/-- So many digits, the number they spell, and the rest. -/
def digits? (count : Nat) (text : List Char) : Option (Nat × List Char) :=
  let (run, rest) := (text.take count, text.drop count)
  if run.length = count then (Digit.all? run).map fun digits => (Digit.value digits, rest) else none

def char? (c : Char) : List Char → Option (List Char)
  | d :: rest => if c = d then some rest else none
  | [] => none

def padded (count n : Nat) : List Char :=
  let digits := Digit.text (Digit.spell n)
  List.replicate (count - digits.length) '0' ++ digits

def date? (text : List Char) : Option (List Char × List Char) := do
  let (year, rest) ← digits? 4 text
  let (month, rest) ← digits? 2 (← char? '-' rest)
  let (day, rest) ← digits? 2 (← char? '-' rest)
  if 1 ≤ month ∧ month ≤ 12 ∧ 1 ≤ day ∧ day ≤ 31 then
    pure (padded 4 year ++ '-' :: padded 2 month ++ '-' :: padded 2 day, rest)
  else none

def withoutTrailingZeros (text : List Char) : List Char :=
  (text.reverse.dropWhile (· = '0')).reverse

/-- The fraction of a second, if there is one. -/
def fraction? : List Char → Option (List Char × List Char)
  | '.' :: rest =>
    match Digit.run rest with
    | ([], _) => none
    | (run, rest) =>
      let places := withoutTrailingZeros (Digit.text (run.take 9))
      some (if places = [] then [] else '.' :: places, rest)
  | rest => some ([], rest)

def time? (text : List Char) : Option (List Char × List Char) := do
  let (hour, rest) ← digits? 2 text
  let (minute, rest) ← digits? 2 (← char? ':' rest)
  let (second, rest) ← digits? 2 (← char? ':' rest)
  let (fraction, rest) ← fraction? rest
  if hour ≤ 24 ∧ minute ≤ 59 ∧ second ≤ 59 then
    pure (padded 2 hour ++ ':' :: padded 2 minute ++ ':' :: padded 2 second ++ fraction, rest)
  else none

/-- The offset from universal time, if there is one. The sign is that of the hours, so that an offset
of less than an hour has a plus. -/
def offset? : List Char → Option (List Char)
  | [] => some []
  | ['Z'] => some ['Z']
  | ['z'] => some ['Z']
  | sign :: rest =>
    if sign = '+' ∨ sign = '-' then do
      let (hours, rest) ← digits? 2 rest
      let (minutes, rest) ← digits? 2 (← char? ':' rest)
      let sign := if hours = 0 then '+' else sign
      if rest = [] then pure (sign :: padded 2 hours ++ ':' :: padded 2 minutes) else none
    else none

/-- The spelling of a date, of a time, or of both with or without an offset. -/
def dateText? (text : List Char) : Option (List Char) :=
  if text[2]? = some ':' then
    match time? text with
    | some (time, []) => some time
    | _ => none
  else do
    let (date, rest) ← date? text
    match rest with
    | [] => pure date
    | mark :: rest =>
      if mark = 'T' ∨ mark = 't' ∨ mark = ' ' then
        let (time, rest) ← time? rest
        let offset ← offset? rest
        pure (date ++ 'T' :: time ++ offset)
      else none

end FederatedRounds.Toml

import RealmBoot.Toml.Text
import RealmBoot.Toml.Value

/-!
# Numbers and Dates in TOML

Whole numbers have 64 bits and may be written in base ten, sixteen, eight or two. Digits may be
grouped by single underscores. A number with a fraction or an exponent must not be too large for a
double, and a date has to exist.
-/

namespace RealmBoot

namespace Toml

/-- Whether a character is a decimal digit. -/
def isDecimal (c : Char) : Bool := '0' ≤ c && c ≤ '9'

/-- Whether a character is a hexadecimal digit. -/
def isHexadecimal (c : Char) : Bool := (Text.hexDigit? c).isSome

/-- Whether a character is an octal digit. -/
def isOctal (c : Char) : Bool := '0' ≤ c && c ≤ '7'

/-- Whether a character is a binary digit. -/
def isBinary (c : Char) : Bool := c = '0' || c = '1'

/-- The number with the given digits. -/
def ofDigits (base : Nat) (digits : List Char) : Nat :=
  digits.foldl (fun n c => base * n + (Text.hexDigit? c).getD 0) 0

/-- Digits after the first one: each may follow an underscore. -/
def moreDigits (isDigit : Char → Bool) : Reader (List Char)
  | [] => some ([], [])
  | c :: rest =>
    if isDigit c then (moreDigits isDigit rest).map (consRead c)
    else if c = '_' then
      match rest with
      | d :: rest => if isDigit d then (moreDigits isDigit rest).map (consRead d) else none
      | [] => none
    else some ([], c :: rest)

/-- One or more digits. -/
def digits (isDigit : Char → Bool) : Reader (List Char)
  | c :: rest => if isDigit c then (moreDigits isDigit rest).map (consRead c) else none
  | [] => none

/-- Reads a sign; the result says whether it is a minus. -/
def sign : List Char → Bool × List Char
  | '+' :: rest => (false, rest)
  | '-' :: rest => (true, rest)
  | cs => (false, cs)

/-- The digits of a decimal number, which has no leading zeros. -/
def decimalDigits : Reader (List Char)
  | '0' :: rest => some (['0'], rest)
  | cs => digits isDecimal cs

/-- A whole number, if it fits into 64 bits. -/
def inRange? (n : Int) : Option Int :=
  if -Int.pow 2 63 ≤ n ∧ n < Int.pow 2 63 then some n else none

/-- Reads digits of a base. -/
def based (base : Nat) (isDigit : Char → Bool) : Reader Int := fun cs => do
  let (ds, rest) ← digits isDigit cs
  let n ← inRange? (ofDigits base ds)
  some (n, rest)

/-- Reads a whole number. -/
def integer : Reader Int
  | '0' :: 'x' :: rest => based 16 isHexadecimal rest
  | '0' :: 'o' :: rest => based 8 isOctal rest
  | '0' :: 'b' :: rest => based 2 isBinary rest
  | cs => do
    let (negative, rest) := sign cs
    let (ds, rest) ← decimalDigits rest
    let n : Int := ofDigits 10 ds
    let n ← inRange? (if negative then -n else n)
    some (n, rest)

/-- Whether the decimal number `mantissa * 10 ^ exponent` lies beyond the largest double, that is,
whether it is at least halfway from that to the next power of two. -/
def exceedsDouble (mantissa : Nat) (exponent : Int) : Bool :=
  let size : Int := (Nat.toDigits 10 mantissa).length + exponent
  if mantissa = 0 || size < 300 then false
  else if size > 320 then true
  else if 0 ≤ exponent then
    Nat.pow 2 1024 - Nat.pow 2 970 ≤ mantissa * Nat.pow 10 exponent.toNat
  else (Nat.pow 2 1024 - Nat.pow 2 970) * Nat.pow 10 (-exponent).toNat ≤ mantissa

/-- Reads an exponent. -/
def exponent : Reader Int
  | c :: rest =>
    if c = 'e' || c = 'E' then do
      let (negative, rest) := sign rest
      let (ds, rest) ← digits isDecimal rest
      let n : Int := ofDigits 10 ds
      some (if negative then -n else n, rest)
    else none
  | [] => none

/-- Reads a fraction: a point and digits. -/
def fraction : Reader (List Char)
  | '.' :: rest => digits isDecimal rest
  | _ => none

/-- Reads `inf` or `nan`. -/
def specialNumber : List Char → Option (List Char)
  | 'i' :: 'n' :: 'f' :: rest => some rest
  | 'n' :: 'a' :: 'n' :: rest => some rest
  | _ => none

/-- Passes a number with a fraction, an exponent or both. -/
def afterFloat? (cs : List Char) : Option (List Char) := do
  let (negative, rest) := sign cs
  match specialNumber rest with
  | some rest => some rest
  | none =>
    let (whole, rest) ← decimalDigits rest
    match rest with
    | '.' :: _ =>
      let (part, rest) ← fraction rest
      let shift : Int := -(part.length : Int)
      match rest with
      | c :: _ =>
        if c = 'e' || c = 'E' then
          let (e, rest) ← exponent rest
          if !negative && exceedsDouble (ofDigits 10 (whole ++ part)) (e + shift) then none
          else some rest
        else if !negative && exceedsDouble (ofDigits 10 (whole ++ part)) shift then none
        else some rest
      | [] =>
        if !negative && exceedsDouble (ofDigits 10 (whole ++ part)) shift then none else some []
    | _ =>
      let (e, rest) ← exponent rest
      if !negative && exceedsDouble (ofDigits 10 whole) e then none else some rest

/-- Reads a given number of decimal digits. -/
def fixedDigits (n : Nat) : Reader Nat := fun cs =>
  let ds := cs.take n
  if ds.length = n && ds.all isDecimal then some (ofDigits 10 ds, cs.drop n) else none

/-- Reads two digits that make a number in a range. -/
def twoDigits (low high : Nat) : Reader Nat := fun cs => do
  let (n, rest) ← fixedDigits 2 cs
  if low ≤ n && n ≤ high then some (n, rest) else none

/-- Passes one given character. -/
def after? (c : Char) : List Char → Option (List Char)
  | d :: rest => if d = c then some rest else none
  | [] => none

/-- The number of days of a month. -/
def daysIn (year month : Nat) : Nat :=
  if month = 2 then
    if year % 4 = 0 && (year % 100 ≠ 0 || year % 400 = 0) then 29 else 28
  else if month = 4 || month = 6 || month = 9 || month = 11 then 30
  else 31

/-- Passes a date. -/
def afterDate? (cs : List Char) : Option (List Char) := do
  let (year, rest) ← fixedDigits 4 cs
  let rest ← after? '-' rest
  let (month, rest) ← twoDigits 1 12 rest
  let rest ← after? '-' rest
  let (_, rest) ← twoDigits 1 (daysIn year month) rest
  some rest

/-- Passes the fraction of a second, if there is one. -/
def afterSubsecond? : List Char → Option (List Char)
  | '.' :: rest =>
    if (rest.takeWhile isDecimal).isEmpty then none else some (rest.dropWhile isDecimal)
  | cs => some cs

/-- Passes a time of day. -/
def afterTime? (cs : List Char) : Option (List Char) := do
  let (_, rest) ← twoDigits 0 23 cs
  let rest ← after? ':' rest
  let (_, rest) ← twoDigits 0 59 rest
  let rest ← after? ':' rest
  let (_, rest) ← twoDigits 0 60 rest
  afterSubsecond? rest

/-- Passes a time zone, if there is one. -/
def afterOffset? : List Char → Option (List Char)
  | c :: rest =>
    if c = 'Z' || c = 'z' then some rest
    else if c = '+' || c = '-' then do
      let (_, rest) ← twoDigits 0 23 rest
      let rest ← after? ':' rest
      let (_, rest) ← twoDigits 0 59 rest
      some rest
    else some (c :: rest)
  | [] => some []

/-- Passes a date, a time of day, or a date with a time of day. -/
def afterDatetime? (cs : List Char) : Option (List Char) :=
  match afterDate? cs with
  | none => afterTime? cs
  | some rest =>
    match rest with
    | c :: time =>
      if c = 'T' || c = 't' || c = ' ' then
        match afterTime? time with
        | none => if c = ' ' then some rest else none
        | some rest => afterOffset? rest
      else some rest
    | [] => some []

/-- What was written before the characters still to come. -/
def written (cs rest : List Char) : String := String.ofList (cs.take (cs.length - rest.length))

/-- Reads a number or a date. -/
def number : Reader Value := fun cs =>
  match afterDatetime? cs with
  | some rest => some (.datetime (written cs rest), rest)
  | none =>
    match afterFloat? cs with
    | some rest => some (.float (written cs rest), rest)
    | none => (integer cs).map fun (n, rest) => (.integer n, rest)

end Toml

end RealmBoot

/-!
# Numerals

How numbers are spelled and read.

1. `decimal` spells a number with no leading zero, `hex` with a fixed count of upper-case digits.
2. `read?` reads an unsigned numeral of a radix up to sixteen: an optional plus sign, then at
   least one digit and nothing else.
-/

namespace Handheld.Numeral

/-! ## Spelling -/

/-- The digit of a value below sixteen, letters in upper case. -/
def digit (value : Nat) : Char :=
  if value < 10 then Char.ofNat (48 + value) else Char.ofNat (55 + value)

/-- The decimal digits of a number. -/
def decimal (value : Nat) : List Char :=
  if value < 10 then [digit value] else decimal (value / 10) ++ [digit (value % 10)]
termination_by value

def text (value : Nat) : String := String.ofList (decimal value)

/-- The lowest `count` hexadecimal digits of a number. -/
def hex : (count : Nat) → (value : Nat) → List Char
  | 0, _ => []
  | count + 1, value => hex count (value / 16) ++ [digit (value % 16)]

/-- The decimal digits of a signed number, after a minus sign where it is negative. -/
def signed : Int → List Char
  | .ofNat value => decimal value
  | .negSucc below => '-' :: decimal (below + 1)

/-! ## Reading -/

/-- The value of a digit in either case, if it is one of the radix. -/
def digitValue? (radix : Nat) (c : Char) : Option Nat :=
  let value :=
    if '0' ≤ c ∧ c ≤ '9' then c.toNat - 48
    else if 'A' ≤ c ∧ c ≤ 'F' then c.toNat - 55
    else if 'a' ≤ c ∧ c ≤ 'f' then c.toNat - 87
    else radix
  if value < radix then some value else none

/-- Read on from the number that the digits so far spell. -/
def readDigits? (radix : Nat) (sofar : Nat) : List Char → Option Nat
  | [] => some sofar
  | c :: rest =>
    match digitValue? radix c with
    | none => none
    | some value => readDigits? radix (sofar * radix + value) rest

/-- Read one digit or more. -/
def readUnsigned? (radix : Nat) : List Char → Option Nat
  | [] => none
  | digits@(_ :: _) => readDigits? radix 0 digits

/-- Read an unsigned numeral, which may carry a plus sign. -/
def read? (radix : Nat) : List Char → Option Nat
  | '+' :: digits => readUnsigned? radix digits
  | digits => readUnsigned? radix digits

end Handheld.Numeral

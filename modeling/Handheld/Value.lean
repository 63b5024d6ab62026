import Handheld.Numeral

/-!
# Observed values

What a component answers when its state is inspected, and how an answer is written.

1. `Value` is an answer: a flag, a number of a given width, a text, or a collection of answers.
2. `Value.text` writes it: fixed widths in hexadecimal, counts and signed amounts in decimal.
3. `Value.ofEntries` keeps the entries of a map in the order of their keys.
-/

namespace Handheld

/-- An answer to a query. -/
inductive Value where
  | flag (value : Bool)
  | byte (value : UInt8)
  | halfword (value : UInt16)
  | word (value : UInt32)
  | count (value : Nat)
  | signed (value : Int)
  | text (value : String)
  | list (items : List Value)
  /-- Entries by ascending key, each key once. -/
  | table (entries : List (String × Value))
  deriving Inhabited

namespace Value

/-! ## Maps -/

/-- Put an entry where its key belongs; an entry of the same key gives way. -/
def insertEntry (key : String) (value : Value) :
    List (String × Value) → List (String × Value)
  | [] => [(key, value)]
  | (other, held) :: rest =>
    if key < other then (key, value) :: (other, held) :: rest
    else if key = other then (key, value) :: rest
    else (other, held) :: insertEntry key value rest

/-- The map of some entries, of which a later one wins over an earlier of the same key. -/
def ofEntries (entries : List (String × Value)) : Value :=
  .table (entries.foldl (fun sofar entry => insertEntry entry.1 entry.2 sofar) [])

def ofBytes (bytes : List UInt8) : Value :=
  .list (bytes.map .byte)

/-! ## Text -/

/-- A number in hexadecimal, padded to a count of digits. -/
def hexText (count value : Nat) : String :=
  String.ofList ('0' :: 'x' :: Numeral.hex count value)

mutual

/-- The written form of a value. -/
def toText : Value → String
  | .flag true => "true"
  | .flag false => "false"
  | .byte value => hexText 2 value.toNat
  | .halfword value => hexText 4 value.toNat
  | .word value => hexText 8 value.toNat
  | .count value => Numeral.text value
  | .signed value => String.ofList (Numeral.signed value)
  | .text value => value
  | .list items => "[" ++ ", ".intercalate (itemTexts items) ++ "]"
  | .table entries => "\x7b" ++ ", ".intercalate (entryTexts entries) ++ "\x7d"

def itemTexts : List Value → List String
  | [] => []
  | item :: rest => item.toText :: itemTexts rest

def entryTexts : List (String × Value) → List String
  | [] => []
  | (key, value) :: rest => (key ++ ": " ++ value.toText) :: entryTexts rest

end

end Value

end Handheld

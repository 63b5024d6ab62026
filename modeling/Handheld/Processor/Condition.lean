import Handheld.Processor.Status

/-!
# Conditions

Every instruction carries a condition on the four flags and does nothing where it fails.

1. `Condition.holds` says what each condition asks of the flags.
2. `Condition.table` tabulates it: a row for each code, and in it a bit for each way the flags can
   stand. `Status.passes` is the lookup that an instruction makes.
-/

namespace Handheld

inductive Condition
  | equal
  | notEqual
  | carrySet
  | carryClear
  | minus
  | plus
  | overflow
  | noOverflow
  | higher
  | lowerOrSame
  | greaterOrEqual
  | less
  | greater
  | lessOrEqual
  | always
  deriving DecidableEq, Inhabited

namespace Condition

/-- The condition that the low four bits of a code select; the reserved code holds always. -/
def ofCode (code : Word) : Condition :=
  match (code &&& 0xF).toNat with
  | 0x0 => equal
  | 0x1 => notEqual
  | 0x2 => carrySet
  | 0x3 => carryClear
  | 0x4 => minus
  | 0x5 => plus
  | 0x6 => overflow
  | 0x7 => noOverflow
  | 0x8 => higher
  | 0x9 => lowerOrSame
  | 0xA => greaterOrEqual
  | 0xB => less
  | 0xC => greater
  | 0xD => lessOrEqual
  | _ => always

def holds (condition : Condition) (flags : Flags) : Bool :=
  match condition with
  | equal => flags.z
  | notEqual => !flags.z
  | carrySet => flags.c
  | carryClear => !flags.c
  | minus => flags.n
  | plus => !flags.n
  | overflow => flags.v
  | noOverflow => !flags.v
  | higher => flags.c && !flags.z
  | lowerOrSame => !flags.c || flags.z
  | greaterOrEqual => flags.n == flags.v
  | less => flags.n != flags.v
  | greater => !flags.z && flags.n == flags.v
  | lessOrEqual => flags.z || flags.n != flags.v
  | always => true

/-! ## The table -/

/-- The row of a condition code: its bit `nibble` is set where the condition holds of the flags that
`nibble` packs. -/
def row (code : Nat) : UInt16 :=
  (List.range 16).foldl
    (fun row nibble =>
      if (ofCode (UInt32.ofNat code)).holds (Flags.ofNibble (UInt32.ofNat nibble)) then
        row ||| 1 <<< UInt16.ofNat nibble
      else row)
    0

def table : Vector UInt16 16 := .ofFn fun code => row code

end Condition

theorem Condition.code_lt (code : Word) : (code &&& 0xF).toNat < 16 :=
  Nat.lt_succ_of_le (toNat_and_le code 0xF)

/-- Whether the condition in the low four bits of a code holds of a status word. -/
def Status.passes (status : Status) (code : Word) : Bool :=
  let row := Condition.table.get ⟨(code &&& 0xF).toNat, Condition.code_lt code⟩
  row &&& 1 <<< status.flagNibble.toUInt16 != 0

end Handheld

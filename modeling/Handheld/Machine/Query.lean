import Handheld.Machine
import Handheld.Processor.Query

/-!
# Inspecting the machine

A path names a part of the processor, a byte of memory or a register of the board.

1. `parseAddress?` reads the address in a path, in hexadecimal after `0x` and otherwise in
   decimal.
2. `Machine.query` answers a path.
-/

namespace Handheld

/-- What follows some characters at the start of a text, if it starts with them. -/
def after? : (start text : List Char) → Option (List Char)
  | [], text => some text
  | _ :: _, [] => none
  | c :: start, d :: text => if c = d then after? start text else none

theorem after?_eq_some_iff {start text rest : List Char} :
    after? start text = some rest ↔ text = start ++ rest := by
  induction start generalizing text with
  | nil => exact Option.some_inj
  | cons c start ih =>
    cases text with
    | nil => exact ⟨nofun, nofun⟩
    | cons d text =>
      unfold after?
      rw [List.cons_append, List.cons.injEq]
      split
      · next hc => rw [ih, and_iff_right hc.symm]
      · next hc => exact ⟨nofun, fun h => absurd h.1.symm hc⟩

/-- The number if it fits an address. -/
def address? (number : Nat) : Option Word :=
  if number < 0x100000000 then some (UInt32.ofNat number) else none

def parseAddress? (text : List Char) : Option Word :=
  match after? ['0', 'x'] text <|> after? ['0', 'X'] text with
  | some digits => (Numeral.read? 16 digits).bind address?
  | none => (Numeral.read? 10 text).bind address?

namespace Machine

variable {P : Type} [Peripherals P]

/-- What a path outside of the processor and memory names. -/
def queryNamed (m : Machine P) (path : String) : Option Value :=
  let control := m.board.control
  match path with
  | "cycles" => some (.count m.elapsed.count)
  | "horizon" => some (.signed m.horizon.toInt)
  | "power_down" => some (.text control.power.name)
  | "ie" => some (.halfword control.enabled)
  | "if" => some (.halfword control.requested)
  | "ime" => some (.flag control.masterEnable)
  | "waitcnt" => some (.halfword control.waitStates)
  | "keyinput" => some (.halfword m.board.keypad.input)
  | "cartridge.title" => some (.text m.header.title)
  | "cartridge.code" => some (.text m.header.code)
  | _ => none

/-- What a path names, if it names anything. -/
def query (m : Machine P) (path : String) : Option Value :=
  match after? "cpu.".toList path.toList with
  | some rest => m.processor.query (String.ofList rest)
  | none =>
    match after? "memory.".toList path.toList with
    | some rest => ((parseAddress? rest).bind m.board.peek).map Value.byte
    | none => m.queryNamed path

/-- The paths in their order, of which two stand for many. -/
def queryPaths : List String :=
  ["cpu.<arm7tdmi_paths>", "memory.<address>", "cycles", "horizon", "power_down", "ie", "if",
    "ime", "waitcnt", "keyinput", "cartridge.title", "cartridge.code"]

end Machine

end Handheld

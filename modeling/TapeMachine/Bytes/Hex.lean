import TapeMachine.Batches
import TapeMachine.Decimal.Numeral

set_option autoImplicit false

namespace TapeMachine.Hex

def byte (b : UInt8) : Text := hexFixed 2 b.toNat

def digits (bytes : Bytes) : Text := bytes.flatMap byte

def row (bytes : Bytes) : Text := Text.join " " (bytes.map byte)

def rows (width : Nat) (bytes : Bytes) : List Text := (batches width bytes).map row

end TapeMachine.Hex

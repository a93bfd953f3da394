import Settlement.Text.Base64Url
import Settlement.Text.Numeral

/-!
# Faults of data

Why parts do not make a credit or a value, why a text is not the form of
anything, and why octets do not decode.
-/

namespace Settlement

/-- Why parts do not make a credit or a value. -/
inductive ModelFault where
  | invalidPublicKey
  | mergerCount (count : Nat)
  | pointOutOfRange (point : Int64)
deriving DecidableEq, Repr

/-- The wording of a model fault. -/
def ModelFault.message : ModelFault → String
  | .invalidPublicKey => "invalid public key"
  | .mergerCount count => s!"credit must have 1 to 3 mergers, got {count}"
  | .pointOutOfRange point => s!"point {point.toInt} is outside the permitted range"

/-- Why a text is not the form of anything. -/
inductive TextFault where
  /-- The text of a key is not base64url. -/
  | keySymbols (fault : Base64Url.Fault)
  /-- The text of a key has the wrong number of octets. -/
  | keyLength (length : Nat)
  | point (fault : Numeral.Fault)
  | creditWithoutAt
  | creditWithoutSlash
  | valueWithoutHash
  | valueWithoutCredit
  /-- The text does not start with its mark. -/
  | unmarked (mark : Char)
  /-- What follows the mark is not base64url. -/
  | symbols (fault : Base64Url.Fault)
deriving DecidableEq, Repr

/-- The wording of a text fault. -/
def TextFault.message : TextFault → String
  | .keySymbols fault => s!"public key: {fault.message}"
  | .keyLength length => s!"public key length {length}"
  | .point fault => s!"point: {fault.message}"
  | .creditWithoutAt => "credit must start with '@'"
  | .creditWithoutSlash => "credit is missing '/'"
  | .valueWithoutHash => "value is missing '#'"
  | .valueWithoutCredit => "value is missing credit"
  | .unmarked mark => s!"expected tag '{mark}'"
  | .symbols fault => fault.message

/-- Why octets do not decode. -/
inductive DecodeFault where
  /-- The octets end within the value. -/
  | endOfInput
  /-- An item is not well formed. -/
  | malformed
  /-- An item is well formed and not the one that belongs there. -/
  | unexpected
  /-- Items are nested too deep. -/
  | tooDeep
  /-- All parts were read and do not make a credit or a value. -/
  | model (fault : ModelFault)
deriving DecidableEq, Repr

/-- The wording of a decoding fault. -/
def DecodeFault.message : DecodeFault → String
  | .endOfInput => "Io"
  | .malformed => "Syntax"
  | .unexpected => "Semantic"
  | .tooDeep => "RecursionLimitExceeded"
  | .model fault => s!"Semantic: {fault.message}"

/-- Why parts, a text or octets do not give a value. -/
inductive DataFault where
  | model (fault : ModelFault)
  | text (fault : TextFault)
  | decoding (fault : DecodeFault)
deriving DecidableEq, Repr

/-- The wording of a data fault. -/
def DataFault.message : DataFault → String
  | .model fault => fault.message
  | .text fault => s!"invalid text form: {fault.message}"
  | .decoding fault => s!"decoding error: {fault.message}"

end Settlement

import TapeMachine.Control.Given
import TapeMachine.Definition.Reader
import TapeMachine.Json.Reader
import TapeMachine.Pool.Summary
import TapeMachine.Settings
import TapeMachine.Store.Basic
import TapeMachine.View.Report

set_option autoImplicit false

namespace TapeMachine

inductive FaultKind where
  | refusedLine
  | malformedBytes
  | unknownState
  | unknownTransition
  | unknownKey
  | badIndex
  | badValue
  | badType
  | noAttribute
  | outOfField
  | overflow
  | noRoom
  | notStarted
  | notFound
  | present
  | notFolder
  | isFolder
  | longName
  | notUtf8
  | unencodable
  | malformedJson
  | tooDeep
  | noAnswer
  | badMarkup
deriving DecidableEq

namespace FaultKind

def isLookup (k : FaultKind) : Bool := [unknownState, unknownTransition, unknownKey, badIndex].contains k

def isSystem (k : FaultKind) : Bool := [notFound, present, notFolder, isFolder, longName].contains k

def isValue (k : FaultKind) : Bool :=
  [refusedLine, malformedBytes, badValue, notUtf8, unencodable, malformedJson].contains k

def isReading (k : FaultKind) : Bool := k = refusedLine || k = malformedBytes || k.isSystem

end FaultKind

inductive Fault where
  | given (fault : GivenFault)
  | machine (fault : MachineFault)
  | note (fault : NoteFault)
  | source (fault : SourceFault)
  | base64 (fault : Base64Fault)
  | encode (fault : EncodeFault)
  | trace (fault : TraceFault)
  | report (fault : ReportFault)
  | summary (fault : SummaryFault)
  | settings (fault : SettingsFault)
  | noSettings (path : Text)
  | store (fault : StoreFault)
  | notUtf8 (flaw : Utf8.Flaw)
  | unencodable
  | json (source : Text) (fault : JsonFault)
  | missing (key : Text)
  | noFields (value : Json)
  | noItems (value : Json)
  | noPath (value : Json)
  | noKey (value : Json)
  | notSequence (value : Json)
  | quantity (fault : QuantityFault)
  | longNumber
  | hugeNumber
  | noInputSymbols
  | noAnswer
  | markup (text message : Text)

def LiteralFault.message : LiteralFault → Text
  | .malformed literal => "invalid literal for int() with base 10: " ++ literal.quoted.take 200
  | .tooLong digits => SourceFault.limitMessage digits

def Base64Fault.message : Base64Fault → Text
  | .notAscii => "string argument should contain only ASCII characters"
  | .decode fault => fault.message

def EncodeFault.message : EncodeFault → Text
  | .refusedSymbol codec symbol => "Symbol " ++ symbol.quoted ++ " cannot be encoded with the " ++
      codec.name ++ " codec."
  | .literal fault => fault.message
  | .outOfRange => "argument out of range"
  | .notWhole => "required argument is not an integer"
  | .surrogate => "surrogates not allowed"

def ReportFault.message : ReportFault → Text
  | .encode fault => fault.message
  | .notText fault => fault.message
  | .noHeadCell => "string index out of range"

def SummaryFault.message : SummaryFault → Text
  | .missing key => key
  | .noFields (.text _) => "string indices must be integers, not 'str'"
  | .noFields (.list _) => "list indices must be integers or slices, not str"
  | .noFields value => "'" ++ value.typeName ++ "' object is not subscriptable"
  | .array fault => fault.message

namespace JsonFault

/-- The line, the column and the index of the place in `source` where `rest` starts. -/
def place (source rest : Text) : Nat × Nat × Nat :=
  let before := source.take (source.length - rest.length)
  let line := (before.filter (· = CodePoint.ofChar '\n')).length + 1
  let column := (before.reverse.takeWhile (· ≠ CodePoint.ofChar '\n')).length + 1
  (line, column, before.length)

def message (source : Text) : JsonFault → Text
  | .malformed flaw rest =>
      let (line, column, index) := place source rest
      flaw.message ++ ": line " ++ numeral line ++ " column " ++ numeral column ++ " (char " ++ numeral index ++ ")"
  | .tooLong digits => SourceFault.limitMessage digits
  | .tooDeep shape => "maximum recursion depth exceeded while decoding a JSON " ++ shape ++ " from a unicode string"

end JsonFault

namespace Fault

def notAccepted (value : Json) (complaint : Text) : Text := "'" ++ value.typeName ++ "' object " ++ complaint

def message : Fault → Text
  | .given fault => fault.message
  | .machine fault => fault.message
  | .note fault => fault.message
  | .source fault => fault.message
  | .base64 fault => fault.message
  | .encode fault => fault.message
  | .trace fault => fault.message
  | .report fault => fault.message
  | .summary fault => fault.message
  | .settings fault => fault.message
  | .noSettings path => "Configuration file not found at: " ++ path
  | .store fault => fault.message
  | .notUtf8 flaw => flaw.message
  | .unencodable => "surrogates not allowed"
  | .json text fault => fault.message text
  | .missing key => key
  | .noFields value => notAccepted value "has no attribute 'get'"
  | .noItems value => notAccepted value "has no attribute 'extend'"
  | .noPath value => "expected str, bytes or os.PathLike object, not " ++ value.typeName
  | .noKey value => "unhashable type: '" ++ value.typeName ++ "'"
  | .notSequence value => notAccepted value "is not iterable"
  | .quantity fault => fault.message
  | .longNumber =>
      "Exceeds the limit (" ++ numeral digitLimit ++
        " digits) for integer string conversion; use sys.set_int_max_str_digits() to increase the limit"
  | .hugeNumber => "int too large to convert to float"
  | .noInputSymbols => "The definition has no input symbols besides the blank."
  | .noAnswer => "no more answers"
  | .markup _ message => message

def lookupKind : LookupFault → FaultKind
  | .noState _ => .unknownState
  | .noTransition _ _ => .unknownTransition
  | .noTarget _ _ => .unknownKey
  | .noKey _ => .badType

def encodeKind : EncodeFault → FaultKind
  | .refusedSymbol _ _ => .badValue
  | .literal _ => .badValue
  | .outOfRange => .outOfField
  | .notWhole => .outOfField
  | .surrogate => .unencodable

def quantityKind : QuantityFault → FaultKind
  | .zeroStep => .badValue
  | .negativeCount => .badValue
  | .noWorkers => .badValue
  | .negativeLength => .badValue
  | .hugeCount => .overflow
  | .hugeLength => .overflow
  | .hugeIndent => .overflow
  | .noRoom => .noRoom
  | _ => .badType

def delayKind : DelayFault → FaultKind
  | .tooLong => .overflow
  | _ => .badValue

def runKind : RunFault → FaultKind
  | .noBlank => .badValue
  | .foreignInput _ _ => .badValue
  | .lookup fault => lookupKind fault
  | .notText _ => .badType
  | .quantity fault => quantityKind fault

def arrayKind : ArrayFlaw → FaultKind
  | .badValue => .badValue
  | .badType => .badType
  | .overflow => .overflow

def summaryKind : SummaryFault → FaultKind
  | .missing _ => .unknownKey
  | .noFields _ => .badType
  | .array fault => arrayKind fault.flaw

def storeKind : StoreFault → FaultKind
  | .notFound _ => .notFound
  | .present _ => .present
  | .notFolder _ => .notFolder
  | .isFolder _ => .isFolder
  | .longName _ => .longName
  | .nullInPath => .badValue
  | .noForm _ => .unencodable

def kind : Fault → FaultKind
  | .given (.noKey _) => .badType
  | .given _ => .badValue
  | .machine (.lookup fault) => lookupKind fault
  | .note (.unknownKind _) => .badValue
  | .note (.takenName _) => .badType
  | .machine .notStarted => .notStarted
  | .machine (.quantity fault) => quantityKind fault
  | .source (.refused _ _ _) => .refusedLine
  | .source (.longNumeral _) => .badValue
  | .base64 .notAscii => .badValue
  | .base64 (.decode _) => .malformedBytes
  | .encode fault => encodeKind fault
  | .trace (.run fault) => runKind fault
  | .trace (.quantity fault) => quantityKind fault
  | .trace (.delay fault) => delayKind fault
  | .report (.encode fault) => encodeKind fault
  | .report (.notText _) => .badType
  | .report .noHeadCell => .badIndex
  | .summary fault => summaryKind fault
  | .settings fault => if fault.isTypeFault then .badType else .badValue
  | .noSettings _ => .notFound
  | .store fault => storeKind fault
  | .notUtf8 _ => .notUtf8
  | .unencodable => .unencodable
  | .json _ (.malformed _ _) => .malformedJson
  | .json _ (.tooLong _) => .badValue
  | .json _ (.tooDeep _) => .tooDeep
  | .missing _ => .unknownKey
  | .noFields _ => .noAttribute
  | .noItems _ => .noAttribute
  | .noPath _ => .badType
  | .noKey _ => .badType
  | .notSequence _ => .badType
  | .quantity fault => quantityKind fault
  | .longNumber => .badValue
  | .hugeNumber => .overflow
  | .noInputSymbols => .badValue
  | .noAnswer => .noAnswer
  | .markup _ _ => .badMarkup

def ofLookup (fault : LookupFault) : Fault := .machine (.lookup fault)

def ofFiling : FilingFault → Fault
  | .lookup fault => ofLookup fault
  | .given fault => .given fault

def ofDecode (fault : DecodeFault) : Fault := .base64 (.decode fault)

def ofRun (fault : RunFault) : Fault := .trace (.run fault)

def ofNotText (fault : NotText) : Fault := .report (.notText fault)

end Fault

end TapeMachine

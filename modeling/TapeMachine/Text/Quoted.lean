import TapeMachine.Text.Unprintable
import TapeMachine.Decimal.Numeral

set_option autoImplicit false

namespace TapeMachine.Text

def backslash : CodePoint := '\\'

def quoteMark (t : Text) : CodePoint :=
  if t.contains (CodePoint.ofChar '\'') && !t.contains (CodePoint.ofChar '"') then '"' else '\''

def escaped (mark c : CodePoint) : Text :=
  if c = backslash ∨ c = mark then [backslash, c]
  else if c = '\n' then [backslash, CodePoint.ofChar 'n']
  else if c = '\r' then [backslash, CodePoint.ofChar 'r']
  else if c = '\t' then [backslash, CodePoint.ofChar 't']
  else if c.isPrintable then [c]
  else if c.val < 0x100 then backslash :: CodePoint.ofChar 'x' :: hexFixed 2 c.val
  else if c.val < 0x10000 then backslash :: CodePoint.ofChar 'u' :: hexFixed 4 c.val
  else backslash :: CodePoint.ofChar 'U' :: hexFixed 8 c.val

def quoted (t : Text) : Text :=
  let mark := quoteMark t
  mark :: t.flatMap (escaped mark) ++ [mark]

end TapeMachine.Text

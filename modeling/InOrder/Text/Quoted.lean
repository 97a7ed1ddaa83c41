import InOrder.Text.Hex
import InOrder.Text.Concealed

/-!
# Quoted text

A text is shown between double quotes. A quote, a backslash, a tab, a line feed, a carriage return
and the null character have a two-character escape; any other concealed character is written as
its code point in hexadecimal between braces after a backslash and a `u`. All else stands as it is.
-/

namespace InOrder.Text

/-- One character inside a quoted text. -/
def escape (c : Char) : List Char :=
  if c = '"' then ['\\', '"']
  else if c = '\\' then ['\\', '\\']
  else if c = '\t' then ['\\', 't']
  else if c = '\n' then ['\\', 'n']
  else if c = '\r' then ['\\', 'r']
  else if c = Char.ofNat 0 then ['\\', '0']
  else if isConcealed c then ['\\', 'u', '\x7b'] ++ Hex.digits c.toNat ++ ['\x7d']
  else [c]

/-- The text between double quotes, with escapes. -/
def quoted (s : String) : String :=
  String.ofList ('"' :: s.toList.flatMap escape ++ ['"'])

end InOrder.Text

import Telemetry.Text.Spelled

/-!
Quoted text, as structure listings show it: between double quotes, with a backslash before quotes
and backslashes, short escapes for the common controls, and the code point in braces for every
other character that does not print.
-/

namespace Telemetry

namespace Text

def escaped (c : Char) : List Char :=
  match c with
  | '\x00' => ['\\', '0']
  | '\t' => ['\\', 't']
  | '\n' => ['\\', 'n']
  | '\r' => ['\\', 'r']
  | '"' => ['\\', '"']
  | '\\' => ['\\', '\\']
  | c =>
    let code := c.toNat
    if code < 0x20 || code == 0x7f || (0x7f < code && Spelled.byNumber code) then
      '\\' :: 'u' :: '{' :: (Nat.toDigits 16 code ++ ['}'])
    else [c]

def quoted (text : String) : String :=
  String.ofList ('"' :: (text.toList.flatMap escaped ++ ['"']))

end Text

end Telemetry

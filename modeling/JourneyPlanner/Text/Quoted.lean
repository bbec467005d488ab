import JourneyPlanner.Text.Unprintable

namespace JourneyPlanner.Text

/-!
Quoting a text for a message: the text between double quotes, with every character that
would be lost or misread written as an escape. Quotes, backslashes and the usual controls
have short escapes; any other unprintable character is given by its code point in braces.
-/

def hexDigits (n : Nat) : List Char :=
  Nat.toDigits 16 n

/-- One character as it stands between the quotes. -/
def escapeChar (c : Char) : List Char :=
  match c with
  | '"' => ['\\', '"']
  | '\\' => ['\\', '\\']
  | '\n' => ['\\', 'n']
  | '\r' => ['\\', 'r']
  | '\t' => ['\\', 't']
  | _ =>
    if c.toNat = 0 then ['\\', '0']
    else if isUnprintable c then ['\\', 'u', '\x7b'] ++ hexDigits c.toNat ++ ['\x7d']
    else [c]

/-- The text in double quotes, escaped so that it reads back unambiguously. -/
def quoted (s : String) : String :=
  String.ofList ('"' :: s.toList.flatMap escapeChar ++ ['"'])

end JourneyPlanner.Text

import CanaryRouting.Text.Unprintable

/-!
# Quoted texts in messages

Messages quote names. A quoted text stands in double quotes; a quote, a backslash, a tab, a line
feed, a carriage return and a null are escaped by a letter, any other character that would not
show by its number in braces, and every other character stands for itself.
-/

namespace CanaryRouting.Text

/-- How one character is written between the quotes. -/
def quoteChar (c : Char) : List Char :=
  match c with
  | '"' => ['\\', '"']
  | '\\' => ['\\', '\\']
  | '\t' => ['\\', 't']
  | '\n' => ['\\', 'n']
  | '\r' => ['\\', 'r']
  | c =>
    if c.toNat = 0 then ['\\', '0']
    else if isUnprintable c then
      ['\\', 'u', '\x7b'] ++ Nat.toDigits 16 c.toNat ++ ['\x7d']
    else [c]

/-- The text in double quotes. -/
def quoted (s : String) : String :=
  String.ofList ('"' :: (s.toList.flatMap quoteChar ++ ['"']))

end CanaryRouting.Text

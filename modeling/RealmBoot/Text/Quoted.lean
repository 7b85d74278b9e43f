import RealmBoot.Text.Hidden

/-!
# Quoted Texts

Messages show a path between double quotes. Inside, double quotes and backslashes follow a
backslash, tab, line feed, carriage return and the null character have their usual letters, and
every hidden character is given by its code point in hexadecimal.
-/

namespace RealmBoot.Text

/-- A character as it stands inside quotes. -/
def quotedChar (c : Char) : List Char :=
  if c = '\x00' then ['\\', '0']
  else if c = '\t' then ['\\', 't']
  else if c = '\r' then ['\\', 'r']
  else if c = '\n' then ['\\', 'n']
  else if c = '\\' || c = '"' then ['\\', c]
  else if isHidden c then
    ['\\', 'u', '\x7b'] ++ Nat.toDigits 16 c.toNat ++ ['\x7d']
  else [c]

/-- The text between double quotes. -/
def quoted (s : String) : String :=
  String.ofList ('"' :: s.toList.flatMap quotedChar ++ ['"'])

end RealmBoot.Text

import KeyedRows.Text.Printable

/-!
# Quoted text

* `escape` : one character inside quotes;
* `quote` : text between double quotes, every hidden character spelled out.

A double quote and a backslash are escaped by a backslash, the tab, the line ends and the null
character have letters, and any other hidden character is its code point in hexadecimal.
-/

namespace KeyedRows.Text

def escape (c : Char) : List Char :=
  if c = '"' then ['\\', '"']
  else if c = '\\' then ['\\', '\\']
  else if c = '\t' then ['\\', 't']
  else if c = '\n' then ['\\', 'n']
  else if c = '\r' then ['\\', 'r']
  else if c = '\x00' then ['\\', '0']
  else if isPrintable c then [c]
  else '\\' :: 'u' :: '\x7b' :: Nat.toDigits 16 c.toNat ++ ['\x7d']

def quote (s : String) : String :=
  String.ofList ('"' :: s.toList.flatMap escape ++ ['"'])

end KeyedRows.Text

import JobEngine.Text.Visible

namespace JobEngine.Text

def escapeShown (c : Char) : List Char :=
  if c = '\t' then ['\\', 't']
  else if c = '\r' then ['\\', 'r']
  else if c = '\n' then ['\\', 'n']
  else if c.toNat = 0 then ['\\', '0']
  else if c = '"' ∨ c = '\\' then ['\\', c]
  else if isVisible c then [c]
  else ['\\', 'u', '\x7b'] ++ Nat.toDigits 16 c.toNat ++ ['\x7d']

def shown (s : String) : List Char := '"' :: s.toList.flatMap escapeShown ++ ['"']

def commaSeparated : List (List Char) → List Char
  | [] => []
  | [item] => item
  | item :: rest => item ++ [',', ' '] ++ commaSeparated rest

def listing (items : List String) : String :=
  String.ofList ('[' :: commaSeparated (items.map shown) ++ [']'])

def setListing (names : List String) : String :=
  String.ofList ('\x7b' :: commaSeparated (names.map String.toList) ++ ['\x7d'])

end JobEngine.Text

import JobEngine.Decimal.Shortest
import JobEngine.Json.Value
import JobEngine.Text.Hex

namespace JobEngine.Json

def escape (c : Char) : List Char :=
  if c = '"' then ['\\', '"']
  else if c = '\\' then ['\\', '\\']
  else if c = '\x08' then ['\\', 'b']
  else if c = '\x0c' then ['\\', 'f']
  else if c = '\n' then ['\\', 'n']
  else if c = '\r' then ['\\', 'r']
  else if c = '\t' then ['\\', 't']
  else if c.toNat < 0x20 then
    ['\\', 'u', '0', '0', Text.hexDigit (c.toNat / 16), Text.hexDigit (c.toNat % 16)]
  else [c]

def quoted (s : String) : List Char := '"' :: s.toList.flatMap escape ++ ['"']

def zeros (n : Nat) : List Char := List.replicate n '0'

def signedText (n : Int) : List Char :=
  (if n < 0 then '-' else '+') :: (Nat.repr n.natAbs).toList

/-- A double in its shortest digits: positional from `1e-5` up to below `1e16` and with a fraction
always, otherwise with a signed exponent. -/
def floatText (x : Binary64) : List Char :=
  let d := x.shortest
  let digits := (Nat.repr d.digits).toList
  let point := digits.length + d.exponent
  let sign := if x.negative then ['-'] else []
  sign ++
    if d.digits = 0 then ['0', '.', '0']
    else if 0 ≤ d.exponent ∧ point ≤ 16 then digits ++ zeros d.exponent.toNat ++ ['.', '0']
    else if 0 < point ∧ point ≤ 16 then
      digits.take point.toNat ++ '.' :: digits.drop point.toNat
    else if -5 < point ∧ point ≤ 0 then ['0', '.'] ++ zeros (-point).toNat ++ digits
    else
      let mantissa := match digits with
        | c :: rest@(_ :: _) => c :: '.' :: rest
        | cs => cs
      mantissa ++ 'e' :: signedText (point - 1)

def intText (n : Int) : List Char :=
  if n < 0 then '-' :: (Nat.repr n.natAbs).toList else (Nat.repr n.natAbs).toList

def numberText : Number → List Char
  | .int n => intText n.val
  | .float x => floatText x

mutual

def compactText : Json → List Char
  | .null => ['n', 'u', 'l', 'l']
  | .bool true => ['t', 'r', 'u', 'e']
  | .bool false => ['f', 'a', 'l', 's', 'e']
  | .num n => numberText n
  | .str s => quoted s
  | .arr [] => ['[', ']']
  | .arr (x :: xs) => '[' :: compactText x ++ compactItems xs
  | .obj [] => ['{', '}']
  | .obj ((k, v) :: rest) => '{' :: quoted k ++ ':' :: compactText v ++ compactMembers rest

/-- The items after the first one and the closing bracket. -/
def compactItems : List Json → List Char
  | [] => [']']
  | x :: xs => ',' :: compactText x ++ compactItems xs

def compactMembers : Members → List Char
  | [] => ['}']
  | (k, v) :: rest => ',' :: quoted k ++ ':' :: compactText v ++ compactMembers rest

end

def newline (level : Nat) : List Char := '\n' :: List.replicate (2 * level) ' '

mutual

def prettyText (level : Nat) : Json → List Char
  | .null => ['n', 'u', 'l', 'l']
  | .bool true => ['t', 'r', 'u', 'e']
  | .bool false => ['f', 'a', 'l', 's', 'e']
  | .num n => numberText n
  | .str s => quoted s
  | .arr [] => ['[', ']']
  | .arr (x :: xs) =>
    '[' :: newline (level + 1) ++ prettyText (level + 1) x ++ prettyItems level xs
  | .obj [] => ['{', '}']
  | .obj ((k, v) :: rest) =>
    '{' :: newline (level + 1) ++ quoted k ++ ':' :: ' ' :: prettyText (level + 1) v ++
      prettyMembers level rest

def prettyItems (level : Nat) : List Json → List Char
  | [] => newline level ++ [']']
  | x :: xs => ',' :: newline (level + 1) ++ prettyText (level + 1) x ++ prettyItems level xs

def prettyMembers (level : Nat) : Members → List Char
  | [] => newline level ++ ['}']
  | (k, v) :: rest =>
    ',' :: newline (level + 1) ++ quoted k ++ ':' :: ' ' :: prettyText (level + 1) v ++
      prettyMembers level rest

end

def compact (v : Json) : String := String.ofList (compactText v)

def pretty (v : Json) : String := String.ofList (prettyText 0 v)

end JobEngine.Json

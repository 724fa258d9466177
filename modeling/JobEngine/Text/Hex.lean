namespace JobEngine.Text

def hexDigit (n : Nat) : Char := if n < 10 then Char.ofNat (48 + n) else Char.ofNat (87 + n)

def hexCapital (n : Nat) : Char := if n < 10 then Char.ofNat (48 + n) else Char.ofNat (55 + n)

def hex (digits n : Nat) : List Char :=
  match digits with
  | 0 => []
  | digits + 1 => hex digits (n / 16) ++ [hexDigit (n % 16)]

end JobEngine.Text

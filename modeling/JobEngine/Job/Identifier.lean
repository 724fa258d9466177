import JobEngine.Text.Hex

namespace JobEngine.Identifier

open Text

def version : Nat := 4

def ofWords (high low : UInt64) : String :=
  let a := high.toNat
  let b := low.toNat
  String.ofList <|
    hex 8 (a >>> 32) ++ '-' :: hex 4 (a >>> 16) ++ '-' :: hex 1 version ++ hex 3 a ++
      '-' :: hex 1 (8 + b >>> 62) ++ hex 3 (b >>> 48) ++ '-' :: hex 12 b

end JobEngine.Identifier

import JobEngine.Json.Token

namespace JobEngine.Json

def maxDepth : Nat := 127

/-- An open container with what it holds so far, last first. -/
inductive Frame
  | items (done : List Json)
  | members (done : Members) (key : String)

mutual

def readValue (limit : Nat) (stack : List Frame) : List Token → Option Json
  | .atom v :: ts => readRest limit stack v ts
  | .str s :: ts => readRest limit stack (.str s) ts
  | .openBracket :: .closeBracket :: ts =>
    if stack.length < limit then readRest limit stack (.arr []) ts else none
  | .openBracket :: ts =>
    if stack.length < limit then readValue limit (.items [] :: stack) ts else none
  | .openBrace :: .closeBrace :: ts =>
    if stack.length < limit then readRest limit stack (.obj []) ts else none
  | .openBrace :: .str key :: .colon :: ts =>
    if stack.length < limit then readValue limit (.members [] key :: stack) ts else none
  | _ => none

def readRest (limit : Nat) (stack : List Frame) (v : Json) (tokens : List Token) : Option Json :=
  match stack, tokens with
  | [], [] => some v
  | .items done :: stack, .comma :: ts => readValue limit (.items (v :: done) :: stack) ts
  | .items done :: stack, .closeBracket :: ts =>
    readRest limit stack (.arr (v :: done).reverse) ts
  | .members done key :: stack, .comma :: .str next :: .colon :: ts =>
    readValue limit (.members ((key, v) :: done) next :: stack) ts
  | .members done key :: stack, .closeBrace :: ts =>
    readRest limit stack (.obj ((key, v) :: done).reverse) ts
  | _, _ => none

end

/-- The value a text denotes, with at most `limit` containers around any value. -/
def readUpTo (limit : Nat) (text : String) : Option Json :=
  (Token.scan text.toList).bind (readValue limit [])

def read (text : String) : Option Json := readUpTo maxDepth text

end JobEngine.Json

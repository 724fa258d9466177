import JobEngine.Text.Alphanumeric
import JobEngine.Text.Blank

namespace JobEngine

/-- Variables with their values; of several values for one the first counts. -/
abbrev Environment := List (String × String)

def Environment.value? (env : Environment) (name : String) : Option String := env.lookup name

namespace EnvironmentFile

def apostrophe : Char := '\x27'

inductive Scan
  | plain
  | blank
  | escape
  | single (escaped : Bool)
  | double (escaped : Bool)
deriving DecidableEq

/-- The next state of a scan; none where a comment begins. -/
def Scan.next (c : Char) : Scan → Option Scan
  | escape => some plain
  | single true => some (single false)
  | double true => some (double false)
  | single false => some <|
    if c = '\\' then single true else if c = apostrophe then plain else single false
  | double false => some <|
    if c = '\\' then double true else if c = '"' then plain else double false
  | s =>
    if s = blank ∧ c = '#' then none
    else some <|
      if c = '\\' then escape
      else if c = '"' then double false
      else if c = apostrophe then single false
      else if s = plain ∧ Text.isBlank c ∧ c ≠ '\n' ∧ c ≠ '\r' then blank
      else plain

def scanLine (s : Scan) : List Char → List Char × Option Scan
  | [] => ([], some s)
  | c :: cs =>
    match s.next c with
    | none => ([], none)
    | some s => let (before, last) := scanLine s cs; (c :: before, last)

def lines : List Char → List Char → List (List Char)
  | [], [] => []
  | word, [] => [word.reverse]
  | word, c :: cs => if c = '\n' then (c :: word).reverse :: lines [] cs else lines (c :: word) cs

/-- The lines gathered to entries; none stands for an entry that does not end. -/
def entries : List Char → Scan → List (List Char) → List (Option (List Char))
  | _, s, [] => if s = .plain then [] else [none]
  | pending, s, l :: ls =>
    if (Text.skipBlanks (pending ++ l)).head? = some '#' then some [] :: entries [] .plain ls
    else
      match scanLine s l with
      | (before, none) => some (pending ++ before) :: entries [] .plain ls
      | (_, some .plain) => some (pending ++ l) :: entries [] .plain ls
      | (_, some s) => entries (pending ++ l) s ls

inductive Mode
  | bare
  | single
  | double
  | escape (back : Mode)
  | variable (back : Mode) (braced : Bool) (name : List Char)
  | ended

def expand (env : Environment) (name : List Char) : List Char :=
  ((env.value? (String.ofList name.reverse)).getD "").toList

/-- Reads a value; `done` is what has been read so far, in reverse. -/
def readValue (env : Environment) (done : List Char) : Mode → List Char → Option (List Char)
  | .bare, [] | .ended, [] | .escape .bare, [] => some done.reverse
  | .variable .bare false name, [] => some (done.reverse ++ expand env name)
  | _, [] => none
  | .ended, c :: cs =>
    if c = ' ' ∨ c = '\t' then readValue env done .ended cs
    else if c = '#' then some done.reverse
    else none
  | .escape back, c :: cs =>
    if c = 'n' then readValue env ('\n' :: done) back cs
    else if c = '\\' ∨ c = '$' ∨ c = ' ' ∨ c = apostrophe ∨ c = '"' then
      readValue env (c :: done) back cs
    else none
  | .single, c :: cs =>
    if c = apostrophe then readValue env done .bare cs else readValue env (c :: done) .single cs
  | .variable back true name, c :: cs =>
    if c = '\x7d' then readValue env ((expand env name).reverse ++ done) back cs
    else readValue env done (.variable back true (c :: name)) cs
  | .variable back false name, c :: cs =>
    if Text.isAlphanumeric c then readValue env done (.variable back false (c :: name)) cs
    else if c = '\x7b' ∧ name = [] then readValue env done (.variable back true []) cs
    else
      let done := (expand env name).reverse ++ done
      if c = '$' then readValue env done (.variable back false []) cs
      else readValue env (c :: done) back cs
  | .double, c :: cs =>
    if c = '$' then readValue env done (.variable .double false []) cs
    else if c = '"' then readValue env done .bare cs
    else if c = '\\' then readValue env done (.escape .double) cs
    else readValue env (c :: done) .double cs
  | .bare, c :: cs =>
    if c = '$' then readValue env done (.variable .bare false []) cs
    else if c = apostrophe then readValue env done .single cs
    else if c = '"' then readValue env done .double cs
    else if c = '\\' then readValue env done (.escape .bare) cs
    else if c = ' ' ∨ c = '\t' then readValue env done .ended cs
    else readValue env (c :: done) .bare cs

def readName (cs : List Char) : Option (String × List Char) :=
  match cs with
  | c :: _ =>
    if c.isAlpha ∨ c = '_' then
      let name := cs.takeWhile fun c ↦ c.isAlphanum || c = '_' || c = '.'
      some (String.ofList name, Text.skipBlanks (cs.drop name.length))
    else none
  | [] => none

def afterEquals : List Char → Option (List Char)
  | '=' :: cs => some (Text.skipBlanks cs)
  | _ => none

/-- The name in front of an equals sign and what follows it; `export` may stand before the name,
but is a name itself right before an equals sign. -/
def readAssignment (cs : List Char) : Option (String × List Char) := do
  let (name, cs) ← readName cs
  match afterEquals cs with
  | some rest => return (name, rest)
  | none =>
    if name ≠ "export" then none
    let (name, cs) ← readName cs
    return (name, ← afterEquals cs)

def trimEnd (cs : List Char) : List Char := (Text.skipBlanks cs.reverse).reverse

def readEntry (env : Environment) (entry : List Char) : Option (Option (String × String)) := do
  let cs := Text.skipBlanks (trimEnd entry)
  if cs = [] ∨ cs.head? = some '#' then return none
  let (name, cs) ← readAssignment cs
  if cs = [] ∨ cs.head? = some '#' then return some (name, "")
  return some (name, String.ofList (← readValue env [] .bare cs))

def set (env : Environment) (name value : String) : Environment :=
  if (env.value? name).isSome then env else env ++ [(name, value)]

def applyEntries (env : Environment) : List (Option (List Char)) → Environment
  | some entry :: rest =>
    match readEntry env entry with
    | some (some (name, value)) => applyEntries (set env name value) rest
    | some none => applyEntries env rest
    | none => env
  | _ => env

def apply (env : Environment) (text : String) : Environment :=
  let cs := text.toList
  let cs := if cs.head? = some (Char.ofNat 0xfeff) then cs.tail else cs
  applyEntries env (entries [] .plain (lines [] cs))

end EnvironmentFile

end JobEngine

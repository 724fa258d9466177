import JobEngine.Error
import JobEngine.Text.Alphanumeric
import JobEngine.Text.Blank

namespace JobEngine

inductive Level
  | off
  | error
  | warn
  | info
  | debug
  | trace
deriving DecidableEq

namespace Level

def all : List Level := [off, error, warn, info, debug, trace]

def name : Level → String
  | off => "off"
  | error => "error"
  | warn => "warn"
  | info => "info"
  | debug => "debug"
  | trace => "trace"

def lower (c : Char) : Char :=
  if 'A' ≤ c ∧ c ≤ 'Z' then Char.ofNat (c.toNat + 32) else c

def ofNumber? (cs : List Char) : Option Level :=
  let digits := match cs with
    | '+' :: rest => rest
    | cs => cs
  if digits ≠ [] ∧ digits.all Text.isDigit then all[Text.digitsValue digits]? else none

def read? (cs : List Char) : Option Level :=
  (ofNumber? cs).or (all.find? fun l ↦ l.name.toList = cs.map lower)

end Level

structure Directive where
  target : Option String
  level : Level
deriving DecidableEq

namespace Directive

def opens (c : Char) : Bool := c = '-' || c = ':' || c = '_' || Text.isAlphanumeric c

/-- Reads a directive. A word that is no level is a target at the finest level, and so is a target
without a level after its sign. Blanks belong to the words. -/
def read? (cs : List Char) : Option Directive := do
  let first ← (Text.trim cs).head?
  if !opens first then none
  let word := (Text.trim cs).takeWhile fun c ↦ c ≠ '=' && c ≠ '['
  match cs.drop word.length with
  | '=' :: level =>
    if level = [] then some ⟨String.ofList word, .trace⟩
    else (Level.read? level).map (⟨String.ofList word, ·⟩)
  | _ =>
    if cs.contains '[' || cs.contains '=' then none
    else some <| match Level.read? cs with
      | some level => ⟨none, level⟩
      | none => ⟨String.ofList cs, .trace⟩

def weight (d : Directive) : Nat := (d.target.map (·.utf8ByteSize + 1)).getD 0

/-- The order of directives; equally long targets stand in reverse order. -/
def before (a b : Directive) : Bool :=
  b.weight < a.weight || (a.weight = b.weight && b.target.getD "" < a.target.getD "")

def text (d : Directive) : String :=
  match d.target with
  | some target => s!"{target}={d.level.name}"
  | none => d.level.name

end Directive

structure Filter where
  directives : List Directive
deriving DecidableEq

namespace Filter

def insert (d : Directive) : List Directive → List Directive
  | [] => [d]
  | e :: rest =>
    if e.target = d.target then d :: rest
    else if d.before e then d :: e :: rest
    else e :: insert d rest

def splitComma : List Char → List Char → List (List Char)
  | word, [] => [word.reverse]
  | word, c :: cs => if c = ',' then word.reverse :: splitComma [] cs else splitComma (c :: word) cs

def errors : Filter := ⟨[⟨none, .error⟩]⟩

/-- Reads directives with commas between them; a text without any asks for errors only. -/
def read? (text : String) : Option Filter := do
  let words := (splitComma [] text.toList).filter (· ≠ [])
  let directives ← words.mapM Directive.read?
  if directives = [] then some errors
  else some ⟨directives.foldl (fun ds d ↦ insert d ds) []⟩

def text (f : Filter) : String := String.intercalate "," (f.directives.map Directive.text)

def presetText : String := "corpus_jobs=info"

def preset : Filter := ⟨[⟨some "corpus_jobs", .info⟩]⟩

/-- The filter at the start: that of the environment, else the configured one, else the preset;
what does not read counts as not given. -/
def initial (fromEnvironment configured : Option String) : Filter :=
  ((fromEnvironment.bind read?).or (configured.bind read?)).getD preset

def ofText (text : String) : Except Error Filter :=
  match read? text with
  | some f => .ok f
  | none => .error .invalidFilter

end Filter

end JobEngine

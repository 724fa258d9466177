import JobEngine.Notification.Service
import JobEngine.Text.Hex

namespace JobEngine

structure Transcript where
  replies : List Response := []
  requests : List (String × Request) := []
  log : List LogEntry := []
  deliveries : List (Nat × Notification) := []

namespace Transcript

def server : String := "http://server"

/-- An address as it counts: without tabs and line breaks, and without controls and spaces at its
end. -/
def significant (cs : List Char) : List Char :=
  let cs := cs.filter fun c ↦ c ≠ '\t' && c ≠ '\n' && c ≠ '\r'
  (cs.reverse.dropWhile fun c ↦ c.toNat ≤ 0x20).reverse

def isReserved (inQuery : Bool) (c : Char) : Bool :=
  c.toNat ≤ 0x20 || 0x7f ≤ c.toNat || c = '"' || c = '<' || c = '>' ||
    if inQuery then c = '\x27' else c = '\x60' || c = '\x7b' || c = '\x7d'

def percent (c : Char) : List Char :=
  c.toString.toUTF8.toList.flatMap fun b ↦
    ['%', Text.hexCapital (b.toNat / 16), Text.hexCapital (b.toNat % 16)]

def encode (inQuery : Bool) (cs : List Char) : List Char :=
  cs.flatMap fun c ↦ if isReserved inQuery c then percent c else [c]

def segments : List Char → List Char → List (List Char)
  | word, [] => [word.reverse]
  | word, c :: cs =>
    if c = '/' ∨ c = '\\' then word.reverse :: segments [] cs else segments (c :: word) cs

def dots : List Char → Option Nat
  | [] => some 0
  | '.' :: cs | '%' :: '2' :: 'e' :: cs | '%' :: '2' :: 'E' :: cs => (dots cs).map (· + 1)
  | _ => none

/-- Follows the segments of one dot, which stay, and of two dots, which go back; `done` are the
segments so far, in reverse. -/
def resolve (done : List (List Char)) : List (List Char) → List (List Char)
  | [] => done.reverse
  | s :: rest =>
    let done := if dots s = some 2 then done.tail else done
    if dots s = some 1 ∨ dots s = some 2 then
      resolve (if rest = [] then [] :: done else done) rest
    else resolve (s :: done) rest

/-- What an address of the server asks for: path and query, without the fragment. -/
def target? (url : String) : Option String :=
  if server.toList.isPrefixOf url.toList then
    let rest := (significant (url.toList.drop server.length)).takeWhile (· ≠ '#')
    let path := rest.takeWhile (· ≠ '?')
    let query := rest.drop path.length
    let parts := match segments [] path with
      | [] :: parts => parts
      | parts => parts
    let path := (resolve [] parts).flatMap fun s ↦ '/' :: encode false s
    some (String.ofList ((if path = [] then ['/'] else path) ++ encode true query))
  else none

def accepted : Response := ⟨200, ""⟩

/-- A request to the server is noted and gets the next response. -/
def exchange (r : Request) (t : Transcript) : Option Response × Transcript :=
  match target? r.url with
  | none => (none, t)
  | some target =>
    (some (t.replies.headD accepted),
      { t with replies := t.replies.tail, requests := t.requests ++ [(target, r)] })

def outlet : Outlet Transcript where
  log entry t := { t with log := t.log ++ [entry] }
  exchange := exchange

def recorder (number : Nat) (enabled fails : Bool) : Endpoint Transcript where
  enabled := enabled
  send n t :=
    (if fails then .error .deliveryFailed else .ok (),
      { t with deliveries := t.deliveries ++ [(number, n)] })

end Transcript

end JobEngine

import JobEngine.Json.Value
import JobEngine.Time.Reader

namespace JobEngine

namespace Json

def asString? : Json → Option String
  | .str s => some s
  | _ => none

def asBool? : Json → Option Bool
  | .bool b => some b
  | _ => none

def asInt? : Json → Option Int
  | .num (.int n) => some n.val
  | _ => none

def asUInt64? (v : Json) : Option UInt64 := do
  let n ← v.asInt?
  if 0 ≤ n ∧ n < UInt64.size then some (UInt64.ofNat n.toNat) else none

def asUInt32? (v : Json) : Option UInt32 := do
  let n ← v.asInt?
  if 0 ≤ n ∧ n < UInt32.size then some (UInt32.ofNat n.toNat) else none

def asInt32? (v : Json) : Option Int32 := do
  let n ← v.asInt?
  if -2147483648 ≤ n ∧ n < 2147483648 then some (Int32.ofInt n) else none

def asInstant? (v : Json) : Option Instant := v.asString?.bind Instant.read?

def asList? {α : Type} (read : Json → Option α) : Json → Option (List α)
  | .arr items => items.mapM read
  | _ => none

def unrepeated (keys : List String) (m : Members) : Bool :=
  keys.all fun k ↦ m.countP (·.1 = k) ≤ 1

/-- The members of an object, or the items of an array in the order of `keys`. None of the keys
may be repeated; items may be missing at the end, but none may be left over. -/
def asMembers? (keys : List String) : Json → Option Members
  | .obj members => if unrepeated keys members then some members else none
  | .arr items => if items.length ≤ keys.length then some (keys.zip items) else none
  | _ => none

end Json

namespace Members

def find? (m : Members) (key : String) : Option Json := m.lookup key

def required {α : Type} (m : Members) (key : String) (read : Json → Option α) : Option α :=
  (m.find? key).bind read

def withDefault {α : Type} (m : Members) (key : String) (read : Json → Option α) (default : α) :
    Option α :=
  match m.find? key with
  | none => some default
  | some v => read v

/-- A member that may be absent or null. -/
def optional {α : Type} (m : Members) (key : String) (read : Json → Option α) :
    Option (Option α) :=
  match m.find? key with
  | none => some none
  | some .null => some none
  | some v => (read v).map some

def ofOption {α : Type} (key : String) (write : α → Json) : Option α → Members
  | none => []
  | some a => [(key, write a)]

def orNull {α : Type} (write : α → Json) : Option α → Json
  | none => .null
  | some a => write a

end Members

end JobEngine

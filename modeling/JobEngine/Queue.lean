namespace JobEngine

/-- A place in the arena: an entry, unless the slot is free, and the slot of the next entry. -/
structure Slot (α : Type) where
  entry : Option α
  next : Option Nat

structure Queue (α : Type) where
  slots : Array (Slot α) := #[]
  /-- Slots without an entry, the one to be used next first. -/
  free : List Nat := []
  head : Option Nat := none
  tail : Option Nat := none

namespace Queue

variable {α : Type}

def follow (q : Queue α) : Nat → Option Nat → List Nat
  | 0, _ => []
  | _ + 1, none => []
  | fuel + 1, some i =>
    match q.slots[i]? with
    | none => []
    | some s => i :: q.follow fuel s.next

/-- The indices of the entries in order. No slot is met twice, so there are at most as many steps
as slots. -/
def chain (q : Queue α) : List Nat := q.follow q.slots.size q.head

def content? (q : Queue α) (i : Nat) : Option α := q.slots[i]?.bind (·.entry)

def toList (q : Queue α) : List α := q.chain.filterMap q.content?

def size (q : Queue α) : Nat := q.toList.length

def isEmpty (q : Queue α) : Bool := q.head.isNone

def link (q : Queue α) (i : Nat) (next : Option Nat) : Queue α :=
  { q with slots := q.slots.modify i ({ · with next }) }

def place (q : Queue α) (a : α) : Nat × Queue α :=
  match q.free with
  | i :: free => (i, { q with slots := q.slots.setIfInBounds i ⟨some a, none⟩, free })
  | [] => (q.slots.size, { q with slots := q.slots.push ⟨some a, none⟩ })

def enqueue (q : Queue α) (a : α) : Queue α :=
  let (i, q) := q.place a
  match q.tail with
  | some t => { q.link t (some i) with tail := some i }
  | none => { q with head := some i, tail := some i }

def release (q : Queue α) (i : Nat) : Queue α :=
  { q with slots := q.slots.setIfInBounds i ⟨none, none⟩, free := i :: q.free }

def dequeue (q : Queue α) : Option (α × Queue α) := do
  let i ← q.head
  let s ← q.slots[i]?
  let a ← s.entry
  let tail := if s.next.isNone then none else q.tail
  return (a, { q with head := s.next, tail }.release i)

def peek (q : Queue α) : Option α := q.head.bind q.content?

def delayNext (q : Queue α) : Option (Queue α) := do
  let first ← q.head
  match q.slots[first]?.bind (·.next) with
  | none => return q
  | some second =>
    let rest := q.slots[second]?.bind (·.next)
    let tail := if q.tail = some second then some first else q.tail
    return { (q.link first rest).link second (some first) with head := some second, tail }

def locate (q : Queue α) (p : α → Bool) : List Nat → Option Nat → Option (Option Nat × Nat)
  | [], _ => none
  | i :: rest, prev =>
    if (q.content? i).any p then some (prev, i) else q.locate p rest (some i)

def remove (q : Queue α) (p : α → Bool) : Option (α × Queue α) := do
  let (prev, i) ← q.locate p q.chain none
  let s ← q.slots[i]?
  let a ← s.entry
  let tail := if q.tail = some i then prev else q.tail
  let q := match prev with
    | some j => { q.link j s.next with tail }
    | none => { q with head := s.next, tail }
  return (a, q.release i)

end Queue

end JobEngine

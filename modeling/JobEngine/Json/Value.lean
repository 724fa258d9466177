import JobEngine.Decimal.Binary64

namespace JobEngine

structure Wide where
  val : Int
  lower : -9223372036854775808 ≤ val
  upper : val < 18446744073709551616
deriving DecidableEq

namespace Wide

def ofInt? (n : Int) : Option Wide :=
  if h : -9223372036854775808 ≤ n ∧ n < 18446744073709551616 then some ⟨n, h.1, h.2⟩ else none

def ofUInt64 (n : UInt64) : Wide :=
  ⟨n.toNat, by omega, by have h := n.toNat_lt; omega⟩

def ofUInt32 (n : UInt32) : Wide :=
  ⟨n.toNat, by omega, by have h := n.toNat_lt; omega⟩

def ofInt32 (n : Int32) : Wide :=
  ⟨n.toInt, by have h := n.le_toInt; omega, by have h := n.toInt_lt; omega⟩

end Wide

/-- A number written as an integer that fits 64 bits stays one, any other is a double. -/
inductive Number
  | int (n : Wide)
  | float (x : Binary64)
deriving DecidableEq

inductive Json
  | null
  | bool (b : Bool)
  | num (n : Number)
  | str (s : String)
  | arr (items : List Json)
  | obj (members : List (String × Json))

abbrev Members := List (String × Json)

namespace Json

mutual

def decEq : (a b : Json) → Decidable (a = b)
  | .null, .null => isTrue rfl
  | .bool a, .bool b =>
    if h : a = b then isTrue (h ▸ rfl) else isFalse (fun e ↦ h (Json.bool.inj e))
  | .num a, .num b =>
    if h : a = b then isTrue (h ▸ rfl) else isFalse (fun e ↦ h (Json.num.inj e))
  | .str a, .str b =>
    if h : a = b then isTrue (h ▸ rfl) else isFalse (fun e ↦ h (Json.str.inj e))
  | .arr a, .arr b =>
    match decEqItems a b with
    | isTrue h => isTrue (h ▸ rfl)
    | isFalse h => isFalse (fun e ↦ h (Json.arr.inj e))
  | .obj a, .obj b =>
    match decEqMembers a b with
    | isTrue h => isTrue (h ▸ rfl)
    | isFalse h => isFalse (fun e ↦ h (Json.obj.inj e))
  | .null, .bool _ | .null, .num _ | .null, .str _ | .null, .arr _ | .null, .obj _
  | .bool _, .null | .bool _, .num _ | .bool _, .str _ | .bool _, .arr _ | .bool _, .obj _
  | .num _, .null | .num _, .bool _ | .num _, .str _ | .num _, .arr _ | .num _, .obj _
  | .str _, .null | .str _, .bool _ | .str _, .num _ | .str _, .arr _ | .str _, .obj _
  | .arr _, .null | .arr _, .bool _ | .arr _, .num _ | .arr _, .str _ | .arr _, .obj _
  | .obj _, .null | .obj _, .bool _ | .obj _, .num _ | .obj _, .str _ | .obj _, .arr _ =>
    isFalse (by intro h; cases h)

def decEqItems : (a b : List Json) → Decidable (a = b)
  | [], [] => isTrue rfl
  | [], _ :: _ | _ :: _, [] => isFalse (by intro h; cases h)
  | x :: xs, y :: ys =>
    match decEq x y, decEqItems xs ys with
    | isTrue h, isTrue h' => isTrue (h ▸ h' ▸ rfl)
    | isFalse h, _ => isFalse (fun e ↦ h (List.cons.inj e).1)
    | _, isFalse h => isFalse (fun e ↦ h (List.cons.inj e).2)

def decEqMembers : (a b : Members) → Decidable (a = b)
  | [], [] => isTrue rfl
  | [], _ :: _ | _ :: _, [] => isFalse (by intro h; cases h)
  | (k, x) :: xs, (l, y) :: ys =>
    if hk : k = l then
      match decEq x y, decEqMembers xs ys with
      | isTrue h, isTrue h' => isTrue (hk ▸ h ▸ h' ▸ rfl)
      | isFalse h, _ => isFalse (fun e ↦ h (Prod.mk.inj (List.cons.inj e).1).2)
      | _, isFalse h => isFalse (fun e ↦ h (List.cons.inj e).2)
    else isFalse (fun e ↦ hk (Prod.mk.inj (List.cons.inj e).1).1)

end

instance : DecidableEq Json := decEq

instance : Inhabited Json := ⟨.null⟩

def ofUInt64 (n : UInt64) : Json := .num (.int (Wide.ofUInt64 n))

def ofUInt32 (n : UInt32) : Json := .num (.int (Wide.ofUInt32 n))

def ofInt32 (n : Int32) : Json := .num (.int (Wide.ofInt32 n))

def setMember (k : String) (v : Json) : Members → Members
  | [] => [(k, v)]
  | (l, w) :: rest =>
    if k < l then (k, v) :: (l, w) :: rest
    else if k = l then (k, v) :: rest
    else (l, w) :: setMember k v rest

mutual

def canonical : Json → Json
  | .arr items => .arr (canonicalItems items)
  | .obj members => .obj (canonicalMembers [] members)
  | .null => .null
  | .bool b => .bool b
  | .num n => .num n
  | .str s => .str s

def canonicalItems : List Json → List Json
  | [] => []
  | x :: xs => canonical x :: canonicalItems xs

def canonicalMembers (done : Members) : Members → Members
  | [] => done
  | (k, v) :: rest => canonicalMembers (setMember k (canonical v) done) rest

end

mutual

def Canonical : Json → Prop
  | .arr items => CanonicalItems items
  | .obj members => members.Pairwise (fun a b ↦ a.1 < b.1) ∧ CanonicalMembers members
  | .null | .bool _ | .num _ | .str _ => True

def CanonicalItems : List Json → Prop
  | [] => True
  | x :: xs => Canonical x ∧ CanonicalItems xs

def CanonicalMembers : Members → Prop
  | [] => True
  | (_, v) :: rest => Canonical v ∧ CanonicalMembers rest

end

theorem mem_setMember {k : String} {v : Json} {m : Members} {p : String × Json}
    (h : p ∈ setMember k v m) : p = (k, v) ∨ p ∈ m := by
  induction m with
  | nil => simpa [setMember] using h
  | cons a m ih =>
    obtain ⟨l, w⟩ := a
    simp only [setMember] at h
    split at h
    · simpa using h
    · split at h
      · rcases List.mem_cons.1 h with h | h
        · exact .inl h
        · exact .inr (List.mem_cons_of_mem _ h)
      · rcases List.mem_cons.1 h with h | h
        · exact .inr (h ▸ List.mem_cons_self)
        · exact (ih h).imp_right (List.mem_cons_of_mem _)

theorem setMember_pairwise {k : String} {v : Json} {m : Members}
    (h : m.Pairwise (fun a b ↦ a.1 < b.1)) :
    (setMember k v m).Pairwise (fun a b ↦ a.1 < b.1) := by
  induction m with
  | nil => simp [setMember]
  | cons a m ih =>
    obtain ⟨l, w⟩ := a
    obtain ⟨hl, hm⟩ := List.pairwise_cons.1 h
    simp only [setMember]
    split
    · rename_i hk
      refine List.pairwise_cons.2 ⟨fun p hp ↦ ?_, h⟩
      rcases List.mem_cons.1 hp with rfl | hp
      · exact hk
      · exact String.lt_trans hk (hl p hp)
    · split
      · rename_i hk
        exact List.pairwise_cons.2 ⟨fun p hp ↦ hk ▸ hl p hp, hm⟩
      · rename_i h₁ h₂
        refine List.pairwise_cons.2 ⟨fun p hp ↦ ?_, ih hm⟩
        rcases mem_setMember hp with rfl | hp
        · exact Std.lt_of_le_of_ne (Std.not_lt.1 h₁) (Ne.symm h₂)
        · exact hl p hp

theorem canonicalMembers_iff {m : Members} :
    CanonicalMembers m ↔ ∀ p ∈ m, Canonical p.2 := by
  induction m with
  | nil => simp [CanonicalMembers]
  | cons a m ih =>
    obtain ⟨k, v⟩ := a
    simp [CanonicalMembers, ih]

mutual

theorem canonical_isCanonical : (v : Json) → Canonical v.canonical
  | .null => trivial
  | .bool _ => trivial
  | .num _ => trivial
  | .str _ => trivial
  | .arr items => by
    simp only [canonical, Canonical]
    exact canonicalItems_isCanonical items
  | .obj members => by
    simp only [canonical, Canonical]
    exact canonicalMembers_isCanonical members [] List.Pairwise.nil trivial

theorem canonicalItems_isCanonical : (xs : List Json) → CanonicalItems (canonicalItems xs)
  | [] => trivial
  | x :: xs => by
    simp only [canonicalItems, CanonicalItems]
    exact ⟨canonical_isCanonical x, canonicalItems_isCanonical xs⟩

theorem canonicalMembers_isCanonical : (m done : Members) →
    done.Pairwise (fun a b ↦ a.1 < b.1) → CanonicalMembers done →
    (canonicalMembers done m).Pairwise (fun a b ↦ a.1 < b.1) ∧
      CanonicalMembers (canonicalMembers done m)
  | [], _, h, h' => ⟨h, h'⟩
  | (k, v) :: m, done, h, h' => by
    simp only [canonicalMembers]
    refine canonicalMembers_isCanonical m _ (setMember_pairwise h) ?_
    refine canonicalMembers_iff.2 fun p hp ↦ ?_
    rcases mem_setMember hp with rfl | hp
    · exact canonical_isCanonical v
    · exact canonicalMembers_iff.1 h' p hp

end

end Json

/-- A JSON value that is kept and written but not looked into. -/
def OpaqueJson := { v : Json // v.Canonical }

instance : DecidableEq OpaqueJson := inferInstanceAs (DecidableEq { v : Json // v.Canonical })

namespace OpaqueJson

def ofJson (v : Json) : OpaqueJson := ⟨v.canonical, v.canonical_isCanonical⟩

end OpaqueJson

end JobEngine

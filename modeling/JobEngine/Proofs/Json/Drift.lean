import JobEngine.Proofs.Json.Canonical
import Mathlib.Data.List.Perm.Basic
import Mathlib.Logic.Relation

/-!
# Layouts and drift

A layout lists the members that an object is read for. Written by another version the object may
have more of them, miss some that would hold their defaults, and have them in another order: it has
drifted. A reader of a layout obeys two laws. It reads what a written value drifts to as the value
that was written, and it refuses what does not fit the layout.
-/

namespace JobEngine

inductive Plain
  | bool
  | integer (lower upper : ℤ)
  | string
  | oneOf (names : List String)
  | instant
  | strings
  | anything

/-- What is read for a member that is not there; a default is given as it is written. -/
inductive Presence
  | required
  | optional
  | default (written : Json)

inductive Layout
  | plain (type : Plain)
  | object (fields : List (String × Layout × Presence))

abbrev Field := String × Layout × Presence

namespace Plain

def Holds : Plain → Json → Prop
  | bool, v => ∃ b, v = .bool b
  | integer lower upper, v => ∃ n : Wide, v = .num (.int n) ∧ lower ≤ n.val ∧ n.val < upper
  | string, v => ∃ s, v = .str s
  | oneOf names, v => ∃ s ∈ names, v = .str s
  | instant, v => ∃ s t, v = .str s ∧ Instant.read? s = some t
  | strings, v => ∃ xs : List String, v = .arr (xs.map .str)
  | anything, _ => True

end Plain

namespace Members

variable {m l : Members} {k : String} {α : Type}

/-- The values under a key, in written order. -/
def values (m : Members) (k : String) : List Json := (m.filter (·.1 = k)).map (·.2)

@[simp]
theorem values_nil (k : String) : values [] k = [] := rfl

@[simp]
theorem values_cons (x : String × Json) (m : Members) (k : String) :
    values (x :: m) k = if x.1 = k then x.2 :: values m k else values m k := by
  rw [values, List.filter_cons]
  split <;> simp_all [values]

@[simp]
theorem values_append (m l : Members) (k : String) :
    values (m ++ l) k = values m k ++ values l k := by
  rw [values, List.filter_append, List.map_append]
  rfl

theorem values_eq_nil (h : k ∉ m.map (·.1)) : values m k = [] := by
  rw [values, List.map_eq_nil_iff, List.filter_eq_nil_iff]
  intro x hx hk
  exact h (List.mem_map.2 ⟨x, hx, by simpa using hk⟩)

@[simp]
theorem values_ofOption (key k : String) (write : α → Json) (o : Option α) :
    values (ofOption key write o) k = if key = k then (o.map write).toList else [] := by
  cases o with
  | none => simp [ofOption]
  | some a => simp [ofOption]

theorem values_perm (h : m.Perm l) (k : String) : (values m k).Perm (values l k) :=
  (h.filter _).map _

theorem length_values_le (hn : (m.map (·.1)).Nodup) (k : String) : (values m k).length ≤ 1 := by
  induction m with
  | nil => exact Nat.zero_le 1
  | cons x m ih =>
    obtain ⟨hx, hn⟩ := List.nodup_cons.1 hn
    rw [values_cons]
    split
    · next h =>
      rw [values_eq_nil (h ▸ hx)]
      rfl
    · exact ih hn

end Members

theorem eq_of_perm_of_length_le {α : Type} {xs ys : List α} (h : xs.Perm ys) (hx : xs.length ≤ 1) :
    xs = ys := by
  match xs with
  | [] => exact (List.perm_nil.1 h.symm).symm
  | [x] => exact (List.perm_singleton.1 h.symm).symm

namespace Json

variable {m m' done : Members} {k : String} {v w : Json}

theorem find?_canonical (m : Members) (k : String) :
    Members.find? (canonicalMembers [] m) k = (m.values k).getLast?.map canonical := by
  suffices h : ∀ done, (canonicalMembers done m).lookup k =
      ((m.values k).getLast?.map canonical).or (done.lookup k) from (h []).trans Option.or_none
  induction m with
  | nil => exact fun _ ↦ rfl
  | cons x m ih =>
    intro done
    obtain ⟨l, v⟩ := x
    rw [canonicalMembers, ih, lookup_setMember, Members.values_cons]
    by_cases h : l = k
    · rw [if_pos h.symm, if_pos h, List.getLast?_cons]
      cases (Members.values m k).getLast? <;> rfl
    · rw [if_neg (Ne.symm h), if_neg h]

theorem canonicalMembers_append (done m l : Members) :
    canonicalMembers done (m ++ l) = canonicalMembers (canonicalMembers done m) l := by
  induction m generalizing done with
  | nil => rfl
  | cons x m ih => rw [List.cons_append, canonicalMembers, ih, canonicalMembers]

theorem canonicalItems_append (xs ys : List Json) :
    canonicalItems (xs ++ ys) = canonicalItems xs ++ canonicalItems ys := by
  induction xs with
  | nil => rfl
  | cons x xs ih => rw [List.cons_append, canonicalItems, ih, canonicalItems, List.cons_append]

theorem eq_of_lookup (hm : m.Pairwise (fun a b ↦ a.1 < b.1))
    (hm' : m'.Pairwise (fun a b ↦ a.1 < b.1)) (h : ∀ k, m.lookup k = m'.lookup k) : m = m' := by
  have hn : ∀ {l : Members}, l.Pairwise (fun a b ↦ a.1 < b.1) → (l.map (·.1)).Nodup :=
    fun hl ↦ List.pairwise_map.2 (hl.imp fun h ↦ Std.ne_of_lt h)
  have hp : m.Perm m' := by
    refine (List.perm_ext_iff_of_nodup (hn hm).of_map (hn hm').of_map).2 fun x ↦ ?_
    rw [← Lookup.lookup_eq_some_iff_mem (hn hm), h, Lookup.lookup_eq_some_iff_mem (hn hm')]
  exact hp.eq_of_pairwise (fun a b _ _ hab hba ↦ absurd hba (String.lt_asymm hab)) hm hm'

theorem canonicalMembers_perm (hn : (m.map (·.1)).Nodup) (hp : m.Perm m') :
    canonicalMembers [] m = canonicalMembers [] m' := by
  refine eq_of_lookup (canonicalMembers_isCanonical m [] .nil trivial).1
    (canonicalMembers_isCanonical m' [] .nil trivial).1 fun k ↦ ?_
  have hv := eq_of_perm_of_length_le (Members.values_perm hp k) (Members.length_values_le hn k)
  have hf : Members.find? (canonicalMembers [] m) k = Members.find? (canonicalMembers [] m') k := by
    rw [find?_canonical, find?_canonical, hv]
  exact hf

inductive Reorder : Json → Json → Prop
  | here {m m' : Members} (hn : (m.map (·.1)).Nodup) (hp : m.Perm m') : Reorder (.obj m) (.obj m')
  | member {m m' : Members} {k : String} {v v' : Json} (h : Reorder v v') :
      Reorder (.obj (m ++ (k, v) :: m')) (.obj (m ++ (k, v') :: m'))
  | item {xs ys : List Json} {v v' : Json} (h : Reorder v v') :
      Reorder (.arr (xs ++ v :: ys)) (.arr (xs ++ v' :: ys))

theorem Reorder.canonical_eq (h : Reorder v w) : w.canonical = v.canonical := by
  induction h with
  | here hn hp => rw [canonical, canonical, canonicalMembers_perm hn hp]
  | member h ih =>
    simp only [canonical, canonicalMembers_append, canonicalMembers, ih]
  | item h ih => simp only [canonical, canonicalItems_append, canonicalItems, ih]

theorem canonical_eq_null : v.canonical = .null ↔ v = .null := by
  cases v <;> simp [canonical]

theorem Reorder.ne_null (h : Reorder v w) : v ≠ .null ∧ w ≠ .null := by
  cases h <;> exact ⟨Json.noConfusion, Json.noConfusion⟩

end Json

/-- One step of drift. Inside a value that is read as a whole only the order of members changes. -/
inductive Edit : Layout → Json → Json → Prop
  | within {t : Plain} {v v' : Json} (h : Json.Reorder v v') : Edit (.plain t) v v'
  | reorder {fields : List Field} {m m' : Members} (h : m.Perm m') :
      Edit (.object fields) (.obj m) (.obj m')
  | add {fields : List Field} {m : Members} {k : String} {v : Json} (h : ∀ f ∈ fields, f.1 ≠ k) :
      Edit (.object fields) (.obj m) (.obj ((k, v) :: m))
  | drop {fields : List Field} {m : Members} {k : String} {l : Layout} {d : Json}
      (h : (k, l, .default d) ∈ fields) : Edit (.object fields) (.obj ((k, d) :: m)) (.obj m)
  | member {fields : List Field} {m : Members} {k : String} {l : Layout} {p : Presence}
      {v v' : Json} (hf : (k, l, p) ∈ fields) (h : Edit l v v') :
      Edit (.object fields) (.obj ((k, v) :: m)) (.obj ((k, v') :: m))

/-- What a value of a layout may become: members that the layout does not know are added, members
that hold their default are dropped, and members change places, at any level and any number of
times. A default is dropped as it is written, that is before it drifts itself. -/
def Drift (l : Layout) : Json → Json → Prop := Relation.ReflTransGen (Edit l)

mutual

/-- Values that are not of a layout. An array in place of an object is left open here: its items may
stand for the members in their order. -/
inductive Misfit : Layout → Json → Prop
  | plain {t : Plain} {v : Json} (h : ¬ t.Holds v) : Misfit (.plain t) v
  | atom {fields : List Field} {v : Json} (ho : ∀ m, v ≠ .obj m) (ha : ∀ xs, v ≠ .arr xs) :
      Misfit (.object fields) v
  | member {fields : List Field} {m : Members} {f : Field} (hf : f ∈ fields) (h : Spoilt m f) :
      Misfit (.object fields) (.obj m)

inductive Spoilt : Members → Field → Prop
  | missing {m : Members} {k : String} {l : Layout} (h : m.values k = []) :
      Spoilt m (k, l, .required)
  | misfit {m : Members} {k : String} {l : Layout} {p : Presence} {v : Json}
      (h : (m.values k).getLast? = some v) (hn : p = .optional → v ≠ .null) (hm : Misfit l v) :
      Spoilt m (k, l, p)

end

section Drift

variable {t : Plain} {l : Layout} {fields : List Field} {f : Field} {m m' c : Members} {v w : Json}
  {k : String}

theorem Drift.canonical_eq (h : Drift (.plain t) w v) : v.canonical = w.canonical := by
  induction h with
  | refl => rfl
  | tail _ he ih =>
    cases he with
    | within h => exact h.canonical_eq.trans ih

theorem Edit.ne_null (h : Edit l w v) : w ≠ .null ∧ v ≠ .null := by
  cases h with
  | within h => exact h.ne_null
  | _ => exact ⟨Json.noConfusion, Json.noConfusion⟩

theorem Drift.eq_null_iff (h : Drift l w v) : v = .null ↔ w = .null := by
  induction h with
  | refl => exact Iff.rfl
  | tail _ he ih => exact (iff_of_false he.ne_null.2 he.ne_null.1).trans ih

/-- What the values under the key of a field, at most one, have become. -/
inductive Kept : Field → List Json → List Json → Prop
  | absent {f : Field} : Kept f [] []
  | drifted {k : String} {l : Layout} {p : Presence} {v v' : Json} (h : Drift l v v') :
      Kept (k, l, p) [v] [v']
  | dropped {k : String} {l : Layout} {v d : Json} (h : Drift l v d) :
      Kept (k, l, .default d) [v] []

theorem Kept.length_le {xs ys : List Json} (h : Kept f xs ys) : ys.length ≤ 1 := by
  cases h <;> simp

theorem Kept.refl {xs : List Json} (h : xs.length ≤ 1) : Kept f xs xs := by
  match xs with
  | [] => exact .absent
  | [v] => exact .drifted .refl

theorem Kept.edit {p : Presence} {xs ys : List Json} {v' : Json} (h : Kept (k, l, p) xs (v :: ys))
    (he : Edit l v v') : Kept (k, l, p) xs (v' :: ys) := by
  cases h with
  | drifted h => exact .drifted (h.tail he)

theorem Kept.drop {xs ys : List Json} {d : Json} (h : Kept (k, l, .default d) xs (d :: ys)) :
    Kept (k, l, .default d) xs ys := by
  cases h with
  | drifted h => exact .dropped h

theorem Edit.kept (hn : (fields.map (·.1)).Nodup) (he : Edit (.object fields) (.obj m') v)
    (h : ∀ f ∈ fields, Kept f (m.values f.1) (m'.values f.1)) :
    ∃ m'' : Members, v = .obj m'' ∧ ∀ f ∈ fields, Kept f (m.values f.1) (m''.values f.1) := by
  have hu : ∀ {f g : Field}, f ∈ fields → g ∈ fields → f.1 = g.1 → f = g :=
    fun hf hg h ↦ List.inj_on_of_nodup_map hn hf hg h
  cases he with
  | reorder hp =>
    refine ⟨_, rfl, fun f hf ↦ ?_⟩
    rw [← eq_of_perm_of_length_le (Members.values_perm hp f.1) (h f hf).length_le]
    exact h f hf
  | add ha =>
    refine ⟨_, rfl, fun f hf ↦ ?_⟩
    rw [Members.values_cons, if_neg (ha f hf).symm]
    exact h f hf
  | drop hd =>
    refine ⟨_, rfl, fun f hf ↦ ?_⟩
    have hk := h f hf
    rw [Members.values_cons] at hk
    split at hk
    · next hfk =>
      obtain rfl := hu hd hf hfk
      exact hk.drop
    · exact hk
  | member hm he =>
    refine ⟨_, rfl, fun f hf ↦ ?_⟩
    have hk := h f hf
    rw [Members.values_cons] at hk ⊢
    split at hk
    · next hfk =>
      obtain rfl := hu hm hf hfk
      rw [if_pos rfl]
      exact hk.edit he
    · next hfk =>
      rw [if_neg hfk]
      exact hk

/-- What a field is read from: the value that counts among those its written value has become. -/
def Traced (m c : Members) (f : Field) : Prop :=
  ∃ xs, Kept f (m.values f.1) xs ∧ c.find? f.1 = xs.getLast?.map Json.canonical

theorem Drift.traced (hn : (fields.map (·.1)).Nodup) (hm : (m.map (·.1)).Nodup)
    (h : Drift (.object fields) (.obj m) v) :
    ∃ m' : Members, v = .obj m' ∧ ∀ f ∈ fields, Traced m (Json.canonicalMembers [] m') f := by
  suffices hk : ∃ m' : Members, v = .obj m' ∧ ∀ f ∈ fields, Kept f (m.values f.1) (m'.values f.1) by
    obtain ⟨m', rfl, hk⟩ := hk
    exact ⟨m', rfl, fun f hf ↦ ⟨_, hk f hf, Json.find?_canonical m' f.1⟩⟩
  induction h with
  | refl => exact ⟨m, rfl, fun f _ ↦ .refl (Members.length_values_le hm f.1)⟩
  | tail _ he ih =>
    obtain ⟨m', rfl, hk⟩ := ih
    exact he.kept hn hk

end Drift

section Laws

variable {t : Plain} {l : Layout} {fields : List Field} {m m' c : Members} {v w : Json}
  {k : String} {keys : List String} {α β : Type} {read : Json → Option α} {write : α → Json}
  {a d : α} {b : β} {o : Option α} {f : Members → Option β} {g : Members → Option α}

def Reads (l : Layout) (read : Json → Option α) (w : Json) (a : α) : Prop :=
  ∀ v, Drift l w v → read v.canonical = some a

def Rejects (l : Layout) (read : Json → Option α) : Prop :=
  ∀ v, Misfit l v → read v.canonical = none

theorem Reads.written (h : Reads l read w a) : read w.canonical = some a := h w .refl

theorem Reads.plain (h : read w.canonical = some a) : Reads (.plain t) read w a := by
  intro v hd
  rw [hd.canonical_eq, h]

theorem Rejects.plain (h : ∀ v a, read v.canonical = some a → t.Holds v) :
    Rejects (.plain t) read := by
  intro v hm
  cases hm with
  | plain hn => exact Option.eq_none_iff_forall_ne_some.2 fun a ha ↦ hn (h v a ha)

theorem Traced.required (ht : Traced m c (k, l, .required)) (hm : m.values k = [w])
    (hr : Reads l read w a) : c.required k read = some a := by
  obtain ⟨xs, hk, hc⟩ := ht
  rw [hm] at hk
  cases hk with
  | drifted h =>
    rw [Members.required, hc]
    exact hr _ h

theorem Traced.withDefault {w₀ : Json} (ht : Traced m c (k, l, .default w₀)) (hm : m.values k = [w])
    (hr : Reads l read w a) (hd : read w₀.canonical = some d) :
    c.withDefault k read d = some a := by
  obtain ⟨xs, hk, hc⟩ := ht
  rw [hm] at hk
  rw [Members.withDefault, hc]
  cases hk with
  | drifted h => exact hr _ h
  | dropped h => exact hd.symm.trans (hr _ h)

theorem Traced.optional (ht : Traced m c (k, l, .optional)) (hm : m.values k = (o.map write).toList)
    (hr : ∀ a, Reads l read (write a) a) :
    c.optional k read = some (o.filter fun a ↦ write a ≠ .null) := by
  obtain ⟨xs, hk, hc⟩ := ht
  rw [Members.optional, hc]
  cases o with
  | none =>
    rw [hm] at hk
    cases hk with
    | absent => rfl
  | some a =>
    rw [hm] at hk
    cases hk with
    | @drifted _ _ _ _ v h =>
      have hn : v.canonical = .null ↔ write a = .null := Json.canonical_eq_null.trans h.eq_null_iff
      rw [List.getLast?_singleton, Option.map_some, Option.filter_some]
      split
      · next h => cases h
      · next h => rw [if_neg (by simpa using hn.1 (Option.some.inj h))]
      · next hv h' =>
        have hv' := Option.some.inj h'
        have hw : write a ≠ .null := fun hw ↦ hv (hv'.symm.trans (hn.2 hw))
        rw [← hv', hr a _ h, if_pos (by simpa using hw), Option.map_some]

def Restores (fields : List Field) (m : Members) (f : Members → Option β) (b : β) : Prop :=
  ∀ c, (∀ x ∈ fields, Traced m c x) → f c = some b

theorem Reads.object (hn : (fields.map (·.1)).Nodup) (hm : (m.map (·.1)).Nodup)
    (h : Restores fields m f b) :
    Reads (.object fields) (fun v ↦ (v.asMembers? keys).bind f) (.obj m) b := by
  intro v hd
  obtain ⟨m', rfl, ht⟩ := hd.traced hn hm
  simp only [Json.asMembers?_canonical, Option.bind_some]
  exact h _ ht

namespace Restores

theorem done : Restores [] m (fun _ ↦ some b) b := fun _ _ ↦ rfl

theorem bind {x : Field} {f : α → Members → Option β} (hg : ∀ c, Traced m c x → g c = some a)
    (h : Restores fields m (f a) b) :
    Restores (x :: fields) m (fun c ↦ (g c).bind fun a ↦ f a c) b := by
  intro c ht
  obtain ⟨hx, ht⟩ := List.forall_mem_cons.1 ht
  simp only [hg c hx, Option.bind_some]
  exact h c ht

theorem required {f : α → Members → Option β} (hm : m.values k = [w]) (hr : Reads l read w a)
    (h : Restores fields m (f a) b) :
    Restores ((k, l, .required) :: fields) m (fun c ↦ (c.required k read).bind fun a ↦ f a c) b :=
  .bind (fun _ ht ↦ ht.required hm hr) h

theorem withDefault {f : α → Members → Option β} {w₀ : Json} (hm : m.values k = [w])
    (hr : Reads l read w a) (hd : read w₀.canonical = some d) (h : Restores fields m (f a) b) :
    Restores ((k, l, .default w₀) :: fields) m
      (fun c ↦ (c.withDefault k read d).bind fun a ↦ f a c) b :=
  .bind (fun _ ht ↦ ht.withDefault hm hr hd) h

theorem optional_filter {f : Option α → Members → Option β}
    (hm : m.values k = (o.map write).toList) (hr : ∀ a, Reads l read (write a) a)
    (h : Restores fields m (f (o.filter fun a ↦ write a ≠ .null)) b) :
    Restores ((k, l, .optional) :: fields) m
      (fun c ↦ (c.optional k read).bind fun a ↦ f a c) b :=
  .bind (fun _ ht ↦ ht.optional hm hr) h

theorem optional {f : Option α → Members → Option β} (hm : m.values k = (o.map write).toList)
    (hr : ∀ a, Reads l read (write a) a) (hw : ∀ a, write a ≠ .null)
    (h : Restores fields m (f o) b) :
    Restores ((k, l, .optional) :: fields) m
      (fun c ↦ (c.optional k read).bind fun a ↦ f a c) b := by
  have ho : o.filter (fun a ↦ write a ≠ .null) = o := by
    cases o with
    | none => rfl
    | some a => rw [Option.filter_some, if_pos (by simpa using hw a)]
  exact .optional_filter hm hr (ho.symm ▸ h)

theorem map {f : α → β} (h : Restores fields m g a) :
    Restores fields m (fun c ↦ (g c).bind fun a ↦ some (f a)) (f a) := by
  intro c ht
  simp only [h c ht, Option.bind_some]

theorem congr (hm : ∀ x ∈ fields, m.values x.1 = m'.values x.1) (h : Restores fields m f b) :
    Restores fields m' f b := by
  refine fun c ht ↦ h c fun x hx ↦ ?_
  obtain ⟨xs, hk, hc⟩ := ht x hx
  exact ⟨xs, (hm x hx) ▸ hk, hc⟩

end Restores

theorem Spoilt.required (hs : Spoilt m (k, l, .required)) (hr : Rejects l read) :
    Members.required (Json.canonicalMembers [] m) k read = none := by
  rw [Members.required, Json.find?_canonical]
  cases hs with
  | missing h => rw [h]; rfl
  | misfit h _ hm => rw [h]; exact hr _ hm

theorem Spoilt.withDefault (hs : Spoilt m (k, l, .default w)) (hr : Rejects l read) :
    Members.withDefault (Json.canonicalMembers [] m) k read d = none := by
  rw [Members.withDefault, Json.find?_canonical]
  cases hs with
  | misfit h _ hm => rw [h]; exact hr _ hm

theorem Spoilt.optional (hs : Spoilt m (k, l, .optional)) (hr : Rejects l read) :
    Members.optional (Json.canonicalMembers [] m) k read = none := by
  rw [Members.optional, Json.find?_canonical]
  cases hs with
  | @misfit _ _ _ _ v h hn hm =>
    have hc := mt Json.canonical_eq_null.1 (hn rfl)
    rw [h, Option.map_some]
    split
    · next h => cases h
    · next h => exact absurd (Option.some.inj h) hc
    · next h => rw [← Option.some.inj h, hr v hm, Option.map_none]

def Refuses (fields : List Field) (f : Members → Option β) : Prop :=
  ∀ m, (∃ x ∈ fields, Spoilt m x) → f (Json.canonicalMembers [] m) = none

theorem Rejects.object (h : Refuses fields f) :
    Rejects (.object fields) fun v ↦ (v.asMembers? keys).bind f := by
  intro v hm
  cases hm with
  | atom ho ha =>
    cases v with
    | obj m => exact absurd rfl (ho m)
    | arr xs => exact absurd rfl (ha xs)
    | _ => rfl
  | member hx hs =>
    simp only [Json.asMembers?_canonical, Option.bind_some]
    exact h _ ⟨_, hx, hs⟩

namespace Refuses

theorem done : Refuses [] f := fun _ ⟨_, hx, _⟩ ↦ nomatch hx

theorem bind {x : Field} {f : α → Members → Option β}
    (hg : ∀ m, Spoilt m x → g (Json.canonicalMembers [] m) = none) (h : ∀ a, Refuses fields (f a)) :
    Refuses (x :: fields) (fun c ↦ (g c).bind fun a ↦ f a c) := by
  rintro m ⟨y, hy, hs⟩
  rw [Option.bind_eq_none_iff]
  rcases List.mem_cons.1 hy with rfl | hy
  · rw [hg m hs]
    exact fun _ ha ↦ nomatch ha
  · exact fun a _ ↦ h a m ⟨y, hy, hs⟩

theorem map {f : α → β} (h : Refuses fields g) :
    Refuses fields fun c ↦ (g c).bind fun a ↦ some (f a) := by
  intro m hm
  simp only [h m hm, Option.bind_none]

theorem tagged (fields : α → List Field) {h : α → Members → Option β}
    (hf : ∀ c, f c = (g c).bind fun a ↦ h a c) (hr : ∀ a, Refuses (fields a) (h a))
    (hg : g (Json.canonicalMembers [] m) = some a) (hs : ∃ x ∈ fields a, Spoilt m x) :
    f (Json.canonicalMembers [] m) = none := by
  rw [hf, hg]
  exact hr a m hs

theorem required {f : α → Members → Option β} (hr : Rejects l read)
    (h : ∀ a, Refuses fields (f a)) :
    Refuses ((k, l, .required) :: fields) fun c ↦ (c.required k read).bind fun a ↦ f a c :=
  .bind (fun _ hs ↦ hs.required hr) h

theorem withDefault {f : α → Members → Option β} (hr : Rejects l read)
    (h : ∀ a, Refuses fields (f a)) :
    Refuses ((k, l, .default w) :: fields) fun c ↦ (c.withDefault k read d).bind fun a ↦ f a c :=
  .bind (fun _ hs ↦ hs.withDefault hr) h

theorem optional {f : Option α → Members → Option β} (hr : Rejects l read)
    (h : ∀ a, Refuses fields (f a)) :
    Refuses ((k, l, .optional) :: fields) fun c ↦ (c.optional k read).bind fun a ↦ f a c :=
  .bind (fun _ hs ↦ hs.optional hr) h

end Refuses

end Laws

end JobEngine

import JobEngine.Notification.Channel
import JobEngine.Proofs.Json.Canonical
import JobEngine.Proofs.Json.Reading

/-!
# Leaving defaults out

A shape lists the fields of the objects in a value, and what is read for those that may be left out.
An abridgement of a value leaves such fields out where they hold their defaults. Other than a drift
it adds nothing and keeps the order of what is left. A reader keeps a value if it reads every
abridgement of what is written as that value.
-/

namespace JobEngine

/-- How the objects in a value are made up. A field comes with what is read for it if it is left
out, as it is written, or with nothing if it has to be there. -/
inductive Shape
  | whole
  | items (item : Shape)
  | object (fields : List (String × Shape × Option Json))
  | tagged (kinds : List (String × List (String × Shape × Option Json)))

namespace Shape

abbrev Entry := String × Shape × Option Json

mutual

/-- The second value is what is left of the first one when fields that hold their defaults are left
out of it, at any level. -/
inductive Abridges : Shape → Json → Json → Prop
  | same {s : Shape} {v : Json} : Abridges s v v
  | items {item : Shape} {xs ys : List Json} (h : AbridgesItems item xs ys) :
      Abridges (.items item) (.arr xs) (.arr ys)
  | object {fields : List Entry} {m m' : Members} (h : AbridgesMembers fields m m') :
      Abridges (.object fields) (.obj m) (.obj m')
  | tagged {kinds : List (String × List Entry)} {name : String} {fields : List Entry}
      {m m' : Members} (hk : (name, fields) ∈ kinds) (h : AbridgesMembers fields m m') :
      Abridges (.tagged kinds) (.obj (("type", .str name) :: m)) (.obj (("type", .str name) :: m'))

inductive AbridgesItems : Shape → List Json → List Json → Prop
  | nil {item : Shape} : AbridgesItems item [] []
  | cons {item : Shape} {x y : Json} {xs ys : List Json} (h : Abridges item x y)
      (hs : AbridgesItems item xs ys) : AbridgesItems item (x :: xs) (y :: ys)

inductive AbridgesMembers : List Entry → Members → Members → Prop
  | nil {fields : List Entry} : AbridgesMembers fields [] []
  | keep {fields : List Entry} {k : String} {s : Shape} {d : Option Json} {v v' : Json}
      {m m' : Members} (hf : (k, s, d) ∈ fields) (h : Abridges s v v')
      (hm : AbridgesMembers fields m m') : AbridgesMembers fields ((k, v) :: m) ((k, v') :: m')
  | leaveOut {fields : List Entry} {k : String} {s : Shape} {v : Json} {m m' : Members}
      (hf : (k, s, some v) ∈ fields) (hm : AbridgesMembers fields m m') :
      AbridgesMembers fields ((k, v) :: m) m'

end

variable {s : Shape} {fields : List Entry} {m m' : Members} {v v' w w₀ : Json} {k : String}
  {α β : Type} {read : Json → Option α} {write : α → Json} {a d : α} {b : β} {o : Option α}
  {f : Members → Option β} {keys : List String}

mutual

theorem Abridges.depth_le : {s : Shape} → {v v' : Json} → Abridges s v v' → v'.depth ≤ v.depth
  | _, _, _, .same => le_rfl
  | _, _, _, .items h => Nat.succ_le_succ h.depth_le
  | _, _, _, .object h => Nat.succ_le_succ h.depth_le
  | _, _, _, .tagged _ h => Nat.succ_le_succ (max_le_max le_rfl h.depth_le)

theorem AbridgesItems.depth_le : {s : Shape} → {xs ys : List Json} → AbridgesItems s xs ys →
    Json.depthItems ys ≤ Json.depthItems xs
  | _, _, _, .nil => le_rfl
  | _, _, _, .cons h hs => max_le_max h.depth_le hs.depth_le

theorem AbridgesMembers.depth_le : {fields : List Entry} → {m m' : Members} →
    AbridgesMembers fields m m' → Json.depthMembers m' ≤ Json.depthMembers m
  | _, _, _, .nil => le_rfl
  | _, _, _, .keep _ h hm => max_le_max h.depth_le hm.depth_le
  | _, _, _, .leaveOut _ hm => hm.depth_le.trans (le_max_right _ _)

end

theorem AbridgesMembers.keys_sublist (h : AbridgesMembers fields m m') :
    (m'.map (·.1)).Sublist (m.map (·.1)) := by
  induction m generalizing m' with
  | nil =>
    cases h
    exact .refl _
  | cons x m ih =>
    cases h with
    | keep _ _ hm => exact (ih hm).cons_cons _
    | leaveOut _ hm => exact (ih hm).cons _

/-- What stands under the key of a field is what is left of what stood there, or it was the default
and has been left out. -/
def Remains (m m' : Members) (x : Entry) : Prop :=
  ∀ w, m.lookup x.1 = some w →
    (∃ v, m'.find? x.1 = some v ∧ Abridges x.2.1 w v) ∨ (m'.find? x.1 = none ∧ x.2.2 = some w)

theorem remains_self (m : Members) (x : Entry) : Remains m m x := fun w hw ↦ .inl ⟨w, hw, .same⟩

theorem AbridgesMembers.remains (hn : (fields.map (·.1)).Nodup) (hm : (m.map (·.1)).Nodup)
    (h : AbridgesMembers fields m m') {x : Entry} (hx : x ∈ fields) : Remains m m' x := by
  have hu {y : Entry} (hy : y ∈ fields) (he : x.1 = y.1) : x = y :=
    List.inj_on_of_nodup_map hn hx hy he
  induction m generalizing m' with
  | nil =>
    cases h
    exact remains_self _ _
  | cons y m ih =>
    obtain ⟨hy, hnodup⟩ := List.nodup_cons.1 hm
    intro w hw
    rw [Lookup.lookup_cons] at hw
    cases h with
    | @keep _ k s d v v' _ _ hf hv h =>
      by_cases hk : x.1 = k
      · obtain rfl := hu hf hk
        rw [if_pos rfl, Option.some.injEq] at hw
        exact .inl ⟨v', List.lookup_cons_self, hw ▸ hv⟩
      · rw [if_neg hk] at hw
        rw [Members.find?, Lookup.lookup_cons, if_neg hk]
        exact ih hnodup h w hw
    | @leaveOut _ k s v _ _ hf h =>
      by_cases hk : x.1 = k
      · obtain rfl := hu hf hk
        rw [if_pos rfl, Option.some.injEq] at hw
        refine .inr ⟨?_, hw ▸ rfl⟩
        rw [Members.find?, List.lookup_eq_none_iff]
        intro z hz
        have hkey : z.1 ∈ m.map (·.1) := h.keys_sublist.subset (List.mem_map_of_mem hz)
        have hne : k ≠ z.1 := fun he ↦ hy (he ▸ hkey)
        simpa using hne
      · rw [if_neg hk] at hw
        exact ih hnodup h w hw

/-- Whatever a written value is abridged to is read as `a`. -/
def Keeps (s : Shape) (read : Json → Option α) (w : Json) (a : α) : Prop :=
  ∀ v, Abridges s w v → read v = some a

theorem Keeps.whole (h : read w = some a) : Keeps .whole read w a := by
  intro v hv
  cases hv
  exact h

theorem AbridgesItems.refl (s : Shape) (xs : List Json) : AbridgesItems s xs xs := by
  induction xs with
  | nil => exact .nil
  | cons x xs ih => exact .cons .same ih

theorem Abridges.items_left {xs : List Json} (h : Abridges (.items s) (.arr xs) v) :
    ∃ ys, v = .arr ys ∧ AbridgesItems s xs ys := by
  cases h with
  | same => exact ⟨xs, rfl, .refl s xs⟩
  | items h => exact ⟨_, rfl, h⟩

theorem Keeps.items {xs : List α} (h : ∀ x ∈ xs, Keeps s read (write x) x) :
    Keeps (.items s) (Json.asList? read) (.arr (xs.map write)) xs := by
  intro v hv
  obtain ⟨ys, rfl, hys⟩ := hv.items_left
  clear hv
  rw [Json.asList?]
  induction xs generalizing ys with
  | nil =>
    cases hys
    rfl
  | cons x xs ih =>
    obtain ⟨hx, h⟩ := List.forall_mem_cons.1 h
    cases hys with
    | cons hy hys =>
      rw [List.mapM_cons, hx _ hy, ih h _ hys]
      rfl

theorem Abridges.object_left (hn : (fields.map (·.1)).Nodup) (hm : (m.map (·.1)).Nodup)
    (h : Abridges (.object fields) (.obj m) v) :
    ∃ m' : Members, v = .obj m' ∧ (m'.map (·.1)).Nodup ∧ ∀ x ∈ fields, Remains m m' x := by
  cases h with
  | same => exact ⟨m, rfl, hm, fun x _ ↦ remains_self m x⟩
  | object h => exact ⟨_, rfl, hm.sublist h.keys_sublist, fun x ↦ h.remains hn hm⟩

theorem untag?_tagged {tag : Json} (h : "type" ∉ m.map (·.1)) :
    (Json.obj (("type", tag) :: m)).untag? = some (tag, .obj m) := by
  have hp : (("type", tag) :: m).partition (fun x : String × Json ↦ x.1 = "type") =
      ([("type", tag)], m) := by
    have hne : ∀ x ∈ m, x.1 ≠ "type" := fun x hx he ↦ h (he ▸ List.mem_map_of_mem hx)
    rw [List.partition_eq_filter_filter, List.filter_cons_of_pos (by simp),
      List.filter_cons_of_neg (by simp), List.filter_eq_nil_iff.2 (by simpa using hne),
      List.filter_eq_self.2 (by simpa using hne)]
  rw [Json.untag?, hp]

/-- A tagged object keeps its tag, and the fields that go with it are those of no other tag. -/
theorem Abridges.tagged_left {kinds : List (String × List Entry)} {name : String}
    (hk : (name, fields) ∈ kinds) (hu : (kinds.map (·.1)).Nodup) (hn : (fields.map (·.1)).Nodup)
    (hm : ("type" :: m.map (·.1)).Nodup)
    (h : Abridges (.tagged kinds) (.obj (("type", .str name) :: m)) v) :
    ∃ m' : Members, v.untag? = some (.str name, .obj m') ∧ (m'.map (·.1)).Nodup ∧
      ∀ x ∈ fields, Remains m m' x := by
  obtain ⟨ht, hm⟩ := List.nodup_cons.1 hm
  cases h with
  | same => exact ⟨m, untag?_tagged ht, hm, fun x _ ↦ remains_self m x⟩
  | tagged hk' h =>
    obtain rfl : _ = fields := congrArg Prod.snd (List.inj_on_of_nodup_map hu hk' hk rfl)
    have hs := h.keys_sublist
    exact ⟨_, untag?_tagged fun hx ↦ ht (hs.subset hx), hm.sublist hs, fun x ↦ h.remains hn hm⟩

section Remains

variable (hx : Remains m m' (k, s, some w₀)) (hm : m.lookup k = some w)

include hm

theorem Remains.required (hx : Remains m m' (k, s, none)) (hr : Keeps s read w a) :
    m'.required k read = some a := by
  rw [Members.required]
  rcases hx w hm with ⟨v, hv, ha⟩ | ⟨-, hd⟩
  · rw [hv]
    exact hr v ha
  · cases hd

include hx

theorem Remains.withDefault (hr : Keeps s read w a) (hd : read w₀ = some d) :
    m'.withDefault k read d = some a := by
  rw [Members.withDefault]
  rcases hx w hm with ⟨v, hv, ha⟩ | ⟨hv, hw⟩
  · rw [hv]
    exact hr v ha
  · obtain rfl := Option.some.inj hw
    rw [hv]
    exact hd.symm.trans (hr _ .same)

end Remains

theorem Remains.optional (hx : Remains m m' (k, .whole, some .null))
    (hm : m.lookup k = some (Members.orNull write o)) (hr : ∀ a, read (write a) = some a)
    (hw : ∀ a, write a ≠ .null) : m'.optional k read = some o := by
  rw [Members.optional]
  rcases hx _ hm with ⟨v, hv, ha⟩ | ⟨hv, hd⟩
  · cases ha
    rw [hv]
    cases o with
    | none => rfl
    | some a =>
      rw [Members.orNull]
      split
      · next h => cases h
      · next h => exact absurd (Option.some.inj h) (hw a)
      · next h => rw [← Option.some.inj h, hr, Option.map_some]
  · cases o with
    | none => rw [hv]
    | some a => exact absurd (Option.some.inj hd).symm (hw a)

/-- From whatever is left of the fields among written members, `f` reads `b`. -/
def Recovers (fields : List Entry) (m : Members) (f : Members → Option β) (b : β) : Prop :=
  ∀ m', (∀ x ∈ fields, Remains m m' x) → f m' = some b

theorem Keeps.object (hn : (fields.map (·.1)).Nodup) (hm : (m.map (·.1)).Nodup)
    (h : Recovers fields m f b) :
    Keeps (.object fields) (fun v ↦ (v.asMembers? keys).bind f) (.obj m) b := by
  intro v hv
  obtain ⟨m', rfl, hm', hx⟩ := hv.object_left hn hm
  simp only [Json.asMembers?_obj hm', Option.bind_some]
  exact h m' hx

theorem Keeps.tagged {kinds : List (String × List Entry)} {name : String} {read : Json → Option β}
    (hk : (name, fields) ∈ kinds) (hu : (kinds.map (·.1)).Nodup) (hn : (fields.map (·.1)).Nodup)
    (hm : ("type" :: m.map (·.1)).Nodup)
    (hread : ∀ v v', v.untag? = some (.str name, v') → read v = (v'.asMembers? keys).bind f)
    (h : Recovers fields m f b) :
    Keeps (.tagged kinds) read (.obj (("type", .str name) :: m)) b := by
  intro v hv
  obtain ⟨m', htag, hm', hx⟩ := hv.tagged_left hk hu hn hm
  rw [hread v _ htag, Json.asMembers?_obj hm', Option.bind_some]
  exact h m' hx

namespace Recovers

theorem done : Recovers [] m (fun _ ↦ some b) b := fun _ _ ↦ rfl

theorem append {first : List Entry} {g : Members → Option α} {f : α → Members → Option β}
    (hg : Recovers first m g a) (h : Recovers fields m (f a) b) :
    Recovers (first ++ fields) m (fun c ↦ (g c).bind fun a ↦ f a c) b := by
  intro m' hx
  obtain ⟨hfirst, hx⟩ := List.forall_mem_append.1 hx
  simp only [hg m' hfirst, Option.bind_some]
  exact h m' hx

theorem cons {x : Entry} {g : Members → Option α} {f : α → Members → Option β}
    (hg : ∀ m', Remains m m' x → g m' = some a) (h : Recovers fields m (f a) b) :
    Recovers (x :: fields) m (fun c ↦ (g c).bind fun a ↦ f a c) b := by
  have hx : Recovers [x] m g a := fun m' hx ↦ hg m' (List.forall_mem_singleton.1 hx)
  exact hx.append h

theorem required {f : α → Members → Option β} (hm : m.lookup k = some w) (hr : Keeps s read w a)
    (h : Recovers fields m (f a) b) :
    Recovers ((k, s, none) :: fields) m (fun c ↦ (c.required k read).bind fun a ↦ f a c) b :=
  .cons (fun _ hx ↦ hx.required hm hr) h

theorem withDefault {f : α → Members → Option β} (hm : m.lookup k = some w)
    (hr : Keeps s read w a) (hd : read w₀ = some d) (h : Recovers fields m (f a) b) :
    Recovers ((k, s, some w₀) :: fields) m
      (fun c ↦ (c.withDefault k read d).bind fun a ↦ f a c) b :=
  .cons (fun _ hx ↦ hx.withDefault hm hr hd) h

theorem optional {f : Option α → Members → Option β}
    (hm : m.lookup k = some (Members.orNull write o)) (hr : ∀ a, read (write a) = some a)
    (hw : ∀ a, write a ≠ .null) (h : Recovers fields m (f o) b) :
    Recovers ((k, .whole, some .null) :: fields) m
      (fun c ↦ (c.optional k read).bind fun a ↦ f a c) b :=
  .cons (fun _ hx ↦ hx.optional hm hr hw) h

end Recovers

end Shape

end JobEngine

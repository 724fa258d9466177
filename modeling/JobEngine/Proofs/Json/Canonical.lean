import JobEngine.Json.Members
import JobEngine.Proofs.Lookup
import JobEngine.Proofs.Json.Lexing

namespace JobEngine.Json

open Lookup

variable {m done : Members} {k : String} {v : Json}

theorem lookup_setMember (k l : String) (v : Json) (m : Members) :
    (setMember k v m).lookup l = if l = k then some v else m.lookup l := by
  induction m with
  | nil => rw [setMember, lookup_cons]
  | cons x m ih =>
    obtain ⟨a, w⟩ := x
    rw [setMember]
    split
    · rw [lookup_cons]
    · split
      · next h =>
        rw [lookup_cons, lookup_cons, ← h]
        split <;> rfl
      · next h =>
        rw [lookup_cons, lookup_cons, ih]
        split
        · next hl => rw [if_neg (hl ▸ Ne.symm h)]
        · rfl

theorem setMember_append (h : ∀ p ∈ done, p.1 < k) : setMember k v done = done ++ [(k, v)] := by
  induction done with
  | nil => rfl
  | cons x done ih =>
    obtain ⟨hx, hd⟩ := List.forall_mem_cons.1 h
    rw [setMember, if_neg (String.lt_asymm hx), if_neg (Std.ne_of_lt hx).symm, ih hd]
    rfl

mutual

theorem canonical_eq : (v : Json) → v.Canonical → v.canonical = v
  | .null, _ | .bool _, _ | .num _, _ | .str _, _ => rfl
  | .arr items, h => by rw [canonical, canonicalItems_eq items h]
  | .obj members, h => by rw [canonical, canonicalMembers_eq members [] h.1 h.2, List.nil_append]

theorem canonicalItems_eq : (xs : List Json) → CanonicalItems xs → canonicalItems xs = xs
  | [], _ => rfl
  | x :: xs, h => by rw [canonicalItems, canonical_eq x h.1, canonicalItems_eq xs h.2]

theorem canonicalMembers_eq : (m done : Members) → (done ++ m).Pairwise (fun a b ↦ a.1 < b.1) →
    CanonicalMembers m → canonicalMembers done m = done ++ m
  | [], done, _, _ => (List.append_nil done).symm
  | (k, v) :: m, done, hp, h => by
    have hk : ∀ p ∈ done, p.1 < k :=
      fun p hp' ↦ (List.pairwise_append.1 hp).2.2 p hp' _ List.mem_cons_self
    rw [canonicalMembers, canonical_eq v h.1, setMember_append hk,
      canonicalMembers_eq m _ (by rwa [List.append_cons] at hp) h.2, ← List.append_cons]

end

theorem rereadItems_eq_map (xs : List Json) : rereadItems xs = xs.map reread := by
  induction xs with
  | nil => rfl
  | cons x xs ih => rw [rereadItems, ih, List.map_cons]

theorem rereadMembers_eq_map (m : Members) : rereadMembers m = m.map fun x ↦ (x.1, x.2.reread) := by
  induction m with
  | nil => rfl
  | cons x m ih => rw [rereadMembers, ih, List.map_cons]

mutual

theorem reread_isCanonical : (v : Json) → v.Canonical → v.reread.Canonical
  | .null, _ | .bool _, _ | .num _, _ | .str _, _ => trivial
  | .arr items, h => rereadItems_isCanonical items h
  | .obj members, h => by
    refine ⟨?_, rereadMembers_isCanonical members h.2⟩
    rw [rereadMembers_eq_map, List.pairwise_map]
    exact h.1

theorem rereadItems_isCanonical : (xs : List Json) → CanonicalItems xs →
    CanonicalItems (rereadItems xs)
  | [], _ => trivial
  | x :: xs, h => ⟨reread_isCanonical x h.1, rereadItems_isCanonical xs h.2⟩

theorem rereadMembers_isCanonical : (m : Members) → CanonicalMembers m →
    CanonicalMembers (rereadMembers m)
  | [], _ => trivial
  | (_, v) :: m, h => ⟨reread_isCanonical v h.1, rereadMembers_isCanonical m h.2⟩

end

theorem unrepeated_of_nodup (hn : (m.map (·.1)).Nodup) (keys : List String) :
    unrepeated keys m = true := by
  rw [unrepeated, List.all_eq_true]
  intro k _
  rw [decide_eq_true_eq]
  refine le_trans (le_of_eq ?_) (List.nodup_iff_count_le_one.1 hn k)
  rw [List.count, List.countP_map]
  rfl

theorem asMembers?_obj (hn : (m.map (·.1)).Nodup) (keys : List String) :
    (obj m).asMembers? keys = some m := by
  rw [asMembers?, if_pos (unrepeated_of_nodup hn keys)]

theorem asMembers?_canonical (keys : List String) (m : Members) :
    (canonical (.obj m)).asMembers? keys = some (canonicalMembers [] m) := by
  have hp := (canonicalMembers_isCanonical m [] .nil trivial).1
  have hn : ((canonicalMembers [] m).map (·.1)).Nodup :=
    (List.pairwise_map.2 hp).imp fun h ↦ Std.ne_of_lt h
  rw [canonical, asMembers?_obj hn]

end JobEngine.Json

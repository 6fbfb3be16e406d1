import Thompson.Ordered.Set

/-!
Merging as an operation on finite maps. It is associative if the joining of
values is, and the empty map is neutral. A merge has the keys of both sides and
loses nothing of what they measure. Keys are listed without repetition, and so
are the members of a set; from the list the map or the set is built again.
-/

namespace Thompson

namespace OrdMap

variable {κ ν : Type} [Ranked κ]

@[simp]
theorem merge_empty (join : ν → ν → ν) (a : OrdMap κ ν) : a.merge join ∅ = a := by
  apply ext
  intro key
  rw [get?_merge, get?_empty, Option.merge_none_right]

@[simp]
theorem empty_merge (join : ν → ν → ν) (a : OrdMap κ ν) : merge join ∅ a = a := by
  apply ext
  intro key
  rw [get?_merge, get?_empty, Option.merge_none_left]

instance associative_merge (join : ν → ν → ν) [Std.Associative join] :
    Std.Associative (merge join : OrdMap κ ν → OrdMap κ ν → OrdMap κ ν) where
  assoc a b c := by
    apply ext
    intro key
    simp only [get?_merge]
    exact Std.Associative.assoc _ _ _

theorem single_inj {k l : κ} {v w : ν} : single k v = single l w ↔ k = l ∧ v = w := by
  constructor
  · intro h
    have hentries : [(k, v)] = [(l, w)] := congrArg entries h
    exact Prod.mk.inj (List.cons.inj hentries).1
  · rintro ⟨rfl, rfl⟩
    rfl

theorem mem_keys_merge {join : ν → ν → ν} {a b : OrdMap κ ν} {key : κ} :
    key ∈ (a.merge join b).keys ↔ key ∈ a.keys ∨ key ∈ b.keys := by
  rw [mem_keys_iff, mem_keys_iff, mem_keys_iff, get?_merge]
  cases a.get? key <;> cases b.get? key <;> simp

/-- Maps with the same keys are equal if no key tells them apart. -/
theorem eq_of_keys {a b : OrdMap κ ν} (hkeys : ∀ key, key ∈ a.keys ↔ key ∈ b.keys)
    (hvalues : ∀ key v w, a.get? key = some v → b.get? key = some w → v = w) : a = b := by
  apply ext
  intro key
  have hkey := hkeys key
  rw [mem_keys_iff, mem_keys_iff] at hkey
  cases ha : a.get? key with
  | none =>
      cases hb : b.get? key with
      | none => rfl
      | some w => simp [ha, hb] at hkey
  | some v =>
      obtain ⟨w, hb⟩ := hkey.mp ⟨v, ha⟩
      rw [hb, hvalues key v w ha hb]

/-- What the values measure together. -/
def total (size : ν → Nat) (m : OrdMap κ ν) : Nat :=
  m.entries.foldr (fun entry n => size entry.2 + n) 0

/-- A merge loses nothing of what its sides measure, whatever keys they share, if the
joining of two values loses nothing. -/
theorem total_merge {join : ν → ν → ν} {size : ν → Nat}
    (hjoin : ∀ v w, size (join v w) = size v + size w) (a b : OrdMap κ ν) :
    (a.merge join b).total size = a.total size + b.total size := by
  suffices h : ∀ left right : List (κ × ν),
      (Entries.merge join left right).foldr (fun entry n => size entry.2 + n) 0 =
        left.foldr (fun entry n => size entry.2 + n) 0 +
          right.foldr (fun entry n => size entry.2 + n) 0 from h a.entries b.entries
  intro left
  induction left with
  | nil =>
      intro right
      exact (Nat.zero_add _).symm
  | cons first left ihl =>
      intro right
      obtain ⟨k, v⟩ := first
      induction right with
      | nil =>
          rw [Entries.merge_cons_nil, List.foldr_cons, List.foldr_cons, ihl]
          exact (Nat.add_assoc _ _ _).symm
      | cons second right ihr =>
          obtain ⟨l, w⟩ := second
          rw [Entries.merge_cons_cons]
          split
          · simp only [List.foldr_cons, ihl]
            omega
          · split
            · simp only [List.foldr_cons, ihl, hjoin]
              omega
            · simp only [List.foldr_cons, ihr]
              omega

/-- To count what entries stand for, entry by entry, is a measure of the values. -/
theorem countP_flatMap_entries {α : Type} {p : α → Bool} {f : κ × ν → List α} {size : ν → Nat}
    (h : ∀ k v, (f (k, v)).countP p = size v) (m : OrdMap κ ν) :
    (m.entries.flatMap f).countP p = m.total size := by
  rw [total]
  induction m.entries with
  | nil => rfl
  | cons entry rest ih => rw [List.flatMap_cons, List.countP_append, h, ih, List.foldr_cons]

section Rename

variable {κ' ν' : Type} [Ranked κ'] {f : κ → κ'}
  (hf : ∀ a b : κ, rank a < rank b → rank (f a) < rank (f b))

/-- A merge under new keys is the merge of its sides under these keys. The recursion compares
keys only, and the new ones compare alike. -/
theorem rename_merge {join : ν → ν → ν} {join' : ν' → ν' → ν'} {g : ν → ν'}
    (hg : ∀ v w, g (join v w) = join' (g v) (g w)) (a b : OrdMap κ ν) :
    (a.merge join b).rename f hf g = (a.rename f hf g).merge join' (b.rename f hf g) := by
  suffices h : ∀ left right : List (κ × ν),
      (Entries.merge join left right).map (Prod.map f g) =
        Entries.merge join' (left.map (Prod.map f g)) (right.map (Prod.map f g)) by
    simp only [rename, merge, h]
  intro left
  induction left with
  | nil =>
      intro right
      rfl
  | cons first left ihl =>
      intro right
      obtain ⟨k, v⟩ := first
      induction right with
      | nil =>
          rw [Entries.merge_cons_nil, List.map_cons, ihl]
          rfl
      | cons second right ihr =>
          obtain ⟨l, w⟩ := second
          rw [Entries.merge_cons_cons]
          simp only [List.map_cons, Prod.map_apply] at ihr ⊢
          rw [Entries.merge_cons_cons]
          rcases Nat.lt_trichotomy (rank k) (rank l) with hlt | heq | hgt
          · rw [if_pos hlt, if_pos (hf _ _ hlt), List.map_cons, ihl, List.map_cons, Prod.map_apply,
              Prod.map_apply]
          · obtain rfl : k = l := Ranked.rank_inj heq
            simp only [Nat.lt_irrefl, if_true, if_false, List.map_cons, Prod.map_apply, ihl, hg]
          · have hgt' := hf _ _ hgt
            rw [if_neg (Nat.lt_asymm hgt), if_neg (Nat.ne_of_gt hgt), if_neg (Nat.lt_asymm hgt'),
              if_neg (Nat.ne_of_gt hgt'), List.map_cons, ihr, Prod.map_apply]

theorem keys_rename (g : ν → ν') (m : OrdMap κ ν) : (m.rename f hf g).keys = m.keys.map f := by
  rw [keys, keys, rename, List.map_map, List.map_map]
  rfl

end Rename

/-- A new key is inserted by a merge of any kind. -/
theorem insert_eq_merge [DecidableEq κ] (join : ν → ν → ν) {m : OrdMap κ ν} {k : κ} (v : ν)
    (hnew : m.get? k = none) : m.insert k v = m.merge join (single k v) := by
  apply ext
  intro key
  rw [get?_insert, get?_merge, get?_single]
  split
  · next hkey => rw [← hkey, hnew, Option.merge_none_left]
  · rw [Option.merge_none_right]

/-- The entries whose keys pass. -/
def filter (p : κ → Bool) (m : OrdMap κ ν) : OrdMap κ ν where
  entries := m.entries.filter fun entry => p entry.1
  ascending := m.ascending.filter _

theorem get?_filter (p : κ → Bool) (m : OrdMap κ ν) (key : κ) :
    (m.filter p).get? key = if p key then m.get? key else none := by
  apply Option.ext
  intro v
  rw [← mem_entries_iff]
  change (key, v) ∈ m.entries.filter (fun entry => p entry.1) ↔ _
  rw [List.mem_filter, mem_entries_iff]
  by_cases hp : p key = true <;> simp [hp]

theorem nodup_keys (m : OrdMap κ ν) : m.keys.Nodup := by
  apply List.pairwise_map.mpr
  apply m.ascending.imp
  intro a b hlt heq
  rw [heq] at hlt
  exact Nat.lt_irrefl _ hlt

theorem get?_foldl_insert [DecidableEq κ] {entries : List (κ × ν)}
    (hasc : Entries.Ascending entries) (m : OrdMap κ ν) (key : κ) :
    (entries.foldl (fun m (k, v) => m.insert k v) m).get? key =
      (Entries.find key entries).or (m.get? key) := by
  induction entries generalizing m with
  | nil => rfl
  | cons entry rest ih =>
      obtain ⟨k, v⟩ := entry
      obtain ⟨hlt, hrest⟩ := List.pairwise_cons.mp hasc
      rw [List.foldl_cons, ih hrest, get?_insert, Entries.find_cons]
      by_cases hkey : k = key
      · subst hkey
        rw [Entries.find_eq_none_of_lt hlt, if_pos rfl, if_pos rfl]
        rfl
      · have hrank : rank k ≠ rank key := fun h => hkey (Ranked.rank_inj h)
        rw [if_neg hkey, if_neg hrank]

/-- A map is built again from its entries. -/
theorem ofList_entries [DecidableEq κ] (m : OrdMap κ ν) : ofList m.entries = m := by
  apply ext
  intro key
  rw [ofList, get?_foldl_insert m.ascending, get?_empty, Option.or_none]
  rfl

end OrdMap

namespace OrdSet

variable {κ : Type} [Ranked κ]

theorem union_assoc (a b c : OrdSet κ) : a ∪ b ∪ c = a ∪ (b ∪ c) := by
  apply ext
  intro k
  rw [mem_union, mem_union, mem_union, mem_union, or_assoc]

theorem nodup_toList (s : OrdSet κ) : s.toList.Nodup := OrdMap.nodup_keys s

theorem ofList_toList [DecidableEq κ] (s : OrdSet κ) : ofList s.toList = s := by
  apply ext
  intro k
  rw [mem_ofList, mem_toList]

@[simp]
theorem toList_singleton (k : κ) : OrdSet.toList {k} = [k] := rfl

end OrdSet

end Thompson

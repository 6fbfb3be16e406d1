/-!
Finite maps as lists of entries whose keys strictly ascend. Every finite map
has exactly one such list, so two maps that answer every look-up alike are
equal (`OrdMap.ext`). Maps grow in one way only: `merge` brings two of them
together, and `get?_merge` says what it does to every look-up.
-/

namespace Thompson

/-- Keys are compared through a number that no two of them share. -/
class Ranked (κ : Type) where
  rank : κ → Nat
  rank_inj : ∀ {a b : κ}, rank a = rank b → a = b

export Ranked (rank)

instance : Ranked Nat where
  rank n := n
  rank_inj h := h

theorem rank_eq_iff {κ : Type} [Ranked κ] {a b : κ} : rank a = rank b ↔ a = b :=
  ⟨Ranked.rank_inj, fun h => h ▸ rfl⟩

namespace Entries

variable {κ ν : Type} [Ranked κ]

def Ascending (entries : List (κ × ν)) : Prop :=
  entries.Pairwise fun a b => rank a.1 < rank b.1

def find (key : κ) : List (κ × ν) → Option ν
  | [] => none
  | (k, v) :: rest => if rank k = rank key then some v else find key rest

/-- Puts one entry of the left list among those of the right list, and hands
what lies beyond it to `onward`, which places the rest of the left list. -/
def place (join : ν → ν → ν) (k : κ) (v : ν)
    (onward : List (κ × ν) → List (κ × ν)) : List (κ × ν) → List (κ × ν)
  | [] => (k, v) :: onward []
  | (l, w) :: right =>
      if rank k < rank l then (k, v) :: onward ((l, w) :: right)
      else if rank k = rank l then (k, join v w) :: onward right
      else (l, w) :: place join k v onward right

/-- Two ascending lists as one. A key of both keeps one entry, in which
`join` has brought the left value and the right value together. -/
def merge (join : ν → ν → ν) : List (κ × ν) → List (κ × ν) → List (κ × ν)
  | [] => fun right => right
  | (k, v) :: left => place join k v (merge join left)

theorem find_cons (key k : κ) (v : ν) (rest : List (κ × ν)) :
    find key ((k, v) :: rest) = if rank k = rank key then some v else find key rest :=
  rfl

/-- A key that lies below every entry is not found. -/
theorem find_eq_none_of_lt {key : κ} {entries : List (κ × ν)}
    (h : ∀ e ∈ entries, rank key < rank e.1) : find key entries = none := by
  induction entries with
  | nil => rfl
  | cons e rest ih =>
      have hne : rank e.1 ≠ rank key := Nat.ne_of_gt (h e List.mem_cons_self)
      rw [find, if_neg hne]
      exact ih fun e' he' => h e' (List.mem_cons_of_mem _ he')

theorem mem_of_find {key : κ} {v : ν} {entries : List (κ × ν)}
    (h : find key entries = some v) : (key, v) ∈ entries := by
  induction entries with
  | nil => cases h
  | cons e rest ih =>
      rw [find] at h
      split at h
      · rename_i hk
        cases h
        rw [← rank_eq_iff.mp hk]
        exact List.mem_cons_self
      · exact List.mem_cons_of_mem _ (ih h)

theorem find_of_mem {key : κ} {v : ν} {entries : List (κ × ν)}
    (hasc : Ascending entries) (h : (key, v) ∈ entries) : find key entries = some v := by
  induction entries with
  | nil => cases h
  | cons e rest ih =>
      obtain ⟨hlt, hrest⟩ := List.pairwise_cons.mp hasc
      rcases List.mem_cons.mp h with rfl | hmem
      · simp [find]
      · have hne : rank e.1 ≠ rank key := Nat.ne_of_lt (hlt _ hmem)
        rw [find, if_neg hne]
        exact ih hrest hmem

theorem merge_cons_nil (join : ν → ν → ν) (k : κ) (v : ν) (left : List (κ × ν)) :
    merge join ((k, v) :: left) [] = (k, v) :: merge join left [] :=
  rfl

theorem merge_cons_cons (join : ν → ν → ν) (k : κ) (v : ν) (left : List (κ × ν))
    (l : κ) (w : ν) (right : List (κ × ν)) :
    merge join ((k, v) :: left) ((l, w) :: right) =
      if rank k < rank l then (k, v) :: merge join left ((l, w) :: right)
      else if rank k = rank l then (k, join v w) :: merge join left right
      else (l, w) :: merge join ((k, v) :: left) right :=
  rfl

/-- What holds of the keys of both sides holds of the keys of the merge. -/
theorem forall_key_merge {join : ν → ν → ν} (P : κ → Prop) {left right : List (κ × ν)}
    (hleft : ∀ e ∈ left, P e.1) (hright : ∀ e ∈ right, P e.1) :
    ∀ e ∈ merge join left right, P e.1 := by
  induction left generalizing right with
  | nil => exact hright
  | cons a left ihl =>
      obtain ⟨hk, hleft'⟩ := List.forall_mem_cons.mp hleft
      induction right with
      | nil => exact List.forall_mem_cons.mpr ⟨hk, ihl hleft' hright⟩
      | cons b right ihr =>
          obtain ⟨hl, hright'⟩ := List.forall_mem_cons.mp hright
          rw [merge_cons_cons]
          split
          · exact List.forall_mem_cons.mpr ⟨hk, ihl hleft' hright⟩
          · split
            · exact List.forall_mem_cons.mpr ⟨hk, ihl hleft' hright'⟩
            · exact List.forall_mem_cons.mpr ⟨hl, ihr hright'⟩

theorem ascending_merge {join : ν → ν → ν} {left right : List (κ × ν)}
    (hleft : Ascending left) (hright : Ascending right) :
    Ascending (merge join left right) := by
  induction left generalizing right with
  | nil => exact hright
  | cons a left ihl =>
      obtain ⟨hk, hleft'⟩ := List.pairwise_cons.mp hleft
      induction right with
      | nil =>
          refine List.pairwise_cons.mpr ⟨?_, ihl hleft' hright⟩
          exact forall_key_merge (rank a.1 < rank ·) hk (by simp)
      | cons b right ihr =>
          obtain ⟨hl, hright'⟩ := List.pairwise_cons.mp hright
          rw [merge_cons_cons]
          split
          · rename_i hlt
            refine List.pairwise_cons.mpr ⟨?_, ihl hleft' hright⟩
            refine forall_key_merge (rank a.1 < rank ·) hk (List.forall_mem_cons.mpr ⟨hlt, ?_⟩)
            exact fun e he => Nat.lt_trans hlt (hl e he)
          · split
            · rename_i heq
              refine List.pairwise_cons.mpr ⟨?_, ihl hleft' hright'⟩
              exact forall_key_merge (rank a.1 < rank ·) hk fun e he => heq ▸ hl e he
            · rename_i hnlt hne
              have hgt : rank b.1 < rank a.1 := by omega
              refine List.pairwise_cons.mpr ⟨?_, ihr hright'⟩
              refine forall_key_merge (rank b.1 < rank ·) (List.forall_mem_cons.mpr ⟨hgt, ?_⟩) hl
              exact fun e he => Nat.lt_trans hgt (hk e he)

/-- A look-up in a merge joins the look-ups in the two sides. -/
theorem find_merge {join : ν → ν → ν} {left right : List (κ × ν)} (key : κ)
    (hleft : Ascending left) (hright : Ascending right) :
    find key (merge join left right) =
      Option.merge join (find key left) (find key right) := by
  induction left generalizing right with
  | nil => simp [merge, find]
  | cons a left ihl =>
      obtain ⟨k, v⟩ := a
      obtain ⟨hk, hleft'⟩ := List.pairwise_cons.mp hleft
      induction right with
      | nil =>
          rw [merge_cons_nil, find_cons, find_cons, ihl hleft' hright]
          split <;> simp [find]
      | cons b right ihr =>
          obtain ⟨l, w⟩ := b
          obtain ⟨hl, hright'⟩ := List.pairwise_cons.mp hright
          rw [merge_cons_cons]
          split
          · rename_i hlt
            rw [find_cons, find_cons key k, ihl hleft' hright]
            by_cases hkey : rank k = rank key
            · have hnone : find key ((l, w) :: right) = none := by
                refine find_eq_none_of_lt (List.forall_mem_cons.mpr ⟨hkey ▸ hlt, ?_⟩)
                exact fun e he => hkey ▸ Nat.lt_trans hlt (hl e he)
              simp [hkey, hnone]
            · simp [hkey]
          · split
            · rename_i heq
              rw [find_cons, find_cons key k, find_cons key l, ihl hleft' hright', ← heq]
              split <;> simp
            · rename_i hnlt hne
              have hgt : rank l < rank k := by omega
              rw [find_cons, ihr hright', find_cons key l]
              by_cases hkey : rank l = rank key
              · have hnone : find key ((k, v) :: left) = none := by
                  refine find_eq_none_of_lt (List.forall_mem_cons.mpr ⟨hkey ▸ hgt, ?_⟩)
                  exact fun e he => hkey ▸ Nat.lt_trans hgt (hk e he)
                simp [hkey, hnone]
              · simp [hkey]

/-- Two ascending lists in which every look-up agrees are one list. -/
theorem eq_of_find_eq {left right : List (κ × ν)}
    (hleft : Ascending left) (hright : Ascending right)
    (h : ∀ key, find key left = find key right) : left = right := by
  induction left generalizing right with
  | nil =>
      cases right with
      | nil => rfl
      | cons b right =>
          have hb := h b.1
          simp [find] at hb
  | cons a left ih =>
      obtain ⟨k, v⟩ := a
      obtain ⟨hk, hleft'⟩ := List.pairwise_cons.mp hleft
      cases right with
      | nil =>
          have ha := h k
          simp [find] at ha
      | cons b right =>
          obtain ⟨l, w⟩ := b
          obtain ⟨hl, hright'⟩ := List.pairwise_cons.mp hright
          have hkl : rank k = rank l := by
            have hmem : (k, v) ∈ (l, w) :: right :=
              mem_of_find ((h k).symm.trans (by simp [find]))
            have hmem' : (l, w) ∈ (k, v) :: left :=
              mem_of_find ((h l).trans (by simp [find]))
            rcases List.mem_cons.mp hmem with heq | hin
            · rw [(Prod.mk.inj heq).1]
            · rcases List.mem_cons.mp hmem' with heq | hin'
              · rw [(Prod.mk.inj heq).1]
              · exact absurd (hl _ hin) (Nat.lt_asymm (hk _ hin'))
          have hkeys : k = l := rank_eq_iff.mp hkl
          subst hkeys
          have hvals : v = w := by simpa [find] using h k
          subst hvals
          have htails : ∀ key, find key left = find key right := by
            intro key
            by_cases hkey : rank k = rank key
            · rw [find_eq_none_of_lt fun e he => hkey ▸ hk e he,
                find_eq_none_of_lt fun e he => hkey ▸ hl e he]
            · simpa [find, hkey] using h key
          rw [ih hleft' hright' htails]

end Entries

/-- A finite map. -/
structure OrdMap (κ ν : Type) [Ranked κ] where
  entries : List (κ × ν)
  ascending : Entries.Ascending entries

namespace OrdMap

variable {κ ν : Type} [Ranked κ]

instance [DecidableEq κ] [DecidableEq ν] : DecidableEq (OrdMap κ ν) := fun a b =>
  decidable_of_iff (a.entries = b.entries)
    ⟨fun h => by cases a; cases b; cases h; rfl, fun h => h ▸ rfl⟩

def empty : OrdMap κ ν := ⟨[], List.Pairwise.nil⟩

instance : EmptyCollection (OrdMap κ ν) := ⟨empty⟩

def single (k : κ) (v : ν) : OrdMap κ ν := ⟨[(k, v)], List.pairwise_singleton _ _⟩

def get? (m : OrdMap κ ν) (key : κ) : Option ν := Entries.find key m.entries

/-- The keys, in ascending order. -/
def keys (m : OrdMap κ ν) : List κ := m.entries.map Prod.fst

/-- Both maps as one; `join` is asked where both hold a value. -/
def merge (join : ν → ν → ν) (a b : OrdMap κ ν) : OrdMap κ ν :=
  ⟨Entries.merge join a.entries b.entries, Entries.ascending_merge a.ascending b.ascending⟩

/-- Gives `k` the value `v`, whatever it had before. -/
def insert (m : OrdMap κ ν) (k : κ) (v : ν) : OrdMap κ ν :=
  m.merge (fun _ new => new) (single k v)

/-- The later of two entries with one key wins. -/
def ofList (entries : List (κ × ν)) : OrdMap κ ν :=
  entries.foldl (fun m (k, v) => m.insert k v) ∅

/-- The map under other keys, which keep their order, and with other values. -/
def rename {κ' ν' : Type} [Ranked κ'] (f : κ → κ')
    (hf : ∀ a b : κ, rank a < rank b → rank (f a) < rank (f b)) (g : ν → ν')
    (m : OrdMap κ ν) : OrdMap κ' ν' where
  entries := m.entries.map (Prod.map f g)
  ascending := m.ascending.map _ fun _ _ hlt => hf _ _ hlt

theorem ext {a b : OrdMap κ ν} (h : ∀ key, a.get? key = b.get? key) : a = b := by
  cases a with
  | mk as hasc =>
      cases b with
      | mk bs hbsc =>
          cases Entries.eq_of_find_eq hasc hbsc h
          rfl

@[simp]
theorem get?_empty (key : κ) : (∅ : OrdMap κ ν).get? key = none :=
  rfl

@[simp]
theorem get?_single [DecidableEq κ] (k key : κ) (v : ν) :
    (single k v).get? key = if k = key then some v else none := by
  simp [get?, single, Entries.find, rank_eq_iff]

@[simp]
theorem get?_merge (join : ν → ν → ν) (a b : OrdMap κ ν) (key : κ) :
    (a.merge join b).get? key = Option.merge join (a.get? key) (b.get? key) :=
  Entries.find_merge key a.ascending b.ascending

@[simp]
theorem get?_insert [DecidableEq κ] (m : OrdMap κ ν) (k key : κ) (v : ν) :
    (m.insert k v).get? key = if k = key then some v else m.get? key := by
  rw [insert, get?_merge, get?_single]
  split <;> cases m.get? key <;> rfl

theorem mem_entries_iff {m : OrdMap κ ν} {k : κ} {v : ν} :
    (k, v) ∈ m.entries ↔ m.get? k = some v :=
  ⟨Entries.find_of_mem m.ascending, Entries.mem_of_find⟩

theorem mem_keys_iff {m : OrdMap κ ν} {k : κ} : k ∈ m.keys ↔ ∃ v, m.get? k = some v := by
  simp [keys, mem_entries_iff]

end OrdMap

end Thompson

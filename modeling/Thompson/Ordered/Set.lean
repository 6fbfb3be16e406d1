import Thompson.Ordered.Map

/-!
Finite sets, as maps that hold nothing beside their keys. The list of the
members ascends, and two sets with the same members are equal (`OrdSet.ext`).
-/

namespace Thompson

abbrev OrdSet (κ : Type) [Ranked κ] := OrdMap κ Unit

namespace OrdSet

variable {κ : Type} [Ranked κ]

instance : Membership κ (OrdSet κ) where
  mem s k := s.get? k = some ()

instance (k : κ) (s : OrdSet κ) : Decidable (k ∈ s) :=
  inferInstanceAs (Decidable (s.get? k = some ()))

instance : Singleton κ (OrdSet κ) where
  singleton k := OrdMap.single k ()

instance : Union (OrdSet κ) where
  union a b := a.merge (fun _ _ => ()) b

instance : Insert κ (OrdSet κ) where
  insert k s := s ∪ {k}

/-- The members in ascending order. -/
def toList (s : OrdSet κ) : List κ := OrdMap.keys s

def ofList (members : List κ) : OrdSet κ := members.foldl (fun s k => insert k s) ∅

theorem mem_def {k : κ} {s : OrdSet κ} : k ∈ s ↔ s.get? k = some () :=
  Iff.rfl

theorem ext {a b : OrdSet κ} (h : ∀ k, k ∈ a ↔ k ∈ b) : a = b := by
  refine OrdMap.ext fun k => Option.ext fun u => ?_
  cases u
  exact h k

@[simp]
theorem not_mem_empty (k : κ) : k ∉ (∅ : OrdSet κ) := by
  simp [mem_def]

@[simp]
theorem mem_singleton [DecidableEq κ] {k key : κ} : key ∈ ({k} : OrdSet κ) ↔ key = k := by
  change (OrdMap.single k ()).get? key = some () ↔ key = k
  simp [eq_comm]

@[simp]
theorem mem_union {key : κ} {a b : OrdSet κ} : key ∈ a ∪ b ↔ key ∈ a ∨ key ∈ b := by
  change (a.merge (fun _ _ => ()) b).get? key = some () ↔ _
  rw [OrdMap.get?_merge, mem_def, mem_def]
  cases a.get? key <;> cases b.get? key <;> simp

@[simp]
theorem mem_insert [DecidableEq κ] {k key : κ} {s : OrdSet κ} :
    key ∈ (insert k s : OrdSet κ) ↔ key = k ∨ key ∈ s := by
  change key ∈ s ∪ {k} ↔ _
  simp [or_comm]

@[simp]
theorem mem_toList {k : κ} {s : OrdSet κ} : k ∈ s.toList ↔ k ∈ s := by
  rw [toList, OrdMap.mem_keys_iff, mem_def]
  exact ⟨fun ⟨(), h⟩ => h, fun h => ⟨(), h⟩⟩

@[simp]
theorem mem_ofList [DecidableEq κ] {k : κ} {members : List κ} :
    k ∈ ofList members ↔ k ∈ members := by
  suffices h : ∀ s : OrdSet κ,
      k ∈ members.foldl (fun s m => insert m s) s ↔ k ∈ s ∨ k ∈ members by
    simpa [ofList] using h ∅
  induction members with
  | nil => simp
  | cons m rest ih =>
      intro s
      simp [ih, or_assoc, or_comm, or_left_comm]

end OrdSet

end Thompson

import Thompson.Text.Basic

/-!
JSON documents whose only scalars are strings. The members of an object keep
their order, and a name may come twice; `DistinctNames` says where none does.
-/

namespace Thompson

inductive Json where
  | str : Text → Json
  | arr : List Json → Json
  | obj : List (Text × Json) → Json

namespace Json

mutual

/-- No object in the document has two members of one name. -/
def DistinctNames : Json → Prop
  | .str _ => True
  | .arr items => distinctInItems items
  | .obj members => (members.map Prod.fst).Nodup ∧ distinctInMembers members

def distinctInItems : List Json → Prop
  | [] => True
  | item :: items => item.DistinctNames ∧ distinctInItems items

def distinctInMembers : List (Text × Json) → Prop
  | [] => True
  | (_, value) :: members => value.DistinctNames ∧ distinctInMembers members

end

/-- The value of the first member with the name. -/
def member? (name : Text) : Json → Option Json
  | .obj members => (members.find? (·.1 = name)).map Prod.snd
  | _ => none

theorem distinctInItems_iff {items : List Json} :
    distinctInItems items ↔ ∀ item ∈ items, item.DistinctNames := by
  induction items with
  | nil => simp [distinctInItems]
  | cons item items ih => rw [distinctInItems, ih, List.forall_mem_cons]

theorem distinctInMembers_iff {members : List (Text × Json)} :
    distinctInMembers members ↔ ∀ member ∈ members, member.2.DistinctNames := by
  induction members with
  | nil => simp [distinctInMembers]
  | cons member members ih => rw [distinctInMembers, ih, List.forall_mem_cons]

/-- Where no name comes twice, every member is found. -/
theorem member?_of_mem {members : List (Text × Json)} {name : Text} {value : Json}
    (hnames : (members.map Prod.fst).Nodup) (h : (name, value) ∈ members) :
    (Json.obj members).member? name = some value := by
  rw [member?]
  induction members with
  | nil => contradiction
  | cons member members ih =>
      obtain ⟨hfirst, hrest⟩ := List.pairwise_cons.mp hnames
      rcases List.mem_cons.mp h with rfl | hmem
      · rw [List.find?_cons_of_pos (by simp)]
        rfl
      · have hne : member.1 ≠ name := hfirst name (List.mem_map_of_mem hmem)
        rw [List.find?_cons_of_neg (by simpa using hne)]
        exact ih hrest hmem

end Json

end Thompson

import Thompson.Store

/-!
Where paths lead before a write and after it. Writing makes no folder and removes none,
so a path that leads to a file still leads there after any number of writes, and one
that can not be written to does not become writable. What a write changes is the
content of the file that its path leads to.
-/

namespace Thompson

namespace Store

/-- The second store has the folders of the first, and its paths begin where those of the
first begin. -/
structure SameFolders (a b : Store) : Prop where
  folders : b.folders = a.folders
  here : b.here = a.here

theorem sameFolders_put (store : Store) (route : Route) (content : Text) :
    store.SameFolders (store.put route content) := ⟨rfl, rfl⟩

theorem bind_eq_ok_iff {α β : Type} {x : Except Fault α} {f : α → Except Fault β} {b : β} :
    (x >>= f) = .ok b ↔ ∃ a, x = .ok a ∧ f a = .ok b := by
  cases x with
  | error fault => simp [bind, Except.bind]
  | ok a => simp [bind, Except.bind]

namespace SameFolders

variable {a b : Store}

/-- Files are looked at only to tell why a folder can not be entered. -/
theorem enter_eq_ok_iff (h : a.SameFolders b) {folder inner : Route} {name : Text} :
    b.enter folder name = .ok inner ↔ a.enter folder name = .ok inner := by
  have hneither (store : Store) :
      (if (store.lookup? (folder ++ [name])).isSome then (.error .notFolder : Except Fault Route)
        else .error .missing) ≠ .ok inner := by
    split <;> simp
  unfold enter
  rw [h.folders]
  split
  · rfl
  · split
    · rfl
    · split
      · rfl
      · split
        · rfl
        · simp only [hneither]

theorem foldlM_enter_eq_ok_iff (h : a.SameFolders b) {names : List Text} {base inner : Route} :
    names.foldlM b.enter base = .ok inner ↔ names.foldlM a.enter base = .ok inner := by
  induction names generalizing base with
  | nil => rfl
  | cons name rest ih =>
      simp only [List.foldlM_cons, bind_eq_ok_iff, h.enter_eq_ok_iff, ih]

/-- A path leads to the same file in both, or in both to none. -/
theorem locate_eq_ok_iff (h : a.SameFolders b) {path : Text} {route : Route} :
    b.locate path = .ok route ↔ a.locate path = .ok route := by
  unfold locate
  rw [h.folders, h.here]
  split
  · rfl
  · split
    · rfl
    · split
      · rfl
      · split
        · rfl
        · simp only [bind_eq_ok_iff, h.foldlM_enter_eq_ok_iff]

end SameFolders

theorem locate_put_eq_ok_iff {store : Store} {route target : Route} {path content : Text} :
    (store.put route content).locate path = .ok target ↔ store.locate path = .ok target :=
  (store.sameFolders_put route content).locate_eq_ok_iff

theorem write_eq_ok_iff {store after : Store} {path content : Text} :
    store.write path content = .ok after ↔
      ∃ route, store.locate path = .ok route ∧ after = store.put route content := by
  unfold write
  rw [bind_eq_ok_iff]
  constructor
  · rintro ⟨route, hroute, hafter⟩
    exact ⟨route, hroute, (Except.ok.inj hafter).symm⟩
  · rintro ⟨route, hroute, rfl⟩
    exact ⟨route, hroute, rfl⟩

/-- A write keeps all files as they are if the file held the content already. -/
theorem lookup?_put_eq_iff {store : Store} {route : Route} {content : Text} :
    (∀ other, (store.put route content).lookup? other = store.lookup? other) ↔
      store.lookup? route = some content := by
  constructor
  · intro hkept
    rw [← hkept route, lookup?_put_self]
  · intro hheld other
    by_cases hother : other = route
    · rw [hother, lookup?_put_self, hheld]
    · exact lookup?_put_of_ne hother

theorem read?_put {store : Store} {target route : Route} {path content : Text}
    (h : store.locate path = .ok route) :
    (store.put target content).read? path = (store.put target content).lookup? route := by
  rw [read?, locate_put_eq_ok_iff.mpr h]

end Store

end Thompson

import Thompson.Text.Basic

/-!
Folders and files, and where a path leads. Writing goes to the file that a path
names; it makes the file if it is not there, and replaces all that it held.

Three things that a real store has are left out. There are no links, so different
routes are different files. There are no permissions: every folder can be searched and
every file written. And a file that could be opened takes all that is written to it, so
no write fails half-way for a full disk or a device.
-/

namespace Thompson

/-- The names of the folders on the way from the root, and the last name. -/
abbrev Route := List Text

structure Store where
  folders : List Route
  files : List (Route × Text)
  /-- The folder in which paths that do not begin at the root begin. -/
  here : Route

namespace Store

/-- Why a path can not be written to. -/
inductive Fault where
  /-- A folder on the way is not there, or the path is empty. -/
  | missing : Fault
  /-- A name on the way is that of a file. -/
  | notFolder : Fault
  /-- The path leads to a folder, or ends like one. -/
  | isFolder : Fault
  | tooLong : Fault
  /-- The path holds the character of code zero. -/
  | unnameable : Fault
  deriving DecidableEq, Repr

def Fault.message : Fault → Text
  | .missing => lit "No such file or directory (os error 2)"
  | .notFolder => lit "Not a directory (os error 20)"
  | .isFolder => lit "Is a directory (os error 21)"
  | .tooLong => lit "File name too long (os error 36)"
  | .unnameable => lit "file name contained an unexpected NUL byte"

/-- How many bytes a text takes in UTF-8. -/
def byteCount (text : Text) : Nat := text.foldr (fun c n => c.utf8Size + n) 0

/-- The longest name, and the shortest path that is too long, in bytes. -/
def nameLimit : Nat := 255

def pathLimit : Nat := 4096

/-- The names in a path. Slashes that follow each other count as one. -/
def names (path : Text) : List Text := (path.splitOn '/').filter (· ≠ [])

def lookup? (store : Store) (route : Route) : Option Text := store.files.lookup route

/-- Goes from a folder to the one that it calls by the name. -/
def enter (store : Store) (folder : Route) (name : Text) : Except Fault Route :=
  if name = ['.'] then .ok folder
  else if name = ['.', '.'] then .ok folder.dropLast
  else if nameLimit < byteCount name then .error .tooLong
  else if folder ++ [name] ∈ store.folders then .ok (folder ++ [name])
  else if (store.lookup? (folder ++ [name])).isSome then .error .notFolder
  else .error .missing

/-- The file that a path leads to, whether it is there already or not. -/
def locate (store : Store) (path : Text) : Except Fault Route :=
  if '\x00' ∈ path then .error .unnameable
  else if path = [] then .error .missing
  else if pathLimit ≤ byteCount path then .error .tooLong
  else
    match (names path).getLast? with
    | none => .error .isFolder
    | some name => do
        let base := if path.head? = some '/' then [] else store.here
        let folder ← (names path).dropLast.foldlM store.enter base
        if path.getLast? = some '/' ∨ name = ['.'] ∨ name = ['.', '.'] then .error .isFolder
        else if nameLimit < byteCount name then .error .tooLong
        else if folder ++ [name] ∈ store.folders then .error .isFolder
        else .ok (folder ++ [name])

/-- Gives the file of a route the content, in place of what it held. -/
def put (store : Store) (route : Route) (content : Text) : Store :=
  { store with files := (route, content) :: store.files.filter (·.1 ≠ route) }

def write (store : Store) (path content : Text) : Except Fault Store := do
  return store.put (← store.locate path) content

/-- What the file holds that a path leads to. -/
def read? (store : Store) (path : Text) : Option Text :=
  match store.locate path with
  | .error _ => none
  | .ok route => store.lookup? route

/-- The files below the present folder, by their paths from there. -/
def listing (store : Store) : List (Text × Text) :=
  store.files.filterMap fun (route, content) =>
    if store.here.isPrefixOf route then
      some (['/'].intercalate (route.drop store.here.length), content)
    else none

/-- After a write the file holds what was written. -/
theorem lookup?_put_self (store : Store) (route : Route) (content : Text) :
    (store.put route content).lookup? route = some content := by
  simp [put, lookup?]

/-- A write to one file leaves the others as they are. -/
theorem lookup?_put_of_ne {store : Store} {route other : Route} {content : Text}
    (h : other ≠ route) : (store.put route content).lookup? other = store.lookup? other := by
  have hskip : ∀ files : List (Route × Text),
      (files.filter (·.1 ≠ route)).lookup other = files.lookup other := by
    intro files
    induction files with
    | nil => rfl
    | cons file rest ih =>
        obtain ⟨name, held⟩ := file
        by_cases hname : name = route
        · have hother : (other == name) = false := by simp [hname, h]
          rw [List.filter_cons_of_neg (by simp [hname]), ih, List.lookup_cons, hother]
        · rw [List.filter_cons_of_pos (by simp [hname]), List.lookup_cons, List.lookup_cons, ih]
  have hfirst : (other == route) = false := by simp [h]
  simp only [put, lookup?, List.lookup_cons, hfirst]
  exact hskip store.files

end Store

end Thompson

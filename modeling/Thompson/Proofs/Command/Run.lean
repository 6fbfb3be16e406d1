import Thompson.Command.Program
import Thompson.Proofs.Store

/-!
What a run leaves behind. It can take five courses, and which one depends on the pattern
and on where the two paths lead in the store that it begins with. From these: a run that
fails has kept the files unless it had written the document by then, and a run that
succeeds has delivered the document unless the digraph went to the same file.
-/

namespace Thompson

namespace Command

/-- What is shown before anything is written. -/
def Options.heading (options : Options) (tree : Regex) : Text :=
  if options.quiet then [] else lit "AST:\n" ++ tree.outline

/-- The effects that follow the writing of the document. -/
def Options.drawing (options : Options) (tree : Regex) : List Effect :=
  match options.digraph with
  | none => []
  | some path => [.write path tree.automaton.digraph]

section Perform

variable {store : Store} {path : Text} (content : Text) (rest : List Effect)

theorem perform_write_of_ok {route : Route} (h : store.locate path = .ok route) :
    perform (.write path content :: rest) store = perform rest (store.put route content) := by
  have hwrite : store.write path content = .ok (store.put route content) :=
    Store.write_eq_ok_iff.mpr ⟨route, h, rfl⟩
  rw [perform, hwrite]

theorem perform_write_of_error {fault : Store.Fault} (h : store.locate path = .error fault) :
    perform (.write path content :: rest) store = ⟨[], store, some (.write path fault)⟩ := by
  have hwrite : store.write path content = .error fault := by
    rw [Store.write, h]
    rfl
  rw [perform, hwrite]

end Perform

/-- The heading is shown first, and it can not fail. -/
theorem run_of_parse {options : Options} {tree : Regex} (store : Store)
    (h : Regex.parse options.pattern = .ok tree) :
    run options store =
      let written := perform (.write options.output tree.automaton.document ::
        options.drawing tree) store
      { written with shown := options.heading tree ++ written.shown } := by
  have heffects : effects options = .ok (effectsOf options tree) := by
    rw [effects, h]
    rfl
  rw [run, heffects, effectsOf, Options.heading, Options.drawing]
  cases options.quiet with
  | false => rfl
  | true => rfl

/-- The courses of a run: the pattern is rejected, or the first write fails, or nothing is
left to do after it, or the second write fails, or it does not. -/
inductive Course (options : Options) (store : Store) : Outcome → Prop where
  | rejected {fault : Pattern.Fault} :
      Regex.parse options.pattern = .error fault →
        Course options store ⟨[], store, some (.pattern fault)⟩
  | documentRefused {tree : Regex} {fault : Store.Fault} :
      Regex.parse options.pattern = .ok tree → store.locate options.output = .error fault →
        Course options store
          ⟨options.heading tree, store, some (.write options.output fault)⟩
  | documentOnly {tree : Regex} {route : Route} :
      Regex.parse options.pattern = .ok tree → store.locate options.output = .ok route →
        options.digraph = none →
        Course options store
          ⟨options.heading tree, store.put route tree.automaton.document, none⟩
  | digraphRefused {tree : Regex} {route : Route} {path : Text} {fault : Store.Fault} :
      Regex.parse options.pattern = .ok tree → store.locate options.output = .ok route →
        options.digraph = some path →
        (store.put route tree.automaton.document).locate path = .error fault →
        Course options store
          ⟨options.heading tree, store.put route tree.automaton.document,
            some (.write path fault)⟩
  | both {tree : Regex} {route other : Route} {path : Text} :
      Regex.parse options.pattern = .ok tree → store.locate options.output = .ok route →
        options.digraph = some path → store.locate path = .ok other →
        Course options store
          ⟨options.heading tree,
            (store.put route tree.automaton.document).put other tree.automaton.digraph, none⟩

theorem course_run (options : Options) (store : Store) :
    Course options store (run options store) := by
  cases hparse : Regex.parse options.pattern with
  | error fault =>
      rw [run, effects, hparse]
      exact .rejected hparse
  | ok tree =>
      rw [run_of_parse store hparse]
      cases houtput : store.locate options.output with
      | error fault =>
          rw [perform_write_of_error _ _ houtput]
          simp only [List.append_nil]
          exact .documentRefused hparse houtput
      | ok route =>
          rw [perform_write_of_ok _ _ houtput]
          cases hdigraph : options.digraph with
          | none =>
              simp only [Options.drawing, hdigraph, perform, List.append_nil]
              exact .documentOnly hparse houtput hdigraph
          | some path =>
              simp only [Options.drawing, hdigraph]
              cases hpath : (store.put route tree.automaton.document).locate path with
              | error fault =>
                  rw [perform_write_of_error _ _ hpath]
                  simp only [List.append_nil]
                  exact .digraphRefused hparse houtput hdigraph hpath
              | ok other =>
                  rw [perform_write_of_ok _ _ hpath]
                  simp only [perform, List.append_nil]
                  exact .both hparse houtput hdigraph (Store.locate_put_eq_ok_iff.mp hpath)

/-- A run that fails keeps all files if the pattern is rejected, or if the document can not
be written. If neither is so, it is the digraph that can not be written: the document has
been by then, and it is the one file that may have changed. -/
theorem failed_run_keeps_files_iff (options : Options) (store : Store)
    (hfailed : (run options store).failure ≠ none) :
    ((∀ route, (run options store).store.lookup? route = store.lookup? route) ↔
      ∀ tree route, Regex.parse options.pattern = .ok tree →
        store.locate options.output = .ok route →
          store.lookup? route = some tree.automaton.document) ∧
    ∀ tree route, Regex.parse options.pattern = .ok tree →
      store.locate options.output = .ok route →
        (run options store).store = store.put route tree.automaton.document ∧
          ∃ path fault, options.digraph = some path ∧
            (run options store).failure = some (.write path fault) := by
  have hcourse := course_run options store
  generalize run options store = outcome at hcourse hfailed ⊢
  cases hcourse with
  | rejected hparse => simp [hparse]
  | documentRefused hparse houtput => simp [houtput]
  | documentOnly hparse houtput hdigraph => exact absurd rfl hfailed
  | digraphRefused hparse houtput hdigraph hpath =>
      simp only [hparse, houtput, Except.ok.injEq, Store.lookup?_put_eq_iff]
      constructor
      · constructor
        · rintro hheld tree route rfl rfl
          exact hheld
        · intro hheld
          exact hheld _ _ rfl rfl
      · rintro tree route rfl rfl
        exact ⟨rfl, _, _, hdigraph, rfl⟩
  | both hparse houtput hdigraph hpath => exact absurd rfl hfailed

/-- The folder of the digraph is not there, and the document has been written. -/
theorem missing_folder_leaves_document :
    let outcome := run ⟨['a'], ['n'], some ['d', '/', 'g'], true⟩ ⟨[], [], []⟩
    outcome.failure ≠ none ∧
      outcome.store = Store.put ⟨[], [], []⟩ [['n']] (Regex.char 'a').automaton.document := by
  intro outcome
  have hfailed : outcome.failure ≠ none := by decide +kernel
  have hleft := (failed_run_keeps_files_iff _ _ hfailed).2 (.char 'a') [['n']]
  exact ⟨hfailed, (hleft rfl rfl).1⟩

/-- A file is there that was not there before. -/
theorem failed_run_may_change_files :
    ¬ ∀ (options : Options) (store : Store), (run options store).failure ≠ none →
      ∀ route, (run options store).store.lookup? route = store.lookup? route := by
  intro hkept
  have hsame := hkept ⟨['a'], ['n'], some ['d', '/', 'g'], true⟩ ⟨[], [], []⟩
    (by decide +kernel) [['n']]
  exact absurd hsame (by decide +kernel)

/-- One begins with a brace, the other with a letter. -/
theorem document_ne_digraph (a b : Automaton) : a.document ≠ b.digraph := by
  intro heq
  have hdocument : a.document.head? = some '\x7b' := rfl
  have hdigraph : b.digraph.head? = some 'd' := by
    simp [Automaton.digraph, lit]
  rw [heq, hdigraph] at hdocument
  cases hdocument

/-- A run that succeeds has written the digraph to its file, if it is wanted, and the
document to the other. If the two paths lead to one file, that file holds the digraph. -/
theorem successful_run_delivers (options : Options) (store : Store)
    (hdone : (run options store).failure = none) :
    ∃ tree, Regex.parse options.pattern = .ok tree ∧
      (∀ path, options.digraph = some path →
        (run options store).store.read? path = some tree.automaton.digraph) ∧
      ((run options store).store.read? options.output = some tree.automaton.document ↔
        ∀ path, options.digraph = some path →
          store.locate path ≠ store.locate options.output) := by
  have hcourse := course_run options store
  generalize run options store = outcome at hcourse hdone ⊢
  cases hcourse with
  | rejected hparse => cases hdone
  | documentRefused hparse houtput => cases hdone
  | documentOnly hparse houtput hdigraph =>
      refine ⟨_, hparse, by simp [hdigraph], ?_⟩
      rw [Store.read?_put houtput, Store.lookup?_put_self]
      simp [hdigraph]
  | digraphRefused hparse houtput hdigraph hpath => cases hdone
  | @both tree route other path hparse houtput hdigraph hpath =>
      have houtput' : (store.put route tree.automaton.document).locate options.output =
          .ok route := Store.locate_put_eq_ok_iff.mpr houtput
      have hpath' : (store.put route tree.automaton.document).locate path = .ok other :=
        Store.locate_put_eq_ok_iff.mpr hpath
      refine ⟨tree, hparse, ?_, ?_⟩
      · simp only [hdigraph, Option.some.injEq, forall_eq']
        rw [Store.read?_put hpath', Store.lookup?_put_self]
      · simp only [hdigraph, Option.some.injEq, forall_eq']
        rw [Store.read?_put houtput', hpath, houtput]
        by_cases hsame : route = other
        · have hlost := (document_ne_digraph tree.automaton tree.automaton).symm
          simp [hsame, Store.lookup?_put_self, hlost]
        · rw [Store.lookup?_put_of_ne hsame, Store.lookup?_put_self]
          simp [Ne.symm hsame]

/-- The two paths are spelled differently, and each leads to a file of its own. -/
theorem separate_files_delivered :
    let outcome := run ⟨['a'], ['n'], some ['.', '/', 'g'], false⟩ ⟨[], [], []⟩
    outcome.failure = none ∧
      outcome.store.read? ['n'] = some (Regex.char 'a').automaton.document ∧
      outcome.store.read? ['.', '/', 'g'] = some (Regex.char 'a').automaton.digraph := by
  intro outcome
  have hdone : outcome.failure = none := by decide +kernel
  obtain ⟨tree, hparse, hdigraph, hdocument⟩ := successful_run_delivers _ _ hdone
  obtain rfl : Regex.char 'a' = tree := Except.ok.inj hparse
  refine ⟨hdone, hdocument.mpr ?_, hdigraph _ rfl⟩
  rintro path hpath
  obtain rfl := Option.some.inj hpath
  have houtput : Store.locate ⟨[], [], []⟩ ['n'] = .ok [['n']] := rfl
  have hother : Store.locate ⟨[], [], []⟩ ['.', '/', 'g'] = .ok [['g']] := rfl
  rw [houtput, hother]
  simp

/-- One path is given for both, and the document is gone. -/
theorem digraph_may_replace_document :
    ¬ ∀ (options : Options) (store : Store), (run options store).failure = none →
      ∃ tree, Regex.parse options.pattern = .ok tree ∧
        (run options store).store.read? options.output = some tree.automaton.document ∧
        ∀ path, options.digraph = some path →
          (run options store).store.read? path = some tree.automaton.digraph := by
  intro hdelivered
  obtain ⟨tree, -, hdocument, hdigraph⟩ :=
    hdelivered ⟨['a'], ['n'], some ['n'], true⟩ ⟨[], [], []⟩ (by decide +kernel)
  have hlost := hdocument.symm.trans (hdigraph ['n'] rfl)
  exact document_ne_digraph _ _ (Option.some.inj hlost)

end Command

end Thompson

import Thompson.Proofs.Command.Run

/-!
What a failure is reported as. A message has a line break only where it quotes one, from
the pattern or from a path. The report is all that is shown, unless the outline has been
shown before a write failed.
-/

namespace Thompson

namespace Command

/-- What the message takes over from the pattern or from the options. -/
def Failure.quoted : Failure → Text
  | .pattern (.doubled c _) | .pattern (.misplaced c _) => [c]
  | .pattern (.unopened _) | .pattern (.unclosed _) | .pattern (.ended _) => []
  | .write path _ => path

theorem newline_mem_message_iff (failure : Failure) :
    '\n' ∈ failure.message ↔ '\n' ∈ failure.quoted := by
  cases failure with
  | pattern fault =>
      cases fault <;>
        simp [Failure.message, Failure.quoted, Pattern.Fault.message, Pattern.Fault.detail, lit,
          Text.newline_not_mem_ofNat]
  | write path fault =>
      have hcause : '\n' ∉ fault.message := by
        cases fault <;> simp [Store.Fault.message, lit]
      simp [Failure.message, Failure.quoted, lit, hcause]

theorem heading_eq_nil_iff (options : Options) (tree : Regex) :
    options.heading tree = [] ↔ options.quiet = true := by
  cases hquiet : options.quiet <;> simp [Options.heading, hquiet, lit]

theorem shown_run_eq_nil_iff (options : Options) (store : Store) :
    (run options store).shown = [] ↔
      options.quiet = true ∨ ∃ fault, Regex.parse options.pattern = .error fault := by
  have hcourse := course_run options store
  generalize run options store = outcome at hcourse ⊢
  cases hcourse with
  | rejected hparse => simp [hparse]
  | documentRefused hparse | documentOnly hparse | digraphRefused hparse | both hparse =>
      simp [hparse, heading_eq_nil_iff]

theorem invoke_of_failure {arguments : List Text} {store : Store}
    (hcode : (invoke arguments store).code = 1) :
    ∃ options failure, Request.ofArguments arguments = .ok (.compile options) ∧
      (run options store).failure = some failure ∧
      invoke arguments store =
        ⟨1, (run options store).shown ++ (lit "Error: " ++ failure.message ++ ['\n']),
          (run options store).store⟩ := by
  unfold invoke at hcode ⊢
  cases hrequest : Request.ofArguments arguments with
  | error misuse => simp [hrequest] at hcode
  | ok request =>
      cases request with
      | version => simp [hrequest] at hcode
      | help => simp [hrequest] at hcode
      | compile options =>
          cases hfailure : (run options store).failure with
          | none => simp [hrequest, hfailure] at hcode
          | some failure => exact ⟨options, failure, rfl, hfailure, by simp [hfailure, failureLine]⟩

/-- An invocation that fails shows what the run has shown, and then its message as an error. This
report is all that is shown, and a single line, exactly when the outline was not wanted or the
pattern was rejected, and the message quotes no line break. -/
theorem failed_invocation_reports_line_iff (arguments : List Text) (store : Store)
    (hcode : (invoke arguments store).code = 1) :
    ∃ options failure, Request.ofArguments arguments = .ok (.compile options) ∧
      (run options store).failure = some failure ∧
      (invoke arguments store).shown =
        (run options store).shown ++ (lit "Error: " ++ failure.message ++ ['\n']) ∧
      ((invoke arguments store).shown = lit "Error: " ++ failure.message ++ ['\n'] ∧
          '\n' ∉ failure.message ↔
        (options.quiet = true ∨ ∃ fault, Regex.parse options.pattern = .error fault) ∧
          '\n' ∉ failure.quoted) := by
  obtain ⟨options, failure, hrequest, hfailure, hinvoke⟩ := invoke_of_failure hcode
  refine ⟨options, failure, hrequest, hfailure, ?_, ?_⟩
  · rw [hinvoke]
  · rw [hinvoke, newline_mem_message_iff, ← shown_run_eq_nil_iff options store,
      List.append_left_eq_self]

/-- Nothing but the report is shown, as the outline is not wanted. -/
theorem quiet_failure_reports_line :
    let arguments := [['-', 'q'], ['a'], ['-', 'o'], ['d', '/', 'n']]
    let ending := invoke arguments ⟨[], [], []⟩
    ending.code = 1 ∧
      ending.shown =
        lit "Error: " ++ (Failure.write ['d', '/', 'n'] .missing).message ++ ['\n'] ∧
      '\n' ∉ (Failure.write ['d', '/', 'n'] .missing).message := by
  intro arguments ending
  have hcode : ending.code = 1 := by decide +kernel
  obtain ⟨options, failure, hrequest, hfailure, -, hiff⟩ :=
    failed_invocation_reports_line_iff arguments ⟨[], [], []⟩ hcode
  obtain rfl : ⟨['a'], ['d', '/', 'n'], none, true⟩ = options := by
    have hread : Request.ofArguments arguments =
      .ok (.compile ⟨['a'], ['d', '/', 'n'], none, true⟩) := rfl
    rw [hread] at hrequest
    cases hrequest
    rfl
  obtain rfl : Failure.write ['d', '/', 'n'] .missing = failure := by
    have hfailed : (run ⟨['a'], ['d', '/', 'n'], none, true⟩ ⟨[], [], []⟩).failure =
      some (.write ['d', '/', 'n'] .missing) := by decide +kernel
    rw [hfailed] at hfailure
    cases hfailure
    rfl
  exact ⟨hcode, hiff.mpr ⟨.inl rfl, by decide⟩⟩

/-- The outline has been shown when the document turns out not to be writable. -/
theorem outline_may_precede_report :
    ¬ ∀ (arguments : List Text) (store : Store), (invoke arguments store).code = 1 →
      ∃ message, (invoke arguments store).shown = lit "Error: " ++ message ++ ['\n'] ∧
        '\n' ∉ message := by
  intro hline
  obtain ⟨message, hshown, -⟩ :=
    hline [['a'], ['-', 'o'], ['d', '/', 'n']] ⟨[], [], []⟩ (by decide +kernel)
  have houtline : (invoke [['a'], ['-', 'o'], ['d', '/', 'n']] ⟨[], [], []⟩).shown.head? =
      some 'A' := by decide +kernel
  rw [hshown, lit_eq] at houtline
  cases houtline

end Command

end Thompson

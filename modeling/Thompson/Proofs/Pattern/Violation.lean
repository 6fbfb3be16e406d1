import Mathlib.Order.Bounds.Basic
import Thompson.Pattern.Parse

/-!
What the scan finds: the first violation of the pattern, and nothing if there is none. What
is open and what has been read last tell whether the next character is a violation, and
whether it is one depends on nothing that follows. So a pattern that goes on keeps its fault.
-/

namespace Thompson

namespace Pattern

theorem isOperator_iff {c : Char} : isOperator c = true ↔ c = '*' ∨ c = '|' := by
  simp only [isOperator, Bool.or_eq_true, decide_eq_true_eq]

section Violation

variable {w rest : Text} {c : Char} {p : Nat}

theorem lt_of_violation (h : Violation w p) : p < w.length := by
  rcases h with ⟨hchar, -⟩ | ⟨c, -, -, hchar, -⟩
  · exact (List.getElem?_eq_some_iff.mp hchar).1
  · exact (List.getElem?_eq_some_iff.mp hchar).1

/-- What follows has no part in a violation. -/
theorem violation_append_iff (hp : p < w.length) : Violation (w ++ rest) p ↔ Violation w p := by
  have hchar : (w ++ rest)[p]? = w[p]? := List.getElem?_append_left hp
  have hbefore : (w ++ rest)[p - 1]? = w[p - 1]? := List.getElem?_append_left (by omega)
  have htake : (w ++ rest).take p = w.take p := List.take_append_of_le_length (Nat.le_of_lt hp)
  simp only [Violation, hchar, hbefore, htake]

/-- Whether the next character is a violation, from what stands before it. -/
theorem violation_next_iff :
    Violation (w ++ c :: rest) w.length ↔
      (c = ')' ∧ w.count '(' = w.count ')') ∨ (isOperator c = true ∧ w.getLast? = some c) := by
  have hchar : (w ++ c :: rest)[w.length]? = some c := by simp
  have htake : (w ++ c :: rest).take w.length = w := List.take_left
  have hbefore (hw : 0 < w.length) : (w ++ c :: rest)[w.length - 1]? = w.getLast? := by
    rw [List.getElem?_append_left (by omega), List.getLast?_eq_getElem?]
  simp only [Violation, hchar, htake, Option.some.injEq]
  apply or_congr_right
  constructor
  · rintro ⟨d, hoperator, hw, rfl, hlast⟩
    rw [hbefore hw] at hlast
    exact ⟨hoperator, hlast⟩
  · rintro ⟨hoperator, hlast⟩
    have hw : 0 < w.length := by
      apply List.length_pos_iff.mpr
      rintro rfl
      cases hlast
    exact ⟨c, hoperator, hw, rfl, by rw [hbefore hw, hlast]⟩

/-- Every violation has this form: it is the next character after what stands before it. -/
theorem exists_of_violation (h : Violation w p) :
    ∃ u c v, w = u ++ c :: v ∧ p = u.length ∧
      ((c = ')' ∧ u.count '(' = u.count ')') ∨ (isOperator c = true ∧ u.getLast? = some c)) := by
  have hlt := lt_of_violation h
  have hsplit : w.take p ++ w[p] :: w.drop (p + 1) = w := by
    rw [← List.drop_eq_getElem_cons hlt, List.take_append_drop]
  have hlength : (w.take p).length = p := List.length_take_of_le (Nat.le_of_lt hlt)
  refine ⟨w.take p, w[p], w.drop (p + 1), hsplit.symm, hlength.symm, ?_⟩
  have hnext : Violation (w.take p ++ w[p] :: w.drop (p + 1)) (w.take p).length := by
    rw [hsplit, hlength]
    exact h
  exact violation_next_iff.mp hnext

end Violation

/-- What the scan keeps of a text that it has passed: how many parentheses are open, and the
last character. -/
structure Scanned (w : Text) (depth : Nat) (last : Option Char) : Prop where
  depth_eq : depth + w.count ')' = w.count '('
  last_eq : last = w.getLast?

namespace Scanned

variable {w rest : Text} {depth : Nat} {last : Option Char} {c : Char}

theorem nil : Scanned [] 0 none where
  depth_eq := rfl
  last_eq := rfl

theorem next_violation_iff (h : Scanned w depth last) :
    Violation (w ++ c :: rest) w.length ↔
      (c = ')' ∧ depth = 0) ∨ (isOperator c = true ∧ last = some c) := by
  have hdepth := h.depth_eq
  have hclosed : w.count '(' = w.count ')' ↔ depth = 0 := by omega
  rw [violation_next_iff, h.last_eq, hclosed]

/-- The scan stops at a violation and names it. -/
theorem scan_of_violation (h : Scanned w depth last)
    (hviolation : Violation (w ++ c :: rest) w.length) :
    scan depth last w.length (c :: rest) = .error (.ofViolation c w.length) := by
  rcases h.next_violation_iff.mp hviolation with ⟨rfl, rfl⟩ | ⟨hoperator, hlast⟩
  · rfl
  · have hopening : c ≠ '(' := by
      rintro rfl
      cases hoperator
    have hclosing : c ≠ ')' := by
      rintro rfl
      cases hoperator
    rw [scan.eq_def, Fault.ofViolation]
    simp only [if_neg hopening, if_neg hclosing, if_pos (And.intro hoperator hlast)]

/-- The scan passes any other character, and keeps what there is to know of the longer text. -/
theorem scan_of_not_violation (h : Scanned w depth last)
    (hpassed : ¬ Violation (w ++ c :: rest) w.length) :
    ∃ depth', Scanned (w ++ [c]) depth' (some c) ∧
      scan depth last w.length (c :: rest) = scan depth' (some c) (w ++ [c]).length rest := by
  rw [h.next_violation_iff, not_or] at hpassed
  obtain ⟨hclosed, hrepeated⟩ := hpassed
  have hdepth := h.depth_eq
  have hlast : some c = (w ++ [c]).getLast? := by simp
  have hlength : (w ++ [c]).length = w.length + 1 := by simp
  rw [hlength, scan.eq_def]
  by_cases hopening : c = '('
  · subst hopening
    exact ⟨depth + 1, ⟨by simp; omega, hlast⟩, rfl⟩
  · by_cases hclosing : c = ')'
    · subst hclosing
      cases depth with
      | zero => exact absurd ⟨rfl, rfl⟩ hclosed
      | succ depth => exact ⟨depth, ⟨by simp; omega, hlast⟩, rfl⟩
    · refine ⟨depth, ⟨?_, hlast⟩, ?_⟩
      · simpa [hopening, hclosing] using hdepth
      · simp only [if_neg hopening, if_neg hclosing, if_neg hrepeated]

/-- From a text without violations the scan goes on to the first one, or to the end. -/
theorem scan_outcome {text : Text} (h : Scanned w depth last)
    (hbefore : ∀ p < w.length, ¬ Violation (w ++ text) p) :
    (scan depth last w.length text = .ok () ∧ ∀ p, ¬ Violation (w ++ text) p) ∨
      ∃ p c, IsLeast {p | Violation (w ++ text) p} p ∧ (w ++ text)[p]? = some c ∧
        scan depth last w.length text = .error (.ofViolation c p) := by
  induction text generalizing w depth last with
  | nil =>
      refine Or.inl ⟨rfl, ?_⟩
      intro p hp
      have hlt := lt_of_violation hp
      rw [List.append_nil] at hlt
      exact hbefore p hlt hp
  | cons c rest ih =>
      by_cases hviolation : Violation (w ++ c :: rest) w.length
      · have hleast : IsLeast {p | Violation (w ++ c :: rest) p} w.length := by
          refine ⟨hviolation, ?_⟩
          intro p hp
          apply Nat.le_of_not_lt
          intro hlt
          exact hbefore p hlt hp
        exact Or.inr ⟨w.length, c, hleast, by simp, h.scan_of_violation hviolation⟩
      · obtain ⟨depth', hscanned, hscan⟩ := h.scan_of_not_violation hviolation
        have htext : w ++ c :: rest = w ++ [c] ++ rest := List.append_cons w c rest
        rw [hscan, htext]
        apply ih hscanned
        rw [← htext]
        intro p hp
        rcases Nat.lt_succ_iff_lt_or_eq.mp (by simpa using hp) with hlt | rfl
        · exact hbefore p hlt
        · exact hviolation

end Scanned

variable {pattern : Text} {fault : Fault}

theorem check_outcome (pattern : Text) :
    (check pattern = .ok () ∧ ∀ p, ¬ Violation pattern p) ∨
      ∃ p c, IsLeast {p | Violation pattern p} p ∧ pattern[p]? = some c ∧
        check pattern = .error (.ofViolation c p) := by
  have hbefore : ∀ p < 0, ¬ Violation pattern p := fun p hp => absurd hp (Nat.not_lt_zero p)
  exact Scanned.nil.scan_outcome hbefore

theorem check_eq_ok_iff : check pattern = .ok () ↔ ∀ p, ¬ Violation pattern p := by
  rcases check_outcome pattern with ⟨hcheck, hnone⟩ | ⟨p, c, hleast, -, hcheck⟩
  · exact iff_of_true hcheck hnone
  · rw [hcheck]
    exact iff_of_false (fun h => nomatch h) fun hnone => hnone p hleast.1

theorem check_eq_error_iff :
    check pattern = .error fault ↔
      ∃ p c, IsLeast {p | Violation pattern p} p ∧ pattern[p]? = some c ∧
        fault = .ofViolation c p := by
  rcases check_outcome pattern with ⟨hcheck, hnone⟩ | ⟨p, c, hleast, hchar, hcheck⟩
  · rw [hcheck]
    refine iff_of_false (fun h => nomatch h) ?_
    rintro ⟨p, -, hleast, -⟩
    exact hnone p hleast.1
  · rw [hcheck, Except.error.injEq]
    constructor
    · rintro rfl
      exact ⟨p, c, hleast, hchar, rfl⟩
    · rintro ⟨q, d, hleast', hchar', rfl⟩
      obtain rfl := hleast.unique hleast'
      rw [hchar, Option.some.injEq] at hchar'
      rw [hchar']

/-- However a pattern goes on, its first violation stays the first. -/
theorem check_append (rest : Text) (h : check pattern = .error fault) :
    check (pattern ++ rest) = .error fault := by
  obtain ⟨p, c, ⟨hviolation, hleast⟩, hchar, rfl⟩ := check_eq_error_iff.mp h
  have hlt : p < pattern.length := lt_of_violation hviolation
  apply check_eq_error_iff.mpr
  refine ⟨p, c, ⟨(violation_append_iff hlt).mpr hviolation, ?_⟩, ?_, rfl⟩
  · intro q hq
    apply Nat.le_of_not_lt
    intro hqp
    have hold := (violation_append_iff (hqp.trans hlt)).mp hq
    exact Nat.not_le_of_lt hqp (hleast hold)
  · rw [List.getElem?_append_left hlt, hchar]

theorem parse_of_check_eq_error (h : check pattern = .error fault) :
    Regex.parse pattern = .error fault := by
  rw [Regex.parse, h]
  rfl

end Pattern

open Pattern

/-- The scan passes a pattern without violations, and of any other it reports the first one:
an unopened group at a closing parenthesis, and otherwise the operator that is repeated. The
parser reports the same, of this pattern and of all that begin with it. -/
theorem Regex.check_reports_first_violation (pattern : Text) :
    (check pattern = .ok () ↔ ∀ p, ¬ Violation pattern p) ∧
      (∀ fault, check pattern = .error fault ↔
        ∃ p c, IsLeast {p | Violation pattern p} p ∧ pattern[p]? = some c ∧
          fault = .ofViolation c p) ∧
      ∀ fault, check pattern = .error fault → Regex.parse pattern = .error fault ∧
        ∀ rest, check (pattern ++ rest) = .error fault ∧
          Regex.parse (pattern ++ rest) = .error fault := by
  refine ⟨check_eq_ok_iff, fun fault => check_eq_error_iff, ?_⟩
  intro fault hcheck
  refine ⟨parse_of_check_eq_error hcheck, ?_⟩
  intro rest
  have hlonger := check_append rest hcheck
  exact ⟨hlonger, parse_of_check_eq_error hlonger⟩

end Thompson

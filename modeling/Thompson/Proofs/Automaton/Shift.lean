import Thompson.Automaton.Shift
import Thompson.Proofs.Ordered
import Thompson.Regex.Automaton

/-!
Moving the states up before a step comes to the same as moving them afterwards, whatever the
operands are. This holds of each elementary step because keys are only compared with each other, and
so of the compositions that are made of such steps and of all that is built. The number that
a supply begins with is seen in the names and in nothing else.
-/

namespace Thompson

section Sets

variable (k : Nat)

@[simp]
theorem OrdSet.shift_insert (s : Nat) (set : OrdSet Nat) :
    OrdSet.shift k (insert s set) = insert (s + k) (set.shift k) :=
  OrdMap.rename_merge _ (fun _ _ => rfl) set (OrdMap.single s ())

@[simp]
theorem OrdSet.toList_shift (set : OrdSet Nat) :
    (set.shift k).toList = set.toList.map (· + k) :=
  OrdMap.keys_rename _ id set

@[simp]
theorem Row.shift_single (label : Label) (targets : List Nat) :
    Row.shift k (.single label targets) = .single label (targets.map (· + k)) := rfl

theorem Row.shift_join (a b : Row) : (a.join b).shift k = (a.shift k).join (b.shift k) :=
  OrdMap.rename_merge _ (fun _ _ => List.map_append) a b

@[simp]
theorem Table.shift_single (s : Nat) (row : Row) :
    Table.shift k (.single s row) = .single (s + k) (row.shift k) := rfl

@[simp]
theorem Table.shift_join (t u : Table) : (t.join u).shift k = (t.shift k).join (u.shift k) :=
  OrdMap.rename_merge _ (Row.shift_join k) t u

@[simp]
theorem Table.shift_insert (t : Table) (s : Nat) (row : Row) :
    Table.shift k (t.insert s row) = (t.shift k).insert (s + k) (row.shift k) :=
  OrdMap.rename_merge _ (fun _ _ => rfl) t (.single s row)

end Sets

namespace Automaton

variable (k : Nat)

section Steps

theorem shift_ofStart (s : Nat) : (ofStart s).shift k = ofStart (s + k) := rfl

theorem shift_addEdge (e : Edge) (a : Automaton) :
    (a.addEdge e).shift k = (a.shift k).addEdge (e.shift k) := by
  simp only [addEdge, shift, Edge.shift, Table.shift_join, Table.shift_single, Row.shift_single,
    List.map_cons, List.map_nil]

theorem shift_addAccept (s : Nat) (a : Automaton) :
    (a.addAccept s).shift k = (a.shift k).addAccept (s + k) := by
  simp only [addAccept, shift, OrdSet.shift_insert, List.map_append, List.map_cons, List.map_nil]

theorem shift_reroute (s : Nat) (targets : List Nat) (a : Automaton) :
    (a.reroute s targets).shift k = (a.shift k).reroute (s + k) (targets.map (· + k)) := by
  simp only [reroute, shift, Table.shift_insert, Row.shift_single]

theorem shift_overlay (a b : Automaton) :
    (a.overlay b).shift k = (a.shift k).overlay (b.shift k) := by
  simp only [overlay, shift, Table.shift_join, List.map_append]

theorem shift_bridge (sources : List Nat) (target : Nat) (a : Automaton) :
    (a.bridge sources target).shift k =
      (a.shift k).bridge (sources.map (· + k)) (target + k) := by
  induction sources generalizing a with
  | nil => rfl
  | cons s rest ih =>
      change ((a.addEdge ⟨s, .epsilon, target⟩).bridge rest target).shift k = _
      rw [ih, shift_addEdge]
      rfl

theorem shift_rerouteAll (sources targets : List Nat) (a : Automaton) :
    (a.rerouteAll sources targets).shift k =
      (a.shift k).rerouteAll (sources.map (· + k)) (targets.map (· + k)) := by
  induction sources generalizing a with
  | nil => rfl
  | cons s rest ih =>
      change ((a.reroute s targets).rerouteAll rest targets).shift k = _
      rw [ih, shift_reroute]
      rfl

end Steps

section Compose

variable (first second body : Automaton) (names : Names)

theorem shift_single (symbol : Symbol) :
    (single symbol (names.shift k)).1 = (single symbol names).1.shift k := by
  have hnext : names.next + k + 1 = names.next + 1 + k := Nat.add_right_comm _ _ _
  simp only [single, Names.fresh, Names.shift, shift_addAccept, shift_addEdge, shift_ofStart,
    Edge.shift, hnext]

theorem shift_chain : (first.shift k).chain (second.shift k) = (first.chain second).shift k := by
  have hjoined := shift_bridge k first.accept.toList second.start (first.overlay second)
  rw [shift_overlay, ← OrdSet.toList_shift] at hjoined
  exact congrArg (fun a : Automaton => { a with accept := second.accept.shift k }) hjoined.symm

theorem shift_choice :
    ((first.shift k).choice (second.shift k) (names.shift k)).1 =
      (first.choice second names).1.shift k := by
  have hnext : names.next + k + 1 = names.next + 1 + k := Nat.add_right_comm _ _ _
  have hexits : (first.accept.shift k).toList ++ (second.accept.shift k).toList =
      (first.accept.toList ++ second.accept.toList).map (· + k) := by
    rw [OrdSet.toList_shift, OrdSet.toList_shift, List.map_append]
  simp only [choice, Names.fresh, Names.shift, shift_addAccept, shift_rerouteAll, shift_overlay,
    shift_addEdge, shift_ofStart, Edge.shift, ← hexits, hnext, List.map_cons, List.map_nil]
  rfl

theorem shift_loop :
    ((body.shift k).loop (names.shift k)).1 = (body.loop names).1.shift k := by
  have hnext : names.next + k + 1 = names.next + 1 + k := Nat.add_right_comm _ _ _
  simp only [loop, Names.fresh, Names.shift, shift_addAccept, shift_rerouteAll, shift_overlay,
    shift_addEdge, shift_ofStart, Edge.shift, ← OrdSet.toList_shift, hnext, List.map_cons,
    List.map_nil]
  rfl

end Compose

end Automaton

namespace Regex

open Automaton

theorem names_build_shift (r : Regex) (names : Names) (k : Nat) :
    (r.build (names.shift k)).2 = (r.build names).2.shift k := by
  rw [build_names, build_names]
  exact congrArg Names.mk (Nat.add_right_comm _ _ _)

/-- What is built from a supply that begins `k` later is what is built from the earlier one,
moved up by `k`, and so is what is left of the supply. -/
theorem build_shift (r : Regex) (names : Names) (k : Nat) :
    r.build (names.shift k) = ((r.build names).1.shift k, (r.build names).2.shift k) := by
  refine Prod.ext ?_ (names_build_shift r names k)
  induction r generalizing names with
  | char c => exact shift_single k names (.char c)
  | any => exact shift_single k names .any
  | cat l r ihl ihr =>
      change (l.build (names.shift k)).1.chain (r.build (l.build (names.shift k)).2).1 = _
      rw [names_build_shift, ihl, ihr]
      exact shift_chain k _ _
  | alt l r ihl ihr =>
      change ((l.build (names.shift k)).1.choice (r.build (l.build (names.shift k)).2).1
        (r.build (l.build (names.shift k)).2).2).1 = _
      rw [names_build_shift, names_build_shift, ihl, ihr]
      exact shift_choice k _ _ _
  | star r ih =>
      change ((r.build (names.shift k)).1.loop (r.build (names.shift k)).2).1 = _
      rw [names_build_shift, ih]
      exact shift_loop k _ _

end Regex

end Thompson

import Thompson.Journal
import Thompson.Proofs.Regex.Naming
import Thompson.Regex.Postorder

/-!
The journal of a compilation, line by line. There is one note for each node, in post-order, and
what it says can be told from the tree alone: names are given out in the order of the notes, two
for each node that is not a concatenation, so the notes before those of a part tell where its
names begin.
-/

namespace Thompson

namespace Regex

theorem map_fst_parts (r : Regex) (names : Names) :
    (r.parts names).map Prod.fst = r.postorder := by
  induction r generalizing names with
  | char c => rfl
  | any => rfl
  | cat l r ihl ihr | alt l r ihl ihr =>
      simp only [parts, postorder, List.map_append, ihl, ihr, List.map_cons, List.map_nil]
  | star r ih => simp only [parts, postorder, List.map_append, ih, List.map_cons, List.map_nil]

theorem length_parts (r : Regex) (names : Names) :
    (r.parts names).length = r.postorder.length := by
  rw [← map_fst_parts r names, List.length_map]

/-- A node is the last of its own parts. -/
theorem exists_parts_eq (r : Regex) (names : Names) :
    ∃ operands, r.parts names = operands ++ [(r, names)] := by
  cases r with
  | char c => exact ⟨[], rfl⟩
  | any => exact ⟨[], rfl⟩
  | cat l r | alt l r => exact ⟨_, rfl⟩
  | star r => exact ⟨_, rfl⟩

theorem getElem?_parts (before after : List (Regex × Names)) (r : Regex) (names : Names) :
    (before ++ (r.parts names ++ after))[before.length + r.postorder.length - 1]? =
      some (r, names) := by
  obtain ⟨operands, hparts⟩ := r.exists_parts_eq names
  have hplace : before.length + r.postorder.length - 1 = (before ++ operands).length := by
    rw [← length_parts r names, hparts, List.length_append, List.length_append]
    rfl
  have hsplit : before ++ (r.parts names ++ after) =
      before ++ operands ++ (r, names) :: after := by
    simp only [hparts, List.append_assoc, List.cons_append, List.nil_append]
  rw [hplace, hsplit, List.getElem?_append_right (Nat.le_refl _), Nat.sub_self]
  rfl

/-- The part at the place `i` ends the block of its own parts, and its names follow those that
the nodes before this block have taken from `first` on. -/
def EndsBlock (nodes : List (Regex × Names)) (first i : Nat) (part : Regex × Names) : Prop :=
  ∃ before after, nodes = before ++ (part.1.parts part.2 ++ after) ∧
    i + 1 = before.length + part.1.postorder.length ∧
    part.2.next = first + 2 * (before.map Prod.fst).countP (!·.isCat)

section Blocks

variable {left right operands : List (Regex × Names)} {first next i : Nat}
  {part : Regex × Names} {r : Regex} {names : Names}

theorem EndsBlock.append_right (h : EndsBlock left first i part) :
    EndsBlock (left ++ right) first i part := by
  obtain ⟨before, after, rfl, hplace, hnames⟩ := h
  refine ⟨before, after ++ right, ?_, hplace, hnames⟩
  simp only [List.append_assoc]

theorem EndsBlock.append_left (hnext : next = first + 2 * (left.map Prod.fst).countP (!·.isCat))
    (h : EndsBlock right next i part) : EndsBlock (left ++ right) first (left.length + i) part := by
  obtain ⟨before, after, rfl, hplace, hnames⟩ := h
  refine ⟨left ++ before, after, ?_, ?_, ?_⟩
  · simp only [List.append_assoc]
  · rw [List.length_append, Nat.add_assoc, hplace, Nat.add_assoc]
  · rw [hnames, hnext, List.map_append, List.countP_append, Nat.mul_add, Nat.add_assoc]

private theorem endsBlock_append
    (hleft : ∀ i part, left[i]? = some part → EndsBlock left first i part)
    (hright : ∀ i part, right[i]? = some part → EndsBlock right next i part)
    (hnext : next = first + 2 * (left.map Prod.fst).countP (!·.isCat)) :
    ∀ i part, (left ++ right)[i]? = some part → EndsBlock (left ++ right) first i part := by
  intro i part h
  rcases Nat.lt_or_ge i left.length with hi | hi
  · rw [List.getElem?_append_left hi] at h
    exact (hleft i part h).append_right
  · rw [List.getElem?_append_right hi] at h
    have hlater := (hright _ part h).append_left hnext
    rwa [Nat.add_sub_cancel' hi] at hlater

/-- A node comes after its operands, and all nodes from the first on are its own. -/
private theorem endsBlock_concat (hparts : r.parts names = operands ++ [(r, names)])
    (hoperands : ∀ i part, operands[i]? = some part → EndsBlock operands names.next i part) :
    ∀ i part, (r.parts names)[i]? = some part → EndsBlock (r.parts names) names.next i part := by
  intro i part h
  rcases Nat.lt_or_ge i operands.length with hi | hi
  · rw [hparts, List.getElem?_append_left hi] at h
    rw [hparts]
    exact (hoperands i part h).append_right
  · have hlength : r.postorder.length = operands.length + 1 := by
      rw [← length_parts r names, hparts, List.length_append, List.length_singleton]
    obtain ⟨hlast, -⟩ := List.getElem?_eq_some_iff.mp h
    rw [length_parts, hlength] at hlast
    obtain rfl : i = operands.length := Nat.le_antisymm (Nat.le_of_lt_succ hlast) hi
    rw [hparts, List.getElem?_concat_length] at h
    obtain rfl := Option.some.inj h
    refine ⟨[], [], (List.append_nil _).symm, ?_, rfl⟩
    rw [hlength, List.length_nil, Nat.zero_add]

/-- Every part stands at the end of its block. -/
theorem endsBlock_of_getElem? (r : Regex) (names : Names) :
    ∀ i part, (r.parts names)[i]? = some part → EndsBlock (r.parts names) names.next i part := by
  have hnil : ∀ first i part, ([] : List (Regex × Names))[i]? = some part →
      EndsBlock [] first i part := by
    intro first i part h
    cases h
  induction r generalizing names with
  | char c => exact endsBlock_concat rfl (hnil _)
  | any => exact endsBlock_concat rfl (hnil _)
  | cat l r ihl ihr | alt l r ihl ihr =>
      apply endsBlock_concat rfl
      apply endsBlock_append (ihl names) (ihr _)
      rw [next_build, map_fst_parts, countP_postorder]
  | star r ih => exact endsBlock_concat rfl (ih names)

end Blocks

end Regex

namespace Journal

open Regex

/-- What a line says of a part: where it starts, where it accepts, and how many states it has. -/
structure Note where
  start : Nat
  exit : Nat
  size : Nat
  deriving DecidableEq, Repr

def Note.fragment (note : Note) : Fragment := ⟨note.start, [note.exit], note.size⟩

/-- The note of a node, when the notes of its part begin at the place `first`. -/
def noteOf (notes : List Note) (first : Nat) (node : Regex) : Option Note :=
  notes[first + node.postorder.length - 1]?

/-- Where the part of a node starts and accepts, when its notes begin at the place `first` and
`n` names are in use before them. A concatenation takes its ends from its operands. -/
def Ends (notes : List Note) (first n start exit : Nat) : Regex → Prop
  | .char _ | .any => start = n ∧ exit = n + 1
  | .cat l r =>
      (noteOf notes first l).map Note.start = some start ∧
        (noteOf notes (first + l.postorder.length) r).map Note.exit = some exit
  | .alt l r =>
      start = n + 2 * (Regex.alt l r).weight - 2 ∧ exit = n + 2 * (Regex.alt l r).weight - 1
  | .star r => start = n + 2 * (Regex.star r).weight - 2 ∧ exit = n + 2 * (Regex.star r).weight - 1

/-- The notes are those of the nodes in post-order. The notes of the part that a node stands for
end with its own, and those before them tell how many names are in use. -/
structure Follows (notes : List Note) (tree : Regex) : Prop where
  length_eq : notes.length = tree.postorder.length
  note_eq : ∀ i node, tree.postorder[i]? = some node → ∃ before after start exit,
    tree.postorder = before ++ (node.postorder ++ after) ∧
      i + 1 = before.length + node.postorder.length ∧
      notes[i]? = some ⟨start, exit, 2 * node.weight⟩ ∧
      Ends notes before.length (2 * before.countP (!·.isCat)) start exit node

/-- The note of a part that is built from its supply. The part accepts in one state only. -/
def Note.ofPart (part : Regex × Names) : Note :=
  let (a, _) := part.1.build part.2
  ⟨a.start, a.accept.toList.headD a.start, 2 * part.1.weight⟩

section Notes

variable {parts before after : List (Regex × Names)} {node : Regex} {supply : Names}

theorem noteOf_block (hparts : parts = before ++ (node.parts supply ++ after)) :
    noteOf (parts.map .ofPart) before.length node = some (.ofPart (node, supply)) := by
  rw [noteOf, List.getElem?_map, hparts, getElem?_parts]
  rfl

theorem exists_toList_accept (node : Regex) (supply : Names) :
    ∃ exit, (node.build supply).1.accept.toList = [exit] := by
  obtain ⟨exit, hnode⟩ := node.exists_segment supply
  exact ⟨exit, by rw [hnode.accept_eq, OrdSet.toList_singleton]⟩

theorem ofPart_eq {exit : Nat} (haccept : (node.build supply).1.accept.toList = [exit]) :
    Note.ofPart (node, supply) = ⟨(node.build supply).1.start, exit, 2 * node.weight⟩ := by
  rw [Note.ofPart]
  simp only [haccept, List.headD_cons]

/-- The journal keeps of a part what its note says. -/
theorem ofAutomaton_part (part : Regex × Names) :
    Fragment.ofAutomaton (part.1.build part.2).1 = (Note.ofPart part).fragment := by
  obtain ⟨exit, haccept⟩ := exists_toList_accept part.1 part.2
  obtain ⟨_, hnode⟩ := part.1.exists_segment part.2
  rw [Fragment.ofAutomaton, ofPart_eq haccept, haccept, hnode.length_states]
  rfl

/-- The ends of a new choice or loop are the last names that its part takes. -/
private theorem ends_of_next {names : Names} {n weight exit : Nat}
    (hnext : names.next + 2 = n + 2 * weight)
    (haccept : OrdSet.toList {names.next + 1} = [exit]) :
    names.next = n + 2 * weight - 2 ∧ exit = n + 2 * weight - 1 := by
  have hexit : names.next + 1 = exit := (List.cons.inj haccept).1
  omega

theorem ends_of_block (hparts : parts = before ++ (node.parts supply ++ after)) {exit : Nat}
    (haccept : (node.build supply).1.accept.toList = [exit]) :
    Ends (parts.map .ofPart) before.length supply.next (node.build supply).1.start exit node := by
  cases node with
  | char c => exact ⟨rfl, (List.cons.inj haccept).1.symm⟩
  | any => exact ⟨rfl, (List.cons.inj haccept).1.symm⟩
  | cat l r =>
      -- The notes of the operands stand within those of the node, one block after the other.
      have hleft : parts = before ++ (l.parts supply ++
          (r.parts (l.build supply).2 ++ ([(.cat l r, supply)] ++ after))) := by
        rw [hparts]
        simp only [Regex.parts, List.append_assoc]
      have hright : parts = before ++ l.parts supply ++
          (r.parts (l.build supply).2 ++ ([(.cat l r, supply)] ++ after)) := by
        rw [hleft, List.append_assoc]
      have hplace : before.length + l.postorder.length = (before ++ l.parts supply).length := by
        rw [List.length_append, length_parts]
      have hbuild : ((Regex.cat l r).build supply).1 =
          (l.build supply).1.chain (r.build (l.build supply).2).1 := rfl
      rw [hbuild, Automaton.chain_eq] at haccept ⊢
      rw [Ends, hplace, noteOf_block hleft, noteOf_block hright]
      rw [ofPart_eq haccept]
      exact ⟨rfl, rfl⟩
  | alt l r =>
      have hnext := next_build_twice l r supply
      rw [Regex.build, Automaton.choice_eq] at haccept ⊢
      apply ends_of_next _ haccept
      rw [hnext, weight]
      omega
  | star r =>
      have hnext := next_build r supply
      rw [Regex.build, Automaton.loop_eq] at haccept ⊢
      apply ends_of_next _ haccept
      rw [hnext, weight]
      omega

end Notes

theorem follows_parts (tree : Regex) :
    Follows ((tree.parts (.ofStart 0)).map .ofPart) tree where
  length_eq := by rw [List.length_map, length_parts]
  note_eq := by
    intro i node hnode
    rw [← map_fst_parts tree (.ofStart 0), List.getElem?_map] at hnode
    obtain ⟨⟨node, supply⟩, hpart, rfl⟩ := Option.map_eq_some_iff.mp hnode
    obtain ⟨before, after, hparts, hplace, hnext⟩ :=
      endsBlock_of_getElem? tree (.ofStart 0) i _ hpart
    obtain ⟨exit, haccept⟩ := exists_toList_accept node supply
    have hnext : supply.next = 2 * (before.map Prod.fst).countP (!·.isCat) :=
      hnext.trans (Nat.zero_add _)
    have hends := ends_of_block hparts haccept
    rw [← List.length_map Prod.fst, hnext] at hends
    refine ⟨before.map Prod.fst, after.map Prod.fst, (node.build supply).1.start, exit,
      ?_, ?_, ?_, hends⟩
    · rw [← map_fst_parts tree (.ofStart 0), hparts, List.map_append, List.map_append,
        map_fst_parts]
    · rw [hplace, List.length_map]
    · rw [List.getElem?_map, hpart, Option.map_some, ofPart_eq haccept]

theorem shown_trace (entries : List Entry) : shown .trace entries = entries :=
  List.filter_eq_self.mpr fun _ _ => rfl

theorem shown_debug (pattern : Text) (tree : Regex) (notes : List Fragment) :
    shown .debug (.parsed pattern tree :: (notes.map .fragment ++ [.built tree.automaton])) =
      [.parsed pattern tree, .built tree.automaton] := by
  have hnotes : shown .debug (notes.map .fragment) = [] := by
    rw [shown, List.filter_eq_nil_iff]
    intro entry hentry
    obtain ⟨note, -, rfl⟩ := List.mem_map.mp hentry
    exact Bool.false_ne_true
  change .parsed pattern tree :: shown .debug (notes.map .fragment ++ [.built tree.automaton]) = _
  rw [shown, List.filter_append, ← shown, hnotes]
  rfl

theorem compile_of_parse {pattern : Text} {tree : Regex} (h : Regex.parse pattern = .ok tree) :
    (compile pattern).1 =
      .parsed pattern tree ::
        ((((tree.parts (.ofStart 0)).map Note.ofPart).map Note.fragment).map .fragment ++
          [.built tree.automaton]) := by
  have hbuild : build tree (.ofStart 0) =
      (((tree.parts (.ofStart 0)).map Note.ofPart).map Note.fragment, tree.build (.ofStart 0)) := by
    rw [build_eq, List.map_map]
    exact congrArg (·, _) (List.map_congr_left fun part _ => ofAutomaton_part part)
  rw [compile, h]
  change (ofTree pattern tree).1 = _
  rw [ofTree, hbuild]
  rfl

section Messages

theorem message_fragment (note : Note) :
    (Entry.fragment note.fragment).message =
      lit "Fragment q" ++ Text.ofNat note.start ++ lit " -> \x7bStateId(" ++
        Text.ofNat note.exit ++ lit ")\x7d (" ++ Text.ofNat note.size ++ lit " states)" := by
  simp [Entry.message, Note.fragment, Entry.stateSet, stateName, lit_eq]

theorem message_built (whole : Automaton) :
    (Entry.built whole).message =
      lit "Built NFA with " ++ Text.ofNat whole.states.length ++ lit " states, " ++
        Text.ofNat whole.edges.length ++ lit " transitions, start q" ++
          Text.ofNat whole.start := by
  simp [Entry.message, Automaton.edgeCount_eq_length_edges, stateName, lit_eq]

private theorem newline_not_mem_intersperse {sep : Text} {parts : List Text}
    (hsep : '\n' ∉ sep) (hparts : ∀ part ∈ parts, '\n' ∉ part) :
    '\n' ∉ (parts.intersperse sep).flatten := by
  induction parts with
  | nil => exact List.not_mem_nil
  | cons part rest ih =>
      obtain ⟨hpart, hrest⟩ := List.forall_mem_cons.mp hparts
      cases rest with
      | nil => simpa using hpart
      | cons next rest =>
          rw [List.intersperse_cons_cons, List.flatten_cons, List.flatten_cons]
          simp only [List.mem_append, hpart, hsep, ih hrest, or_self, not_false_eq_true]

theorem newline_not_mem_stateSet (states : List Nat) : '\n' ∉ Entry.stateSet states := by
  have hids : '\n' ∉ ((states.map fun s => lit "StateId(" ++ Text.ofNat s ++ [')']).intersperse
      (lit ", ")).flatten := by
    apply newline_not_mem_intersperse
    · simp [lit_eq]
    · simp [lit_eq, Text.newline_not_mem_ofNat]
  simpa [Entry.stateSet] using hids

theorem newline_not_mem_term (tree : Regex) : '\n' ∉ tree.term := by
  have hmark : '\'' ≠ '\n' := by decide
  induction tree with
  | char c => simp [term_char, lit_eq, Text.newline_not_mem_quoted hmark]
  | any => simp [term_any, lit_eq]
  | cat l r ihl ihr => simp [term_cat, lit_eq, ihl, ihr]
  | alt l r ihl ihr => simp [term_alt, lit_eq, ihl, ihr]
  | star r ih => simp [term_star, lit_eq, ih]

/-- A message stands on a single line, whatever it is about. -/
theorem newline_not_mem_message (entry : Entry) : '\n' ∉ entry.message := by
  cases entry with
  | parsed pattern tree =>
      have hquoted : '\n' ∉ Text.quoted '"' pattern := Text.newline_not_mem_quoted (by decide) _
      simp [Entry.message, lit_eq, hquoted, newline_not_mem_term]
  | fragment part =>
      simp [Entry.message, stateName, lit_eq, Text.newline_not_mem_ofNat, newline_not_mem_stateSet]
  | built whole => simp [message_built, lit_eq, Text.newline_not_mem_ofNat]

end Messages

end Journal

open Journal

/-- What is logged of a pattern. The tree that it is read as comes first and the automaton last,
for everyday use, and between them there is for whoever follows every step one note of each
node, in post-order. The note of the whole tree is the last one, and the automaton starts where
it says. A pattern with a fault is not logged. -/
theorem Journal.lines_in_postorder (pattern : Text) :
    (∀ tree, Regex.parse pattern = .ok tree → ∃ notes whole, Follows notes tree ∧
      notes.getLast? = some whole ∧
      let parsed : Level × Text :=
        (.debug, lit "Parsed " ++ Text.quoted '"' pattern ++ lit " into " ++ tree.term)
      let fragments : List (Level × Text) := notes.map fun note =>
        (.trace, lit "Fragment q" ++ Text.ofNat note.start ++ lit " -> \x7bStateId(" ++
          Text.ofNat note.exit ++ lit ")\x7d (" ++ Text.ofNat note.size ++ lit " states)")
      let built : Level × Text :=
        (.debug, lit "Built NFA with " ++ Text.ofNat (2 * tree.weight) ++ lit " states, " ++
          Text.ofNat tree.automaton.edges.length ++ lit " transitions, start q" ++
            Text.ofNat whole.start)
      lines .trace pattern = parsed :: (fragments ++ [built]) ∧
        lines .debug pattern = [parsed, built]) ∧
    ∀ fault, Regex.parse pattern = .error fault → ∀ verbosity, lines verbosity pattern = [] := by
  constructor
  · intro tree hparse
    obtain ⟨operands, hparts⟩ := tree.exists_parts_eq (.ofStart 0)
    obtain ⟨exit, hwhole⟩ := tree.exists_segment (.ofStart 0)
    have hlast : ((tree.parts (.ofStart 0)).map Note.ofPart).getLast? =
        some (.ofPart (tree, .ofStart 0)) := by
      rw [hparts, List.map_append, List.map_singleton, List.getLast?_concat]
    have hbuilt : (Entry.built tree.automaton).message =
        lit "Built NFA with " ++ Text.ofNat (2 * tree.weight) ++ lit " states, " ++
          Text.ofNat tree.automaton.edges.length ++ lit " transitions, start q" ++
            Text.ofNat (Note.ofPart (tree, .ofStart 0)).start := by
      rw [message_built, Regex.automaton, hwhole.length_states]
      rfl
    refine ⟨_, _, follows_parts tree, hlast, ?_, ?_⟩
    · rw [lines, compile_of_parse hparse, shown_trace, List.map_cons, List.map_append,
        List.map_map, List.map_map, List.map_singleton, hbuilt]
      simp only [Function.comp_def, message_fragment]
      rfl
    · rw [lines, compile_of_parse hparse, shown_debug, List.map_cons, List.map_singleton, hbuilt]
      rfl
  · intro fault hparse verbosity
    rw [lines, compile, hparse]
    rfl

/-- A choice and a loop in a row, and a pattern that is rejected. The first letter is an accent,
so it is escaped wherever it is quoted. -/
theorem Journal.row_of_groups_lines :
    let pattern : Text := ['(', '\u0345', '|', '.', ')', 'b', '*']
    let tree : Regex := .cat (.alt (.char '\u0345') .any) (.star (.char 'b'))
    Regex.parse pattern = .ok tree ∧
      (∃ notes whole, Follows notes tree ∧ notes.getLast? = some whole ∧
        let parsed : Level × Text :=
          (.debug, lit "Parsed " ++ Text.quoted '"' pattern ++ lit " into " ++ tree.term)
        let fragments : List (Level × Text) := notes.map fun note =>
          (.trace, lit "Fragment q" ++ Text.ofNat note.start ++ lit " -> \x7bStateId(" ++
            Text.ofNat note.exit ++ lit ")\x7d (" ++ Text.ofNat note.size ++ lit " states)")
        let built : Level × Text :=
          (.debug, lit "Built NFA with " ++ Text.ofNat (2 * tree.weight) ++ lit " states, " ++
            Text.ofNat tree.automaton.edges.length ++ lit " transitions, start q" ++
              Text.ofNat whole.start)
        lines .trace pattern = parsed :: (fragments ++ [built]) ∧
          lines .debug pattern = [parsed, built]) ∧
      lines .trace pattern = [
        (.debug, lit "Parsed \"(\\u\x7b345\x7d|.)b*\" into " ++
          lit "Concatenation(Or(Leaf('\\u\x7b345\x7d'), AnyChar), Star(Leaf('b')))"),
        (.trace, lit "Fragment q0 -> \x7bStateId(1)\x7d (2 states)"),
        (.trace, lit "Fragment q2 -> \x7bStateId(3)\x7d (2 states)"),
        (.trace, lit "Fragment q4 -> \x7bStateId(5)\x7d (6 states)"),
        (.trace, lit "Fragment q6 -> \x7bStateId(7)\x7d (2 states)"),
        (.trace, lit "Fragment q8 -> \x7bStateId(9)\x7d (4 states)"),
        (.trace, lit "Fragment q4 -> \x7bStateId(9)\x7d (10 states)"),
        (.debug, lit "Built NFA with 10 states, 12 transitions, start q4")] ∧
      Regex.parse ['a', ')'] = .error (.unopened 1) ∧ lines .trace ['a', ')'] = [] := by
  intro pattern tree
  have hparse : Regex.parse pattern = .ok tree := rfl
  have hfault : Regex.parse ['a', ')'] = .error (.unopened 1) := rfl
  refine ⟨hparse, (lines_in_postorder pattern).1 tree hparse, ?_, hfault,
    (lines_in_postorder ['a', ')']).2 _ hfault .trace⟩
  simp only [lit_eq]
  decide +kernel

end Thompson

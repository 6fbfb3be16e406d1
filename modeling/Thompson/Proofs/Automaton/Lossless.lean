import Thompson.Automaton.Document
import Thompson.Proofs.Json.Reading
import Thompson.Proofs.Json.Writing
import Thompson.Proofs.Ordered

/-!
Nothing is lost when an automaton without literal dots is written: its document is read
back as the same automaton, whatever its states and edges are. It need not be closed.
-/

namespace Thompson

section Names

theorem stateOfName?_stateName (s : Nat) : stateOfName? (stateName s) = some s := by
  have hdigits : (Text.ofNat s).all Char.isDigit = true := by
    apply List.all_eq_true.mpr
    intro c hc
    exact Text.isDigit_of_mem_ofNat hc
  have hvalue := Text.ofDigitChars_ofNat s
  unfold stateName
  cases htext : Text.ofNat s with
  | nil => exact absurd htext Nat.toDigits_ne_nil
  | cons digit digits =>
      rw [htext] at hdigits hvalue
      rw [stateOfName?, if_pos hdigits, hvalue]

theorem Symbol.ofText?_text {s : Symbol} (h : s ≠ .char '.') :
    Symbol.ofText? s.text = some s := by
  cases s with
  | any => rfl
  | char c =>
      change Symbol.ofText? [c] = _
      rw [Symbol.ofText?]
      intro hc
      exact h (congrArg Symbol.char hc)

theorem Label.ofKey?_key {label : Label} (h : label ≠ .symbol (.char '.')) :
    Label.ofKey? label.key = some label := by
  cases label with
  | epsilon => rfl
  | symbol s =>
      have hs : s ≠ .char '.' := fun heq => h (congrArg Label.symbol heq)
      have htext := Symbol.ofText?_text hs
      cases s <;> exact congrArg (Option.map Label.symbol) htext

end Names

section Inverse

variable {α β : Type} {write : α → β} {read : β → Option α} {values : List α}

/-- What is read back is written in its own way. -/
theorem eq_of_inverse {a b : α} (ha : read (write a) = some a) (hb : read (write b) = some b)
    (h : write a = write b) : a = b := by
  rw [h, hb] at ha
  exact (Option.some.inj ha).symm

theorem mapM_map_of_inverse (h : ∀ a ∈ values, read (write a) = some a) :
    (values.map write).mapM read = some values := by
  induction values with
  | nil => rfl
  | cons a values ih =>
      obtain ⟨ha, hvalues⟩ := List.forall_mem_cons.mp h
      rw [List.map_cons, List.mapM_cons, ha, ih hvalues]
      rfl

theorem nodup_map_of_inverse (h : ∀ a ∈ values, read (write a) = some a)
    (hvalues : values.Nodup) : (values.map write).Nodup := by
  apply List.pairwise_map.mpr
  apply hvalues.imp_of_mem
  intro a b ha hb hne heq
  exact hne (eq_of_inverse (h a ha) (h b hb) heq)

end Inverse

namespace Json

theorem states?_ofStates (states : List Nat) : (ofStates states).states? = some states := by
  apply mapM_map_of_inverse
  intro s _
  exact stateOfName?_stateName s

theorem distinctNames_ofStates (states : List Nat) : (ofStates states).DistinctNames := by
  apply distinctInItems_iff.mpr
  intro item hitem
  obtain ⟨s, _, rfl⟩ := List.mem_map.mp hitem
  trivial

section Members

variable {κ ν : Type} [Ranked κ] {m : OrdMap κ ν} {name : κ → Text} {name? : Text → Option κ}
  {write : ν → Json} {read : Json → Option ν}

/-- A map that is written with a member for each entry is read back. -/
theorem ofList_members [DecidableEq κ] (hnames : ∀ k ∈ m.keys, name? (name k) = some k)
    (hvalues : ∀ entry ∈ m.entries, read (write entry.2) = some entry.2) :
    (do
      let entries ← (m.entries.map fun (k, v) => (name k, write v)).mapM fun (text, value) => do
        return (← name? text, ← read value)
      return .ofList entries) = some m := by
  rw [mapM_map_of_inverse]
  · exact congrArg some (OrdMap.ofList_entries m)
  · intro entry hentry
    simp only [hnames entry.1 (List.mem_map_of_mem hentry), hvalues entry hentry]
    rfl

theorem distinctNames_members (hnames : ∀ k ∈ m.keys, name? (name k) = some k)
    (hvalues : ∀ entry ∈ m.entries, (write entry.2).DistinctNames) :
    (Json.obj (m.entries.map fun (k, v) => (name k, write v))).DistinctNames := by
  constructor
  · have hkeys := nodup_map_of_inverse hnames m.nodup_keys
    rw [OrdMap.keys, List.map_map] at hkeys
    rwa [List.map_map]
  · apply distinctInMembers_iff.mpr
    intro member hmember
    obtain ⟨entry, hentry, rfl⟩ := List.mem_map.mp hmember
    exact hvalues entry hentry

end Members

section Row

variable {row : Row} (hdot : .symbol (.char '.') ∉ row.keys)

include hdot

theorem ofKey?_of_mem_keys : ∀ label ∈ row.keys, Label.ofKey? label.key = some label := by
  intro label hlabel
  apply Label.ofKey?_key
  rintro rfl
  exact hdot hlabel

theorem row?_ofRow : (ofRow row).row? = some row := by
  apply ofList_members (ofKey?_of_mem_keys hdot)
  intro entry _
  exact states?_ofStates entry.2

theorem distinctNames_ofRow : (ofRow row).DistinctNames := by
  apply distinctNames_members (ofKey?_of_mem_keys hdot)
  intro entry _
  exact distinctNames_ofStates entry.2

end Row

section Table

variable {table : Table} (hdot : ∀ entry ∈ table.entries, .symbol (.char '.') ∉ entry.2.keys)

include hdot

theorem table?_of_entries :
    (Json.obj (table.entries.map fun (source, row) => (stateName source, .ofRow row))).table? =
      some table := by
  apply ofList_members fun s _ => stateOfName?_stateName s
  intro entry hentry
  exact row?_ofRow (hdot entry hentry)

theorem distinctNames_of_entries :
    (Json.obj (table.entries.map fun (source, row) =>
      (stateName source, .ofRow row))).DistinctNames := by
  apply distinctNames_members fun s _ => stateOfName?_stateName s
  intro entry hentry
  exact distinctNames_ofRow (hdot entry hentry)

end Table

end Json

namespace Automaton

theorem nodup_partNames :
    [lit "States", lit "Alphabet", lit "Transitions", lit "Start State",
      lit "Accept States"].Nodup := by
  simp [lit]

theorem written_of_mem {a : Automaton} {text : Text}
    (h : text ∈ [a.toJson.text .compact, a.document]) : Json.Written text a.toJson := by
  rcases List.mem_cons.mp h with rfl | hdocument
  · have hcompact := Json.written_text .compact a.toJson .nil
    rwa [List.append_nil] at hcompact
  · rw [List.mem_singleton.mp hdocument]
    exact Json.written_text .indented a.toJson (.blank rfl .nil)

section Parts

variable {a : Automaton} (hdot : a.NoLiteralDot)

include hdot

theorem ofText?_of_mem_alphabet {s : Symbol} (h : s ∈ a.alphabet.toList) :
    Symbol.ofText? s.text = some s := by
  apply Symbol.ofText?_text
  rintro rfl
  exact hdot.alphabet (OrdSet.mem_toList.mp h)

theorem symbols?_of_alphabet :
    (Json.arr (a.alphabet.toList.map fun s => .str s.text)).symbols? =
      some a.alphabet.toList := by
  apply mapM_map_of_inverse
  intro s hs
  exact ofText?_of_mem_alphabet hdot hs

theorem ofJson?_toJson : ofJson? a.toJson = some a := by
  have hstates : a.toJson.member? (lit "States") = some (.ofStates a.states) :=
    Json.member?_of_mem nodup_partNames (by simp)
  have halphabet : a.toJson.member? (lit "Alphabet") =
      some (.arr (a.alphabet.toList.map fun s => .str s.text)) :=
    Json.member?_of_mem nodup_partNames (by simp)
  have htable : a.toJson.member? (lit "Transitions") =
      some (.obj (a.table.entries.map fun (source, row) => (stateName source, .ofRow row))) :=
    Json.member?_of_mem nodup_partNames (by simp)
  have hstart : a.toJson.member? (lit "Start State") = some (.str (stateName a.start)) :=
    Json.member?_of_mem nodup_partNames (by simp)
  have haccept : a.toJson.member? (lit "Accept States") = some (.ofStates a.accept.toList) :=
    Json.member?_of_mem nodup_partNames (by simp)
  have hname : (Json.str (stateName a.start)).state? = some a.start :=
    stateOfName?_stateName a.start
  simp only [ofJson?, hstates, halphabet, htable, hstart, haccept, hname, Option.bind_eq_bind,
    Option.bind_some, Json.states?_ofStates, symbols?_of_alphabet hdot,
    Json.table?_of_entries hdot.table, OrdSet.ofList_toList]
  rfl

theorem distinctNames_toJson : a.toJson.DistinctNames := by
  refine ⟨nodup_partNames, ?_⟩
  have hstates := Json.distinctNames_ofStates a.states
  have haccept := Json.distinctNames_ofStates a.accept.toList
  have htable := Json.distinctNames_of_entries hdot.table
  refine ⟨hstates, ?_, htable, trivial, haccept, trivial⟩
  apply Json.distinctInItems_iff.mpr
  intro item hitem
  obtain ⟨s, _, rfl⟩ := List.mem_map.mp hitem
  trivial

theorem ofDocument?_of_mem {text : Text} (h : text ∈ [a.toJson.text .compact, a.document]) :
    ofDocument? text = some a := by
  rw [ofDocument?, Json.read?_of_written (written_of_mem h)]
  exact ofJson?_toJson hdot

end Parts

/-- The text on a single line and the content of a file are, for an automaton without literal
dots, JSON texts of one value, in which no name comes twice, and both are read back as this
automaton. So it shares neither with another one. -/
theorem texts_lossless (a : Automaton) (hdot : a.NoLiteralDot) :
    a.toJson.DistinctNames ∧
      (∀ text ∈ [a.toJson.text .compact, a.document],
        (∀ value, Json.Written text value ↔ value = a.toJson) ∧ ofDocument? text = some a) ∧
      ∀ b : Automaton, b.NoLiteralDot → ∀ text ∈ [a.toJson.text .compact, a.document],
        text ∈ [b.toJson.text .compact, b.document] → a = b := by
  refine ⟨distinctNames_toJson hdot, ?_, ?_⟩
  · intro text htext
    have hwritten := written_of_mem htext
    refine ⟨?_, ofDocument?_of_mem hdot htext⟩
    intro value
    constructor
    · intro hvalue
      exact hvalue.unique hwritten
    · rintro rfl
      exact hwritten
  · intro b hb text ha htext
    have hread := ofDocument?_of_mem hdot ha
    rw [ofDocument?_of_mem hb htext] at hread
    exact (Option.some.inj hread).symm

/-- A state comes twice, an edge has no targets and others lead to states that are not
there, a row is empty, and the symbols have to be escaped. -/
def stray : Automaton where
  states := [7, 0, 7]
  alphabet := .ofList [.char '"', .char '\\', .char '\x01', .any]
  table := .ofList [
    (0, .ofList [(.epsilon, []), (.symbol (.char '"'), [7, 7, 12])]),
    (7, .ofList [(.symbol (.char '\n'), [0]), (.symbol .any, [18446744073709551615])]),
    (18446744073709551615, ∅)]
  start := 18446744073709551615
  accept := .ofList [3, 1]

theorem stray_texts_lossless :
    stray.NoLiteralDot ∧ stray.toJson.DistinctNames ∧
      (∀ text ∈ [stray.toJson.text .compact, stray.document],
        (∀ value, Json.Written text value ↔ value = stray.toJson) ∧
          ofDocument? text = some stray) ∧
      ∀ b : Automaton, b.NoLiteralDot → ∀ text ∈ [stray.toJson.text .compact, stray.document],
        text ∈ [b.toJson.text .compact, b.document] → stray = b := by
  have hdot : stray.NoLiteralDot := ⟨by decide, by decide⟩
  exact ⟨hdot, texts_lossless stray hdot⟩

end Automaton

end Thompson

import Thompson.Json.Grammar
import Thompson.Json.Reader

/-!
The reader takes every JSON text and finds the value that was written. So a text is
written for one value at most.
-/

namespace Thompson

namespace Json

section Tokens

variable {rest : Text} {c : Char}

theorem unescape?_short {letter : Char} (h : (letter, c) ∈ shortEscapes) :
    letter ≠ 'u' ∧ unescape? letter = some c := by
  have hall : ∀ entry ∈ shortEscapes, entry.1 ≠ 'u' ∧ unescape? entry.1 = some entry.2 := by
    decide
  exact hall _ h

theorem string?_append_of_spells {u : Text} (h : Spells u c) :
    string? (u ++ rest) = (string? rest).map fun (text, tokens) => (c :: text, tokens) := by
  cases h with
  | plain hquote hbackslash hcontrol =>
      have htaken : ¬ (c = '\\' ∨ c.toNat < 0x20) := by
        rintro (hc | hlow)
        · exact hbackslash hc
        · omega
      rw [List.singleton_append, string?]
      · rw [if_neg htaken]
        cases string? rest <;> rfl
      · exact hquote
      · intro _ _ _ _ _ hc
        contradiction
      · intro _ _ hc
        contradiction
  | @short letter _ hmem =>
      obtain ⟨hletter, hchar⟩ := unescape?_short hmem
      change string? ('\\' :: letter :: rest) = _
      rw [string?]
      · rw [hchar]
        cases string? rest <;> rfl
      · intro _ _ _ _ _ hu
        contradiction
  | slash =>
      change string? ('\\' :: '/' :: rest) = _
      rw [string?]
      · change (string? rest).bind _ = _
        cases string? rest <;> rfl
      · intro _ _ _ _ _ hu
        contradiction
  | @hex x y z w _ hchar =>
      change string? ('\\' :: 'u' :: x :: y :: z :: w :: rest) = _
      rw [string?, hchar]
      cases string? rest <;> rfl

theorem string?_of_spellsText {u text : Text} (h : SpellsText u text) :
    string? (u ++ '"' :: rest) = (tokens? rest).map fun tokens => (text, tokens) := by
  induction h with
  | nil =>
      rw [List.nil_append, string?]
      cases tokens? rest <;> rfl
  | cons hchar _ ih =>
      rw [List.append_assoc, string?_append_of_spells hchar, ih, Option.map_map]
      rfl

theorem not_isBlank_of_ofChar? {token : Token} (h : Token.ofChar? c = some token) :
    c ≠ '"' ∧ ¬ isBlank c = true := by
  unfold Token.ofChar? at h
  split at h
  case h_7 => contradiction
  all_goals exact ⟨by decide, by decide⟩

theorem tokens?_of_lexes {text : Text} {tokens : List Token} (h : Lexes text tokens) :
    tokens? text = some tokens := by
  induction h with
  | nil => rfl
  | blank hblank _ ih =>
      rw [tokens?, if_pos hblank, ih]
      rintro rfl
      contradiction
  | mark hmark _ ih =>
      obtain ⟨hquote, hblank⟩ := not_isBlank_of_ofChar? hmark
      rw [tokens?, if_neg hblank, hmark, ih]
      · rfl
      · exact hquote
  | str hspells _ ih =>
      rw [tokens?, string?_of_spellsText hspells, ih]
      rfl

end Tokens

namespace Reader

/-- What becomes of the reader on a sequence of tokens. -/
def run (reader : Reader) (tokens : List Token) : Option Reader :=
  tokens.foldlM step? reader

/-- A value that may be the first item of an array is read like any other value. -/
theorem run_firstItem (frames : List Frame) (value : Json) (rest : List Token) :
    run ⟨frames, .firstItem⟩ (value.tokens ++ rest) =
      run ⟨.items [] :: frames, .value⟩ (value.tokens ++ rest) := by
  cases value with
  | str text => rfl
  | arr items => cases items <;> rfl
  | obj members => cases members <;> rfl

mutual

/-- The reader takes exactly the tokens of a value, and then it has the value. -/
theorem run_tokens : ∀ (value : Json) (frames : List Frame) (rest : List Token),
    run ⟨frames, .value⟩ (value.tokens ++ rest) = run ⟨frames, .after value⟩ rest
  | .str text, frames, rest => by
      rw [tokens]
      rfl
  | .arr [], frames, rest => by
      rw [tokens]
      rfl
  | .arr (item :: items), frames, rest => by
      rw [tokens, List.cons_append, List.append_assoc]
      change run ⟨frames, .firstItem⟩ _ = _
      rw [run_firstItem, run_tokens item, run_itemTokens items, List.nil_append]
  | .obj [], frames, rest => by
      rw [tokens]
      rfl
  | .obj ((name, value) :: members), frames, rest => by
      simp only [tokens, List.cons_append, List.append_assoc]
      change run ⟨.members [] name :: frames, .value⟩ _ = _
      rw [run_tokens value, run_memberTokens members, List.nil_append]

theorem run_itemTokens : ∀ (items : List Json) (frames : List Frame) (rest : List Token)
    (before : List Json) (value : Json),
    run ⟨.items before :: frames, .after value⟩ (itemTokens items ++ rest) =
      run ⟨frames, .after (.arr (before ++ value :: items))⟩ rest
  | [], frames, rest, before, value => by
      rw [itemTokens]
      rfl
  | item :: items, frames, rest, before, value => by
      rw [itemTokens, List.cons_append, List.append_assoc]
      change run ⟨.items (before ++ [value]) :: frames, .value⟩ _ = _
      rw [run_tokens item, run_itemTokens items, List.append_assoc, List.singleton_append]

theorem run_memberTokens : ∀ (members : List (Text × Json)) (frames : List Frame)
    (rest : List Token) (before : List (Text × Json)) (name : Text) (value : Json),
    run ⟨.members before name :: frames, .after value⟩ (memberTokens members ++ rest) =
      run ⟨frames, .after (.obj (before ++ (name, value) :: members))⟩ rest
  | [], frames, rest, before, name, value => by
      rw [memberTokens]
      rfl
  | (next, item) :: members, frames, rest, before, name, value => by
      simp only [memberTokens, List.cons_append, List.append_assoc]
      change run ⟨.members (before ++ [(name, value)]) next :: frames, .value⟩ _ = _
      rw [run_tokens item, run_memberTokens members, List.append_assoc, List.singleton_append]

end

end Reader

theorem ofTokens?_tokens (value : Json) : ofTokens? value.tokens = some value := by
  have hrun := Reader.run_tokens value [] []
  rw [List.append_nil] at hrun
  change (Reader.run ⟨[], .value⟩ value.tokens).bind Reader.result? = some value
  rw [hrun]
  rfl

/-- The reader finds the value of every JSON text. -/
theorem read?_of_written {text : Text} {value : Json} (h : Written text value) :
    read? text = some value := by
  rw [read?, tokens?_of_lexes h]
  exact ofTokens?_tokens value

theorem Written.unique {text : Text} {value other : Json} (h : Written text value)
    (hother : Written text other) : value = other := by
  have hread := read?_of_written h
  rw [read?_of_written hother] at hread
  exact (Option.some.inj hread).symm

end Json

end Thompson

import Thompson.Json.Grammar
import Thompson.Json.Layout

/-!
Whatever the layout, the text of a value is a JSON text of that value.
-/

namespace Thompson

namespace Json

/-- A control character is found again from its hexadecimal digits. -/
theorem hexChar?_control : ∀ n < 0x20,
    hexChar? '0' '0' (Nat.digitChar (n / 16)) (Nat.digitChar (n % 16)) = some (Char.ofNat n) := by
  decide

theorem spells_escape (c : Char) : Spells (escape c) c := by
  unfold escape
  cases hfind : shortEscapes.find? (·.2 = c) with
  | some entry =>
      obtain ⟨letter, d⟩ := entry
      have hd := List.find?_some hfind
      obtain rfl : d = c := of_decide_eq_true hd
      exact .short (List.mem_of_find?_eq_some hfind)
  | none =>
      have hquote : c ≠ '"' := by
        rintro rfl
        contradiction
      have hbackslash : c ≠ '\\' := by
        rintro rfl
        contradiction
      by_cases hcontrol : c.toNat < 0x20
      · have hchar := hexChar?_control c.toNat hcontrol
        rw [Char.ofNat_toNat] at hchar
        simp only [if_pos hcontrol, lit_eq]
        exact .hex hchar
      · simp only [if_neg hcontrol]
        exact .plain hquote hbackslash (Nat.le_of_not_lt hcontrol)

theorem spellsText_escape (text : Text) : SpellsText (text.flatMap escape) text := by
  induction text with
  | nil => exact .nil
  | cons c rest ih => exact .cons (spells_escape c) ih

section Layout

variable {rest : Text} {ts : List Token}

theorem lexes_quote (text : Text) (h : Lexes rest ts) :
    Lexes (quote text ++ rest) (.str text :: ts) := by
  have hshape : quote text ++ rest = '"' :: (text.flatMap escape ++ '"' :: rest) := by
    simp [quote]
  rw [hshape]
  exact .str (spellsText_escape text) h

theorem lexes_blanks {blanks : Text} (hblanks : ∀ c ∈ blanks, isBlank c = true)
    (h : Lexes rest ts) : Lexes (blanks ++ rest) ts := by
  induction blanks with
  | nil => exact h
  | cons c more ih =>
      obtain ⟨hc, hmore⟩ := List.forall_mem_cons.mp hblanks
      exact .blank hc (ih hmore)

theorem lexes_lineBreak (layout : Layout) (depth : Nat) (h : Lexes rest ts) :
    Lexes (layout.lineBreak depth ++ rest) ts := by
  cases layout with
  | compact => exact h
  | indented =>
      apply lexes_blanks _ h
      intro c hc
      rcases List.mem_cons.mp hc with rfl | hindent
      · rfl
      · rw [List.eq_of_mem_replicate hindent]
        rfl

theorem lexes_colon (layout : Layout) (h : Lexes rest ts) :
    Lexes (layout.colon ++ rest) (.colon :: ts) := by
  cases layout with
  | compact => exact .mark rfl h
  | indented => exact .mark rfl (.blank rfl h)

end Layout

mutual

theorem lexes_textAt (layout : Layout) :
    ∀ (value : Json) (depth : Nat) {rest : Text} {ts : List Token}, Lexes rest ts →
      Lexes (value.textAt layout depth ++ rest) (value.tokens ++ ts)
  | .str text, depth, rest, ts, h => by
      rw [textAt, tokens]
      exact lexes_quote text h
  | .arr [], depth, rest, ts, h => .mark rfl (.mark rfl h)
  | .arr (item :: items), depth, rest, ts, h => by
      have hitems := lexes_itemsAt layout items depth h
      have hitem := lexes_textAt layout item (depth + 1) hitems
      simp only [textAt, tokens, List.cons_append, List.append_assoc]
      exact .mark rfl (lexes_lineBreak layout (depth + 1) hitem)
  | .obj [], depth, rest, ts, h => .mark rfl (.mark rfl h)
  | .obj ((name, value) :: members), depth, rest, ts, h => by
      have hmembers := lexes_membersAt layout members depth h
      have hvalue := lexes_textAt layout value (depth + 1) hmembers
      have hname := lexes_quote name (lexes_colon layout hvalue)
      simp only [textAt, tokens, List.cons_append, List.append_assoc]
      exact .mark rfl (lexes_lineBreak layout (depth + 1) hname)

theorem lexes_itemsAt (layout : Layout) :
    ∀ (items : List Json) (depth : Nat) {rest : Text} {ts : List Token}, Lexes rest ts →
      Lexes (itemsAt layout depth items ++ rest) (itemTokens items ++ ts)
  | [], depth, rest, ts, h => by
      simp only [itemsAt, itemTokens, List.append_assoc]
      exact lexes_lineBreak layout depth (.mark rfl h)
  | item :: items, depth, rest, ts, h => by
      have hitems := lexes_itemsAt layout items depth h
      have hitem := lexes_textAt layout item (depth + 1) hitems
      simp only [itemsAt, itemTokens, List.cons_append, List.append_assoc]
      exact .mark rfl (lexes_lineBreak layout (depth + 1) hitem)

theorem lexes_membersAt (layout : Layout) :
    ∀ (members : List (Text × Json)) (depth : Nat) {rest : Text} {ts : List Token},
      Lexes rest ts → Lexes (membersAt layout depth members ++ rest) (memberTokens members ++ ts)
  | [], depth, rest, ts, h => by
      simp only [membersAt, memberTokens, List.append_assoc]
      exact lexes_lineBreak layout depth (.mark rfl h)
  | (name, value) :: members, depth, rest, ts, h => by
      have hmembers := lexes_membersAt layout members depth h
      have hvalue := lexes_textAt layout value (depth + 1) hmembers
      have hname := lexes_quote name (lexes_colon layout hvalue)
      simp only [membersAt, memberTokens, List.cons_append, List.append_assoc]
      exact .mark rfl (lexes_lineBreak layout (depth + 1) hname)

end

/-- Blanks may follow. -/
theorem written_text (layout : Layout) (value : Json) {rest : Text} (hrest : Lexes rest []) :
    Written (value.text layout ++ rest) value := by
  have h := lexes_textAt layout value 0 hrest
  rwa [List.append_nil] at h

end Json

end Thompson

import Thompson.Text.Basic
import Thompson.Text.Printable

/-!
Text between marks, written so that a reader sees what it holds. A character that would end
the text, break the line or not be seen on its own is written as an escape. All others, and
so the letters of a pattern but for the accents among them, stand as they are.
-/

namespace Thompson

namespace Text

/-- The short escapes: the letter after the backslash, and what it stands for. -/
def shortEscapes : List (Char × Char) :=
  [('0', '\x00'), ('t', '\t'), ('r', '\r'), ('n', '\n'), ('\\', '\\')]

/-- The code point in hexadecimal digits, without leading zeros. -/
def codeEscape (c : Char) : Text :=
  '\\' :: 'u' :: '\x7b' :: (Nat.toDigits 16 c.toNat ++ ['\x7d'])

/-- How a character is written between two of the marks. Of the marks only the one that
stands around the text is escaped. -/
def escape (mark c : Char) : Text :=
  match shortEscapes.find? (·.2 = c) with
  | some (letter, _) => ['\\', letter]
  | none =>
      if c = mark then ['\\', c]
      else if isExtender c || !isPrintable c then codeEscape c
      else [c]

def quoted (mark : Char) (text : Text) : Text := mark :: (text.flatMap (escape mark) ++ [mark])

/-- The blank and the visible characters of ASCII stand for themselves, but for the mark and
the backslash. -/
theorem escape_of_ascii {mark c : Char} (hlow : 0x20 ≤ c.toNat) (hhigh : c.toNat < 0x7F)
    (hmark : c ≠ mark) (hslash : c ≠ '\\') : escape mark c = [c] := by
  have hcontrol : ∀ d : Char, d.toNat < 0x20 → ¬ d = c := by
    rintro d hd rfl
    omega
  have hshort : shortEscapes.find? (·.2 = c) = none := by
    simp [shortEscapes, hcontrol, hslash.symm]
  have hextender : isExtender c = false := Spans.within_before (by omega)
  have hprintable : isPrintable c = true := by
    obtain ⟨rest, hrest⟩ : ∃ rest, Unprintable.spans = (0x0, 0x1F) :: (0x7F, 0xA0) :: rest :=
      ⟨_, rfl⟩
    rw [isPrintable, hrest, Spans.within_beyond (Nat.zero_le _) (by omega),
      Spans.within_before (by omega)]
    rfl
  simp [escape, hshort, hmark, hextender, hprintable]

theorem exists_digitChar_of_mem {n : Nat} {c : Char} (h : c ∈ Nat.toDigits 16 n) :
    ∃ d : Nat, c = d.digitChar := by
  induction n using Nat.strongRecOn with
  | ind n ih =>
      rcases Nat.lt_or_ge n 16 with hn | hn
      · rw [Nat.toDigits_of_lt_base hn, List.mem_singleton] at h
        exact ⟨n, h⟩
      · rw [Nat.toDigits_of_base_le (by decide) hn, List.mem_append, List.mem_singleton] at h
        rcases h with hbefore | hlast
        · exact ih (n / 16) (by omega) hbefore
        · exact ⟨n % 16, hlast⟩

theorem newline_not_mem_escape {mark : Char} (hmark : mark ≠ '\n') (c : Char) :
    '\n' ∉ escape mark c := by
  rw [escape]
  split
  · next letter _ hfound =>
    have hletter : (letter, _) ∈ shortEscapes := List.mem_of_find?_eq_some hfound
    simp [shortEscapes] at hletter
    rcases hletter with h | h | h | h | h <;> simp [h]
  · next hnone =>
    have hc : c ≠ '\n' := by
      rintro rfl
      simp [shortEscapes] at hnone
    split
    · simp [hmark.symm, *]
    · split
      · have hdigits : '\n' ∉ Nat.toDigits 16 c.toNat := by
          intro hmem
          obtain ⟨d, hd⟩ := exists_digitChar_of_mem hmem
          exact Nat.digitChar_ne '\n' (by decide) hd.symm
        simp [codeEscape, hdigits]
      · simp [hc.symm]

/-- Quoted text stands on a single line. -/
theorem newline_not_mem_quoted {mark : Char} (hmark : mark ≠ '\n') (text : Text) :
    '\n' ∉ quoted mark text := by
  simp [quoted, hmark.symm, newline_not_mem_escape hmark]

/-- An accent joins the letter before it, so it is escaped. The other mark is not. -/
example : quoted '"' ['a', '\u0345', '\'', '"', '\n', '\x7f'] =
    lit "\"a\\u\x7b345\x7d'\\\"\\n\\u\x7b7f\x7d\"" := by
  rw [lit_eq]
  decide +kernel

end Text

end Thompson

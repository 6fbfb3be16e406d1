/-!
Texts as lists of characters. Everything the library reads or writes goes
through this type, so that an output format is an equation between lists.
-/

namespace Thompson

abbrev Text := List Char

/-- A text that is written out in place. It stays folded, so that a proof looks into
it only where it says so. -/
@[irreducible]
def lit (s : String) : Text := s.toList

theorem lit_eq (s : String) : lit s = s.toList := by
  rw [lit]

namespace Text

/-- A natural number in decimal digits. -/
def ofNat (n : Nat) : Text := Nat.toDigits 10 n

/-- Two blanks for every level of depth. -/
def indent (depth : Nat) : Text := List.replicate (2 * depth) ' '

theorem length_indent (depth : Nat) : (indent depth).length = 2 * depth := by
  simp [indent]

/-- Decimal digits read back as the number they were written for. -/
theorem ofDigitChars_ofNat (n : Nat) : Nat.ofDigitChars 10 (ofNat n) 0 = n :=
  Nat.ofDigitChars_toDigits (by decide) (by decide)

theorem isDigit_of_mem_ofNat {n : Nat} {c : Char} (h : c ∈ ofNat n) : c.isDigit = true :=
  Nat.isDigit_of_mem_toDigits (by decide) (by decide) h

theorem newline_not_mem_ofNat (n : Nat) : '\n' ∉ ofNat n := by
  intro hmem
  have hdigit := isDigit_of_mem_ofNat hmem
  contradiction

end Text

end Thompson

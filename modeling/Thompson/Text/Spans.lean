/-!
Classes of characters, listed as spans of code points. The spans of a class are in
ascending order and do not overlap.
-/

namespace Thompson

namespace Spans

/-- The search ends at the first span that begins above the code point. -/
def within (code : Nat) : List (Nat × Nat) → Bool
  | [] => false
  | (first, last) :: rest =>
      if code < first then false
      else if code ≤ last then true
      else within code rest

theorem within_before {code first last : Nat} {rest : List (Nat × Nat)} (hfirst : code < first) :
    within code ((first, last) :: rest) = false := by
  rw [within, if_pos hfirst]

theorem within_here {code first last : Nat} {rest : List (Nat × Nat)}
    (hfirst : first ≤ code) (hlast : code ≤ last) :
    within code ((first, last) :: rest) = true := by
  rw [within, if_neg (Nat.not_lt.mpr hfirst), if_pos hlast]

theorem within_beyond {code first last : Nat} {rest : List (Nat × Nat)}
    (hfirst : first ≤ code) (hlast : last < code) :
    within code ((first, last) :: rest) = within code rest := by
  rw [within, if_neg (Nat.not_lt.mpr hfirst), if_neg (Nat.not_le.mpr hlast)]

end Spans

end Thompson

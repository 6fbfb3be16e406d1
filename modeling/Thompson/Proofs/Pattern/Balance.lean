import Thompson.Pattern.Blame
import Thompson.Proofs.Pattern.Progress

/-!
Groups that are closed. Whatever the grammar derives closes the groups that it opens and no
others, and so does what the reader has since the innermost open parenthesis. So the frames
that it keeps are the parentheses without a partner.
-/

namespace Thompson

namespace Pattern

namespace Balanced

theorem nil : Balanced [] where
  closes_all := rfl
  opens_first start hstart := by
    rw [List.prefix_nil.mp hstart]
    exact Nat.le_refl _

theorem append {u v : Text} (hu : Balanced u) (hv : Balanced v) : Balanced (u ++ v) where
  closes_all := by rw [List.count_append, List.count_append, hu.closes_all, hv.closes_all]
  opens_first start hstart := by
    rcases List.prefix_or_prefix_of_prefix hstart (List.prefix_append u v) with hinside | ⟨w, rfl⟩
    · exact hu.opens_first start hinside
    · have hw := hv.opens_first w ((List.prefix_append_right_inj u).mp hstart)
      rw [List.count_append, List.count_append, hu.closes_all]
      omega

theorem plain {c : Char} (hopening : c ≠ '(') (hclosing : c ≠ ')') : Balanced [c] where
  closes_all := by
    rw [List.count_singleton, List.count_singleton]
    simp [hopening, hclosing]
  opens_first start hstart := by
    have hnone : start.count ')' = 0 := by
      rw [List.count_eq_zero]
      intro hmem
      exact hclosing (List.mem_singleton.mp (hstart.subset hmem)).symm
    omega

theorem group {w : Text} (h : Balanced w) : Balanced ('(' :: (w ++ [')'])) where
  closes_all := by
    have hw := h.closes_all
    simp [hw]
  opens_first start hstart := by
    rcases List.prefix_cons_iff.mp hstart with rfl | ⟨inner, rfl, hinner⟩
    · exact Nat.le_refl _
    · rcases List.prefix_concat_iff.mp hinner with rfl | hinside
      · have hw := h.closes_all
        simp [hw]
      · have hw := h.opens_first inner hinside
        simp
        omega

theorem of_derives {phrase : Phrase} {w : Text} {r : Regex} (h : Derives phrase w r) :
    Balanced w := by
  induction h with
  | char hchar =>
      obtain ⟨hopening, hclosing, -⟩ := ne_of_item (Token.ofChar_of_isAlphanumeric hchar)
      exact plain hopening hclosing
  | any => exact plain (by decide) (by decide)
  | group _ ih => exact ih.group
  | atom _ ih => exact ih
  | star _ ih => exact ih.append (plain (by decide) (by decide))
  | repetition _ ih => exact ih
  | cat _ _ ihu ihv => exact ihu.append ihv
  | concatenation _ ih => exact ih
  | alt _ _ ihu ihv => exact ihu.append ((plain (c := '|') (by decide) (by decide)).append ihv)

private theorem of_opens {left : Option Regex} {u : Text} (h : Opens left u) : Balanced u := by
  cases left with
  | none =>
      obtain rfl : u = [] := h
      exact nil
  | some choices =>
      obtain ⟨v, rfl, hv⟩ := h
      exact (of_derives hv).append (plain (by decide) (by decide))

/-- A text does not balance if it ends in a group that is left open. -/
theorem not_of_open {text : Text} {pos k : Nat} (hk : k ≤ pos)
    (hopening : text[pos]? = some '(') (hrest : Balanced (text.drop (pos + 1))) :
    ¬ Balanced (text.drop k) := by
  intro hall
  obtain ⟨hlt, hchar⟩ := List.getElem?_eq_some_iff.mp hopening
  have hsplit : text.drop k = (text.drop k).take (pos - k) ++ '(' :: text.drop (pos + 1) := by
    rw [← hchar, ← List.drop_eq_getElem_cons hlt]
    have hdrop : text.drop pos = (text.drop k).drop (pos - k) := by
      rw [List.drop_drop, Nat.add_sub_cancel' hk]
    rw [hdrop, List.take_append_drop]
  have hcloses := hall.closes_all
  have hbefore := hall.opens_first _ (List.take_prefix (pos - k) (text.drop k))
  have hafter := hrest.closes_all
  rw [hsplit] at hcloses
  simp only [List.count_append, List.count_cons, hafter] at hcloses
  simp at hcloses
  omega

/-- Between two open parentheses, or after the last one, all groups are closed. -/
theorem of_holds {level : Level} {w : Text} (h : level.Holds w) : Balanced w := by
  cases level with
  | awaiting left => exact of_opens h
  | holding left before item =>
      obtain ⟨u, v, x, rfl, hu, hv, hx⟩ := h
      have hseq : Balanced v := by
        cases before with
        | none =>
            obtain rfl : v = [] := hv
            exact nil
        | some seq => exact of_derives hv
      exact (of_opens hu).append (hseq.append (of_derives hx))

end Balanced

/-- The open groups are as many as the parentheses that have no partner. -/
theorem count_of_holds {start : Nat} {p : Progress} {w : Text} (h : p.Holds start w) :
    w.count '(' = w.count ')' + p.enclosing.length := by
  obtain ⟨enclosing, level⟩ := p
  obtain ⟨u, v, rfl, hu, hv⟩ := h
  have hlevel := (Balanced.of_holds hv).closes_all
  suffices hframes : u.count '(' = u.count ')' + enclosing.length by
    change (u ++ v).count '(' = (u ++ v).count ')' + enclosing.length
    rw [List.count_append, List.count_append, hlevel, hframes]
    omega
  clear hv hlevel
  induction enclosing generalizing u with
  | nil =>
      obtain rfl : u = [] := hu
      rfl
  | cons frame outer ih =>
      obtain ⟨a, b, rfl, ha, hb, -⟩ := hu
      have houter := ih a ha
      have hinner := (Balanced.of_holds hb).closes_all
      simp [houter, hinner]
      omega

/-- The innermost open group begins where its frame says, and nothing in it is open. -/
theorem innermost_of_holds {start : Nat} {p : Progress} {w : Text} {frame : Frame}
    {outer : List Frame} (h : p.Holds start w) (henclosing : p.enclosing = frame :: outer) :
    ∃ u v, w = u ++ '(' :: v ∧ frame.opened = start + u.length ∧ Balanced v := by
  obtain ⟨before, v, rfl, hbefore, hv⟩ := h
  rw [henclosing] at hbefore
  obtain ⟨a, b, rfl, -, -, hopened⟩ := hbefore
  exact ⟨a ++ b, v, by simp, hopened, Balanced.of_holds hv⟩

end Pattern

end Thompson

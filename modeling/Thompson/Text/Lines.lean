import Thompson.Text.Basic

/-!
Texts as lines. A line is ended by a line break and has none inside, so a text falls into
lines in one way only.
-/

namespace Thompson

namespace Text

/-- The lines one after the other, each ended by a line break. -/
def unlines (lines : List Text) : Text := lines.flatMap fun line => line ++ ['\n']

/-- The first item for which `p` fails tells how far the items before it go. -/
theorem append_cons_inj {α : Type} {p : α → Prop} {xs ys xs' ys' : List α} {x y : α}
    (hxs : ∀ a ∈ xs, p a) (hys : ∀ a ∈ ys, p a) (hx : ¬ p x) (hy : ¬ p y)
    (h : xs ++ x :: xs' = ys ++ y :: ys') : xs = ys ∧ x = y ∧ xs' = ys' := by
  induction xs generalizing ys with
  | nil =>
      cases ys with
      | nil => exact ⟨rfl, List.cons.inj h⟩
      | cons b ys =>
          have hhead : x = b := (List.cons.inj h).1
          exact absurd (hhead ▸ hys b List.mem_cons_self) hx
  | cons a xs ih =>
      obtain ⟨ha, hxs⟩ := List.forall_mem_cons.mp hxs
      cases ys with
      | nil =>
          have hhead : a = y := (List.cons.inj h).1
          exact absurd (hhead ▸ ha) hy
      | cons b ys =>
          obtain ⟨hhead, htail⟩ := List.cons.inj h
          obtain ⟨rfl, hrest⟩ := ih hxs (List.forall_mem_cons.mp hys).2 htail
          exact ⟨by rw [hhead], hrest⟩

theorem unlines_inj {lines others : List Text} (hlines : ∀ line ∈ lines, '\n' ∉ line)
    (hothers : ∀ line ∈ others, '\n' ∉ line) (h : unlines lines = unlines others) :
    lines = others := by
  induction lines generalizing others with
  | nil =>
      cases others with
      | nil => rfl
      | cons other others => simp [unlines] at h
  | cons line lines ih =>
      obtain ⟨hline, hlines⟩ := List.forall_mem_cons.mp hlines
      cases others with
      | nil => simp [unlines] at h
      | cons other others =>
          obtain ⟨hother, hothers⟩ := List.forall_mem_cons.mp hothers
          have hmarked : line ++ '\n' :: unlines lines = other ++ '\n' :: unlines others := by
            simpa [unlines] using h
          obtain ⟨hhead, -, hrest⟩ := append_cons_inj (p := (· ≠ '\n'))
            (fun c hc heq => hline (heq ▸ hc)) (fun c hc heq => hother (heq ▸ hc))
            (fun hne => hne rfl) (fun hne => hne rfl) hmarked
          rw [hhead, ih hlines hothers hrest]

end Text

end Thompson

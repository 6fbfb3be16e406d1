import Thompson.Pattern.Grammar

/-!
What the reader of phrases keeps, in terms of the grammar. A `Progress` stands for
the texts that it may have been read from: `Holds` says which. A character that is
taken extends such a text, and a text that the grammar derives as a phrase takes
the reader from any progress to the one with that phrase added. Both go character by
character, through the five ways of `Progress.Takes`.
-/

namespace Thompson

namespace Pattern

/-- The texts before the present alternative: none, or alternatives and a bar. -/
def Opens : Option Regex → Text → Prop
  | none, u => u = []
  | some choices, u => ∃ v, u = v ++ ['|'] ∧ Derives .expression v choices

/-- The texts between the last bar and the last item. -/
def Sequence : Option Regex → Text → Prop
  | none, v => v = []
  | some seq, v => Derives .concatenation v seq

namespace Level

def Holds : Level → Text → Prop
  | .awaiting left, w => Opens left w
  | .holding left before item, w =>
      ∃ u v x, w = u ++ (v ++ x) ∧ Opens left u ∧ Sequence before v ∧ Derives .repetition x item

theorem derives_catOnto {before : Option Regex} {item : Regex} {v x : Text}
    (hv : Sequence before v) (hx : Derives .repetition x item) :
    Derives .concatenation (v ++ x) (catOnto before item) := by
  cases before with
  | none =>
      obtain rfl : v = [] := hv
      exact .repetition hx
  | some seq => exact .cat hv hx

theorem derives_altOnto {left : Option Regex} {last : Regex} {u v : Text}
    (hu : Opens left u) (hv : Derives .concatenation v last) :
    Derives .expression (u ++ v) (altOnto left last) := by
  cases left with
  | none =>
      obtain rfl : u = [] := hu
      exact .concatenation hv
  | some choices =>
      obtain ⟨w, rfl, hw⟩ := hu
      rw [List.append_assoc]
      exact .alt hw hv

theorem starred?_add (level : Level) (r : Regex) :
    (level.add r).starred? = some (level.add (.star r)) := by
  cases level with
  | awaiting left => rfl
  | holding left before item => rfl

/-- What has been read of a group is an expression, unless an item is missing. -/
theorem derives_of_value? {level : Level} {w : Text} {r : Regex} (h : level.Holds w)
    (hvalue : level.value? = some r) : Derives .expression w r := by
  cases level with
  | awaiting left => cases hvalue
  | holding left before item =>
      obtain ⟨u, v, x, rfl, hu, hv, hx⟩ := h
      obtain rfl := Option.some.inj hvalue
      exact derives_altOnto hu (derives_catOnto hv hx)

theorem holds_add {level : Level} {w x : Text} {r : Regex} (h : level.Holds w)
    (hx : Derives .repetition x r) : (level.add r).Holds (w ++ x) := by
  cases level with
  | awaiting left => exact ⟨w, [], x, rfl, h, rfl, hx⟩
  | holding left before item =>
      obtain ⟨u, v, y, rfl, hu, hv, hy⟩ := h
      refine ⟨u, v ++ y, x, ?_, hu, derives_catOnto hv hy, hx⟩
      simp only [List.append_assoc]

theorem holds_starred {level next : Level} {w : Text} (h : level.Holds w)
    (hstar : level.starred? = some next) : next.Holds (w ++ ['*']) := by
  cases level with
  | awaiting left => cases hstar
  | holding left before item =>
      obtain ⟨u, v, x, rfl, hu, hv, hx⟩ := h
      obtain rfl := Option.some.inj hstar
      refine ⟨u, v, x ++ ['*'], ?_, hu, hv, .star hx⟩
      simp only [List.append_assoc]

theorem holds_barred {level next : Level} {w : Text} (h : level.Holds w)
    (hbar : level.barred? = some next) : next.Holds (w ++ ['|']) := by
  obtain ⟨choices, hvalue, rfl⟩ := Option.map_eq_some_iff.mp hbar
  exact ⟨w, rfl, derives_of_value? h hvalue⟩

end Level

namespace Progress

/-- The texts up to the innermost open parenthesis, when the first character has the
position `start`. -/
def Encloses (start : Nat) : List Frame → Text → Prop
  | [], w => w = []
  | frame :: outer, w =>
      ∃ u v, w = u ++ (v ++ ['(']) ∧ Encloses start outer u ∧ frame.outside.Holds v ∧
        frame.opened = start + (u ++ v).length

/-- The texts that the reader may have taken to come to this progress. -/
def Holds (start : Nat) (p : Progress) (w : Text) : Prop :=
  ∃ u v, w = u ++ v ∧ Encloses start p.enclosing u ∧ p.level.Holds v

/-- What the reader keeps after a text, unless a character of it does not fit. -/
def through? (pos : Nat) (p : Progress) : Text → Option Progress
  | [] => some p
  | c :: rest => (p.advance? pos (.ofChar c)).bind fun next => next.through? (pos + 1) rest

theorem through?_append (pos : Nat) (p : Progress) (u v : Text) :
    p.through? pos (u ++ v) =
      (p.through? pos u).bind fun q => q.through? (pos + u.length) v := by
  induction u generalizing pos p with
  | nil => rfl
  | cons c rest ih =>
      simp only [List.cons_append, through?]
      cases p.advance? pos (.ofChar c) with
      | none => rfl
      | some next =>
          simp only [Option.bind_some, List.length_cons]
          rw [ih (pos + 1) next, Nat.add_right_comm, Nat.add_assoc]

theorem holds_start (start : Nat) : Progress.start.Holds start [] :=
  ⟨[], [], rfl, rfl, rfl⟩

end Progress

/-- The characters that play the part. -/
def Token.WrittenAs : Token → Char → Prop
  | .opening, c => c = '('
  | .closing, c => c = ')'
  | .bar, c => c = '|'
  | .star, c => c = '*'
  | .item r, c => Derives .atom [c] r
  | .stray, c => isAlphanumeric c = false

theorem Token.writtenAs_ofChar (c : Char) : (Token.ofChar c).WrittenAs c := by
  unfold Token.ofChar
  repeat' split
  · next hopening => exact hopening
  · next hclosing => exact hclosing
  · next hbar => exact hbar
  · next hstar => exact hstar
  · next hany =>
      subst hany
      exact .any
  · next hchar => exact .char hchar
  · next hchar => exact eq_false_of_ne_true hchar

/-- A part that only one character plays is played by it alone. -/
theorem Token.ofChar_eq_iff {token : Token} {d : Char} (hd : Token.ofChar d = token)
    (halone : ∀ c, token.WrittenAs c → c = d) {c : Char} : Token.ofChar c = token ↔ c = d := by
  constructor
  · rintro rfl
    exact halone c (Token.writtenAs_ofChar c)
  · rintro rfl
    exact hd

/-- The reader lets a phrase end before the characters that can not go on with it. -/
theorem goesOn_eq_false_iff {phrase : Phrase} {c : Char} :
    phrase.goesOn (.ofChar c) = false ↔ phrase.EndsBefore c := by
  have hclosing : Token.ofChar c = .closing ↔ c = ')' :=
    Token.ofChar_eq_iff (d := ')') rfl fun _ h => h
  have hbar : Token.ofChar c = .bar ↔ c = '|' :=
    Token.ofChar_eq_iff (d := '|') rfl fun _ h => h
  have hstar : Token.ofChar c = .star ↔ c = '*' :=
    Token.ofChar_eq_iff (d := '*') rfl fun _ h => h
  cases phrase with
  | expression =>
      rw [Phrase.EndsBefore, ← hclosing]
      cases Token.ofChar c <;> simp [Phrase.goesOn]
  | concatenation =>
      rw [Phrase.EndsBefore, ← hbar, ← hclosing]
      cases Token.ofChar c <;> simp [Phrase.goesOn]
  | repetition =>
      rw [Phrase.EndsBefore, Ne, ← hstar]
      cases Token.ofChar c <;> simp [Phrase.goesOn]
  | atom => simp [Phrase.EndsBefore, Phrase.goesOn]

theorem derives_of_item {c : Char} {r : Regex} (h : Token.ofChar c = .item r) :
    Derives .atom [c] r := by
  have hc := Token.writtenAs_ofChar c
  rw [h] at hc
  exact hc

theorem ne_of_item {c : Char} {r : Regex} (h : Token.ofChar c = .item r) :
    c ≠ '(' ∧ c ≠ ')' ∧ c ≠ '*' ∧ c ≠ '|' := by
  refine ⟨?_, ?_, ?_, ?_⟩
  · rintro rfl
    cases h
  · rintro rfl
    cases h
  · rintro rfl
    cases h
  · rintro rfl
    cases h

namespace Progress

/-- All that one character can do. -/
inductive Takes (pos : Nat) : Progress → Char → Progress → Prop where
  | opening {p : Progress} :
      Takes pos p '(' ⟨⟨pos, p.level⟩ :: p.enclosing, .awaiting none⟩
  | closing {frame : Frame} {outer : List Frame} {level : Level} {group : Regex} :
      level.value? = some group →
        Takes pos ⟨frame :: outer, level⟩ ')' ⟨outer, frame.outside.add group⟩
  | bar {enclosing : List Frame} {level next : Level} :
      level.barred? = some next → Takes pos ⟨enclosing, level⟩ '|' ⟨enclosing, next⟩
  | star {enclosing : List Frame} {level next : Level} :
      level.starred? = some next → Takes pos ⟨enclosing, level⟩ '*' ⟨enclosing, next⟩
  | item {enclosing : List Frame} {level : Level} {c : Char} {r : Regex} :
      Token.ofChar c = .item r → Takes pos ⟨enclosing, level⟩ c ⟨enclosing, level.add r⟩

private theorem takes_of_advance? {p q : Progress} {pos : Nat} {c : Char}
    (h : p.advance? pos (.ofChar c) = some q) : Takes pos p c q := by
  have hc := Token.writtenAs_ofChar c
  obtain ⟨enclosing, level⟩ := p
  cases htoken : Token.ofChar c with
  | opening =>
      rw [htoken] at hc h
      obtain rfl : c = '(' := hc
      obtain rfl := Option.some.inj h
      exact .opening
  | closing =>
      rw [htoken] at hc h
      obtain rfl : c = ')' := hc
      simp only [advance?] at h
      split at h
      · next hvalue =>
          obtain rfl := Option.some.inj h
          exact .closing hvalue
      · contradiction
  | bar =>
      rw [htoken] at hc h
      obtain rfl : c = '|' := hc
      obtain ⟨next, hnext, rfl⟩ := Option.map_eq_some_iff.mp h
      exact .bar hnext
  | star =>
      rw [htoken] at hc h
      obtain rfl : c = '*' := hc
      obtain ⟨next, hnext, rfl⟩ := Option.map_eq_some_iff.mp h
      exact .star hnext
  | item r =>
      rw [htoken] at h
      obtain rfl := Option.some.inj h
      exact .item htoken
  | stray =>
      rw [htoken] at h
      cases h

theorem advance?_eq_some_iff {p q : Progress} {pos : Nat} {c : Char} :
    p.advance? pos (.ofChar c) = some q ↔ Takes pos p c q := by
  constructor
  · intro h
    exact takes_of_advance? h
  · intro h
    cases h with
    | opening => rfl
    | closing hvalue =>
        have htoken : Token.ofChar ')' = .closing := rfl
        simp only [htoken, advance?, hvalue]
    | bar hnext =>
        have htoken : Token.ofChar '|' = .bar := rfl
        simp only [htoken, advance?, hnext, Option.map_some]
    | star hnext =>
        have htoken : Token.ofChar '*' = .star := rfl
        simp only [htoken, advance?, hnext, Option.map_some]
    | item htoken => simp only [htoken, advance?]

/-- One character: what has been read grows by it. -/
theorem holds_takes {start : Nat} {p q : Progress} {w : Text} {c : Char} (h : p.Holds start w)
    (htakes : Takes (start + w.length) p c q) : q.Holds start (w ++ [c]) := by
  obtain ⟨u, v, rfl, hu, hv⟩ := h
  cases htakes with
  | opening =>
      refine ⟨u ++ v ++ ['('], [], (List.append_nil _).symm, ?_, rfl⟩
      exact ⟨u, v, List.append_assoc _ _ _, hu, hv, rfl⟩
  | closing hvalue =>
      obtain ⟨a, b, rfl, ha, hb, -⟩ := hu
      have hgroup := Derives.group (Level.derives_of_value? hv hvalue)
      refine ⟨a, b ++ '(' :: (v ++ [')']), by simp, ha, ?_⟩
      exact Level.holds_add hb (.atom hgroup)
  | bar hnext => exact ⟨u, v ++ ['|'], by simp, hu, Level.holds_barred hv hnext⟩
  | star hnext => exact ⟨u, v ++ ['*'], by simp, hu, Level.holds_starred hv hnext⟩
  | item hitem =>
      exact ⟨u, v ++ [c], by simp, hu, Level.holds_add hv (.atom (derives_of_item hitem))⟩

/-- A whole text, one character after the other. -/
theorem holds_through {start : Nat} {p q : Progress} {w x : Text} (h : p.Holds start w)
    (hrun : p.through? (start + w.length) x = some q) : q.Holds start (w ++ x) := by
  induction x generalizing p w with
  | nil =>
      obtain rfl := Option.some.inj hrun
      rw [List.append_nil]
      exact h
  | cons c rest ih =>
      obtain ⟨next, hnext, hrest⟩ := Option.bind_eq_some_iff.mp hrun
      have hgrown := holds_takes h (advance?_eq_some_iff.mp hnext)
      have hlength : start + w.length + 1 = start + (w ++ [c]).length := by
        simp only [List.length_append, List.length_singleton]
        omega
      rw [hlength] at hrest
      have hall := ih hgrown hrest
      rw [List.append_assoc] at hall
      exact hall

theorem derives_of_complete? {start : Nat} {p : Progress} {w : Text} {r : Regex}
    (h : p.Holds start w) (hcomplete : p.complete? = some r) : Derives .expression w r := by
  obtain ⟨enclosing, level⟩ := p
  obtain ⟨u, v, rfl, hu, hv⟩ := h
  cases enclosing with
  | nil =>
      obtain rfl : u = [] := hu
      exact Level.derives_of_value? hv hcomplete
  | cons frame outer => cases hcomplete

theorem through?_char {p q : Progress} {pos : Nat} {c : Char} (h : Takes pos p c q) :
    p.through? pos [c] = some q := by
  simp only [through?, advance?_eq_some_iff.mpr h, Option.bind_some]

theorem through?_trans {p q s : Progress} {pos : Nat} {u v : Text}
    (hu : p.through? pos u = some q) (hv : q.through? (pos + u.length) v = some s) :
    p.through? pos (u ++ v) = some s := by
  rw [through?_append, hu]
  exact hv

/-- What a phrase does to the reader that takes it whole. The looser phrases have
to come first in their group or after its last bar. -/
def Adds : Phrase → Text → Regex → Prop
  | .atom, w, r | .repetition, w, r =>
      ∀ (p : Progress) (pos : Nat), p.through? pos w = some { p with level := p.level.add r }
  | .concatenation, w, r =>
      ∀ (enclosing : List Frame) (left : Option Regex) (pos : Nat), ∃ before item,
        catOnto before item = r ∧
          through? pos ⟨enclosing, .awaiting left⟩ w = some ⟨enclosing, .holding left before item⟩
  | .expression, w, r =>
      ∀ (enclosing : List Frame) (pos : Nat), ∃ level : Level, level.value? = some r ∧
        through? pos ⟨enclosing, .awaiting none⟩ w = some ⟨enclosing, level⟩

private theorem adds_group {w : Text} {r : Regex} (h : Adds .expression w r) :
    Adds .atom ('(' :: (w ++ [')'])) r := by
  intro p pos
  obtain ⟨level, hvalue, hrun⟩ := h (⟨pos, p.level⟩ :: p.enclosing) (pos + 1)
  have hclosed := through?_trans hrun (through?_char (.closing hvalue))
  have hall := through?_trans (through?_char .opening) hclosed
  exact hall

private theorem adds_star {w : Text} {r : Regex} (h : Adds .repetition w r) :
    Adds .repetition (w ++ ['*']) (.star r) := by
  intro p pos
  have hstarred := p.level.starred?_add r
  exact through?_trans (h p pos) (through?_char (.star hstarred))

private theorem adds_alt {u v : Text} {l r : Regex} (hu : Adds .expression u l)
    (hv : Adds .concatenation v r) : Adds .expression (u ++ '|' :: v) (.alt l r) := by
  intro enclosing pos
  obtain ⟨level, hvalue, hfirst⟩ := hu enclosing pos
  obtain ⟨before, item, rfl, hsecond⟩ := hv enclosing (some l) (pos + u.length + 1)
  have hbarred : level.barred? = some (.awaiting (some l)) := by
    rw [Level.barred?, hvalue]
    rfl
  have hlast := through?_trans (through?_char (.bar hbarred)) hsecond
  have hall := through?_trans hfirst hlast
  exact ⟨.holding (some l) before item, rfl, hall⟩

/-- Whatever the grammar derives, the reader takes. -/
theorem adds_of_derives {phrase : Phrase} {w : Text} {r : Regex} (h : Derives phrase w r) :
    Adds phrase w r := by
  induction h with
  | char hchar =>
      intro p pos
      apply through?_char
      exact .item (Token.ofChar_of_isAlphanumeric hchar)
  | any =>
      intro p pos
      apply through?_char
      exact .item rfl
  | group _ ih => exact adds_group ih
  | atom _ ih => exact ih
  | star _ ih => exact adds_star ih
  | repetition _ ih =>
      intro enclosing left pos
      exact ⟨none, _, rfl, ih ⟨enclosing, .awaiting left⟩ pos⟩
  | @cat u v l r _ _ ihu ihv =>
      intro enclosing left pos
      obtain ⟨before, item, rfl, hu⟩ := ihu enclosing left pos
      have hv := ihv ⟨enclosing, .holding left before item⟩ (pos + u.length)
      exact ⟨some (catOnto before item), r, rfl, through?_trans hu hv⟩
  | concatenation _ ih =>
      intro enclosing pos
      obtain ⟨before, item, rfl, hrun⟩ := ih enclosing none pos
      exact ⟨.holding none before item, rfl, hrun⟩
  | alt _ _ ihu ihv => exact adds_alt ihu ihv

/-- The texts that leave the reader with a whole expression are those of the
grammar. -/
theorem derives_iff_through? (start : Nat) (w : Text) (r : Regex) :
    Derives .expression w r ↔
      ∃ p, Progress.start.through? start w = some p ∧ p.complete? = some r := by
  constructor
  · intro h
    obtain ⟨level, hvalue, hrun⟩ := adds_of_derives h [] start
    exact ⟨⟨[], level⟩, hrun, hvalue⟩
  · rintro ⟨p, hrun, hcomplete⟩
    exact derives_of_complete? (holds_through (holds_start start) hrun) hcomplete

end Progress

end Pattern

end Thompson

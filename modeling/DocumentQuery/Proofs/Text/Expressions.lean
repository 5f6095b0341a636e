import DocumentQuery.Text.Expression

/-!
# What expressions match

The table of matches is built from the last item to the first. Each of its rows tells for every
rest of the text whether the items match from there on, so an expression is found exactly if
the text can be cut somewhere in front of a match.
-/

namespace DocumentQuery.Expression

section Reading

variable {items : List Item} {c : Char}

theorem add_of_not_sign (h : signs.contains c = false) :
    Draft.add ⟨items, false⟩ c = some ⟨.one (.character c) :: items, false⟩ := by
  have hforeign : foreignSigns.contains c = false := by
    rw [List.contains_eq_mem, decide_eq_false_iff_not] at h ⊢
    intro hmem
    have hsubset : foreignSigns ⊆ signs := by decide
    exact h (hsubset hmem)
  unfold Draft.add
  rw [if_neg Bool.false_ne_true]
  -- the signs that have a meaning of their own here, and all other characters
  split
  · exact absurd h (by decide)
  · exact absurd h (by decide)
  · exact absurd h (by decide)
  · exact absurd h (by decide)
  · exact absurd h (by decide)
  · rw [hforeign]
    rfl

theorem add_of_escaped (h : signs.contains c = true) :
    Draft.add ⟨items, true⟩ c = some ⟨.one (.character c) :: items, false⟩ := by
  unfold Draft.add
  rw [if_pos rfl, if_pos h]

theorem foldlM_add_escape (c : Char) (items : List Item) :
    (escape c).foldlM Draft.add ⟨items, false⟩ =
      some ⟨.one (.character c) :: items, false⟩ := by
  unfold escape
  cases h : signs.contains c with
  | true =>
    rw [if_pos rfl, List.foldlM_cons]
    change [c].foldlM Draft.add ⟨items, true⟩ = _
    rw [List.foldlM_cons, add_of_escaped h]
    rfl
  | false =>
    rw [if_neg Bool.false_ne_true, List.foldlM_cons, add_of_not_sign h]
    rfl

end Reading

/-- Items match from a place in a text on: each of them takes what its kind allows, and the
next ones go on behind it. -/
def MatchFrom : List Item → List Char → List Char → Prop
  | [], _, _ => True
  | .start :: items, before, rest => before = [] ∧ MatchFrom items before rest
  | .stop :: items, before, rest => rest = [] ∧ MatchFrom items before rest
  | .one atom :: items, before, rest =>
    ∃ c behind, rest = c :: behind ∧ atom.takes c = true ∧ MatchFrom items (before ++ [c]) behind
  | .many atom :: items, before, rest =>
    ∃ run behind, rest = run ++ behind ∧ (∀ c ∈ run, atom.takes c = true) ∧
      MatchFrom items (before ++ run) behind

variable {items : List Item} {item : Item} {atom : Atom} {before rest : List Char}
  {row : List Bool}

theorem matchFrom_one_cons {c : Char} :
    MatchFrom (.one atom :: items) before (c :: rest) ↔
      atom.takes c = true ∧ MatchFrom items (before ++ [c]) rest := by
  constructor
  · rintro ⟨d, behind, hrest, htakes, h⟩
    obtain ⟨rfl, rfl⟩ := List.cons.inj hrest
    exact ⟨htakes, h⟩
  · rintro ⟨htakes, h⟩
    exact ⟨c, rest, rfl, htakes, h⟩

theorem matchFrom_many_nil :
    MatchFrom (.many atom :: items) before [] ↔ MatchFrom items before [] := by
  constructor
  · rintro ⟨run, behind, hrest, -, h⟩
    obtain ⟨rfl, rfl⟩ := List.nil_eq_append_iff.mp hrest
    rwa [List.append_nil] at h
  · intro h
    exact ⟨[], [], rfl, by simp, by rwa [List.append_nil]⟩

theorem matchFrom_many_cons {c : Char} :
    MatchFrom (.many atom :: items) before (c :: rest) ↔
      MatchFrom items before (c :: rest) ∨
        atom.takes c = true ∧ MatchFrom (.many atom :: items) (before ++ [c]) rest := by
  constructor
  · rintro ⟨run, behind, hrest, htakes, h⟩
    cases run with
    | nil =>
      rw [List.append_nil] at h
      exact Or.inl (hrest ▸ h)
    | cons d run =>
      obtain ⟨rfl, rfl⟩ := List.cons.inj hrest
      obtain ⟨hfirst, hrun⟩ := List.forall_mem_cons.mp htakes
      exact Or.inr ⟨hfirst, run, behind, rfl, hrun, by simpa using h⟩
  · rintro (h | ⟨hfirst, run, behind, rfl, hrun, h⟩)
    · exact ⟨[], c :: rest, rfl, by simp, by rwa [List.append_nil]⟩
    · exact ⟨c :: run, behind, rfl, List.forall_mem_cons.mpr ⟨hfirst, hrun⟩, by simpa using h⟩

/-- A row tells for each rest of the text, the longest first, whether the items match from
there on. -/
inductive Tells (items : List Item) : List Char → List Char → List Bool → Prop
  | last {before : List Char} {here : Bool} (h : here = true ↔ MatchFrom items before []) :
    Tells items before [] [here]
  | more {before : List Char} {c : Char} {rest : List Char} {here : Bool} {row : List Bool}
    (h : here = true ↔ MatchFrom items before (c :: rest))
    (hrow : Tells items (before ++ [c]) rest row) : Tells items before (c :: rest) (here :: row)

theorem Tells.headD_iff (h : Tells items before rest row) :
    row.headD false = true ↔ MatchFrom items before rest := by
  cases h with
  | last h => exact h
  | more h _ => exact h

/-- One more item in front: a row is extended from its end, since a run that takes a character
goes on as a run. -/
theorem Tells.extendRow (h : Tells items before rest row) {atStart : Bool}
    (hstart : atStart = true ↔ before = []) :
    Tells (item :: items) before rest (item.extendRow atStart rest row) := by
  induction h generalizing atStart with
  | last h =>
    refine .last ?_
    cases item with
    | start => simp [MatchFrom, hstart, h]
    | stop => simp [MatchFrom, h]
    | one atom => simp [MatchFrom]
    | many atom => rw [matchFrom_many_nil, ← h]; rfl
  | @more before c rest here row h hrow ih =>
    have hshorter : Tells (item :: items) (before ++ [c]) rest (item.extendRow false rest row) :=
      ih (by simp)
    refine .more ?_ hshorter
    cases item with
    | start => simp [MatchFrom, hstart, h]
    | stop => simp [MatchFrom]
    | one atom =>
      rw [matchFrom_one_cons, ← hrow.headD_iff]
      exact Bool.and_eq_true_iff
    | many atom =>
      rw [matchFrom_many_cons, ← h, ← hshorter.headD_iff, ← Bool.and_eq_true_iff]
      exact Bool.or_eq_true_iff

theorem tells_replicate (before text : List Char) :
    Tells [] before text (List.replicate (text.length + 1) true) := by
  induction text generalizing before with
  | nil => exact .last (by simp [MatchFrom])
  | cons c text ih => exact .more (by simp [MatchFrom]) (ih _)

theorem tells_row (items : List Item) (text : List Char) :
    Tells items [] text (Expression.row items text) := by
  induction items with
  | nil => exact tells_replicate [] text
  | cons item items ih => exact ih.extendRow (by simp)

theorem Tells.any_iff (h : Tells items before rest row) :
    row.any id = true ↔
      ∃ front back, rest = front ++ back ∧ MatchFrom items (before ++ front) back := by
  induction h with
  | @last before here h =>
    rw [List.any_cons, List.any_nil, Bool.or_false]
    constructor
    · intro hhere
      exact ⟨[], [], rfl, by simpa using h.mp hhere⟩
    · rintro ⟨front, back, heq, hmatch⟩
      obtain ⟨rfl, rfl⟩ := List.nil_eq_append_iff.mp heq
      exact h.mpr (by simpa using hmatch)
  | @more before c rest here row h hrow ih =>
    rw [List.any_cons, Bool.or_eq_true, ih]
    constructor
    · rintro (hhere | ⟨front, back, rfl, hmatch⟩)
      · exact ⟨[], c :: rest, rfl, by simpa using h.mp hhere⟩
      · exact ⟨c :: front, back, rfl, by simpa using hmatch⟩
    · rintro ⟨front, back, heq, hmatch⟩
      cases front with
      | nil =>
        rw [List.append_nil] at hmatch
        exact Or.inl (h.mpr (heq ▸ hmatch))
      | cons d front =>
        obtain ⟨rfl, rfl⟩ := List.cons.inj heq
        exact Or.inr ⟨front, back, rfl, by simpa using hmatch⟩

theorem isMatch_iff {expression : Expression} {text : String} :
    expression.isMatch text = true ↔
      ∃ front back, text.toList = front ++ back ∧ MatchFrom expression.items front back :=
  (tells_row expression.items text.toList).any_iff

end DocumentQuery.Expression

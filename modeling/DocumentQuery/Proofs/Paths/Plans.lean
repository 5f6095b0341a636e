import DocumentQuery.Paths.Plan
import DocumentQuery.Proofs.Paths.Seams

/-!
# Which plan a path text has

The plan of a text after the root sign is told by what is left of it without its first
dot: nothing is the root, another dot a search, and everything else a path to walk.
-/

namespace DocumentQuery.Plan

open Segment

@[simp] theorem dropDot_dot (rest : List Char) : dropDot ('.' :: rest) = rest := rfl

theorem dropDot_of_ne {tail : List Char} (h : tail.head? ≠ some '.') : dropDot tail = tail := by
  unfold dropDot
  split
  · simp at h
  · rfl

theorem dropDot_eq_nil_iff {tail : List Char} : dropDot tail = [] ↔ tail = [] ∨ tail = ['.'] := by
  unfold dropDot
  split
  · simp
  · next hdot =>
    refine ⟨Or.inl, fun h => h.resolve_right ?_⟩
    rintro rfl
    exact hdot [] rfl

theorem dropDot_eq_dot_iff {tail field : List Char} :
    dropDot tail = '.' :: field ↔ tail = '.' :: '.' :: field := by
  unfold dropDot
  split
  · simp
  · next hdot =>
    refine iff_of_false (fun h => hdot field h) ?_
    rintro rfl
    exact hdot _ rfl

theorem eq_dropDot_or (tail : List Char) : tail = dropDot tail ∨ tail = '.' :: dropDot tail := by
  unfold dropDot
  split
  · exact Or.inr rfl
  · exact Or.inl rfl

theorem scan_dropDot (tail : List Char) : scan (dropDot tail) = scan tail := by
  rcases eq_dropDot_or tail with heq | heq
  · rw [← heq]
  · conv_rhs => rw [heq, scan_dot]

theorem endsOpen_dropDot_iff {tail : List Char} {content : String} :
    EndsOpen (dropDot tail) content ↔ EndsOpen tail content := by
  rcases eq_dropDot_or tail with heq | heq
  · rw [← heq]
  · conv_rhs => rw [heq, endsOpen_cons_iff (by decide)]

theorem ofTail_root {tail : List Char} (h : dropDot tail = []) : ofTail tail = root := by
  rw [ofTail, h]

theorem ofTail_search {tail field : List Char} (h : dropDot tail = '.' :: field) :
    ofTail tail = search (String.ofList field) := by
  rw [ofTail, h]
  rfl

theorem ofTail_navigate {tail : List Char} (hne : dropDot tail ≠ [])
    (hdot : (dropDot tail).head? ≠ some '.') :
    ofTail tail = navigate ⟨Segment.scan (dropDot tail)⟩ := by
  unfold ofTail
  split
  · contradiction
  · simp_all
  · rfl

theorem ofTail_eq_root_iff {tail : List Char} : ofTail tail = root ↔ tail = [] ∨ tail = ['.'] := by
  rw [← dropDot_eq_nil_iff]
  refine ⟨fun h => ?_, ofTail_root⟩
  unfold ofTail at h
  split at h
  · assumption
  · contradiction
  · contradiction

theorem ofTail_eq_search_iff {tail : List Char} {field : String} :
    ofTail tail = search field ↔ tail = '.' :: '.' :: field.toList := by
  rw [← dropDot_eq_dot_iff]
  refine ⟨fun h => ?_, fun h => by rw [ofTail_search h, String.ofList_toList]⟩
  unfold ofTail at h
  split at h
  · contradiction
  · next rest hrest =>
    obtain rfl := search.inj h
    rw [hrest, String.toList_ofList]
  · contradiction

theorem ofTail_ne_unrooted (tail : List Char) : ofTail tail ≠ unrooted := by
  unfold ofTail
  split <;> simp

theorem ofTail_cases (tail : List Char) :
    ofTail tail = root ∨ (∃ field, ofTail tail = search field) ∨
      ofTail tail = navigate ⟨scan (dropDot tail)⟩ := by
  unfold ofTail
  split
  · exact Or.inl rfl
  · exact Or.inr (Or.inl ⟨_, rfl⟩)
  · exact Or.inr (Or.inr rfl)

theorem ofTail_eq_navigate_iff {tail : List Char} {path : Path} :
    ofTail tail = navigate path ↔
      (∃ c rest, dropDot tail = c :: rest ∧ c ≠ '.') ∧ path = ⟨scan (dropDot tail)⟩ := by
  cases hrest : dropDot tail with
  | nil => simp [ofTail_root hrest]
  | cons c rest =>
    by_cases hc : c = '.'
    · subst hc
      simp [ofTail_search hrest]
    · have hplan : ofTail tail = navigate ⟨scan (dropDot tail)⟩ :=
        ofTail_navigate (by simp [hrest]) (by simpa [hrest] using hc)
      rw [hplan, hrest]
      simp [hc, eq_comm]

/-- A plan that finds something without an implied root belongs to a text that begins
with the root sign. -/
theorem exists_tail {text : String} (h : ofText .written text ≠ unrooted) :
    ∃ tail, text.toList = '$' :: tail := by
  unfold ofText at h
  split at h
  · contradiction
  · exact ⟨_, ‹_›⟩
  · contradiction
  · contradiction

theorem ofText_of_root_sign {text : String} {tail : List Char} (h : text.toList = '$' :: tail)
    (rooting : Rooting) : ofText rooting text = ofTail tail := by
  rw [ofText, h]
  rfl

theorem dropDot_append {tail more : List Char}
    (h : dropDot tail ≠ [] ∨ more.head? ≠ some '.') :
    dropDot (tail ++ more) = dropDot tail ++ more := by
  cases tail with
  | nil =>
    rcases h with h | h
    · exact absurd rfl h
    · exact dropDot_of_ne h
  | cons c tail =>
    by_cases hc : c = '.'
    · subst hc
      rfl
    · have hfirst : ∀ rest, dropDot (c :: rest) = c :: rest := fun rest =>
        dropDot_of_ne (by simpa using hc)
      rw [List.cons_append, hfirst, hfirst, List.cons_append]

theorem exists_tail_of_navigate {text : String} {path : Path}
    (h : ofText .written text = navigate path) :
    ∃ tail, text.toList = '$' :: tail ∧ dropDot tail ≠ [] ∧
      (dropDot tail).head? ≠ some '.' := by
  obtain ⟨tail, htail⟩ := exists_tail (by rw [h]; simp)
  rw [ofText_of_root_sign htail] at h
  obtain ⟨⟨c, rest, hrest, hc⟩, -⟩ := ofTail_eq_navigate_iff.mp h
  exact ⟨tail, htail, by simp [hrest], by simpa [hrest] using hc⟩

/-- What is walked by a plan is a text that does not begin with a dot, and that is all of
the path text but perhaps a root sign and a dot behind it. -/
theorem exists_rest_of_navigate {rooting : Rooting} {text : String} {path : Path}
    (h : ofText rooting text = navigate path) :
    ∃ c rest, c ≠ '.' ∧ path = ⟨scan (c :: rest)⟩ ∧
      (text.toList = c :: rest ∨ ∃ tail, text.toList = '$' :: tail ∧ dropDot tail = c :: rest) := by
  unfold ofText at h
  -- the empty text, the root sign, and an opening bracket or anything else in front
  split at h
  · contradiction
  · next tail htail =>
    obtain ⟨⟨c, rest, hrest, hc⟩, rfl⟩ := ofTail_eq_navigate_iff.mp h
    exact ⟨c, rest, hc, by rw [hrest], Or.inr ⟨tail, htail, hrest⟩⟩
  · next rest htext =>
    cases rooting with
    | written => contradiction
    | implied =>
      obtain ⟨-, rfl⟩ := ofTail_eq_navigate_iff.mp h
      exact ⟨'[', rest, by decide, rfl, Or.inl htext⟩
  · cases rooting with
    | written => contradiction
    | implied =>
      obtain ⟨⟨c, rest, hrest, hc⟩, rfl⟩ := ofTail_eq_navigate_iff.mp h
      rw [dropDot_dot] at hrest
      exact ⟨c, rest, hc, by rw [dropDot_dot, hrest], Or.inl hrest⟩

theorem exists_tail_of_root {text : String} (h : ofText .written text = root) :
    ∃ tail, text.toList = '$' :: tail ∧ dropDot tail = [] := by
  obtain ⟨tail, htail⟩ := exists_tail (by rw [h]; simp)
  rw [ofText_of_root_sign htail, ofTail_eq_root_iff, ← dropDot_eq_nil_iff] at h
  exact ⟨tail, htail, h⟩

end DocumentQuery.Plan

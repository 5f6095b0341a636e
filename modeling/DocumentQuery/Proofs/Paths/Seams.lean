import DocumentQuery.Proofs.Paths.Tokens

/-!
# Joining path texts

A text that goes on at a dot or a bracket has the segments of its two parts, provided
that the first part closes its brackets. Where it does not, the open bracket takes in
the dot or the bracket of the seam, which no step may hold, so it is malformed whether
it is closed further on or never.
-/

namespace DocumentQuery.Segment

variable {tokens more : List Token} {rest tail : List Char}

theorem Tokenizes.append (h : Tokenizes tokens rest) (hclosed : AllClosed tokens)
    (ht : Tokenizes more tail) (hs : Stops tail) : Tokenizes (tokens ++ more) (rest ++ tail) := by
  induction tokens generalizing rest with
  | nil => simpa [← h.chars] using ht
  | cons token tokens ih =>
    obtain ⟨behind, rfl, hw, he, hbehind⟩ := cons_iff.mp h
    have hjoined := ih hbehind fun content hc => hclosed content (by simp [hc])
    rw [List.append_assoc]
    refine hjoined.cons hw ?_
    cases token with
    | name text =>
      cases behind with
      | nil => exact hs
      | cons c behind => exact he
    | opened content => exact absurd (by simp) (hclosed content)
    | _ => trivial

theorem scan_append (h : Tokenizes tokens rest) (hclosed : AllClosed tokens) (hs : Stops tail) :
    scan (rest ++ tail) = scan rest ++ scan tail := by
  obtain ⟨more, ht⟩ := exists_tokenizes tail
  rw [(h.append hclosed ht hs).scan_eq, List.filterMap_append, h.scan_eq, ht.scan_eq]

theorem inName_eq_false {c : Char} : inName c = false ↔ c = '.' ∨ c = '[' := by
  rw [← Bool.not_eq_true, inName_eq_true, not_and_or, not_not, not_not]

theorem exists_malformed_of_bracket {content : String} (h : ']' ∉ content.toList)
    (hs : Stops tail) : ∃ raw, malformed raw ∈ scan ('[' :: (content.toList ++ tail)) := by
  by_cases hclose : ']' ∈ tail
  · obtain ⟨inside, behind, rfl, hinside⟩ := List.eq_append_cons_of_mem hclose
    have hall : ']' ∉ (content ++ String.ofList inside).toList := by simp [h, hinside]
    have hscan := scan_bracket hall behind
    simp only [String.toList_append, String.toList_ofList, List.append_assoc] at hscan
    -- the seam itself is inside the bracket, for a name does not stop at its end
    have hseam : ∃ c ∈ inside, inName c = false := by
      cases inside with
      | nil => exact absurd (hs ']' rfl) (by decide)
      | cons c inside => exact ⟨c, by simp, hs c rfl⟩
    obtain ⟨c, hc, hstop⟩ := hseam
    have hspoils : c ≠ '*' ∧ c.isDigit = false := by
      rcases inName_eq_false.mp hstop with rfl | rfl <;> decide
    refine ⟨content ++ String.ofList inside, ?_⟩
    rw [hscan, ofBracket_of_mem (by simp [hc]) hspoils.1 hspoils.2]
    exact List.mem_cons_self
  · have hall : ']' ∉ (content ++ String.ofList tail).toList := by simp [h, hclose]
    have hscan := scan_opened hall
    rw [String.toList_append, String.toList_ofList] at hscan
    exact ⟨content ++ String.ofList tail, by simp [hscan]⟩

theorem Tokenizes.of_append (h : Tokenizes (tokens ++ more) rest) :
    ∃ front back, rest = front ++ back ∧ Tokenizes tokens front ∧ Tokenizes more back := by
  have hseams := List.isChain_append.mp h.seams
  refine ⟨tokens.flatMap Token.chars, more.flatMap Token.chars, ?_, ⟨rfl, ?_, hseams.1⟩,
    ⟨rfl, ?_, hseams.2.1⟩⟩
  · rw [← h.chars, List.flatMap_append]
  · exact fun token ht => h.wellFormed token (by simp [ht])
  · exact fun token ht => h.wellFormed token (by simp [ht])

/-- A text that ends inside a bracket stays malformed, however it goes on after a seam. -/
theorem EndsOpen.exists_malformed {content : String} (h : EndsOpen rest content)
    (hs : Stops tail) : ∃ raw, malformed raw ∈ scan (rest ++ tail) := by
  obtain ⟨before, ht⟩ := h
  obtain ⟨front, back, rfl, hfront, hback⟩ := ht.of_append
  have hcontent : ']' ∉ content.toList := hback.wellFormed (.opened content) (by simp)
  have hopen : back = '[' :: content.toList := by simpa [Token.chars] using hback.chars.symm
  obtain ⟨raw, hraw⟩ := exists_malformed_of_bracket hcontent hs
  refine ⟨raw, ?_⟩
  rw [hopen, List.append_assoc, List.cons_append,
    scan_append hfront ht.allClosed_before (stops_bracket _)]
  exact List.mem_append_right _ hraw

theorem Tokenizes.exists_of_name {text : String} {c : Char}
    (h : Tokenizes (.name text :: tokens) (c :: rest)) :
    ∃ front, Tokenizes (front ++ tokens) rest := by
  obtain ⟨tail, heq, hw, he, htail⟩ := cons_iff.mp h
  cases ht : text.toList with
  | nil => exact absurd (String.toList_eq_nil_iff.mp ht) hw.1
  | cons first name =>
    rw [Token.chars, ht, List.cons_append] at heq
    obtain ⟨-, rfl⟩ := List.cons.inj heq
    by_cases hname : name = []
    · subst hname
      exact ⟨[], htail⟩
    · have hdot := hw.2.1
      have hbracket := hw.2.2
      simp only [ht, List.mem_cons, not_or] at hdot hbracket
      have hrest : (Token.name (String.ofList name)).WellFormed :=
        ⟨by simpa [← String.toList_eq_nil_iff] using hname, by simpa using hdot.2,
          by simpa using hbracket.2⟩
      exact ⟨[.name (String.ofList name)], by simpa [Token.chars] using htail.cons hrest he⟩

/-- A text that ends inside a bracket does so still without its first character, unless
this is the one that opens the bracket. -/
theorem EndsOpen.of_cons {c : Char} {content : String} (h : EndsOpen (c :: rest) content)
    (hc : c ≠ '[') : EndsOpen rest content := by
  obtain ⟨before, ht⟩ := h
  cases before with
  | nil =>
    have hchars := ht.chars
    simp only [List.nil_append, List.flatMap_singleton, Token.chars, List.cons.injEq] at hchars
    exact absurd hchars.1.symm hc
  | cons token before =>
    cases token with
    | dot =>
      obtain ⟨tail, heq, -, -, htail⟩ := Tokenizes.cons_iff.mp ht
      obtain ⟨-, rfl⟩ := List.cons.inj heq
      exact ⟨before, htail⟩
    | name text =>
      obtain ⟨front, hfront⟩ := ht.exists_of_name
      exact ⟨front ++ before, by simpa using hfront⟩
    | _ =>
      have hchars := ht.chars
      simp only [List.cons_append, List.flatMap_cons, Token.chars, List.cons.injEq] at hchars
      exact absurd hchars.1.symm hc

/-- A text that ends inside a bracket does so still behind one more character, unless this
one opens a bracket itself. A character that is no dot begins a name or joins the name that
the text begins with. -/
theorem EndsOpen.cons {c : Char} {content : String} (h : EndsOpen rest content)
    (hc : c ≠ '[') : EndsOpen (c :: rest) content := by
  obtain ⟨before, ht⟩ := h
  by_cases hdot : c = '.'
  · subst hdot
    exact ⟨.dot :: before, ht.cons trivial trivial⟩
  by_cases hs : Stops rest
  · have hw : (Token.name (String.ofList [c])).WellFormed := by
      simp [Token.WellFormed, ← String.toList_eq_nil_iff, Ne.symm hdot, Ne.symm hc]
    exact ⟨.name (String.ofList [c]) :: before, by simpa [Token.chars] using ht.cons hw hs⟩
  · rw [ht.stops_iff] at hs
    cases before with
    | nil => simp at hs
    | cons token before =>
      cases token with
      | name text =>
        obtain ⟨tail, rfl, hw, he, htail⟩ := Tokenizes.cons_iff.mp ht
        have hlonger : (Token.name (String.ofList (c :: text.toList))).WellFormed := by
          simp [Token.WellFormed, ← String.toList_eq_nil_iff, Ne.symm hdot, Ne.symm hc, hw.2.1,
            hw.2.2]
        refine ⟨.name (String.ofList (c :: text.toList)) :: before, ?_⟩
        simpa [Token.chars] using htail.cons hlonger he
      | _ => simp at hs

theorem endsOpen_cons_iff {c : Char} {content : String} (hc : c ≠ '[') :
    EndsOpen (c :: rest) content ↔ EndsOpen rest content :=
  ⟨fun h => h.of_cons hc, fun h => h.cons hc⟩

end DocumentQuery.Segment

import DocumentQuery.Proofs.Paths.Tokens

/-!
# Reading a written path back

A written path is read back segment by segment, since every segment opens with a dot or
a bracket and so ends the name before it. Only a malformed segment can change: its
bracket is closed now, and its content may name a step.
-/

namespace DocumentQuery.Segment

def reread : Segment → Segment
  | malformed content => ofBracket content
  | field name => field name
  | index position => index position
  | wildcard => wildcard

theorem stops_text (segment : Segment) (rest : List Char) :
    Stops (segment.text.toList ++ rest) := by
  cases segment <;> simp [text, Stops, inName]

theorem tailText_cons (segment : Segment) (segments : List Segment) :
    (Path.tailText ⟨segment :: segments⟩).toList =
      segment.text.toList ++ (Path.tailText ⟨segments⟩).toList := by
  simp [Path.tailText]

theorem stops_tailText (segments : List Segment) :
    Stops (Path.tailText ⟨segments⟩).toList := by
  cases segments with
  | nil => simp [Path.tailText, Stops]
  | cons segment segments =>
    rw [tailText_cons]
    exact stops_text segment _

theorem scan_bracketText {content : String} (h : ']' ∉ content.toList) (rest : List Char) :
    scan (("[" ++ content ++ "]").toList ++ rest) = ofBracket content :: scan rest := by
  simpa using scan_bracket h rest

theorem bracket_not_mem_repr (n : Nat) : ']' ∉ n.repr.toList := by
  intro hmem
  rw [Nat.toList_repr] at hmem
  exact absurd (Nat.isDigit_of_mem_toDigits (by decide) (by decide) hmem) (by decide)

theorem scan_text {segment : Segment} (hw : segment.Writable) {rest : List Char}
    (hs : Stops rest) : scan (segment.text.toList ++ rest) = segment.reread :: scan rest := by
  cases segment with
  | field name => simpa [text, reread] using scan_name hw hs
  | index position =>
    rw [text, scan_bracketText (bracket_not_mem_repr _), ofBracket_repr, reread]
  | wildcard => rw [text, show "[*]" = "[" ++ "*" ++ "]" from rfl,
      scan_bracketText (by simp), ofBracket_star, reread]
  | malformed content => exact scan_bracketText hw rest

theorem scan_tailText {segments : List Segment} (hw : ∀ segment ∈ segments, segment.Writable) :
    scan (Path.tailText ⟨segments⟩).toList = segments.map reread := by
  induction segments with
  | nil => simp [Path.tailText]
  | cons segment segments ih =>
    have hrest := ih fun other hother => hw other (by simp [hother])
    rw [tailText_cons, scan_text (hw segment (by simp)) (stops_tailText segments), hrest,
      List.map_cons]

theorem ofText_tailText (rest : String) :
    Path.ofText (Path.ofText rest).tailText = ⟨(scan rest.toList).map reread⟩ :=
  congrArg Path.mk (scan_tailText fun _ h => writable_of_mem_scan h)

theorem reread_ofBracket (content : String) : (ofBracket content).reread = ofBracket content := by
  cases h : ofBracket content with
  | malformed raw =>
    obtain rfl := eq_of_ofBracket_eq_malformed h
    exact h
  | _ => rfl

/-- The segment of a token is read back unless the token is a bracket that is not closed. -/
theorem reread_of_segment? {token : Token} (ho : ∀ content, token ≠ .opened content)
    {segment : Segment} (h : token.segment? = some segment) : segment.reread = segment := by
  cases token with
  | dot => simp [Token.segment?] at h
  | name text =>
    obtain rfl := Option.some.inj h
    rfl
  | bracket content =>
    obtain rfl := Option.some.inj h
    exact reread_ofBracket content
  | opened content => exact absurd rfl (ho content)

theorem map_reread_of_allClosed {tokens : List Token} (h : AllClosed tokens) :
    (tokens.filterMap Token.segment?).map reread = tokens.filterMap Token.segment? := by
  have hread : ∀ segment ∈ tokens.filterMap Token.segment?, segment.reread = id segment := by
    intro segment hs
    obtain ⟨token, hmem, hsegment⟩ := List.mem_filterMap.mp hs
    exact reread_of_segment? (fun content heq => h content (heq ▸ hmem)) hsegment
  rw [List.map_congr_left hread, List.map_id]

/-- What becomes of a text that ends inside a bracket: the last segment is read again as
the bracket it was meant to be. -/
theorem EndsOpen.map_reread {rest : List Char} {content : String} (h : EndsOpen rest content) :
    ∃ before, scan rest = before ++ [malformed content] ∧
      (scan rest).map reread = before ++ [ofBracket content] := by
  obtain ⟨tokens, ht⟩ := h
  have hscan : scan rest = tokens.filterMap Token.segment? ++ [malformed content] := by
    simpa [Token.segment?] using ht.scan_eq
  refine ⟨_, hscan, ?_⟩
  rw [hscan, List.map_append, map_reread_of_allClosed ht.allClosed_before]
  rfl

theorem map_reread_of_not_endsOpen {rest : List Char} (h : ∀ content, ¬ EndsOpen rest content) :
    (scan rest).map reread = scan rest := by
  obtain ⟨tokens, ht⟩ := exists_tokenizes rest
  rcases ht.allClosed_or_endsOpen with hclosed | ⟨before, content, rfl⟩
  · rw [ht.scan_eq]
    exact map_reread_of_allClosed hclosed
  · exact absurd ⟨before, ht⟩ (h content)

/-- Writing a path and reading it again gives the path, unless its text ended inside a
bracket whose content names a step. Then the last segment alone changes: it was malformed
and becomes a wildcard or an index. -/
theorem ofText_tailText_eq_iff (rest : String) :
    (Path.ofText (Path.ofText rest).tailText = Path.ofText rest ↔
      ¬ ∃ content, EndsOpen rest.toList content ∧ NamesStep content) ∧
    ∀ content, EndsOpen rest.toList content → NamesStep content →
      ∃ before segment, (Path.ofText rest).segments = before ++ [malformed content] ∧
        (Path.ofText (Path.ofText rest).tailText).segments = before ++ [segment] ∧
        (content = "*" ∧ segment = wildcard ∨
          ∃ position, segment = index position ∧ position.toNat = decimalValue content) := by
  rw [ofText_tailText]
  refine ⟨?_, fun content ho hn => ?_⟩
  · have hpath : (⟨(scan rest.toList).map reread⟩ : Path) = Path.ofText rest ↔
        (scan rest.toList).map reread = scan rest.toList := Path.mk.injEq _ _ ▸ Iff.rfl
    rw [hpath]
    by_cases hopen : ∃ content, EndsOpen rest.toList content
    · obtain ⟨content, ho⟩ := hopen
      obtain ⟨before, hscan, hread⟩ := ho.map_reread
      rw [hread, hscan, List.append_cancel_left_eq, List.singleton_inj, ofBracket_eq_malformed_iff,
        not_iff_not]
      exact ⟨fun hn => ⟨content, ho, hn⟩, fun ⟨other, ho', hn⟩ => ho.content_unique ho' ▸ hn⟩
    · have hread := map_reread_of_not_endsOpen fun content ho => hopen ⟨content, ho⟩
      exact iff_of_true hread fun ⟨content, ho, _⟩ => hopen ⟨content, ho⟩
  · obtain ⟨before, hscan, hread⟩ := ho.map_reread
    refine ⟨before, ofBracket content, hscan, hread, ?_⟩
    rcases hn with rfl | hindex
    · exact Or.inl ⟨rfl, ofBracket_star⟩
    · exact Or.inr (ofBracket_of_isIndex hindex)

theorem ofText_tailText_unclosedIndex :
    EndsOpen "a[07".toList "07" ∧ NamesStep "07" ∧
      Path.ofText (Path.ofText "a[07").tailText ≠ Path.ofText "a[07" := by
  have hopen : EndsOpen "a[07".toList "07" :=
    ⟨[.name "a"], by decide, by simp [Token.WellFormed], by simp [Token.MayPrecede]⟩
  have hdigits : ("07".toList.all fun c => c.isDigit) = true := rfl
  have hvalue : decimalValue "07" = 7 := rfl
  have hnames : NamesStep "07" := Or.inr ⟨by decide, List.all_eq_true.mp hdigits, by omega⟩
  refine ⟨hopen, hnames, fun heq => ?_⟩
  exact (ofText_tailText_eq_iff "a[07").1.mp heq ⟨_, hopen, hnames⟩

end DocumentQuery.Segment

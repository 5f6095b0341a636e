import DocumentQuery.Proofs.Paths.Brackets
import Mathlib.Data.List.Chain
import Mathlib.Data.List.TakeWhile

/-!
# The tokens of a path text

A path text falls into tokens in exactly one way: dots, names taken as long as they
can be, closed brackets and, at the very end, perhaps a bracket that is never closed.
The segments of the text are its tokens without the dots. Everything about the scan is
derived from its five equations, one for the empty text and one for each token.
-/

namespace DocumentQuery.Segment

inductive Token where
  | dot
  | name (text : String)
  | bracket (content : String)
  | opened (content : String)

namespace Token

def chars : Token → List Char
  | dot => ['.']
  | name text => text.toList
  | bracket content => '[' :: content.toList ++ [']']
  | opened content => '[' :: content.toList

/-- What a token may hold. Dots and opening brackets inside a bracket are its content,
and a closing bracket inside a name is a character like any other. -/
def WellFormed : Token → Prop
  | dot => True
  | name text => text ≠ "" ∧ '.' ∉ text.toList ∧ '[' ∉ text.toList
  | bracket content => ']' ∉ content.toList
  | opened content => ']' ∉ content.toList

/-- Two names are never neighbours, since each is as long as it can be, and nothing
follows a bracket that is not closed. -/
def MayPrecede : Token → Token → Prop
  | name _, name _ => False
  | opened _, _ => False
  | _, _ => True

def segment? : Token → Option Segment
  | dot => none
  | name text => some (field text)
  | bracket content => some (ofBracket content)
  | opened content => some (malformed content)

end Token

/-- The text is cut into these tokens, from its first character to its last. -/
structure Tokenizes (tokens : List Token) (rest : List Char) : Prop where
  chars : tokens.flatMap Token.chars = rest
  wellFormed : ∀ token ∈ tokens, token.WellFormed
  seams : tokens.IsChain Token.MayPrecede

/-- A name that runs up to this text ends there. -/
def Stops (rest : List Char) : Prop := ∀ c ∈ rest.head?, inName c = false

theorem stops_nil : Stops [] := by simp [Stops]

theorem stops_dot (rest : List Char) : Stops ('.' :: rest) := by simp [Stops, inName]

theorem stops_bracket (rest : List Char) : Stops ('[' :: rest) := by simp [Stops, inName]

theorem stops_dropWhile (rest : List Char) : Stops (rest.dropWhile inName) := by
  intro c hc
  have h := List.head?_dropWhile_not inName rest
  rw [Option.mem_def.mp hc] at h
  simpa using h

theorem inName_eq_true {c : Char} : inName c = true ↔ c ≠ '.' ∧ c ≠ '[' := by simp [inName]

theorem inName_of_mem {text : String} (h : (Token.name text).WellFormed) :
    ∀ c ∈ text.toList, inName c = true := by
  intro c hc
  rw [inName_eq_true]
  constructor
  · rintro rfl
    exact h.2.1 hc
  · rintro rfl
    exact h.2.2 hc

theorem exists_cons_of_name {text : String} (h : (Token.name text).WellFormed)
    (rest : List Char) : ∃ c more, text.toList ++ rest = c :: more ∧ inName c = true := by
  cases ht : text.toList with
  | nil => exact absurd (String.toList_eq_nil_iff.mp ht) h.1
  | cons c more => exact ⟨c, more ++ rest, rfl, inName_of_mem h c (by simp [ht])⟩

theorem takeWhile_name {text : String} {rest : List Char} (h : (Token.name text).WellFormed)
    (hs : Stops rest) : (text.toList ++ rest).takeWhile inName = text.toList := by
  rw [List.takeWhile_append_of_pos (inName_of_mem h)]
  cases rest with
  | nil => simp
  | cons c rest => simp [hs c rfl]

theorem dropWhile_name {text : String} {rest : List Char} (h : (Token.name text).WellFormed)
    (hs : Stops rest) : (text.toList ++ rest).dropWhile inName = rest := by
  rw [List.dropWhile_append_of_pos (inName_of_mem h)]
  cases rest with
  | nil => simp
  | cons c rest => simp [hs c rfl]

theorem takeWhile_content {content : List Char} (h : ']' ∉ content) (rest : List Char) :
    (content ++ ']' :: rest).takeWhile (· ≠ ']') = content := by
  rw [List.takeWhile_append_of_pos (by
    intro c hc
    simpa using ne_of_mem_of_not_mem hc h)]
  simp

theorem dropWhile_content {content : List Char} (h : ']' ∉ content) (rest : List Char) :
    (content ++ ']' :: rest).dropWhile (· ≠ ']') = ']' :: rest := by
  rw [List.dropWhile_append_of_pos (by
    intro c hc
    simpa using ne_of_mem_of_not_mem hc h)]
  simp

theorem takeWhile_opened {content : List Char} (h : ']' ∉ content) :
    content.takeWhile (· ≠ ']') = content := by
  rw [List.takeWhile_eq_self_iff]
  intro c hc
  simpa using ne_of_mem_of_not_mem hc h

theorem dropWhile_opened {content : List Char} (h : ']' ∉ content) :
    content.dropWhile (· ≠ ']') = [] := by
  rw [List.dropWhile_eq_nil_iff]
  intro c hc
  simpa using ne_of_mem_of_not_mem hc h

/-! The equations of the scan. -/

@[simp] theorem scan_nil : scan [] = [] := by rw [scan]

@[simp] theorem scan_dot (rest : List Char) : scan ('.' :: rest) = scan rest := by rw [scan]

theorem scan_of_inName {c : Char} (hc : inName c = true) (rest : List Char) :
    scan (c :: rest) = field (String.ofList ((c :: rest).takeWhile inName)) ::
      scan ((c :: rest).dropWhile inName) := by
  have hstop := inName_eq_true.mp hc
  rw [scan]
  · simp [hc]
  · exact hstop.1
  · exact hstop.2

theorem scan_name {text : String} {rest : List Char} (h : (Token.name text).WellFormed)
    (hs : Stops rest) : scan (text.toList ++ rest) = field text :: scan rest := by
  obtain ⟨c, more, heq, hc⟩ := exists_cons_of_name h rest
  rw [heq, scan_of_inName hc, ← heq, takeWhile_name h hs, dropWhile_name h hs, String.ofList_toList]

theorem scan_bracket {content : String} (h : (Token.bracket content).WellFormed)
    (rest : List Char) :
    scan ('[' :: (content.toList ++ ']' :: rest)) = ofBracket content :: scan rest := by
  rw [scan]
  simp only [takeWhile_content h, dropWhile_content h]
  simp

theorem scan_opened {content : String} (h : (Token.opened content).WellFormed) :
    scan ('[' :: content.toList) = [malformed content] := by
  rw [scan]
  simp only [takeWhile_opened h, dropWhile_opened h]
  simp

/-- What has to follow a token for it to end where it does. -/
def Token.EndsBefore : Token → List Char → Prop
  | name _, rest => Stops rest
  | opened _, rest => rest = []
  | _, _ => True

theorem scan_token {token : Token} {rest : List Char} (h : token.WellFormed)
    (he : token.EndsBefore rest) :
    scan (token.chars ++ rest) = token.segment?.toList ++ scan rest := by
  cases token with
  | dot => simp [Token.chars, Token.segment?]
  | name text => simpa [Token.chars, Token.segment?] using scan_name h he
  | bracket content => simpa [Token.chars, Token.segment?] using scan_bracket h rest
  | opened content =>
    have hrest : rest = [] := he
    subst hrest
    simpa [Token.chars, Token.segment?] using scan_opened h

/-! A text cut into tokens, one token at a time. -/

theorem Token.chars_ne_nil {token : Token} (h : token.WellFormed) : token.chars ≠ [] := by
  cases token with
  | name text => simpa [chars] using h.1
  | _ => simp [chars]

namespace Tokenizes

variable {token : Token} {tokens more : List Token} {rest tail : List Char}

theorem nil : Tokenizes [] [] := ⟨rfl, by simp, .nil⟩

theorem eq_nil_iff (h : Tokenizes tokens rest) : tokens = [] ↔ rest = [] := by
  constructor
  · rintro rfl
    exact h.chars.symm
  · rintro rfl
    cases tokens with
    | nil => rfl
    | cons token tokens =>
      have hchars := List.append_eq_nil_iff.mp h.chars
      exact absurd hchars.1 (Token.chars_ne_nil (h.wellFormed token (by simp)))

theorem stops_iff (h : Tokenizes tokens rest) :
    Stops rest ↔ ∀ text, Token.name text ∉ tokens.head? := by
  cases tokens with
  | nil => simp [← h.chars, stops_nil]
  | cons token tokens =>
    rw [← h.chars, List.flatMap_cons]
    cases token with
    | name text =>
      obtain ⟨c, more, heq, hc⟩ := exists_cons_of_name (h.wellFormed (.name text) (by simp))
        (tokens.flatMap Token.chars)
      simp [Token.chars, heq, Stops, hc]
    | _ => simp [Token.chars, Stops, inName]

theorem endsBefore_iff (h : Tokenizes tokens rest) (token : Token) :
    token.EndsBefore rest ↔ ∀ next ∈ tokens.head?, token.MayPrecede next := by
  cases token with
  | name text =>
    refine h.stops_iff.trans ⟨fun hn next hnext => ?_, fun hn text' ht => hn _ ht⟩
    cases next with
    | name text' => exact hn text' hnext
    | _ => trivial
  | opened content =>
    refine h.eq_nil_iff.symm.trans ?_
    cases tokens <;> simp [Token.MayPrecede]
  | _ => simp [Token.EndsBefore, Token.MayPrecede]

/-- The tokens of a text are its first token and the tokens of what follows it. -/
theorem cons_iff : Tokenizes (token :: tokens) rest ↔
    ∃ tail, rest = token.chars ++ tail ∧ token.WellFormed ∧ token.EndsBefore tail ∧
      Tokenizes tokens tail := by
  constructor
  · intro h
    have hseams := List.isChain_cons.mp h.seams
    have htail : Tokenizes tokens (tokens.flatMap Token.chars) :=
      ⟨rfl, fun token ht => h.wellFormed token (by simp [ht]), hseams.2⟩
    exact ⟨_, h.chars.symm, h.wellFormed token (by simp), (htail.endsBefore_iff token).mpr hseams.1,
      htail⟩
  · rintro ⟨tail, rfl, hw, he, h⟩
    refine ⟨by simp [h.chars], ?_, List.isChain_cons.mpr ⟨(h.endsBefore_iff token).mp he, h.seams⟩⟩
    simpa [hw] using h.wellFormed

theorem cons (hw : token.WellFormed) (he : token.EndsBefore rest) (h : Tokenizes tokens rest) :
    Tokenizes (token :: tokens) (token.chars ++ rest) := cons_iff.mpr ⟨rest, rfl, hw, he, h⟩

theorem scan_eq (h : Tokenizes tokens rest) : scan rest = tokens.filterMap Token.segment? := by
  induction tokens generalizing rest with
  | nil => simp [← h.chars]
  | cons token tokens ih =>
    obtain ⟨tail, rfl, hw, he, htail⟩ := cons_iff.mp h
    rw [scan_token hw he, ih htail]
    cases hs : token.segment? <;> simp [hs]

end Tokenizes

def Token.first? : List Char → Option (Token × List Char)
  | [] => none
  | '.' :: rest => some (dot, rest)
  | '[' :: rest =>
    let content := String.ofList (rest.takeWhile (· ≠ ']'))
    match rest.dropWhile (· ≠ ']') with
    | [] => some (opened content, [])
    | _ :: tail => some (bracket content, tail)
  | rest => some (name (String.ofList (rest.takeWhile inName)), rest.dropWhile inName)

/-- A token can be read back from any text that lets it end where it does. -/
theorem Token.first?_chars_append {token : Token} {rest : List Char} (hw : token.WellFormed)
    (he : token.EndsBefore rest) : first? (token.chars ++ rest) = some (token, rest) := by
  cases token with
  | dot => rfl
  | name text =>
    obtain ⟨c, more, heq, hc⟩ := exists_cons_of_name hw rest
    have hstop := inName_eq_true.mp hc
    rw [chars, heq, first?, ← heq, takeWhile_name hw he, dropWhile_name hw he,
      String.ofList_toList]
    · simp
    · simpa using hstop.1
    · simpa using hstop.2
  | bracket content =>
    simp only [chars, List.cons_append, List.append_assoc, List.nil_append, first?,
      takeWhile_content hw, dropWhile_content hw, String.ofList_toList]
  | opened content =>
    have hrest : rest = [] := he
    subst hrest
    simp only [chars, List.append_nil, first?, takeWhile_opened hw, dropWhile_opened hw,
      String.ofList_toList]

theorem Tokenizes.unique {tokens others : List Token} {rest : List Char}
    (h : Tokenizes tokens rest) (h' : Tokenizes others rest) : tokens = others := by
  induction tokens generalizing others rest with
  | nil => exact (h'.eq_nil_iff.mpr (h.eq_nil_iff.mp rfl)).symm
  | cons token tokens ih =>
    cases others with
    | nil => exact h.eq_nil_iff.mpr (h'.eq_nil_iff.mp rfl)
    | cons other others =>
      obtain ⟨tail, rfl, hw, he, htail⟩ := Tokenizes.cons_iff.mp h
      obtain ⟨tail', heq, hw', he', htail'⟩ := Tokenizes.cons_iff.mp h'
      have hfirst := Token.first?_chars_append hw he
      rw [heq, Token.first?_chars_append hw' he'] at hfirst
      obtain ⟨rfl, rfl⟩ := Prod.mk.inj (Option.some.inj hfirst)
      rw [ih htail htail']

theorem exists_token {rest : List Char} (hne : rest ≠ []) :
    ∃ token tail, rest = Token.chars token ++ tail ∧ token.WellFormed ∧ token.EndsBefore tail := by
  obtain ⟨c, rest, rfl⟩ := List.exists_cons_of_ne_nil hne
  by_cases hdot : c = '.'
  · subst hdot
    exact ⟨.dot, rest, rfl, trivial, trivial⟩
  by_cases hbracket : c = '['
  · subst hbracket
    by_cases hclose : ']' ∈ rest
    · obtain ⟨content, tail, rfl, hcontent⟩ := List.eq_append_cons_of_mem hclose
      exact ⟨.bracket (String.ofList content), tail, by simp [Token.chars],
        by simpa [Token.WellFormed] using hcontent, trivial⟩
    · exact ⟨.opened (String.ofList rest), [], by simp [Token.chars],
        by simpa [Token.WellFormed] using hclose, rfl⟩
  · have hc : inName c = true := inName_eq_true.mpr ⟨hdot, hbracket⟩
    have hall : ∀ a ∈ (c :: rest).takeWhile inName, a ≠ '.' ∧ a ≠ '[' :=
      fun a ha => inName_eq_true.mp (List.mem_takeWhile_imp ha)
    refine ⟨.name (String.ofList ((c :: rest).takeWhile inName)), (c :: rest).dropWhile inName,
      ?_, ⟨?_, ?_, ?_⟩, stops_dropWhile _⟩
    · simp only [Token.chars, String.toList_ofList, List.takeWhile_append_dropWhile]
    · simp [← String.toList_eq_nil_iff, hc]
    · rw [String.toList_ofList]
      exact fun h => (hall _ h).1 rfl
    · rw [String.toList_ofList]
      exact fun h => (hall _ h).2 rfl

theorem exists_tokenizes (rest : List Char) : ∃ tokens, Tokenizes tokens rest := by
  by_cases hne : rest = []
  · subst hne
    exact ⟨[], .nil⟩
  · obtain ⟨token, tail, heq, hw, he⟩ := exists_token hne
    have hpos := List.length_pos_iff.mpr (Token.chars_ne_nil hw)
    have hlt : tail.length < rest.length := by
      rw [heq, List.length_append]
      omega
    obtain ⟨tokens, h⟩ := exists_tokenizes tail
    exact ⟨token :: tokens, heq ▸ h.cons hw he⟩
termination_by rest.length

/-- A segment whose written form can be taken apart again: a name that a scan can find,
and a content without a closing bracket. -/
def Writable : Segment → Prop
  | field name => (Token.name name).WellFormed
  | malformed content => ']' ∉ content.toList
  | _ => True

theorem Token.writable_of_segment? {token : Token} (hw : token.WellFormed) {segment : Segment}
    (h : token.segment? = some segment) : segment.Writable := by
  cases token with
  | dot => simp [segment?] at h
  | name text =>
    obtain rfl := Option.some.inj h
    exact hw
  | bracket content =>
    obtain rfl := Option.some.inj h
    cases hb : ofBracket content with
    | field name => exact absurd hb ofBracket_ne_field
    | malformed raw => exact eq_of_ofBracket_eq_malformed hb ▸ hw
    | _ => trivial
  | opened content =>
    obtain rfl := Option.some.inj h
    exact hw

theorem writable_of_mem_scan {segment : Segment} {rest : List Char} (h : segment ∈ scan rest) :
    segment.Writable := by
  obtain ⟨tokens, ht⟩ := exists_tokenizes rest
  rw [ht.scan_eq, List.mem_filterMap] at h
  obtain ⟨token, hmem, hsegment⟩ := h
  exact Token.writable_of_segment? (ht.wellFormed token hmem) hsegment

/-- Only the last token can be a bracket that is not closed. -/
theorem Tokenizes.eq_nil_of_opened {before after : List Token} {content : String}
    {rest : List Char} (h : Tokenizes (before ++ Token.opened content :: after) rest) :
    after = [] := by
  have hseams := (List.isChain_append.mp h.seams).2.1
  cases after with
  | nil => rfl
  | cons next after => exact absurd (List.isChain_cons_cons.mp hseams).1 id

def AllClosed (tokens : List Token) : Prop := ∀ content, Token.opened content ∉ tokens

/-- The text ends inside a bracket with this content that is never closed. -/
def EndsOpen (rest : List Char) (content : String) : Prop :=
  ∃ before, Tokenizes (before ++ [Token.opened content]) rest

theorem Tokenizes.allClosed_before {before : List Token} {last : Token} {rest : List Char}
    (h : Tokenizes (before ++ [last]) rest) : AllClosed before := by
  intro content hmem
  obtain ⟨front, back, rfl⟩ := List.append_of_mem hmem
  have hfront : Tokenizes (front ++ Token.opened content :: (back ++ [last])) rest := by
    simpa using h
  simpa using hfront.eq_nil_of_opened

/-- A text is cut into closed tokens unless it ends inside a bracket. -/
theorem Tokenizes.allClosed_or_endsOpen {tokens : List Token} {rest : List Char}
    (h : Tokenizes tokens rest) :
    AllClosed tokens ∨ ∃ before content, tokens = before ++ [Token.opened content] := by
  by_cases hmem : ∃ content, Token.opened content ∈ tokens
  · obtain ⟨content, hmem⟩ := hmem
    obtain ⟨before, after, rfl⟩ := List.append_of_mem hmem
    obtain rfl := h.eq_nil_of_opened
    exact Or.inr ⟨before, content, rfl⟩
  · exact Or.inl fun content hc => hmem ⟨content, hc⟩

theorem EndsOpen.content_unique {rest : List Char} {content other : String}
    (h : EndsOpen rest content) (h' : EndsOpen rest other) : content = other := by
  obtain ⟨before, ht⟩ := h
  obtain ⟨before', ht'⟩ := h'
  have hlast := congrArg List.getLast? (ht.unique ht')
  simpa using hlast

/-- Every text is cut into tokens in exactly one way, and its segments are those of the
tokens, in order. So no name is empty or holds a dot or an opening bracket, no malformed
content holds a closing bracket, and only the last segment can come from a bracket that
is never closed. -/
theorem segments_eq_tokens (rest : String) :
    ∃ tokens, Tokenizes tokens rest.toList ∧
      (∀ others, Tokenizes others rest.toList → others = tokens) ∧
      (Path.ofText rest).segments = tokens.filterMap Token.segment? ∧
      (∀ name, field name ∈ (Path.ofText rest).segments →
        name ≠ "" ∧ '.' ∉ name.toList ∧ '[' ∉ name.toList) ∧
      (∀ content, malformed content ∈ (Path.ofText rest).segments → ']' ∉ content.toList) ∧
      (∀ before content after, tokens = before ++ Token.opened content :: after →
        after = [] ∧ (Path.ofText rest).segments =
          before.filterMap Token.segment? ++ [malformed content]) := by
  obtain ⟨tokens, h⟩ := exists_tokenizes rest.toList
  refine ⟨tokens, h, fun others ho => ho.unique h, h.scan_eq, fun name hname => ?_,
    fun content hcontent => ?_, fun before content after heq => ?_⟩
  · exact writable_of_mem_scan hname
  · exact writable_of_mem_scan hcontent
  · subst heq
    obtain rfl := h.eq_nil_of_opened
    refine ⟨rfl, ?_⟩
    change scan rest.toList = _
    simpa [Token.segment?] using h.scan_eq

/-- Stray and nested brackets, and one that is never closed. -/
theorem segments_strayBrackets :
    Tokenizes [.dot, .name "a]", .bracket "[.", .name "b", .opened "0"] ".a][[.]b[0".toList ∧
      (Path.ofText ".a][[.]b[0").segments =
        [field "a]", malformed "[.", field "b", malformed "0"] := by
  have htokens : Tokenizes [.dot, .name "a]", .bracket "[.", .name "b", .opened "0"]
      ".a][[.]b[0".toList :=
    ⟨by decide, by simp [Token.WellFormed], by simp [Token.MayPrecede]⟩
  have hspoiled : ofBracket "[." = malformed "[." :=
    ofBracket_of_mem List.mem_cons_self (by decide) (by decide)
  obtain ⟨tokens, -, hunique, hsegments, -⟩ := segments_eq_tokens ".a][[.]b[0"
  refine ⟨htokens, ?_⟩
  rw [hsegments, ← hunique _ htokens]
  simp only [List.filterMap_cons, Token.segment?, hspoiled, List.filterMap_nil]

end DocumentQuery.Segment

import DocumentQuery.Proofs.Paths.Plans
import DocumentQuery.Query.Evaluation

/-!
# Walking joined paths

A path that goes on at a dot or a bracket finds what its continuation finds from the
value that the path itself leads to.
-/

namespace DocumentQuery

theorem Path.hasMalformed_eq_false_iff {path : Path} :
    path.hasMalformed = false ↔ ∀ segment ∈ path.segments, segment.isMalformed = false := by
  simp [hasMalformed]

namespace Json

open Segment Plan

@[simp] theorem navigateAll_nil (value : Json) : value.navigateAll [] = some value := rfl

@[simp] theorem navigateAll_cons (value : Json) (segment : Segment) (segments : List Segment) :
    value.navigateAll (segment :: segments) =
      (value.navigate segment).bind (navigateAll segments) := rfl

theorem navigateAll_append (value : Json) (front back : List Segment) :
    value.navigateAll (front ++ back) = (value.navigateAll front).bind (navigateAll back) :=
  List.foldlM_append

theorem navigate_malformed (value : Json) (content : String) :
    value.navigate (malformed content) = none := by
  cases value <;> rfl

theorem navigateAll_of_malformed {segments : List Segment} {content : String}
    (h : malformed content ∈ segments) (value : Json) : value.navigateAll segments = none := by
  obtain ⟨front, back, rfl⟩ := List.append_of_mem h
  rw [navigateAll_append]
  cases value.navigateAll front with
  | none => rfl
  | some reached => rw [Option.bind_some, navigateAll_cons, navigate_malformed, Option.bind_none]

theorem navigateAll_of_hasMalformed {path : Path} (h : path.hasMalformed = true) (value : Json) :
    value.navigateAll path.segments = none := by
  obtain ⟨segment, hsegment, hbad⟩ := List.any_eq_true.mp h
  cases segment with
  | malformed content => exact navigateAll_of_malformed hsegment value
  | _ => contradiction

/-- Walking the segments of a joined text is walking those of its parts in turn. Both
are absent if the first part ends inside a bracket. -/
theorem navigateAll_scan_append (value : Json) (rest : List Char) {tail : List Char}
    (hs : Stops tail) : value.navigateAll (scan (rest ++ tail)) =
      (value.navigateAll (scan rest)).bind (navigateAll (scan tail)) := by
  obtain ⟨tokens, ht⟩ := exists_tokenizes rest
  rcases ht.allClosed_or_endsOpen with hclosed | ⟨before, content, rfl⟩
  · rw [scan_append ht hclosed hs, navigateAll_append]
  · have hopen : EndsOpen rest content := ⟨before, ht⟩
    obtain ⟨raw, hjoined⟩ := hopen.exists_malformed hs
    obtain ⟨raw', hrest⟩ := hopen.exists_malformed stops_nil
    rw [List.append_nil] at hrest
    rw [navigateAll_of_malformed hjoined, navigateAll_of_malformed hrest, Option.bind_none]

/-- What a text finds after the root sign, a search apart. The root is the walk without
a step. -/
theorem execute_ofTail (document : Json) {tail : List Char}
    (hdot : (dropDot tail).head? ≠ some '.') :
    (ofTail tail).execute document = document.navigateAll (scan (dropDot tail)) := by
  by_cases hne : dropDot tail = []
  · rw [ofTail_root hne, hne, scan_nil]
    rfl
  · rw [ofTail_navigate hne hdot]
    rfl

theorem evaluate_of_root_sign (rooting : Rooting) (document : Json) {path : String}
    {tail : List Char} (h : path.toList = '$' :: tail) (hdot : (dropDot tail).head? ≠ some '.') :
    document.evaluate rooting path = document.navigateAll (scan (dropDot tail)) := by
  rw [evaluate, ofText_of_root_sign h, execute_ofTail document hdot]

/-- A path is continued from the value it leads to, if the seam leaves the plan a walk. -/
theorem evaluate_append_of_stops (rooting : Rooting) (document : Json) {path more : String}
    {tail : List Char} (h : path.toList = '$' :: tail) (hdot : (dropDot tail).head? ≠ some '.')
    (hseam : dropDot tail ≠ [] ∨ more.toList.head? ≠ some '.') (hs : Stops more.toList) :
    document.evaluate rooting (path ++ more) =
      (document.evaluate rooting path).bind (navigateAll (scan more.toList)) := by
  have hjoined : (path ++ more).toList = '$' :: (tail ++ more.toList) := by simp [h]
  have hdrop := dropDot_append hseam
  have hdot' : (dropDot (tail ++ more.toList)).head? ≠ some '.' := by
    rw [hdrop]
    cases hrest : dropDot tail with
    | nil => simpa [hrest] using hseam
    | cons c rest => simpa [hrest] using hdot
  rw [evaluate_of_root_sign rooting document hjoined hdot', hdrop,
    navigateAll_scan_append document _ hs, evaluate_of_root_sign rooting document h hdot]

theorem evaluate_dollar (rooting : Rooting) (document : Json) :
    document.evaluate rooting "$" = some document := by
  have hpath : "$".toList = ['$'] := rfl
  rw [evaluate_of_root_sign rooting document hpath (by simp [dropDot])]
  simp [dropDot]

theorem evaluate_dollar_dot (rooting : Rooting) (value : Json) {more : String}
    (h : more.toList.head? ≠ some '.') :
    value.evaluate rooting ("$." ++ more) = value.navigateAll (scan more.toList) := by
  have hpath : ("$." ++ more).toList = '$' :: '.' :: more.toList := by simp
  exact evaluate_of_root_sign rooting value hpath h

theorem evaluate_dollar_append (rooting : Rooting) (value : Json) {more : String}
    (h : more.toList.head? ≠ some '.') :
    value.evaluate rooting ("$" ++ more) = value.navigateAll (scan more.toList) := by
  have hpath : ("$" ++ more).toList = '$' :: more.toList := by simp
  have hdrop := dropDot_of_ne h
  rw [evaluate_of_root_sign rooting value hpath (by rwa [hdrop]), hdrop]

theorem evaluate_append_dot (rooting : Rooting) (document : Json) {path more : String}
    (h : path = "$" ∨ ∃ p, ofText .written path = .navigate p)
    (hmore : more.toList.head? ≠ some '.') :
    document.evaluate rooting (path ++ "." ++ more) =
      (document.evaluate rooting path).bind fun value =>
        value.evaluate rooting ("$." ++ more) := by
  rcases h with rfl | ⟨p, hplan⟩
  · rw [evaluate_dollar]
    rfl
  · obtain ⟨tail, htail, hne, hdot⟩ := exists_tail_of_navigate hplan
    have hchars : ("." ++ more).toList = '.' :: more.toList := by simp
    rw [String.append_assoc, evaluate_append_of_stops rooting document htail hdot (Or.inl hne)
      (by rw [hchars]; exact stops_dot _), hchars, scan_dot]
    simp only [evaluate_dollar_dot rooting _ hmore]

theorem evaluate_append_bracket (rooting : Rooting) (document : Json) {path more : String}
    (h : ofText .written path = .root ∨ ∃ p, ofText .written path = .navigate p)
    (hmore : more.toList.head? = some '[') :
    document.evaluate rooting (path ++ more) =
      (document.evaluate rooting path).bind fun value => value.evaluate rooting ("$" ++ more) := by
  have hnodot : more.toList.head? ≠ some '.' := by simp [hmore]
  have hstops : Stops more.toList := by simp [Stops, hmore, inName]
  have htail : ∃ tail, path.toList = '$' :: tail ∧ (dropDot tail).head? ≠ some '.' := by
    rcases h with hplan | ⟨p, hplan⟩
    · obtain ⟨tail, htail, hnil⟩ := exists_tail_of_root hplan
      exact ⟨tail, htail, by simp [hnil]⟩
    · obtain ⟨tail, htail, -, hdot⟩ := exists_tail_of_navigate hplan
      exact ⟨tail, htail, hdot⟩
  obtain ⟨tail, htail, hdot⟩ := htail
  rw [evaluate_append_of_stops rooting document htail hdot (Or.inr hnodot) hstops]
  simp only [evaluate_dollar_append rooting _ hnodot]

/-- A path that ends inside a bracket finds nothing in any document. -/
theorem evaluate_of_endsOpen (rooting : Rooting) (document : Json) {path : String} {p : Path}
    (hplan : ofText .written path = .navigate p) {content : String}
    (hopen : EndsOpen path.toList content) : document.evaluate rooting path = none := by
  obtain ⟨tail, htail, -, hdot⟩ := exists_tail_of_navigate hplan
  rw [htail] at hopen
  have hdrop := endsOpen_dropDot_iff.mpr (hopen.of_cons (by decide))
  obtain ⟨raw, hraw⟩ := hdrop.exists_malformed stops_nil
  rw [List.append_nil] at hraw
  rw [evaluate_of_root_sign rooting document htail hdot, navigateAll_of_malformed hraw]

/-- A path that is the root or a walk may be continued by a dot and any text that does
not begin with a dot, and also by any text that begins with a bracket. It then finds what
the continuation finds, as a path of its own, from the value that the path leads to. If
the path ends inside a bracket, both are absent. -/
theorem evaluate_append (rooting : Rooting) (document : Json) (path : String) :
    (∀ more : String, (path = "$" ∨ ∃ p, ofText .written path = .navigate p) →
      more.toList.head? ≠ some '.' →
      document.evaluate rooting (path ++ "." ++ more) =
        (document.evaluate rooting path).bind fun value => value.evaluate rooting ("$." ++ more)) ∧
    (∀ more : String, (ofText .written path = .root ∨ ∃ p, ofText .written path = .navigate p) →
      more.toList.head? = some '[' →
      document.evaluate rooting (path ++ more) =
        (document.evaluate rooting path).bind fun value => value.evaluate rooting ("$" ++ more)) ∧
    (∀ p content, ofText .written path = .navigate p → EndsOpen path.toList content →
      document.evaluate rooting path = none ∧
      (∀ more : String, more.toList.head? ≠ some '.' →
        document.evaluate rooting (path ++ "." ++ more) = none) ∧
      ∀ more : String, more.toList.head? = some '[' →
        document.evaluate rooting (path ++ more) = none) := by
  refine ⟨fun more => evaluate_append_dot rooting document,
    fun more => evaluate_append_bracket rooting document, fun p content hplan hopen => ?_⟩
  have habsent := evaluate_of_endsOpen rooting document hplan hopen
  refine ⟨habsent, fun more hmore => ?_, fun more hmore => ?_⟩
  · rw [evaluate_append_dot rooting document (Or.inr ⟨p, hplan⟩) hmore, habsent, Option.bind_none]
  · rw [evaluate_append_bracket rooting document (Or.inr ⟨p, hplan⟩) hmore, habsent,
      Option.bind_none]

/-- A member of a member, and a bracket whose opening is swallowed by the one before it. -/
theorem evaluate_append_member :
    (ofText .written "$.a" = .navigate ⟨[field "a"]⟩ ∧
      (object [("a", object [("b", null)])]).evaluate .written ("$.a" ++ "." ++ "b") =
        some null) ∧
    (ofText .written "$[" = .navigate ⟨[malformed ""]⟩ ∧ EndsOpen "$[".toList "" ∧
      (array [null]).evaluate .written ("$[" ++ "[0]") = none) := by
  have hname : ∀ text, (Token.name text).WellFormed → scan text.toList = [field text] :=
    fun text h => by simpa using scan_name h stops_nil
  have ha : (Token.name "a").WellFormed := ⟨by decide, by decide, by decide⟩
  have hb : (Token.name "b").WellFormed := ⟨by decide, by decide, by decide⟩
  have hplan : ofText .written "$.a" = .navigate ⟨[field "a"]⟩ := by
    have htail : "$.a".toList = '$' :: '.' :: "a".toList := rfl
    rw [ofText_of_root_sign htail, ofTail_navigate (by decide) (by decide), dropDot_dot,
      hname "a" ha]
  have hopenPlan : ofText .written "$[" = .navigate ⟨[malformed ""]⟩ := by
    have htail : "$[".toList = '$' :: '[' :: "".toList := rfl
    have hempty : (Token.opened "").WellFormed := List.not_mem_nil
    have hdrop : dropDot ('[' :: "".toList) = '[' :: "".toList := rfl
    rw [ofText_of_root_sign htail, ofTail_navigate (by decide) (by decide), hdrop,
      scan_opened hempty]
  have hopen : EndsOpen "$[".toList "" :=
    ⟨[.name "$"], by decide, by simp [Token.WellFormed], by simp [Token.MayPrecede]⟩
  refine ⟨⟨hplan, ?_⟩, hopenPlan, hopen, ?_⟩
  · rw [(evaluate_append .written _ "$.a").1 "b" (Or.inr ⟨_, hplan⟩) (by decide), evaluate, hplan]
    simp only [evaluate_dollar_dot .written _ (show "b".toList.head? ≠ some '.' by decide),
      hname "b" hb]
    rfl
  · exact ((evaluate_append .written _ "$[").2.2 _ "" hopenPlan hopen).2.2 "[0]" (by decide)

end Json
end DocumentQuery

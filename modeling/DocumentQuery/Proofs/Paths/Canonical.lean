import DocumentQuery.Proofs.Paths.Plans
import DocumentQuery.Proofs.Paths.RoundTrip
import Mathlib.Data.Set.Function

/-!
# Canonical paths

A list of segments may be put together without any text. It is read back from its written
form exactly if each of its segments is canonical, for a segment that is not canonical is
either broken up by the scan or read as another one. Behind the root sign the written form
of a list that is not empty is always planned as a walk: its first segment opens with a
bracket, or with a dot that no second dot follows.
-/

namespace DocumentQuery

namespace Segment

/-- A segment that is read back from its written form as it is: a name that a scan can find,
or a malformed content that does not close its bracket early and names no step. -/
def Canonical : Segment → Prop
  | field name => name ≠ "" ∧ '.' ∉ name.toList ∧ '[' ∉ name.toList
  | malformed content => ']' ∉ content.toList ∧ content ≠ "*" ∧ ¬ IsIndex content
  | _ => True

theorem canonical_iff {segment : Segment} :
    segment.Canonical ↔ segment.Writable ∧ segment.reread = segment := by
  cases segment with
  | malformed content =>
    rw [Canonical, Writable, reread, ofBracket_eq_malformed_iff, NamesStep, not_or]
  | _ => simp [Canonical, Writable, reread, Token.WellFormed]

theorem Canonical.writable {segment : Segment} (h : segment.Canonical) : segment.Writable :=
  (canonical_iff.mp h).1

theorem Canonical.reread_eq {segment : Segment} (h : segment.Canonical) :
    segment.reread = segment := (canonical_iff.mp h).2

theorem map_reread_eq_self_iff {segments : List Segment} :
    segments.map reread = segments ↔ ∀ segment ∈ segments, segment.reread = segment := by
  conv_lhs => rw [← List.map_id segments, List.map_map]
  exact List.map_inj_left

/-- What a scan has found is writable, so nothing that is not is ever read back. -/
theorem scan_tailText_eq_self_iff {segments : List Segment} :
    scan (Path.tailText ⟨segments⟩).toList = segments ↔
      ∀ segment ∈ segments, segment.Canonical := by
  constructor
  · intro h
    have hw : ∀ segment ∈ segments, segment.Writable := by
      intro segment hsegment
      rw [← h] at hsegment
      exact writable_of_mem_scan hsegment
    rw [scan_tailText hw, map_reread_eq_self_iff] at h
    intro segment hsegment
    exact canonical_iff.mpr ⟨hw segment hsegment, h segment hsegment⟩
  · intro h
    rw [scan_tailText fun segment hsegment => (h segment hsegment).writable,
      map_reread_eq_self_iff]
    intro segment hsegment
    exact (h segment hsegment).reread_eq

end Segment

namespace Path

open Segment

theorem ofList_tail_text (path : Path) : String.ofList path.text.toList.tail = path.tailText := by
  simp [text]

/-- A path is read back from its written form without the root sign exactly if all its
segments are canonical. On such paths the written form tells which path it is. -/
theorem ofText_tail_text_eq_self_iff :
    (∀ segments : List Segment,
      ofText (String.ofList (text ⟨segments⟩).toList.tail) = ⟨segments⟩ ↔
        ∀ segment ∈ segments, segment.Canonical) ∧
    Set.InjOn text {path | ∀ segment ∈ path.segments, segment.Canonical} := by
  have hread : ∀ path : Path, ofText (String.ofList path.text.toList.tail) = path ↔
      ∀ segment ∈ path.segments, segment.Canonical := by
    intro path
    rw [ofList_tail_text, ← scan_tailText_eq_self_iff]
    exact Path.mk.injEq _ _ ▸ Iff.rfl
  constructor
  · intro segments
    exact hread ⟨segments⟩
  · have hinverse : Set.LeftInvOn (fun written => ofText (String.ofList written.toList.tail))
        text {path | ∀ segment ∈ path.segments, segment.Canonical} := by
      intro path hpath
      exact (hread path).mpr hpath
    exact hinverse.injOn

/-- Stray brackets are kept, but a bracket is not if its content is the star. -/
theorem ofText_tail_text_strayBrackets :
    (∀ segment ∈ [field "a]", malformed "[.", index 7, wildcard], segment.Canonical) ∧
      ofText (String.ofList (text ⟨[field "a]", malformed "[.", index 7, wildcard]⟩).toList.tail) =
        ⟨[field "a]", malformed "[.", index 7, wildcard]⟩ ∧
      ofText (String.ofList (text ⟨[field "a", malformed "*"]⟩).toList.tail) ≠
        ⟨[field "a", malformed "*"]⟩ := by
  have hspoiled : ¬ IsIndex "[." := by
    intro h
    exact absurd (h.2.1 '[' (by decide)) (by decide)
  have hcanonical :
      ∀ segment ∈ [field "a]", malformed "[.", index 7, wildcard], segment.Canonical := by
    simp [Canonical, hspoiled]
  refine ⟨hcanonical, (ofText_tail_text_eq_self_iff.1 _).mpr hcanonical, fun h => ?_⟩
  have hstar := (ofText_tail_text_eq_self_iff.1 _).mp h (malformed "*") (by simp)
  exact hstar.2.1 rfl

end Path

namespace Plan

open Segment

theorem exists_cons_dropDot_text {segment : Segment} (hw : segment.Writable) (rest : List Char) :
    ∃ c more, dropDot (segment.text.toList ++ rest) = c :: more ∧ c ≠ '.' := by
  cases segment with
  | field name =>
    obtain ⟨c, more, heq, hc⟩ := exists_cons_of_name hw rest
    exact ⟨c, more, by simpa [text] using heq, (inName_eq_true.mp hc).1⟩
  | _ => simp [text, dropDot]

theorem ofText_text {segments : List Segment} (hne : segments ≠ [])
    (hw : ∀ segment ∈ segments, segment.Writable) (rooting : Rooting) :
    ofText rooting (Path.text ⟨segments⟩) = navigate ⟨segments.map reread⟩ := by
  have htail : (Path.text ⟨segments⟩).toList = '$' :: (Path.tailText ⟨segments⟩).toList := by
    simp [Path.text]
  rw [ofText_of_root_sign htail, ofTail_eq_navigate_iff, scan_dropDot, scan_tailText hw]
  cases segments with
  | nil => contradiction
  | cons segment segments =>
    rw [tailText_cons]
    exact ⟨exists_cons_dropDot_text (hw segment (by simp)) _, rfl⟩

theorem scan_ne_nil {c : Char} (hc : c ≠ '.') (rest : List Char) : scan (c :: rest) ≠ [] := by
  by_cases hbracket : c = '['
  · subst hbracket
    rw [scan]
    split <;> simp
  · rw [scan_of_inName (inName_eq_true.mpr ⟨hc, hbracket⟩)]
    simp

/-- The written form of a planned walk is planned as a walk again, and as the same one if
the path text does not end inside a bracket. -/
theorem ofText_text_of_navigate {rooting : Rooting} {text : String} {path : Path}
    (h : ofText rooting text = navigate path) (other : Rooting) :
    (∃ read, ofText other path.text = navigate read) ∧
      ((∀ content, ¬ EndsOpen text.toList content) →
        ofText other path.text = navigate path) := by
  obtain ⟨c, rest, hc, rfl, htext⟩ := exists_rest_of_navigate h
  have hplan := ofText_text (scan_ne_nil hc rest) (fun _ => writable_of_mem_scan) other
  refine ⟨⟨_, hplan⟩, fun hclosed => ?_⟩
  have hrest : ∀ content, ¬ EndsOpen (c :: rest) content := by
    intro content hopen
    apply hclosed content
    rcases htext with htext | ⟨tail, htext, htail⟩
    · rwa [htext]
    · rw [← htail] at hopen
      rw [htext, endsOpen_cons_iff (by decide)]
      exact endsOpen_dropDot_iff.mp hopen
  rw [hplan, map_reread_of_not_endsOpen hrest]

end Plan

end DocumentQuery

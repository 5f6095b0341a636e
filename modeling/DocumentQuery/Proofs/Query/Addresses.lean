import DocumentQuery.Proofs.Json.Locations
import DocumentQuery.Proofs.Paths.Canonical
import DocumentQuery.Proofs.Query.Walks
import Mathlib.Data.List.Induction

/-!
# Paths as addresses

A place whose keys can be written as names has an address: the path of its steps, which
finds in every document what is at the place. Conversely every path that is walked leads to
one place. Its wildcards do not move, but each of them asks for an array where it stands.
-/

namespace DocumentQuery

open Segment Plan

namespace Segment

/-- The step a segment takes. A wildcard takes none, and a malformed segment leads nowhere. -/
def step? : Segment → Option Json.Step
  | field name => some (.key name)
  | index position => some (.index position.toNat)
  | wildcard => none
  | malformed _ => none

end Segment

namespace Json

def Step.segment : Step → Segment
  | key name => .field name
  | index position => .index (UInt64.ofNat position)

/-- A step that can be written: a key that is a name, or an index of one machine word. -/
def Step.Addressable : Step → Prop
  | key name => name ≠ "" ∧ '.' ∉ name.toList ∧ '[' ∉ name.toList
  | index position => position < UInt64.size

def Location.path (location : Location) : Path := ⟨location.map Step.segment⟩

def Location.ofSegments (segments : List Segment) : Location := segments.filterMap step?

/-- There is an array at each wildcard, at the place that the segments before it lead to. -/
def ArraysAtWildcards (document : Json) (segments : List Segment) : Prop :=
  ∀ front back, segments = front ++ wildcard :: back →
    ∃ items, document.at? (Location.ofSegments front) = some (array items)

theorem at?_append (value : Json) (location more : Location) :
    value.at? (location ++ more) = (value.at? location).bind (at? more) := by
  induction location generalizing value with
  | nil => rfl
  | cons step location ih =>
    rw [List.cons_append, at?, at?, Option.bind_assoc]
    exact Option.bind_congr fun child _ => ih child

/-! From places to paths. -/

theorem Step.canonical_segment {step : Step} (h : step.Addressable) :
    step.segment.Canonical := by
  cases step with
  | key name => exact h
  | index position => trivial

theorem navigate_segment {step : Step} (h : step.Addressable) (value : Json) :
    value.navigate step.segment = value.child? step := by
  cases step with
  | key name => cases value <;> rfl
  | index position =>
    cases value with
    | array items =>
      have hposition : (UInt64.ofNat position).toNat = position := UInt64.toNat_ofNat_of_lt' h
      simp only [Step.segment, navigate, child?, hposition]
    | _ => rfl

theorem navigateAll_path {location : Location} (h : ∀ step ∈ location, step.Addressable)
    (value : Json) : value.navigateAll location.path.segments = value.at? location := by
  induction location generalizing value with
  | nil => rfl
  | cons step location ih =>
    have hrest : ∀ other ∈ location, other.Addressable := fun other hother =>
      h other (List.mem_cons_of_mem _ hother)
    have hstep := navigate_segment (h step List.mem_cons_self) value
    rw [Location.path, List.map_cons, navigateAll_cons, hstep, at?]
    exact Option.bind_congr fun child _ => ih hrest child

theorem evaluate_text (rooting : Rooting) (document : Json) {path : Path}
    (h : ∀ segment ∈ path.segments, segment.Canonical) :
    document.evaluate rooting path.text = document.navigateAll path.segments := by
  obtain ⟨segments⟩ := path
  by_cases hne : segments = []
  · subst hne
    exact evaluate_dollar rooting document
  · have hread : segments.map reread = segments := map_reread_eq_self_iff.mpr
      fun segment hsegment => (h segment hsegment).reread_eq
    rw [evaluate, ofText_text hne fun segment hsegment => (h segment hsegment).writable, hread]
    rfl

theorem evaluate_path_text (rooting : Rooting) (document : Json) {location : Location}
    (h : ∀ step ∈ location, step.Addressable) :
    document.evaluate rooting location.path.text = document.at? location := by
  have hcanonical : ∀ segment ∈ location.path.segments, segment.Canonical := by
    intro segment hsegment
    obtain ⟨step, hstep, rfl⟩ := List.mem_map.mp hsegment
    exact Step.canonical_segment (h step hstep)
  rw [evaluate_text rooting document hcanonical, navigateAll_path h]

/-! From paths to places. -/

theorem Location.ofSegments_append (front back : List Segment) :
    ofSegments (front ++ back) = ofSegments front ++ ofSegments back := List.filterMap_append

theorem Location.ofSegments_singleton (segment : Segment) :
    ofSegments [segment] = segment.step?.toList := by
  cases segment <;> rfl

/-- What one segment finds: the value one step further, or the array it stands at. -/
theorem navigate_eq_some_iff {segment : Segment} {value found : Json} :
    value.navigate segment = some found ↔
      segment.isMalformed = false ∧ value.at? (Location.ofSegments [segment]) = some found ∧
        (segment = wildcard → ∃ items, value = array items) := by
  rw [Location.ofSegments_singleton]
  cases segment with
  | malformed content => simp [navigate_malformed, isMalformed]
  | _ => cases value <;> simp [navigate, step?, at?, child?, isMalformed]

theorem arraysAtWildcards_nil (document : Json) : document.ArraysAtWildcards [] := by
  intro front back h
  simp at h

theorem arraysAtWildcards_append_singleton {document : Json} {front : List Segment}
    {segment : Segment} :
    document.ArraysAtWildcards (front ++ [segment]) ↔
      document.ArraysAtWildcards front ∧ (segment = wildcard →
        ∃ items, document.at? (Location.ofSegments front) = some (array items)) := by
  constructor
  · intro h
    constructor
    · rintro before back rfl
      exact h before (back ++ [segment]) (by simp)
    · rintro rfl
      exact h front [] rfl
  · rintro ⟨hfront, hlast⟩ before back heq
    rcases List.eq_nil_or_concat back with rfl | ⟨middle, last, rfl⟩
    · obtain ⟨rfl, hwildcard⟩ := List.append_inj' heq rfl
      exact hlast (List.singleton_inj.mp hwildcard)
    · rw [List.concat_eq_append, ← List.cons_append, ← List.append_assoc] at heq
      exact hfront before middle (List.append_inj' heq rfl).1

/-- What a path finds is at the place it leads to. The induction takes the last segment off,
so that the document in which places are looked up stays the same. -/
theorem navigateAll_eq_some_iff {document : Json} {segments : List Segment} {value : Json} :
    document.navigateAll segments = some value ↔
      (∀ segment ∈ segments, segment.isMalformed = false) ∧
        document.at? (Location.ofSegments segments) = some value ∧
        document.ArraysAtWildcards segments := by
  induction segments using List.reverseRecOn generalizing value with
  | nil => simp [Location.ofSegments, at?, arraysAtWildcards_nil]
  | append_singleton front segment ih =>
    have hlast : ∀ reached : Json, reached.navigateAll [segment] = reached.navigate segment := by
      intro reached
      rw [navigateAll_cons]
      cases reached.navigate segment <;> rfl
    simp only [navigateAll_append, Option.bind_eq_some_iff, ih, hlast, navigate_eq_some_iff,
      Location.ofSegments_append, at?_append, arraysAtWildcards_append_singleton,
      List.forall_mem_append, List.forall_mem_singleton]
    constructor
    -- the value a last wildcard stays on is the one at the place before it
    · rintro ⟨reached, ⟨hfront, hreached, harrays⟩, hsegment, hvalue, hwildcard⟩
      refine ⟨⟨hfront, hsegment⟩, ⟨reached, hreached, hvalue⟩, harrays, fun heq => ?_⟩
      obtain ⟨items, rfl⟩ := hwildcard heq
      exact ⟨items, hreached⟩
    · rintro ⟨⟨hfront, hsegment⟩, ⟨reached, hreached, hvalue⟩, harrays, hwildcard⟩
      refine ⟨reached, ⟨hfront, hreached, harrays⟩, hsegment, hvalue, fun heq => ?_⟩
      obtain ⟨items, hitems⟩ := hwildcard heq
      rw [hreached] at hitems
      exact ⟨items, Option.some.inj hitems⟩

theorem key_mem_ofSegments {name : String} {segments : List Segment} :
    Step.key name ∈ Location.ofSegments segments ↔ field name ∈ segments := by
  rw [Location.ofSegments, List.mem_filterMap]
  constructor
  · rintro ⟨segment, hsegment, hstep⟩
    cases segment with
    | field other =>
      obtain rfl := Step.key.inj (Option.some.inj hstep)
      exact hsegment
    | _ => simp [step?] at hstep
  · intro h
    exact ⟨field name, h, rfl⟩

/-- The names of a path that is walked can be written, since they have been read. -/
theorem name_of_navigate {rooting : Rooting} {text name : String} {path : Path}
    (h : ofText rooting text = .navigate path) (hname : field name ∈ path.segments) :
    name ≠ "" ∧ '.' ∉ name.toList ∧ '[' ∉ name.toList := by
  obtain ⟨c, rest, -, rfl, -⟩ := exists_rest_of_navigate h
  exact writable_of_mem_scan hname

/-- A place that can be written is found by its address in every document, and is absent
only where the document has no such place. A path that is walked finds a value exactly if
none of its segments is malformed, the value is at the place that its other segments lead
to, and there is an array at each of its wildcards. The keys on the way can be written. -/
theorem evaluate_location (document : Json) :
    (∀ (rooting : Rooting) (location : Location), (∀ step ∈ location, step.Addressable) →
      document.evaluate rooting location.path.text = document.at? location) ∧
    ∀ (rooting : Rooting) (text : String) (path : Path), ofText rooting text = .navigate path →
      (∀ value, document.evaluate rooting text = some value ↔
        path.hasMalformed = false ∧
          document.at? (Location.ofSegments path.segments) = some value ∧
          document.ArraysAtWildcards path.segments) ∧
      ∀ name, Step.key name ∈ Location.ofSegments path.segments →
        name ≠ "" ∧ '.' ∉ name.toList ∧ '[' ∉ name.toList := by
  constructor
  · intro rooting location h
    exact evaluate_path_text rooting document h
  · intro rooting text path hplan
    constructor
    · intro value
      have hwalk : document.evaluate rooting text = document.navigateAll path.segments := by
        rw [evaluate, hplan]
        rfl
      rw [hwalk, navigateAll_eq_some_iff, Path.hasMalformed_eq_false_iff]
    · intro name hname
      exact name_of_navigate hplan (key_mem_ofSegments.mp hname)

def menu : Json := object [("side dish", array [null, object [("name", string "rice")]])]

theorem evaluate_location_menu :
    (∀ step ∈ [Step.key "side dish", .index 1, .key "name"], step.Addressable) ∧
      menu.evaluate .written "$.side dish[1].name" = some (string "rice") ∧
      ofText .implied "side dish[*][1]" =
        .navigate ⟨[field "side dish", wildcard, index 1]⟩ ∧
      menu.evaluate .implied "side dish[*][1]" = some (object [("name", string "rice")]) := by
  obtain ⟨hfind, hwalk⟩ := evaluate_location menu
  have hsteps : ∀ step ∈ [Step.key "side dish", .index 1, .key "name"], step.Addressable := by
    simp [Step.Addressable, UInt64.size]
  have hplan : ofText .implied "side dish[*][1]" =
      .navigate ⟨[field "side dish", wildcard, index 1]⟩ := by decide +kernel
  refine ⟨hsteps, (hfind .written _ hsteps).trans rfl, hplan,
    ((hwalk .implied _ _ hplan).1 _).mpr ⟨rfl, rfl, ?_⟩⟩
  have hbefore : menu.ArraysAtWildcards [field "side dish"] := by
    rw [← List.nil_append [field "side dish"], arraysAtWildcards_append_singleton]
    exact ⟨arraysAtWildcards_nil menu, by simp⟩
  have hbehind : menu.ArraysAtWildcards ([field "side dish"] ++ [wildcard]) :=
    arraysAtWildcards_append_singleton.mpr ⟨hbefore, fun _ => ⟨_, rfl⟩⟩
  exact arraysAtWildcards_append_singleton.mpr ⟨hbehind, by simp⟩

/-- The canonical text of a path that is walked is again planned as the walk of this path,
without an implied root, if the path text does not end inside a bracket. So both texts find
the same in every document. Where the path text does end inside a bracket, its canonical
text is still planned as a walk, and never as the root, as a search or as nothing. -/
theorem evaluate_canonical_text {rooting : Rooting} {text : String} {path : Path}
    (h : ofText rooting text = .navigate path) :
    ((∀ content, ¬ EndsOpen text.toList content) →
      ofText .written path.text = .navigate path ∧
        ∀ document : Json, document.evaluate .written path.text = document.evaluate rooting text) ∧
    ∃ read, ofText .written path.text = .navigate read := by
  obtain ⟨hread, hsame⟩ := ofText_text_of_navigate h .written
  refine ⟨fun hclosed => ?_, hread⟩
  have hplan := hsame hclosed
  refine ⟨hplan, fun document => ?_⟩
  rw [evaluate, evaluate, hplan, h]

/-- A doubled dot and a bracket that holds no step, without the root sign. -/
theorem evaluate_canonical_text_doubledDot :
    ofText .implied "a..b[-1]" = .navigate ⟨[field "a", field "b", malformed "-1"]⟩ ∧
      (∀ content, ¬ EndsOpen "a..b[-1]".toList content) ∧
      ofText .written "$.a.b[-1]" = .navigate ⟨[field "a", field "b", malformed "-1"]⟩ := by
  have hplan : ofText .implied "a..b[-1]" =
      .navigate ⟨[field "a", field "b", malformed "-1"]⟩ := by decide +kernel
  have htokens : Tokenizes [.name "a", .dot, .dot, .name "b", .bracket "-1"]
      "a..b[-1]".toList :=
    ⟨by decide, by simp [Token.WellFormed], by simp [Token.MayPrecede]⟩
  have hclosed : ∀ content, ¬ EndsOpen "a..b[-1]".toList content := by
    rintro content ⟨before, hopen⟩
    have hlast := congrArg List.getLast? (hopen.unique htokens)
    simp at hlast
  exact ⟨hplan, hclosed, ((evaluate_canonical_text hplan).1 hclosed).1⟩

end Json

end DocumentQuery

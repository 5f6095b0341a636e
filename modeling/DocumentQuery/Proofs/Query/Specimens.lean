import DocumentQuery.Proofs.Query.FirstHit
import DocumentQuery.Proofs.Query.Walks
import Mathlib.Data.List.Infix

/-!
# Which plans can find something

A plan finds nothing in any document if it has no root or a malformed segment, and also if
it asks an array for a field, since a wildcard stays on its array and does not go through
the items. For every other plan there is a document in which it finds something: a
specimen, which is built from the segments of the path outside in.
-/

namespace DocumentQuery

open Segment

/-- Somewhere in a path a field stands right behind a wildcard. -/
def Path.AsksArrayForField (path : Path) : Prop :=
  ∃ name, [wildcard, field name] <:+: path.segments

def Plan.Satisfiable : Plan → Prop
  | unrooted => False
  | root => True
  | search _ => True
  | navigate path => path.hasMalformed = false ∧ ¬ path.AsksArrayForField

namespace Json

/-- A document for segments to walk. What they find in it is the empty array at its end, so
that a wildcard may be the last of them. -/
def specimen : List Segment → Json
  | [] => array []
  | field name :: rest => object [(name, specimen rest)]
  | index position :: rest => array (List.replicate position.toNat null ++ [specimen rest])
  | wildcard :: rest => specimen rest
  | malformed _ :: _ => array []

theorem ordered_specimen (segments : List Segment) : (specimen segments).Ordered := by
  induction segments with
  | nil => trivial
  | cons segment rest ih =>
    cases segment with
    | field name => exact ⟨List.pairwise_singleton _ _, ih, trivial⟩
    | index position =>
      apply orderedItems_iff.mpr
      intro item hitem
      rcases List.mem_append.mp hitem with hnull | hlast
      · obtain rfl := List.eq_of_mem_replicate hnull
        trivial
      · obtain rfl := List.mem_singleton.mp hlast
        exact ih
    | wildcard => exact ih
    | malformed content => trivial

theorem exists_specimen_eq_array {segments : List Segment}
    (h : ∀ name, ¬ [wildcard, field name] <:+: wildcard :: segments) :
    ∃ items, specimen segments = array items := by
  induction segments with
  | nil => exact ⟨[], rfl⟩
  | cons segment rest ih =>
    cases segment with
    | field name => exact absurd ⟨[], rest, rfl⟩ (h name)
    | wildcard => exact ih fun name hinfix => h name (List.infix_cons hinfix)
    | _ => exact ⟨_, rfl⟩

theorem navigateAll_specimen {segments : List Segment}
    (hm : ∀ segment ∈ segments, segment.isMalformed = false)
    (hw : ∀ name, ¬ [wildcard, field name] <:+: segments) :
    (specimen segments).navigateAll segments = some (array []) := by
  induction segments with
  | nil => rfl
  | cons segment rest ih =>
    have hstep : (specimen (segment :: rest)).navigate segment = some (specimen rest) := by
      cases segment with
      | field name => simp [specimen, navigate]
      | index position => simp [specimen, navigate]
      | wildcard =>
        obtain ⟨items, hitems⟩ := exists_specimen_eq_array hw
        simp [specimen, hitems, navigate]
      | malformed content => simp [isMalformed] at hm
    have hrest := ih (fun other hother => hm other (List.mem_cons_of_mem _ hother))
      (fun name hinfix => hw name (List.infix_cons hinfix))
    rw [navigateAll_cons, hstep, Option.bind_some, hrest]

theorem navigateAll_of_wildcard_field {segments : List Segment} {name : String}
    (h : [wildcard, field name] <:+: segments) (value : Json) :
    value.navigateAll segments = none := by
  obtain ⟨front, back, rfl⟩ := h
  rw [List.append_assoc, navigateAll_append]
  cases value.navigateAll front with
  | none => rfl
  | some reached => cases reached <;> rfl

theorem search_singleton (name : String) (value : Json) :
    (object [(name, value)]).search name = some value := by
  rw [search_eq_find?]
  simp [find?]

end Json

namespace Plan

theorem execute_eq_none {plan : Plan} (h : ¬ plan.Satisfiable) (document : Json) :
    plan.execute document = none := by
  cases plan with
  | unrooted => rfl
  | root => exact absurd trivial h
  | search field => exact absurd trivial h
  | navigate path =>
    change document.navigateAll path.segments = none
    cases hmalformed : path.hasMalformed with
    | true => exact Json.navigateAll_of_hasMalformed hmalformed document
    | false =>
      have hasks : path.AsksArrayForField := by
        by_contra hno
        exact h ⟨hmalformed, hno⟩
      obtain ⟨name, hinfix⟩ := hasks
      exact Json.navigateAll_of_wildcard_field hinfix document

theorem exists_isSome_execute {plan : Plan} (h : plan.Satisfiable) :
    ∃ document : Json, document.Ordered ∧ (plan.execute document).isSome = true := by
  cases plan with
  | unrooted => contradiction
  | root => exact ⟨.null, trivial, rfl⟩
  | search field =>
    refine ⟨.object [(field, .null)], ⟨List.pairwise_singleton _ _, trivial, trivial⟩, ?_⟩
    rw [execute, Json.search_singleton, Option.isSome_some]
  | navigate path =>
    obtain ⟨hmalformed, hno⟩ := h
    refine ⟨Json.specimen path.segments, Json.ordered_specimen _, ?_⟩
    have hall := Path.hasMalformed_eq_false_iff.mp hmalformed
    rw [execute, Json.navigateAll_specimen hall fun name hinfix => hno ⟨name, hinfix⟩,
      Option.isSome_some]

theorem exists_isSome_execute_iff {plan : Plan} :
    (∃ document : Json, document.Ordered ∧ (plan.execute document).isSome = true) ↔
      plan.Satisfiable := by
  refine ⟨fun h => ?_, exists_isSome_execute⟩
  obtain ⟨document, -, hsome⟩ := h
  by_contra hno
  rw [execute_eq_none hno] at hsome
  contradiction

end Plan

end DocumentQuery

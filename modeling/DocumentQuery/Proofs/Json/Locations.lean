import DocumentQuery.Json.Value
import DocumentQuery.Proofs.Json.Entries
import Mathlib.Data.List.Lex

/-!
# Places in a document

A place in a document is told by the keys and indexes that lead to it. Children are
listed in the order in which a document is gone through, so that in an ordered document
the pre-order of places is the lexicographic order of their steps.
-/

namespace DocumentQuery

namespace Json

inductive Step where
  | key (name : String)
  | index (position : Nat)
deriving DecidableEq

/-- The steps that lead from a document to a value inside it. -/
abbrev Location := List Step

def Step.Before : Step → Step → Prop
  | key name, key other => name < other
  | index position, index other => position < other
  | _, _ => False

/-- Pre-order: a place comes before all places inside it, and otherwise the first step in
which two places differ decides. -/
def Location.Before (location other : Location) : Prop := List.Lex Step.Before location other

instance : Std.Asymm Step.Before where
  asymm
    | .key _, .key _, h => String.lt_asymm h
    | .index _, .index _, h => Nat.lt_asymm h

theorem Location.Before.asymm {location other : Location} (h : location.Before other) :
    ¬ other.Before location := Std.Asymm.asymm (r := List.Lex Step.Before) location other h

def child? (step : Step) (value : Json) : Option Json :=
  match step, value with
  | .key name, object entries => entries.lookup name
  | .index position, array items => items[position]?
  | _, _ => none

def at? : Location → Json → Option Json
  | [], value => some value
  | step :: location, value => (value.child? step).bind (at? location)

def children : Json → List (Step × Json)
  | array items => items.zipIdx.map fun item => (.index item.2, item.1)
  | object entries => entries.map fun entry => (.key entry.1, entry.2)
  | _ => []

theorem orderedItems_iff {items : List Json} :
    OrderedItems items ↔ ∀ item ∈ items, item.Ordered := by
  induction items with
  | nil => simp [OrderedItems]
  | cons item items ih => simp [OrderedItems, ih]

theorem orderedEntries_iff {entries : List (String × Json)} :
    OrderedEntries entries ↔ ∀ entry ∈ entries, entry.2.Ordered := by
  induction entries with
  | nil => simp [OrderedEntries]
  | cons entry entries ih => simp [OrderedEntries, ih]

theorem ordered_insert {entries : Entries Json} {key : String} {value : Json}
    (h : (object entries).Ordered) (hv : value.Ordered) :
    (object (entries.insert key value)).Ordered := by
  refine ⟨Entries.sorted_insert h.1, orderedEntries_iff.mpr fun entry hentry => ?_⟩
  rcases Entries.eq_or_mem_of_mem_insert hentry with rfl | hmem
  · exact hv
  · exact orderedEntries_iff.mp h.2 entry hmem

theorem ordered_object_nil : (object []).Ordered := ⟨List.Pairwise.nil, trivial⟩

theorem ordered_ofPairs {pairs : List (String × Json)}
    (h : ∀ pair ∈ pairs, pair.2.Ordered) : (object (Entries.ofPairs pairs)).Ordered := by
  have hfold : ∀ entries : Entries Json, (object entries).Ordered →
      (object (pairs.foldl (fun entries pair => Entries.insert pair.1 pair.2 entries)
        entries)).Ordered := by
    induction pairs with
    | nil => exact fun entries hentries => hentries
    | cons pair pairs ih =>
      intro entries hentries
      exact ih (fun other hother => h other (List.mem_cons_of_mem _ hother)) _
        (ordered_insert hentries (h pair List.mem_cons_self))
  exact hfold [] ordered_object_nil

theorem mem_children_array {items : List Json} {step : Step} {child : Json} :
    (step, child) ∈ (array items).children ↔
      ∃ position, step = .index position ∧ items[position]? = some child := by
  simp only [children, List.mem_map, Prod.exists, Prod.mk.injEq, List.mem_zipIdx_iff_getElem?]
  constructor
  · rintro ⟨item, position, hitem, rfl, rfl⟩
    exact ⟨position, rfl, hitem⟩
  · rintro ⟨position, rfl, hitem⟩
    exact ⟨child, position, hitem, rfl, rfl⟩

theorem mem_children_object {entries : List (String × Json)} {step : Step} {child : Json} :
    (step, child) ∈ (object entries).children ↔
      ∃ name, step = .key name ∧ (name, child) ∈ entries := by
  simp only [children, List.mem_map, Prod.exists, Prod.mk.injEq]
  constructor
  · rintro ⟨name, value, hmem, rfl, rfl⟩
    exact ⟨name, rfl, hmem⟩
  · rintro ⟨name, rfl, hmem⟩
    exact ⟨name, child, hmem, rfl, rfl⟩

/-- Induction over a document: what holds of a value if it holds of all values directly
inside it holds of every value. -/
@[elab_as_elim]
theorem children_induction {motive : Json → Prop}
    (step : ∀ value, (∀ child ∈ value.children, motive child.2) → motive value) (value : Json) :
    motive value := by
  refine step value fun child hchild => ?_
  obtain ⟨name, inner⟩ := child
  have hlt : sizeOf inner < sizeOf value := by
    cases value with
    | array items =>
      obtain ⟨position, -, hitem⟩ := mem_children_array.mp hchild
      have hmem := List.sizeOf_lt_of_mem (List.mem_of_getElem? hitem)
      simp only [array.sizeOf_spec]
      omega
    | object entries =>
      obtain ⟨key, -, hentry⟩ := mem_children_object.mp hchild
      have hmem := List.sizeOf_lt_of_mem hentry
      simp only [object.sizeOf_spec, Prod.mk.sizeOf_spec] at hmem ⊢
      omega
    | _ => simp [children] at hchild
  exact children_induction step inner
termination_by sizeOf value

theorem ordered_of_mem_children {value : Json} (h : value.Ordered) {child : Step × Json}
    (hchild : child ∈ value.children) : child.2.Ordered := by
  obtain ⟨step, inner⟩ := child
  cases value with
  | array items =>
    obtain ⟨position, -, hitem⟩ := mem_children_array.mp hchild
    exact orderedItems_iff.mp h inner (List.mem_of_getElem? hitem)
  | object entries =>
    obtain ⟨name, -, hentry⟩ := mem_children_object.mp hchild
    exact orderedEntries_iff.mp h.2 (name, inner) hentry
  | _ => simp [children] at hchild

theorem mem_children_of_child? {value child : Json} {step : Step}
    (h : value.child? step = some child) : (step, child) ∈ value.children := by
  unfold child? at h
  split at h
  · obtain ⟨front, back, rfl, -⟩ := List.lookup_eq_some_iff.mp h
    simp [children]
  · exact mem_children_array.mpr ⟨_, rfl, h⟩
  · contradiction

theorem child?_of_mem_children {value child : Json} {step : Step} (h : value.Ordered)
    (hchild : (step, child) ∈ value.children) : value.child? step = some child := by
  cases value with
  | array items =>
    obtain ⟨position, rfl, hitem⟩ := mem_children_array.mp hchild
    exact hitem
  | object entries =>
    obtain ⟨name, rfl, hentry⟩ := mem_children_object.mp hchild
    exact Entries.lookup_of_mem h.1 hentry
  | _ => simp [children] at hchild

/-- In an ordered document the children are listed in pre-order. -/
theorem pairwise_children {value : Json} (h : value.Ordered) :
    value.children.Pairwise fun child other => child.1.Before other.1 := by
  cases value with
  | array items =>
    have hpositions : items.zipIdx.Pairwise fun item other => item.2 < other.2 := by
      rw [← List.pairwise_map (f := Prod.snd), List.zipIdx_map_snd]
      exact List.pairwise_lt_range'
    exact List.pairwise_map.mpr hpositions
  | object entries => exact List.pairwise_map.mpr h.1
  | _ => exact List.Pairwise.nil

end Json
end DocumentQuery

import DocumentQuery.Proofs.Json.Locations
import DocumentQuery.Proofs.Paths.Plans
import DocumentQuery.Query.Evaluation

/-!
# A search finds the first hit

The stack of a search holds, from its top, what is left of the document in pre-order. So
the search agrees with the recursion on the document, and the recursion finds the value
at the least place in pre-order whose object has the field. For this the keys of each
object have to be sorted, as they are in every document that is decoded.
-/

namespace DocumentQuery
namespace Json

/-- The object at a place holds a value under the field. -/
def HitAt (field : String) (document : Json) (location : Location) (value : Json) : Prop :=
  ∃ entries : Entries Json, document.at? location = some (object entries) ∧
    entries.lookup field = some value

/-- A hit that comes before all others in pre-order. -/
def FirstHitAt (field : String) (document : Json) (location : Location) (value : Json) : Prop :=
  HitAt field document location value ∧
    ∀ other found, HitAt field document other found → other = location ∨ location.Before other

theorem findInItems?_append (field : String) (items more : List Json) :
    findInItems? field (items ++ more) =
      (findInItems? field items).or (findInItems? field more) := by
  induction items with
  | nil => simp [findInItems?]
  | cons item items ih => simp [findInItems?, ih, Option.or_assoc]

theorem findInItems?_values (field : String) (entries : Entries Json) :
    findInItems? field entries.values = findInEntries? field entries := by
  induction entries with
  | nil => rfl
  | cons entry entries ih =>
    simp only [Entries.values, List.map_cons] at ih ⊢
    simp [findInItems?, findInEntries?, ih]

/-- The search with values left on the stack is the recursion on these values in turn. -/
theorem searchAmong_eq (field : String) (pending : List Json) :
    searchAmong field pending = findInItems? field pending := by
  fun_induction searchAmong field pending with
  | case1 => rfl
  | case2 entries pending value hown => simp [findInItems?, find?, hown]
  | case3 entries pending hown ih =>
    rw [ih, push_eq_append, findInItems?_append, findInItems?_values]
    simp [findInItems?, find?, hown]
  | case4 items pending ih =>
    rw [ih, push_eq_append, findInItems?_append]
    simp [findInItems?, find?]
  | case5 value pending hobject harray hpos ih =>
    rw [ih]
    cases value with
    | array items => exact absurd rfl (harray items)
    | object entries => exact absurd rfl (hobject entries)
    | _ => simp [findInItems?, find?]

theorem search_eq_find? (field : String) (document : Json) :
    document.search field = document.find? field := by
  rw [search, searchAmong_eq]
  simp [findInItems?]

theorem findInItems?_eq_findSome? (field : String) (items : List Json) :
    findInItems? field items = items.findSome? (find? field) := by
  induction items with
  | nil => rfl
  | cons item items ih =>
    rw [findInItems?, List.findSome?_cons, ih]
    cases item.find? field <;> rfl

/-- The own key of an object first, then the first result among its children. -/
theorem find?_eq (field : String) (value : Json) :
    value.find? field = (value.child? (.key field)).or
      (value.children.findSome? fun child => child.2.find? field) := by
  cases value with
  | array items =>
    have hitems : items.findSome? (find? field) =
        items.zipIdx.findSome? fun item => item.1.find? field := by
      conv_lhs => rw [← List.zipIdx_map_fst 0 items, List.findSome?_map]
      rfl
    rw [find?, findInItems?_eq_findSome?, children, List.findSome?_map, hitems]
    rfl
  | object entries =>
    rw [find?, ← findInItems?_values, findInItems?_eq_findSome?, children, List.findSome?_map,
      Entries.values, List.findSome?_map]
    rfl
  | _ => rfl

theorem hitAt_nil {field : String} {document value : Json} :
    HitAt field document [] value ↔ document.child? (.key field) = some value := by
  constructor
  · rintro ⟨entries, hplace, hown⟩
    obtain rfl := Option.some.inj hplace
    exact hown
  · intro h
    cases document with
    | object entries => exact ⟨entries, rfl, h⟩
    | _ => simp [child?] at h

theorem hitAt_cons {field : String} {document value : Json} {step : Step} {location : Location} :
    HitAt field document (step :: location) value ↔
      ∃ child, document.child? step = some child ∧ HitAt field child location value := by
  simp only [HitAt, at?, Option.bind_eq_some_iff]
  constructor
  · rintro ⟨entries, ⟨child, hchild, hplace⟩, hown⟩
    exact ⟨child, hchild, entries, hplace, hown⟩
  · rintro ⟨child, hchild, entries, hplace, hown⟩
    exact ⟨entries, ⟨child, hchild, hplace⟩, hown⟩

theorem isSome_find?_of_hitAt {field : String} {document value : Json} {location : Location}
    (h : HitAt field document location value) : (document.find? field).isSome = true := by
  rw [find?_eq, Option.isSome_or, Bool.or_eq_true]
  induction location generalizing document with
  | nil => exact Or.inl (by rw [hitAt_nil.mp h, Option.isSome_some])
  | cons step location ih =>
    obtain ⟨child, hchild, hhit⟩ := hitAt_cons.mp h
    refine Or.inr (List.findSome?_isSome_iff.mpr ⟨_, mem_children_of_child? hchild, ?_⟩)
    rw [find?_eq, Option.isSome_or, Bool.or_eq_true]
    exact ih hhit

/-- What is found is the first hit. The hits before it would be inside a child listed
before the one it is in, where there are none. -/
theorem exists_firstHitAt {field : String} {document : Json} (h : document.Ordered)
    {value : Json} (hfind : document.find? field = some value) :
    ∃ location, FirstHitAt field document location value := by
  induction document using children_induction with
  | step document ih =>
    rw [find?_eq, Option.or_eq_some_iff] at hfind
    rcases hfind with hown | ⟨hown, hfind⟩
    · refine ⟨[], hitAt_nil.mpr hown, fun other found _ => ?_⟩
      cases other with
      | nil => exact Or.inl rfl
      | cons step other => exact Or.inr .nil
    · obtain ⟨front, ⟨step, child⟩, back, hchildren, hchild, hfront⟩ :=
        List.findSome?_eq_some_iff.mp hfind
      have hmem : (step, child) ∈ document.children := by simp [hchildren]
      obtain ⟨location, hhit, hfirst⟩ := ih _ hmem (ordered_of_mem_children h hmem) hchild
      refine ⟨step :: location, hitAt_cons.mpr ⟨child, child?_of_mem_children h hmem, hhit⟩,
        fun other found hother => ?_⟩
      cases other with
      | nil => simp [hitAt_nil.mp hother] at hown
      | cons step' other =>
        obtain ⟨child', hchild', hhit'⟩ := hitAt_cons.mp hother
        have hmem' := mem_children_of_child? hchild'
        have hpairs := pairwise_children h
        rw [hchildren] at hmem' hpairs
        rcases List.mem_append.mp hmem' with hbefore | hbehind
        · have hsome := isSome_find?_of_hitAt hhit'
          rw [hfront _ hbefore] at hsome
          contradiction
        · rcases List.mem_cons.mp hbehind with hsame | hback
          · obtain ⟨rfl, rfl⟩ := Prod.mk.inj hsame
            rcases hfirst other found hhit' with rfl | hlater
            · exact Or.inl rfl
            · exact Or.inr (.cons hlater)
          · have hstep := (List.pairwise_cons.mp (List.pairwise_append.mp hpairs).2.1).1 _ hback
            exact Or.inr (.rel hstep)

theorem FirstHitAt.value_unique {field : String} {document value found : Json}
    {location other : Location} (h : FirstHitAt field document location value)
    (h' : FirstHitAt field document other found) : value = found := by
  have hplace : location = other := by
    rcases h.2 other found h'.1 with hsame | hlater
    · exact hsame.symm
    · rcases h'.2 location value h.1 with hsame | hearlier
      · exact hsame
      · exact absurd hearlier hlater.asymm
  subst hplace
  obtain ⟨entries, hentries, hown⟩ := h.1
  obtain ⟨entries', hentries', hown'⟩ := h'.1
  rw [hentries] at hentries'
  obtain rfl := object.inj (Option.some.inj hentries')
  exact Option.some.inj (hown.symm.trans hown')

theorem evaluate_search (rooting : Rooting) (document : Json) (field : String) :
    document.evaluate rooting ("$.." ++ field) = document.search field := by
  have hpath : ("$.." ++ field).toList = '$' :: '.' :: '.' :: field.toList := by simp
  rw [evaluate, Plan.ofText_of_root_sign hpath, Plan.ofTail_search (Plan.dropDot_dot _),
    String.ofList_toList]
  rfl

/-- The search for a field, by its stack or by a path, is the recursion on the document
that looks at the own keys of an object first and at its children in order. It finds
something if some object of the document has the field, and then the value in the object
that comes first in pre-order. -/
theorem search_eq_some_iff_firstHitAt {document : Json} (h : document.Ordered)
    (field : String) :
    (∀ rooting, document.evaluate rooting ("$.." ++ field) = document.search field) ∧
      document.search field = document.find? field ∧
      ((document.search field).isSome = true ↔
        ∃ location value, HitAt field document location value) ∧
      ∀ value, document.search field = some value ↔
        ∃ location, FirstHitAt field document location value := by
  refine ⟨fun rooting => evaluate_search rooting document field, search_eq_find? field document,
    ?_, fun value => ?_⟩ <;> rw [search_eq_find?]
  · constructor
    · intro hsome
      obtain ⟨value, hfind⟩ := Option.isSome_iff_exists.mp hsome
      obtain ⟨location, hfirst⟩ := exists_firstHitAt h hfind
      exact ⟨location, value, hfirst.1⟩
    · rintro ⟨location, value, hhit⟩
      exact isSome_find?_of_hitAt hhit
  · refine ⟨exists_firstHitAt h, ?_⟩
    rintro ⟨location, hfirst⟩
    obtain ⟨found, hfind⟩ := Option.isSome_iff_exists.mp (isSome_find?_of_hitAt hfirst.1)
    obtain ⟨other, hother⟩ := exists_firstHitAt h hfind
    rw [hfind, hfirst.value_unique hother]

def twoHits : Json :=
  object [("a", array [object [("y", bool false)], object [("z", null)]]),
    ("b", object [("z", bool true)])]

theorem search_twoHits : twoHits.Ordered ∧ twoHits.search "z" = some null ∧
    ∃ location, FirstHitAt "z" twoHits location null := by
  have hordered : twoHits.Ordered := by
    have hkeys : "a" < "b" := by decide
    simp only [twoHits, Ordered, OrderedItems, OrderedEntries, Entries.Sorted,
      List.pairwise_cons, List.forall_mem_singleton, List.not_mem_nil, false_implies,
      implies_true, List.Pairwise.nil, and_true]
    exact hkeys
  obtain ⟨-, hfind, -, hfirst⟩ := search_eq_some_iff_firstHitAt hordered "z"
  have hnull : twoHits.search "z" = some null := hfind.trans rfl
  exact ⟨hordered, hnull, (hfirst null).mp hnull⟩

end Json
end DocumentQuery

import DocumentQuery.Proofs.Json.Locations

/-!
# Plain values

How deep arrays and objects nest in a value, and whether there is a float in it. A plain
value has neither floats nor more than some levels, and so have the values inside it, with
one level less.
-/

namespace DocumentQuery
namespace Json

mutual

def depth : Json → Nat
  | array items => depthOfItems items + 1
  | object entries => depthOfEntries entries + 1
  | _ => 0

def depthOfItems : List Json → Nat
  | [] => 0
  | item :: rest => max (depth item) (depthOfItems rest)

def depthOfEntries : List (String × Json) → Nat
  | [] => 0
  | (_, value) :: rest => max (depth value) (depthOfEntries rest)

end

mutual

def isFloatFree : Json → Bool
  | number (.float _) => false
  | array items => areFloatFree items
  | object entries => haveFloatFree entries
  | _ => true

def areFloatFree : List Json → Bool
  | [] => true
  | item :: rest => isFloatFree item && areFloatFree rest

def haveFloatFree : List (String × Json) → Bool
  | [] => true
  | (_, value) :: rest => isFloatFree value && haveFloatFree rest

end

theorem exists_mem_children_array {items : List Json} {item : Json} (h : item ∈ items) :
    ∃ step, (step, item) ∈ (array items).children := by
  obtain ⟨position, hposition⟩ := List.mem_iff_getElem?.mp h
  exact ⟨_, mem_children_array.mpr ⟨position, rfl, hposition⟩⟩

theorem depth_le_depthOfItems {items : List Json} {item : Json} (h : item ∈ items) :
    item.depth ≤ depthOfItems items := by
  induction items with
  | nil => simp at h
  | cons first rest ih =>
    rw [depthOfItems]
    rcases List.mem_cons.mp h with rfl | hrest
    · exact Nat.le_max_left _ _
    · exact Nat.le_trans (ih hrest) (Nat.le_max_right _ _)

theorem depth_le_depthOfEntries {entries : List (String × Json)} {entry : String × Json}
    (h : entry ∈ entries) : entry.2.depth ≤ depthOfEntries entries := by
  induction entries with
  | nil => simp at h
  | cons first rest ih =>
    rw [depthOfEntries]
    rcases List.mem_cons.mp h with rfl | hrest
    · exact Nat.le_max_left _ _
    · exact Nat.le_trans (ih hrest) (Nat.le_max_right _ _)

theorem depth_lt_of_mem_children {value : Json} {child : Step × Json}
    (h : child ∈ value.children) : child.2.depth < value.depth := by
  obtain ⟨step, inner⟩ := child
  cases value with
  | array items =>
    obtain ⟨position, -, hitem⟩ := mem_children_array.mp h
    exact Nat.lt_succ_of_le (depth_le_depthOfItems (List.mem_of_getElem? hitem))
  | object entries =>
    obtain ⟨name, -, hentry⟩ := mem_children_object.mp h
    exact Nat.lt_succ_of_le (depth_le_depthOfEntries hentry)
  | _ => simp [children] at h

theorem areFloatFree_iff {items : List Json} :
    areFloatFree items = true ↔ ∀ item ∈ items, item.isFloatFree = true := by
  induction items with
  | nil => simp [areFloatFree]
  | cons item items ih => simp [areFloatFree, ih]

theorem haveFloatFree_iff {entries : List (String × Json)} :
    haveFloatFree entries = true ↔ ∀ entry ∈ entries, entry.2.isFloatFree = true := by
  induction entries with
  | nil => simp [haveFloatFree]
  | cons entry entries ih => simp [haveFloatFree, ih]

theorem isFloatFree_of_mem_children {value : Json} (h : value.isFloatFree = true)
    {child : Step × Json} (hchild : child ∈ value.children) : child.2.isFloatFree = true := by
  obtain ⟨step, inner⟩ := child
  cases value with
  | array items =>
    obtain ⟨position, -, hitem⟩ := mem_children_array.mp hchild
    rw [isFloatFree] at h
    exact areFloatFree_iff.mp h inner (List.mem_of_getElem? hitem)
  | object entries =>
    obtain ⟨name, -, hentry⟩ := mem_children_object.mp hchild
    rw [isFloatFree] at h
    exact haveFloatFree_iff.mp h (name, inner) hentry
  | _ => simp [children] at hchild

/-- An ordered value without floats that nests at most so many levels. -/
structure Plain (levels : Nat) (value : Json) : Prop where
  ordered : value.Ordered
  floatFree : value.isFloatFree = true
  depth_le : value.depth ≤ levels

theorem Plain.exists_eq_succ {levels : Nat} {value : Json} (h : value.Plain levels)
    (hdepth : 0 < value.depth) : ∃ inner, levels = inner + 1 := by
  have hle := h.depth_le
  exact ⟨levels - 1, by omega⟩

theorem Plain.of_mem_children {levels : Nat} {value : Json} (h : value.Plain (levels + 1))
    {child : Step × Json} (hchild : child ∈ value.children) : child.2.Plain levels := by
  have hdepth := depth_lt_of_mem_children hchild
  have hle := h.depth_le
  exact ⟨ordered_of_mem_children h.ordered hchild, isFloatFree_of_mem_children h.floatFree hchild,
    by omega⟩

end Json
end DocumentQuery

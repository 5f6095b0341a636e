import DocumentQuery.Proofs.Query.Addresses
import DocumentQuery.Proofs.Query.FirstHit

/-!
# What is found is in the document

Whatever a path finds stands somewhere in the document it is put to, so that it is ordered
like the document.
-/

namespace DocumentQuery
namespace Json

theorem ordered_of_at? {document value : Json} {location : Location} (h : document.Ordered)
    (hplace : document.at? location = some value) : value.Ordered := by
  induction location generalizing document with
  | nil => exact Option.some.inj hplace ▸ h
  | cons step location ih =>
    obtain ⟨child, hchild, hinner⟩ := Option.bind_eq_some_iff.mp hplace
    exact ih (ordered_of_mem_children h (mem_children_of_child? hchild)) hinner

theorem HitAt.at?_append {field : String} {document value : Json} {location : Location}
    (h : HitAt field document location value) :
    document.at? (location ++ [.key field]) = some value := by
  obtain ⟨entries, hplace, hown⟩ := h
  rw [Json.at?_append, hplace, Option.bind_some, at?, child?, hown]
  rfl

theorem exists_at?_of_evaluate {rooting : Rooting} {document value : Json} {path : String}
    (h : document.Ordered) (hfound : document.evaluate rooting path = some value) :
    ∃ location, document.at? location = some value := by
  unfold evaluate at hfound
  cases hplan : Plan.ofText rooting path with
  | unrooted =>
    rw [hplan] at hfound
    contradiction
  | root =>
    rw [hplan] at hfound
    exact ⟨[], hfound⟩
  | search field =>
    rw [hplan, Plan.execute, search_eq_find?] at hfound
    obtain ⟨location, hhit, -⟩ := exists_firstHitAt h hfound
    exact ⟨_, hhit.at?_append⟩
  | navigate path =>
    rw [hplan, Plan.execute] at hfound
    exact ⟨_, (navigateAll_eq_some_iff.mp hfound).2.1⟩

theorem ordered_of_evaluate {rooting : Rooting} {document value : Json} {path : String}
    (h : document.Ordered) (hfound : document.evaluate rooting path = some value) :
    value.Ordered := by
  obtain ⟨location, hplace⟩ := exists_at?_of_evaluate h hfound
  exact ordered_of_at? h hplace

end Json
end DocumentQuery

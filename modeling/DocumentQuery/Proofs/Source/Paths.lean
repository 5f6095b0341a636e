import DocumentQuery.Source.FilePath

/-!
# The order of paths

Comparing paths by their components is a linear order, once spellings of one path are
taken together. So an ascending list of paths is determined, up to spelling, by the
paths in it, and putting a path into the list adds that path and no other.
-/

namespace DocumentQuery
namespace FilePath

namespace Component

theorem order_swap (a b : Component) : a.order b = (b.order a).swap := by
  cases a <;> cases b <;> first | rfl | exact Std.OrientedOrd.eq_swap

instance : Std.OrientedCmp order where
  eq_swap := order_swap _ _

instance : Std.TransCmp order where
  isLE_trans {a b c} hab hbc := by
    cases a <;> cases b <;> cases c <;>
      first | rfl | contradiction | exact Std.TransOrd.isLE_trans hab hbc

instance : Std.LawfulEqCmp order where
  compare_self {a} := by
    cases a <;> first | rfl | exact Std.ReflOrd.compare_self
  eq_of_compare {a b} h := by
    cases a <;> cases b <;>
      first | rfl | contradiction | exact congrArg name (Std.LawfulEqOrd.eq_of_compare h)

end Component

variable {p q : FilePath}

theorem same_iff : p.same q = true ↔ p.components = q.components := by simp [same]

theorem order_eq_iff : p.order q = .eq ↔ p.components = q.components := by
  simp [order]

theorem order_eq_lt_of_gt (h : p.order q = .gt) : q.order p = .lt := by
  unfold order at h ⊢
  exact Std.OrientedCmp.lt_of_gt h

theorem order_eq_gt_of_lt (h : p.order q = .lt) : q.order p = .gt := by
  unfold order at h ⊢
  exact Std.OrientedCmp.gt_of_lt h

theorem order_lt_trans {r : FilePath} (hpq : p.order q = .lt) (hqr : q.order r = .lt) :
    p.order r = .lt := by
  unfold order at hpq hqr ⊢
  exact Std.TransCmp.lt_trans hpq hqr

/-- Ascending paths, none of them twice, whatever its spelling. -/
def Ascending (files : List FilePath) : Prop := files.Pairwise fun p q => p.order q = .lt

section Insertion

variable {path : FilePath} {files : List FilePath}

theorem eq_or_mem_of_mem_insertInto (h : p ∈ path.insertInto files) : p = path ∨ p ∈ files := by
  fun_induction insertInto path files with
  | case1 => exact Or.inl (List.mem_singleton.mp h)
  | case2 first rest hlt => exact List.mem_cons.mp h
  | case3 first rest heq => exact Or.inr h
  | case4 first rest hgt ih =>
    rcases List.mem_cons.mp h with rfl | hrest
    · exact Or.inr List.mem_cons_self
    · exact (ih hrest).imp_right (List.mem_cons_of_mem _)

theorem ascending_insertInto (hs : Ascending files) : Ascending (path.insertInto files) := by
  fun_induction insertInto path files with
  | case1 => exact List.pairwise_singleton _ _
  | case2 first rest hlt =>
    refine List.pairwise_cons.mpr ⟨?_, hs⟩
    intro file hfile
    rcases List.mem_cons.mp hfile with rfl | hrest
    · exact hlt
    · exact order_lt_trans hlt ((List.pairwise_cons.mp hs).1 file hrest)
  | case3 first rest heq => exact hs
  | case4 first rest hgt ih =>
    obtain ⟨hfirst, hrest⟩ := List.pairwise_cons.mp hs
    refine List.pairwise_cons.mpr ⟨?_, ih hrest⟩
    intro file hfile
    rcases eq_or_mem_of_mem_insertInto hfile with rfl | hmem
    · exact order_eq_lt_of_gt hgt
    · exact hfirst file hmem

theorem insertInto_of_forall_lt (h : ∀ file ∈ files, file.order path = .lt) :
    path.insertInto files = files ++ [path] := by
  induction files with
  | nil => rfl
  | cons first rest ih =>
    obtain ⟨hfirst, hrest⟩ := List.forall_mem_cons.mp h
    rw [insertInto, order_eq_gt_of_lt hfirst]
    dsimp only
    rw [ih hrest, List.cons_append]

/-- After a path was put into a list, the list has that path and those it had before. Another
spelling of the path may stand for it. -/
theorem exists_components_insertInto {components : List Component} :
    (∃ file ∈ path.insertInto files, file.components = components) ↔
      path.components = components ∨ ∃ file ∈ files, file.components = components := by
  fun_induction insertInto path files with
  | case1 => simp
  | case2 first rest hlt => simp
  | case3 first rest heq =>
    have hsame : path.components = first.components := order_eq_iff.mp heq
    simp [hsame]
  | case4 first rest hgt ih =>
    simp only [List.mem_cons, exists_eq_or_imp, ih]
    exact or_left_comm

theorem mem_or_mem_of_mem_foldl_insertInto {named : List FilePath}
    (h : p ∈ named.foldl (fun files file => file.insertInto files) files) :
    p ∈ named ∨ p ∈ files := by
  induction named generalizing files with
  | nil => exact Or.inr h
  | cons file named ih =>
    rcases ih h with hnamed | hfiles
    · exact Or.inl (List.mem_cons_of_mem _ hnamed)
    · rcases eq_or_mem_of_mem_insertInto hfiles with rfl | hmem
      · exact Or.inl List.mem_cons_self
      · exact Or.inr hmem

theorem ascending_foldl_insertInto {named : List FilePath} (hs : Ascending files) :
    Ascending (named.foldl (fun files file => file.insertInto files) files) := by
  induction named generalizing files with
  | nil => exact hs
  | cons file named ih => exact ih (ascending_insertInto hs)

theorem exists_components_foldl_insertInto {named : List FilePath}
    {components : List Component} :
    (∃ file ∈ named.foldl (fun files file => file.insertInto files) files,
      file.components = components) ↔
      (∃ file ∈ named, file.components = components) ∨
        ∃ file ∈ files, file.components = components := by
  induction named generalizing files with
  | nil => simp
  | cons file named ih =>
    rw [List.foldl_cons, ih, exists_components_insertInto]
    simp only [List.mem_cons, exists_eq_or_imp]
    rw [or_left_comm, ← or_assoc]

end Insertion

namespace Ascending

variable {files others : List FilePath}

theorem pairwise_components_ne (hs : Ascending files) :
    files.Pairwise fun p q => p.components ≠ q.components := by
  apply List.Pairwise.imp _ hs
  intro p q hlt heq
  rw [order_eq_iff.mpr heq] at hlt
  contradiction

theorem nodup_texts (hs : Ascending files) : (files.map text).Nodup := by
  rw [List.Nodup, List.pairwise_map]
  apply List.Pairwise.imp _ hs.pairwise_components_ne
  intro p q hne htext
  have heq : p = q := congrArg mk htext
  exact hne (congrArg components heq)

/-- Ascending lists of the same paths agree, up to the spelling of each path. -/
theorem map_components_eq (hs : Ascending files) (ho : Ascending others)
    (h : ∀ components, (∃ file ∈ files, file.components = components) ↔
      ∃ file ∈ others, file.components = components) :
    files.map components = others.map components := by
  have ordered : ∀ {list : List FilePath}, Ascending list →
      (list.map components).Pairwise fun a b => List.compareLex Component.order a b = .lt := by
    intro list hlist
    exact List.pairwise_map.mpr hlist
  have nodup : ∀ {list : List FilePath}, Ascending list → (list.map components).Nodup := by
    intro list hlist
    exact List.pairwise_map.mpr hlist.pairwise_components_ne
  have hperm : (files.map components).Perm (others.map components) := by
    rw [List.perm_ext_iff_of_nodup (nodup hs) (nodup ho)]
    intro list
    simpa only [List.mem_map] using h list
  apply hperm.eq_of_pairwise _ (ordered hs) (ordered ho)
  intro a b _ _ hab hba
  have hgt := Std.OrientedCmp.gt_of_lt hba
  rw [hab] at hgt
  contradiction

end Ascending

end FilePath
end DocumentQuery

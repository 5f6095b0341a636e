/-!
# Computations that can fail

What succeeds as a whole has succeeded in each of its steps.
-/

namespace DocumentQuery

variable {ε α β σ : Type}

theorem bind_eq_ok_iff {first : Except ε α} {next : α → Except ε β} {result : β} :
    first >>= next = .ok result ↔ ∃ value, first = .ok value ∧ next value = .ok result := by
  constructor
  · intro h
    cases first with
    | error failure => contradiction
    | ok value => exact ⟨value, rfl, h⟩
  · rintro ⟨value, rfl, h⟩
    exact h

theorem bind_eq_error_iff {first : Except ε α} {next : α → Except ε β} {failure : ε} :
    first >>= next = .error failure ↔
      first = .error failure ∨ ∃ value, first = .ok value ∧ next value = .error failure := by
  constructor
  · intro h
    cases first with
    | error reason =>
      obtain rfl := Except.error.inj h
      exact Or.inl rfl
    | ok value => exact Or.inr ⟨value, rfl, h⟩
  · rintro (rfl | ⟨value, rfl, h⟩)
    · rfl
    · exact h

@[simp] theorem map_ok (f : α → β) (value : α) :
    f <$> (Except.ok value : Except ε α) = .ok (f value) := rfl

theorem map_eq_ok_iff {first : Except ε α} {f : α → β} {result : β} :
    f <$> first = .ok result ↔ ∃ value, first = .ok value ∧ f value = result := by
  cases first with
  | ok value => simp
  | error failure => simp [Functor.map, Except.map]

theorem toOption_eq_of_eq_ok_iff {first second : Except ε α}
    (h : ∀ result, first = .ok result ↔ second = .ok result) :
    first.toOption = second.toOption := by
  cases first with
  | ok value => rw [(h value).mp rfl]
  | error failure =>
    cases second with
    | ok value => exact absurd ((h value).mpr rfl) (by simp)
    | error other => rfl

/-- What every step keeps holds at the end of a run. -/
theorem invariant_of_foldlM {Invariant : σ → Prop} {step : σ → α → Except ε σ}
    {items : List α}
    (hstep : ∀ state item next, item ∈ items → Invariant state → step state item = .ok next →
      Invariant next)
    {state result : σ} (h : Invariant state) (hrun : items.foldlM step state = .ok result) :
    Invariant result := by
  induction items generalizing state with
  | nil =>
    obtain rfl := Except.ok.inj hrun
    exact h
  | cons item items ih =>
    rw [List.foldlM_cons] at hrun
    obtain ⟨reached, hreached, hrest⟩ := bind_eq_ok_iff.mp hrun
    refine ih (fun state other next hother => ?_) ?_ hrest
    · exact hstep state other next (List.mem_cons_of_mem _ hother)
    · exact hstep state item reached List.mem_cons_self h hreached

theorem exists_mapM_eq_ok_iff {f : α → Except ε β} {items : List α} :
    (∃ results, items.mapM f = .ok results) ↔
      ∀ item ∈ items, ∃ result, f item = .ok result := by
  induction items with
  | nil => exact ⟨by simp, fun _ => ⟨[], rfl⟩⟩
  | cons item items ih =>
    rw [List.forall_mem_cons, ← ih, List.mapM_cons]
    constructor
    · rintro ⟨results, h⟩
      obtain ⟨first, hfirst, h⟩ := bind_eq_ok_iff.mp h
      obtain ⟨rest, hrest, -⟩ := bind_eq_ok_iff.mp h
      exact ⟨⟨first, hfirst⟩, rest, hrest⟩
    · rintro ⟨⟨first, hfirst⟩, rest, hrest⟩
      refine ⟨first :: rest, ?_⟩
      rw [hfirst, hrest]
      rfl

theorem mem_iff_of_mapM_eq_ok {f : α → Except ε β} {items : List α} {results : List β}
    (h : items.mapM f = .ok results) (result : β) :
    result ∈ results ↔ ∃ item ∈ items, f item = .ok result := by
  induction items generalizing results with
  | nil =>
    obtain rfl := Except.ok.inj h
    simp
  | cons item items ih =>
    rw [List.mapM_cons] at h
    obtain ⟨first, hfirst, h⟩ := bind_eq_ok_iff.mp h
    obtain ⟨rest, hrest, h⟩ := bind_eq_ok_iff.mp h
    obtain rfl := Except.ok.inj h
    simp [ih hrest, hfirst, eq_comm]

theorem map_filterMap_sublist {κ : Type} {f : α → Option β} {key : α → κ} {resultKey : β → κ}
    {items : List α} (h : ∀ item result, f item = some result → resultKey result = key item) :
    ((items.filterMap f).map resultKey).Sublist (items.map key) := by
  induction items with
  | nil => exact List.Sublist.slnil
  | cons item items ih =>
    rw [List.map_cons]
    cases hresult : f item with
    | none =>
      rw [List.filterMap_cons_none hresult]
      exact ih.cons _
    | some result =>
      rw [List.filterMap_cons_some hresult, List.map_cons, h item result hresult]
      exact ih.cons_cons _

end DocumentQuery

import DocumentQuery.Json.Entries

/-!
# Sorted entries

Entries stay sorted when a value is put among them. Sorted entries are found under their keys
and are told by what is found there. Pairs whose keys are different all become entries, in
whichever order they come, and of several pairs with one key the last one does.
-/

namespace DocumentQuery.Entries

variable {α : Type} {entries : Entries α} {key : String} {value : α}

theorem lookup_of_mem (hs : entries.Sorted) (h : (key, value) ∈ entries) :
    entries.lookup key = some value := by
  obtain ⟨front, back, rfl⟩ := List.append_of_mem h
  refine List.lookup_eq_some_iff.mpr ⟨front, back, rfl, fun entry hentry => ?_⟩
  have hlt := (List.pairwise_append.mp hs).2.2 entry hentry (key, value) (by simp)
  simpa using (String.ne_of_lt hlt).symm

theorem mem_keys_iff : key ∈ entries.map Prod.fst ↔ ∃ value, entries.lookup key = some value := by
  rw [← Option.isSome_iff_exists, List.lookup_isSome_iff, List.mem_map]
  simp only [beq_iff_eq]
  exact exists_congr fun _ => and_congr_right fun _ => eq_comm

theorem lookup_eq_none_of_not_mem_keys (h : key ∉ entries.map Prod.fst) :
    entries.lookup key = none := by
  cases hlookup : entries.lookup key with
  | none => rfl
  | some value => exact absurd (mem_keys_iff.mpr ⟨value, hlookup⟩) h

theorem nodup_keys (hs : entries.Sorted) : (entries.map Prod.fst).Nodup :=
  List.pairwise_map.mpr (hs.imp String.ne_of_lt)

theorem eq_of_perm {others : Entries α} (hs : entries.Sorted) (ho : others.Sorted)
    (h : entries.Perm others) : entries = others :=
  h.eq_of_pairwise (fun _ _ _ _ hlt hgt => absurd hgt (String.lt_asymm hlt)) hs ho

theorem eq_of_lookup_eq {others : Entries α} (hs : entries.Sorted) (ho : others.Sorted)
    (h : ∀ key, entries.lookup key = others.lookup key) : entries = others := by
  have hmem : ∀ {these those : Entries α}, these.Sorted →
      (∀ key, these.lookup key = those.lookup key) → ∀ entry ∈ these, entry ∈ those := by
    rintro these those hthese hsame ⟨key, value⟩ hentry
    have hfound := (hsame key).symm.trans (lookup_of_mem hthese hentry)
    obtain ⟨front, back, rfl, -⟩ := List.lookup_eq_some_iff.mp hfound
    simp
  refine eq_of_perm hs ho ((List.perm_ext_iff_of_nodup ?_ ?_).mpr fun entry => ?_)
  · exact hs.imp fun hlt heq => String.ne_of_lt hlt (congrArg Prod.fst heq)
  · exact ho.imp fun hlt heq => String.ne_of_lt hlt (congrArg Prod.fst heq)
  · exact ⟨hmem hs h entry, hmem ho (fun key => (h key).symm) entry⟩

theorem eq_or_mem_of_mem_insert {entry : String × α} (h : entry ∈ entries.insert key value) :
    entry = (key, value) ∨ entry ∈ entries := by
  fun_induction insert key value entries with
  | case1 => exact Or.inl (List.mem_singleton.mp h)
  | case2 k v rest hlt => exact List.mem_cons.mp h
  | case3 v rest hlt =>
    rcases List.mem_cons.mp h with rfl | hrest
    · exact Or.inl rfl
    · exact Or.inr (List.mem_cons_of_mem _ hrest)
  | case4 k v rest hlt hne ih =>
    rcases List.mem_cons.mp h with rfl | hrest
    · exact Or.inr List.mem_cons_self
    · exact (ih hrest).imp_right (List.mem_cons_of_mem _)

theorem sorted_insert (hs : entries.Sorted) : (entries.insert key value).Sorted := by
  fun_induction insert key value entries with
  | case1 => exact List.pairwise_singleton _ _
  | case2 k v rest hlt =>
    refine List.pairwise_cons.mpr ⟨fun entry hentry => ?_, hs⟩
    rcases List.mem_cons.mp hentry with rfl | hrest
    · exact hlt
    · exact String.lt_trans hlt ((List.pairwise_cons.mp hs).1 entry hrest)
  | case3 v rest hlt => exact List.pairwise_cons.mpr (List.pairwise_cons.mp hs)
  | case4 k v rest hlt hne ih =>
    have hkeys := List.pairwise_cons.mp hs
    refine List.pairwise_cons.mpr ⟨fun entry hentry => ?_, ih hkeys.2⟩
    rcases eq_or_mem_of_mem_insert hentry with rfl | hrest
    · exact Decidable.byContradiction fun hge =>
        hne (String.le_antisymm (String.not_lt.mp hge) (String.not_lt.mp hlt))
    · exact hkeys.1 entry hrest

theorem sorted_ofPairs (pairs : List (String × α)) : (ofPairs pairs).Sorted := by
  have hfold : ∀ entries : Entries α, entries.Sorted →
      Sorted (pairs.foldl (fun entries pair => insert pair.1 pair.2 entries) entries) := by
    induction pairs with
    | nil => exact fun entries hentries => hentries
    | cons pair pairs ih =>
      intro entries hentries
      exact ih _ (sorted_insert hentries)
  exact hfold [] List.Pairwise.nil

theorem perm_insert (h : key ∉ entries.map Prod.fst) :
    (entries.insert key value).Perm ((key, value) :: entries) := by
  fun_induction insert key value entries with
  | case1 => exact List.Perm.refl _
  | case2 k v rest hlt => exact List.Perm.refl _
  | case3 v rest hlt => simp at h
  | case4 k v rest hlt hne ih =>
    have hrest : key ∉ rest.map Prod.fst := by
      intro hmem
      exact h (List.mem_cons_of_mem _ hmem)
    exact ((ih hrest).cons (k, v)).trans (List.Perm.swap _ _ _)

theorem perm_ofPairs {pairs : List (String × α)} (h : (pairs.map Prod.fst).Nodup) :
    (ofPairs pairs).Perm pairs := by
  have hfold : ∀ entries : Entries α, (∀ pair ∈ pairs, pair.1 ∉ entries.map Prod.fst) →
      (pairs.foldl (fun entries pair => insert pair.1 pair.2 entries) entries).Perm
        (pairs ++ entries) := by
    induction pairs with
    | nil => exact fun entries _ => List.Perm.refl _
    | cons pair pairs ih =>
      intro entries hentries
      obtain ⟨hpair, hpairs⟩ := List.forall_mem_cons.mp hentries
      obtain ⟨hnew, hnodup⟩ := List.nodup_cons.mp h
      have hinsert : (insert pair.1 pair.2 entries).Perm (pair :: entries) := perm_insert hpair
      have hkeys : ∀ other ∈ pairs,
          other.1 ∉ (insert pair.1 pair.2 entries).map Prod.fst := by
        intro other hother hmem
        rcases List.mem_cons.mp ((hinsert.map Prod.fst).mem_iff.mp hmem) with heq | hold
        · exact hnew (heq ▸ List.mem_map_of_mem hother)
        · exact hpairs other hother hold
      exact (ih hnodup _ hkeys).trans ((hinsert.append_left pairs).trans List.perm_middle)
  have hall := hfold [] (by simp)
  rw [List.append_nil] at hall
  exact hall

theorem ofPairs_eq_of_perm {pairs others : List (String × α)} (h : (pairs.map Prod.fst).Nodup)
    (hperm : pairs.Perm others) : ofPairs pairs = ofPairs others := by
  have hothers : (others.map Prod.fst).Nodup := (hperm.map Prod.fst).nodup h
  exact eq_of_perm (sorted_ofPairs pairs) (sorted_ofPairs others)
    ((perm_ofPairs h).trans (hperm.trans (perm_ofPairs hothers).symm))

theorem insert_of_forall_lt (h : ∀ entry ∈ entries, entry.1 < key) :
    entries.insert key value = entries ++ [(key, value)] := by
  induction entries with
  | nil => rfl
  | cons first rest ih =>
    obtain ⟨hfirst, hrest⟩ := List.forall_mem_cons.mp h
    rw [insert, if_neg (String.lt_asymm hfirst), if_neg (String.ne_of_lt hfirst).symm, ih hrest,
      List.cons_append]

theorem lookup_cons (key other : String) (value : α) (entries : Entries α) :
    List.lookup other ((key, value) :: entries) =
      if other = key then some value else entries.lookup other := by
  rw [List.lookup_cons]
  by_cases h : other = key
  · simp [h]
  · rw [if_neg h, beq_eq_false_iff_ne.mpr h]

theorem lookup_insert (entries : Entries α) (key other : String) (value : α) :
    (entries.insert key value).lookup other =
      if other = key then some value else entries.lookup other := by
  fun_induction insert key value entries with
  | case1 => exact lookup_cons key other value []
  | case2 k v rest hlt => exact lookup_cons key other value ((k, v) :: rest)
  | case3 v rest hlt =>
    rw [lookup_cons, lookup_cons]
    split <;> rfl
  | case4 k v rest hlt hne ih =>
    rw [lookup_cons, ih, lookup_cons]
    by_cases h : other = key
    · rw [h, if_neg hne, if_pos rfl, if_pos rfl]
    · rw [if_neg h, if_neg h]

theorem lookup_ofPairs (pairs : List (String × α)) (key : String) :
    (ofPairs pairs).lookup key = pairs.reverse.lookup key := by
  have hfold : ∀ entries : Entries α,
      (pairs.foldl (fun entries pair => insert pair.1 pair.2 entries) entries).lookup key =
        (pairs.reverse.lookup key).or (entries.lookup key) := by
    induction pairs with
    | nil => intro entries; rfl
    | cons pair pairs ih =>
      intro entries
      rw [List.foldl_cons, ih, lookup_insert, List.reverse_cons, List.lookup_append,
        Option.or_assoc, lookup_cons]
      by_cases h : key = pair.1
      · rw [if_pos h, if_pos h, Option.some_or]
      · rw [if_neg h, if_neg h, List.lookup_nil, Option.none_or]
  have hall := hfold []
  rw [List.lookup_nil, Option.or_none] at hall
  exact hall

section Keyed

variable (f : String → α) (keys : List String)

theorem lookup_map (key : String) :
    (keys.map fun key => (key, f key)).lookup key = if key ∈ keys then some (f key) else none := by
  induction keys with
  | nil => rfl
  | cons first keys ih =>
    rw [List.map_cons, lookup_cons, ih]
    by_cases h : key = first
    · rw [if_pos h, if_pos (h ▸ List.mem_cons_self), h]
    · rw [if_neg h]
      simp [h]

/-- However often a key comes, it comes with the same value. -/
theorem lookup_ofPairs_map (key : String) :
    (ofPairs (keys.map fun key => (key, f key))).lookup key =
      if key ∈ keys then some (f key) else none := by
  rw [lookup_ofPairs, ← List.map_reverse, lookup_map]
  simp only [List.mem_reverse]

theorem mem_keys_ofPairs_map {key : String} :
    key ∈ (ofPairs (keys.map fun key => (key, f key))).map Prod.fst ↔ key ∈ keys := by
  rw [mem_keys_iff, lookup_ofPairs_map]
  by_cases h : key ∈ keys
  · simp [h]
  · simp [h]

/-- Neither the order of the keys nor their repetition matters. -/
theorem ofPairs_map_eq_of_mem_iff {keys others : List String}
    (h : ∀ key, key ∈ keys ↔ key ∈ others) :
    ofPairs (keys.map fun key => (key, f key)) = ofPairs (others.map fun key => (key, f key)) := by
  refine eq_of_lookup_eq (sorted_ofPairs _) (sorted_ofPairs _) fun key => ?_
  rw [lookup_ofPairs_map, lookup_ofPairs_map]
  simp only [h key]

end Keyed

end DocumentQuery.Entries

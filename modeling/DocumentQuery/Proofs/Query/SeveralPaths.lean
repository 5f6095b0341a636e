import DocumentQuery.Proofs.Json.Entries
import DocumentQuery.Proofs.Query.Answers

/-!
# Several paths at once

Several paths asked together find what each of them finds alone. A repeated path finds the same
again, so the answers are those of a set of paths.
-/

namespace DocumentQuery.Input

variable (rooting : Rooting) (input : Input) (paths : List String)

theorem getMany_eq :
    input.getMany rooting paths =
      Entries.ofPairs (paths.map fun path => (path, input.get rooting path)) := rfl

/-- The answers to several paths are sorted by path, one for each path that is asked, and the
answer under a path is what the path finds alone. So a null that is found stays apart from
nothing found, nothing is found if there is no document, and the answers are the same for every
list of the same paths, as for every reordering. -/
theorem getMany_eq_get :
    ((input.getMany rooting paths).map Prod.fst).Pairwise (· < ·) ∧
    (∀ path, path ∈ (input.getMany rooting paths).map Prod.fst ↔ path ∈ paths) ∧
    (∀ path, (input.getMany rooting paths).lookup path =
      if path ∈ paths then some (input.get rooting path) else none) ∧
    (input.document? = none →
      ∀ path ∈ paths, (input.getMany rooting paths).lookup path = some none) ∧
    (∀ others, paths.Perm others → input.getMany rooting others = input.getMany rooting paths) ∧
    ∀ others, (∀ path, path ∈ others ↔ path ∈ paths) →
      input.getMany rooting others = input.getMany rooting paths := by
  have hlookup : ∀ path, (input.getMany rooting paths).lookup path =
      if path ∈ paths then some (input.get rooting path) else none := by
    intro path
    rw [getMany_eq, Entries.lookup_ofPairs_map]
  have hsame : ∀ others : List String, (∀ path, path ∈ others ↔ path ∈ paths) →
      input.getMany rooting others = input.getMany rooting paths := by
    intro others h
    exact Entries.ofPairs_map_eq_of_mem_iff _ h
  refine ⟨?_, ?_, hlookup, ?_, ?_, hsame⟩
  · exact List.pairwise_map.mpr (Entries.sorted_ofPairs _)
  · intro path
    rw [getMany_eq, Entries.mem_keys_ofPairs_map]
  · intro hnone path hpath
    rw [hlookup, if_pos hpath, (answers_of_no_document rooting input hnone path none).1]
  · intro others hperm
    exact hsame others fun path => hperm.symm.mem_iff

/-- A null that is found, a path that finds nothing, a repeated path, and no document. -/
theorem getMany_eq_get_null :
    (((Input.text "[null]").getMany .written ["$[0]", "$.a", "$[0]"]).lookup "$[0]" =
        some (some .null) ∧
      ((Input.text "[null]").getMany .written ["$[0]", "$.a", "$[0]"]).lookup "$.a" = some none ∧
      (Input.text "[null]").getMany .written ["$.a", "$[0]"] =
        (Input.text "[null]").getMany .written ["$[0]", "$.a", "$[0]"]) ∧
    (Input.text "[null").document? = none ∧
      ((Input.text "[null").getMany .written ["$[0]"]).lookup "$[0]" = some none := by
  obtain ⟨-, -, hlookup, -, -, hsame⟩ :=
    getMany_eq_get .written (.text "[null]") ["$[0]", "$.a", "$[0]"]
  obtain ⟨-, -, -, hnone, -⟩ := getMany_eq_get .written (.text "[null") ["$[0]"]
  have hdecoded : (Input.text "[null]").document? = some (.array [.null]) := rfl
  have hundecoded : (Input.text "[null").document? = none := rfl
  have hindex : Plan.ofText .written "$[0]" = .navigate ⟨[.index 0]⟩ := by decide +kernel
  have hfield : Plan.ofText .written "$.a" = .navigate ⟨[.field "a"]⟩ := by decide +kernel
  have hnull : (Input.text "[null]").get .written "$[0]" = some .null :=
    get_of_plan _ _ hindex hdecoded
  have habsent : (Input.text "[null]").get .written "$.a" = none :=
    get_of_plan _ _ hfield hdecoded
  refine ⟨⟨?_, ?_, hsame _ (by simp)⟩, hundecoded, hnone hundecoded _ (by simp)⟩
  · rw [hlookup, if_pos (by simp), hnull]
  · rw [hlookup, if_pos (by simp), habsent]

end DocumentQuery.Input

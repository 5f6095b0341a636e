import DocumentQuery.Proofs.Paths.Canonical
import DocumentQuery.Query.Evaluation

/-!
# All plans

Behind the root sign the text alone tells the plan, and an implied root only adds the sign and
a dot that separates nothing. So the plan of each path text can be read off its first
characters, and what is found with the root sign written is found with it implied.
-/

namespace DocumentQuery.Plan

open Segment

def HasRootSign (text : String) : Prop := ∃ tail, text = "$" ++ tail

variable {rooting : Rooting} {text tail : String}

theorem hasRootSign_iff : HasRootSign text ↔ text.toList.head? = some '$' := by
  constructor
  · rintro ⟨tail, rfl⟩
    simp
  · intro h
    obtain ⟨tail, htail⟩ := List.head?_eq_some_iff.mp h
    exact ⟨String.ofList tail, String.toList_inj.mp (by simp [htail])⟩

theorem ofText_of_eq_append (h : text = "$" ++ tail) (rooting : Rooting) :
    ofText rooting text = ofTail tail.toList :=
  ofText_of_root_sign (by simp [h]) rooting

theorem ofText_written (h : ¬ HasRootSign text) : ofText .written text = unrooted := by
  by_contra hplan
  obtain ⟨tail, htail⟩ := exists_tail hplan
  exact h (hasRootSign_iff.mpr (by simp [htail]))

theorem ofText_implied (hne : text ≠ "") (h : ¬ HasRootSign text) :
    ofText .implied text = ofTail ('.' :: text.toList) := by
  rw [hasRootSign_iff] at h
  unfold ofText
  split
  · next hnil => exact absurd (String.toList_eq_nil_iff.mp hnil) hne
  · next htail => simp [htail] at h
  · next hbracket =>
    rw [hbracket]
    rfl
  · rfl

theorem ofText_eq_unrooted_iff :
    ofText rooting text = unrooted ↔ text = "" ∨ ¬ HasRootSign text ∧ rooting = .written := by
  by_cases hsign : HasRootSign text
  · obtain ⟨tail, htail⟩ := hsign
    rw [ofText_of_eq_append htail]
    refine iff_of_false (ofTail_ne_unrooted _) ?_
    rintro (rfl | ⟨hno, -⟩)
    · simp at htail
    · exact hno ⟨tail, htail⟩
  · cases rooting with
    | written => simp [ofText_written hsign, hsign]
    | implied =>
      by_cases hne : text = ""
      · subst hne
        exact iff_of_true rfl (Or.inl rfl)
      · rw [ofText_implied hne hsign]
        refine iff_of_false (ofTail_ne_unrooted _) ?_
        rintro (hnil | ⟨-, hwritten⟩)
        · exact hne hnil
        · contradiction

section RootSign

variable (htext : text = "$" ++ tail)

include htext

theorem ofText_eq_root_iff : ofText rooting text = root ↔ text = "$" ∨ text = "$." := by
  rw [ofText_of_eq_append htext, ofTail_eq_root_iff, htext, ← String.toList_inj,
    ← String.toList_inj]
  simp

theorem ofText_eq_search_iff {field : String} :
    ofText rooting text = search field ↔ text = "$.." ++ field := by
  rw [ofText_of_eq_append htext, ofTail_eq_search_iff, htext, ← String.toList_inj]
  simp

theorem ofText_eq_navigate (hroot : text ≠ "$" ∧ text ≠ "$.")
    (hsearch : ∀ field, text ≠ "$.." ++ field) (rooting : Rooting) :
    ∃ rest, (text = "$." ++ rest ∨ text = "$" ++ rest ∧ ¬ ∃ more, rest = "." ++ more) ∧
      ofText rooting text = navigate (Path.ofText rest) := by
  have hplan : ofText rooting text = navigate ⟨scan (dropDot tail.toList)⟩ := by
    rw [ofText_of_eq_append htext]
    rcases ofTail_cases tail.toList with h | ⟨field, h⟩ | h
    · rw [← ofText_of_eq_append htext rooting, ofText_eq_root_iff htext] at h
      exact absurd h (not_or.mpr hroot)
    · rw [← ofText_of_eq_append htext rooting, ofText_eq_search_iff htext] at h
      exact absurd h (hsearch field)
    · exact h
  by_cases hdot : ∃ more, tail = "." ++ more
  · obtain ⟨rest, rfl⟩ := hdot
    refine ⟨rest, Or.inl (by rw [htext, ← String.append_assoc]; rfl), ?_⟩
    simpa [Path.ofText] using hplan
  · refine ⟨tail, Or.inr ⟨htext, hdot⟩, ?_⟩
    have hne : tail.toList.head? ≠ some '.' := by
      intro hhead
      obtain ⟨more, hmore⟩ := List.head?_eq_some_iff.mp hhead
      exact hdot ⟨String.ofList more, String.toList_inj.mp (by simp [hmore])⟩
    rwa [dropDot_of_ne hne] at hplan

end RootSign

section NoRootSign

variable (hne : text ≠ "") (hsign : ¬ HasRootSign text)

include hne hsign

theorem ofText_implied_eq_search_iff {field : String} :
    ofText .implied text = search field ↔ text = "." ++ field := by
  rw [ofText_implied hne hsign, ofTail_eq_search_iff, ← String.toList_inj]
  simp

theorem ofText_implied_ne_root : ofText .implied text ≠ root := by
  rw [ofText_implied hne hsign, Ne, ofTail_eq_root_iff]
  simp [hne]

theorem ofText_implied_eq_navigate (hsearch : ∀ field, text ≠ "." ++ field) :
    ofText .implied text = navigate (Path.ofText text) := by
  rcases ofTail_cases ('.' :: text.toList) with h | ⟨field, h⟩ | h
  · rw [← ofText_implied hne hsign] at h
    exact absurd h (ofText_implied_ne_root hne hsign)
  · rw [← ofText_implied hne hsign, ofText_implied_eq_search_iff hne hsign] at h
    exact absurd h (hsearch field)
  · rw [ofText_implied hne hsign, h]
    rfl

end NoRootSign

theorem length_pos_of_navigate {path : Path} (h : ofText rooting text = navigate path) :
    0 < path.length := by
  obtain ⟨c, rest, hc, rfl, -⟩ := exists_rest_of_navigate h
  exact List.length_pos_iff.mpr (scan_ne_nil hc rest)

/-- Where the root sign has to be written and a plan comes out, the plan is the same with an
implied root. -/
theorem ofText_implied_eq_written (h : ofText .written text ≠ unrooted) :
    ofText .implied text = ofText .written text := by
  obtain ⟨tail, htail⟩ := exists_tail h
  rw [ofText_of_root_sign htail, ofText_of_root_sign htail]

/-- The plan of every path text. There is none for the empty text, nor for one without the root
sign if the sign has to be written. Behind the sign nothing or one dot is the root, two dots
begin a search for all that follows, and everything else is walked without the sign and one dot
behind it. A text without the sign is never the root: with an implied root a dot begins a
search, and everything else is walked as it is. A walk always has a step to make. So what is
found with the sign written is found with it implied. -/
theorem ofText_classified (rooting : Rooting) (text : String) :
    (ofText rooting text = unrooted ↔ text = "" ∨ ¬ HasRootSign text ∧ rooting = .written) ∧
    (HasRootSign text →
      (∀ other, ofText other text = ofText rooting text) ∧
      (ofText rooting text = root ↔ text = "$" ∨ text = "$.") ∧
      (∀ field, ofText rooting text = search field ↔ text = "$.." ++ field) ∧
      (text ≠ "$" ∧ text ≠ "$." → (∀ field, text ≠ "$.." ++ field) →
        ∃ rest, (text = "$." ++ rest ∨ text = "$" ++ rest ∧ ¬ ∃ more, rest = "." ++ more) ∧
          ofText rooting text = navigate (Path.ofText rest))) ∧
    (text ≠ "" → ¬ HasRootSign text →
      (∀ field, ofText .implied text = search field ↔ text = "." ++ field) ∧
      ((∀ field, text ≠ "." ++ field) →
        ofText .implied text = navigate (Path.ofText text)) ∧
      ofText .implied text ≠ root) ∧
    (∀ path, ofText rooting text = navigate path → 1 ≤ path.length) ∧
    ∀ document value : Json, document.evaluate .written text = some value →
      document.evaluate .implied text = some value := by
  refine ⟨ofText_eq_unrooted_iff, ?_, ?_, fun path => length_pos_of_navigate, ?_⟩
  · rintro ⟨tail, htext⟩
    refine ⟨fun other => ?_, ofText_eq_root_iff htext, fun field => ofText_eq_search_iff htext,
      fun hroot hsearch => ofText_eq_navigate htext hroot hsearch rooting⟩
    rw [ofText_of_eq_append htext, ofText_of_eq_append htext]
  · intro hne hsign
    exact ⟨fun field => ofText_implied_eq_search_iff hne hsign,
      ofText_implied_eq_navigate hne hsign, ofText_implied_ne_root hne hsign⟩
  · intro document value h
    have hplan : ofText .written text ≠ unrooted := by
      intro hunrooted
      rw [Json.evaluate, hunrooted] at h
      contradiction
    rw [Json.evaluate, ofText_implied_eq_written hplan]
    exact h

/-- Three dots search a name with a dot, a lone dot searches the empty name if the root is
implied, and an open bracket is walked. -/
theorem ofText_classified_dots :
    (HasRootSign "$...x" ∧ ofText .written "$...x" = search ".x") ∧
    (¬ HasRootSign "." ∧ ofText .implied "." = search "" ∧ ofText .written "." = unrooted) ∧
    ¬ HasRootSign "[0" ∧ ofText .implied "[0" = navigate (Path.ofText "[0") := by
  have hthree : HasRootSign "$...x" := ⟨"...x", rfl⟩
  have hlone : ¬ HasRootSign "." := by
    rw [hasRootSign_iff]
    simp
  have hopen : ¬ HasRootSign "[0" := by
    rw [hasRootSign_iff]
    simp
  refine ⟨⟨hthree, ?_⟩, ⟨hlone, ?_, ?_⟩, hopen, ?_⟩
  · obtain ⟨-, -, hsearch, -⟩ := (ofText_classified .written "$...x").2.1 hthree
    exact (hsearch ".x").mpr rfl
  · obtain ⟨hsearch, -⟩ := (ofText_classified .implied ".").2.2.1 (by decide) hlone
    exact (hsearch "").mpr rfl
  · exact (ofText_classified .written ".").1.mpr (Or.inr ⟨hlone, rfl⟩)
  · obtain ⟨-, hwalk, -⟩ := (ofText_classified .implied "[0").2.2.1 (by decide) hopen
    refine hwalk fun field h => ?_
    have hchars := congrArg String.toList h
    simp at hchars

end DocumentQuery.Plan

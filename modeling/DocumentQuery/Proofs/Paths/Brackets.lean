import DocumentQuery.Paths.Segment
import DocumentQuery.Proofs.Numeral.Words
import Mathlib.Logic.Basic

/-!
# What a bracket stands for

The content of a bracket names a step if it is the star or a number that fits in a
machine word; any other content is malformed. The digits written for an index are read
back as this index.
-/

namespace DocumentQuery.Segment

def decimalValue (content : String) : Nat := Nat.ofDigitChars 10 content.toList 0

/-- A number without sign or blanks, with any number of leading zeros, of at most 64 bits. -/
def IsIndex (content : String) : Prop :=
  content ≠ "" ∧ (∀ c ∈ content.toList, c.isDigit = true) ∧
    decimalValue content ≤ 18446744073709551615

/-- The content of a bracket that leads into an array. -/
def NamesStep (content : String) : Prop := content = "*" ∨ IsIndex content

theorem not_isIndex_star : ¬ IsIndex "*" := by
  intro h
  have hc := h.2.1 '*' (by simp)
  contradiction

theorem ofBracket_star : ofBracket "*" = wildcard := by simp [ofBracket]

theorem ofBracket_of_isIndex {content : String} (h : IsIndex content) :
    ∃ position : UInt64, ofBracket content = index position ∧
      position.toNat = decimalValue content := by
  have hstar : content ≠ "*" := by
    rintro rfl
    exact not_isIndex_star h
  have hfits : decimalValue content < UInt64.size := Nat.lt_succ_of_le h.2.2
  have hread : Numeral.wordOfDigits? content.toList =
      some (UInt64.ofNatLT (decimalValue content) hfits) :=
    Numeral.wordOfDigits?_eq_some_iff.mpr UInt64.toNat_ofNatLT
  refine ⟨UInt64.ofNatLT (decimalValue content) hfits, ?_, UInt64.toNat_ofNatLT⟩
  unfold ofBracket
  rw [if_neg hstar, if_pos ⟨h.1, List.all_eq_true.mpr h.2.1⟩, hread]

theorem ofBracket_of_not_namesStep {content : String} (h : ¬ NamesStep content) :
    ofBracket content = malformed content := by
  unfold ofBracket
  rw [if_neg fun hstar => h (Or.inl hstar)]
  split
  · next hdigits =>
    have hlarge : Numeral.wordOfDigits? content.toList = none := by
      refine Numeral.wordOfDigits?_eq_none_iff.mpr (Nat.le_of_not_lt fun hlt => ?_)
      exact h (Or.inr ⟨hdigits.1, List.all_eq_true.mp hdigits.2, Nat.le_of_lt_succ hlt⟩)
    rw [hlarge]
  · rfl

theorem ofBracket_cases (content : String) :
    (content = "*" ∧ ofBracket content = wildcard) ∨
    (∃ position : UInt64, IsIndex content ∧ ofBracket content = index position ∧
      position.toNat = decimalValue content) ∨
    (¬ NamesStep content ∧ ofBracket content = malformed content) := by
  by_cases hnames : NamesStep content
  · rcases hnames with rfl | hindex
    · exact Or.inl ⟨rfl, ofBracket_star⟩
    · obtain ⟨position, hposition, hvalue⟩ := ofBracket_of_isIndex hindex
      exact Or.inr (Or.inl ⟨position, hindex, hposition, hvalue⟩)
  · exact Or.inr (Or.inr ⟨hnames, ofBracket_of_not_namesStep hnames⟩)

theorem ofBracket_eq_wildcard_iff {content : String} :
    ofBracket content = wildcard ↔ content = "*" := by
  rcases ofBracket_cases content with ⟨rfl, h⟩ | ⟨position, hindex, h, -⟩ | ⟨hother, h⟩
  · simp [h]
  · rw [h]
    refine iff_of_false (by simp) ?_
    rintro rfl
    exact not_isIndex_star hindex
  · rw [h]
    exact iff_of_false (by simp) fun hstar => hother (Or.inl hstar)

theorem ofBracket_eq_index_iff {content : String} {position : UInt64} :
    ofBracket content = index position ↔
      IsIndex content ∧ decimalValue content = position.toNat := by
  rcases ofBracket_cases content with ⟨rfl, h⟩ | ⟨read, hindex, h, hvalue⟩ | ⟨hother, h⟩
  · rw [h]
    exact iff_of_false (by simp) fun hstar => not_isIndex_star hstar.1
  · rw [h, ← hvalue, UInt64.toNat_inj, index.injEq]
    simp [hindex]
  · rw [h]
    exact iff_of_false (by simp) fun hindex => hother (Or.inr hindex.1)

theorem ofBracket_eq_malformed_iff {content : String} :
    ofBracket content = malformed content ↔ ¬ NamesStep content := by
  refine ⟨?_, ofBracket_of_not_namesStep⟩
  rintro h (hstar | hindex)
  · rw [ofBracket_eq_wildcard_iff.mpr hstar] at h
    contradiction
  · obtain ⟨position, hposition, -⟩ := ofBracket_of_isIndex hindex
    simp [hposition] at h

theorem eq_of_ofBracket_eq_malformed {content raw : String}
    (h : ofBracket content = malformed raw) : raw = content := by
  rcases ofBracket_cases content with ⟨-, hread⟩ | ⟨position, -, hread, -⟩ | ⟨-, hread⟩
  · simp [hread] at h
  · simp [hread] at h
  · exact (malformed.inj (hread.symm.trans h)).symm

theorem ofBracket_ne_field {content name : String} : ofBracket content ≠ field name := by
  rcases ofBracket_cases content with ⟨-, hread⟩ | ⟨position, -, hread, -⟩ | ⟨-, hread⟩
  · simp [hread]
  · simp [hread]
  · simp [hread]

theorem ofBracket_of_mem {content : String} {c : Char} (hc : c ∈ content.toList)
    (hstar : c ≠ '*') (hdigit : c.isDigit = false) : ofBracket content = malformed content := by
  apply ofBracket_of_not_namesStep
  rintro (rfl | hindex)
  · exact hstar (by simpa using hc)
  · rw [hindex.2.1 c hc] at hdigit
    contradiction

theorem isIndex_repr (position : UInt64) : IsIndex position.toNat.repr := by
  refine ⟨?_, ?_, ?_⟩
  · simp [← String.toList_eq_nil_iff, Nat.toList_repr]
  · intro c hc
    rw [Nat.toList_repr] at hc
    exact Nat.isDigit_of_mem_toDigits (by decide) (by decide) hc
  · rw [decimalValue, Nat.toList_repr, Nat.ofDigitChars_ten_toDigits]
    exact Nat.le_of_lt_succ position.toNat_lt

theorem ofBracket_repr (position : UInt64) : ofBracket position.toNat.repr = index position := by
  obtain ⟨read, hread, hvalue⟩ := ofBracket_of_isIndex (isIndex_repr position)
  rw [decimalValue, Nat.toList_repr, Nat.ofDigitChars_ten_toDigits] at hvalue
  rw [hread, UInt64.toNat_inj.mp hvalue]

/-- The content of a bracket is the star, the decimal numeral of a word of 64 bits, or neither,
and then it is kept. Zeros in front may be as many as they are, and the greatest word is the
greatest index. The digits written for an index are read back as this index. -/
theorem ofBracket_exact :
    (∀ content : String,
      decimalValue content = Nat.ofDigits 10 (content.toList.reverse.map Numeral.digitValue) ∧
      (ofBracket content = wildcard ↔ content = "*") ∧
      (∀ n, (∃ position : UInt64, ofBracket content = index position ∧ position.toNat = n) ↔
        content ≠ "" ∧ (∀ c ∈ content.toList, c.isDigit = true) ∧ decimalValue content = n ∧
          n ≤ 18446744073709551615) ∧
      ∀ raw, ofBracket content = malformed raw ↔
        raw = content ∧ content ≠ "*" ∧
          ¬ (content ≠ "" ∧ (∀ c ∈ content.toList, c.isDigit = true) ∧
            decimalValue content ≤ 18446744073709551615)) ∧
    ∀ position : UInt64, ∃ digits : String,
      (index position).text = "[" ++ digits ++ "]" ∧ ofBracket digits = index position := by
  constructor
  · intro content
    refine ⟨Numeral.ofDigitChars_eq_ofDigits _, ofBracket_eq_wildcard_iff, fun n => ?_,
      fun raw => ?_⟩
    · constructor
      · rintro ⟨position, hindex, rfl⟩
        obtain ⟨⟨hne, hdigits, hfits⟩, hvalue⟩ := ofBracket_eq_index_iff.mp hindex
        exact ⟨hne, hdigits, hvalue, hvalue ▸ hfits⟩
      · rintro ⟨hne, hdigits, rfl, hfits⟩
        exact ofBracket_of_isIndex ⟨hne, hdigits, hfits⟩
    · constructor
      · intro h
        obtain rfl := eq_of_ofBracket_eq_malformed h
        exact ⟨rfl, not_or.mp (ofBracket_eq_malformed_iff.mp h)⟩
      · rintro ⟨rfl, hother⟩
        exact ofBracket_of_not_namesStep (not_or.mpr hother)
  · intro position
    exact ⟨position.toNat.repr, rfl, ofBracket_repr position⟩

/-- The greatest word with zeros in front is an index; the next number is none. -/
theorem ofBracket_exact_greatestWord :
    (∃ position : UInt64, ofBracket "0018446744073709551615" = index position ∧
      position.toNat = 18446744073709551615) ∧
    ofBracket "18446744073709551616" = malformed "18446744073709551616" := by
  constructor
  · obtain ⟨-, -, hindex, -⟩ := ofBracket_exact.1 "0018446744073709551615"
    have hdigits : ("0018446744073709551615".toList.all fun c => c.isDigit) = true := rfl
    have hvalue : decimalValue "0018446744073709551615" = 18446744073709551615 := rfl
    exact (hindex _).mpr ⟨by decide, List.all_eq_true.mp hdigits, hvalue, Nat.le_refl _⟩
  · obtain ⟨-, -, -, hmalformed⟩ := ofBracket_exact.1 "18446744073709551616"
    have hvalue : decimalValue "18446744073709551616" = 18446744073709551616 := rfl
    refine (hmalformed _).mpr ⟨rfl, by decide, fun h => ?_⟩
    rw [hvalue] at h
    exact absurd h.2.2 (by decide)

end DocumentQuery.Segment

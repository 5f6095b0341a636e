import DocumentQuery.Json.Text
import DocumentQuery.Json.Token
import DocumentQuery.Proofs.Numeral.Words

/-!
# Written lexemes are read back

The written form of a string, of an integer or of a keyword is cut from a text as one
lexeme, and it stands for what was written.
-/

namespace DocumentQuery
namespace Json

/-- The text starts with a lexeme, behind which the rest stands. -/
def StartsWith (text : List Char) (lexeme : Lexeme) (rest : List Char) : Prop :=
  ∃ c behind, text = c :: behind ∧ isBlank c = false ∧ rest.length ≤ behind.length ∧
    ∀ bound, behind.length ≤ bound → Json.lexeme bound c behind = (lexeme, rest)

theorem hexDigit?_digitChar {n : Nat} (h : n < 16) : hexDigit? (Nat.digitChar n) = some n := by
  revert n
  decide

theorem four_le_byteLength (a b c d : Char) : 4 ≤ byteLength [a, b, c, d] := by
  have ha := a.utf8Size_pos
  have hb := b.utf8Size_pos
  have hc := c.utf8Size_pos
  have hd := d.utf8Size_pos
  simp only [byteLength, List.foldr_cons, List.foldr_nil]
  omega

theorem fourHexDigits_of_two {n : Nat} (h : n < 256) (text : List Char) :
    fourHexDigits ('0' :: '0' :: Nat.digitChar (n / 16) :: Nat.digitChar (n % 16) :: text) =
      .ok (n, text) := by
  have hzero : hexDigit? '0' = some 0 := by decide
  have hhigh := hexDigit?_digitChar (n := n / 16) (by omega)
  have hlow := hexDigit?_digitChar (n := n % 16) (by omega)
  have hbytes := four_le_byteLength '0' '0' (Nat.digitChar (n / 16)) (Nat.digitChar (n % 16))
  have hvalue : ((0 * 16 + 0) * 16 + n / 16) * 16 + n % 16 = n := by omega
  unfold fourHexDigits
  rw [if_neg (by simpa using hbytes)]
  simp only [hzero, hhigh, hlow, hvalue]

theorem escape_control {c : Char} (h : c < ' ') (text : List Char) :
    escape ('u' :: '0' :: '0' :: Nat.digitChar (c.toNat / 16) :: Nat.digitChar (c.toNat % 16) ::
      text) = .ok (c, text) := by
  have hsmall : c.toNat < 32 := Char.lt_def.mp h
  rw [escape, fourHexDigits_of_two (by omega)]
  simp only [bind, Except.bind]
  rw [if_neg (by omega), if_neg (by omega), Char.ofNat_toNat]

/-- A character is read back from its written form, in one round. -/
theorem stringRest_quotedChar (fuel : Nat) (done text : List Char) (c : Char) :
    stringRest (fuel + 1) done (quotedChar c ++ text) = stringRest fuel (c :: done) text := by
  unfold quotedChar
  split
  · rfl
  · rfl
  · rfl
  · rfl
  · rfl
  · rfl
  · rfl
  · next hquote hbackslash _ _ _ _ _ =>
    split
    · next hcontrol =>
      simp only [List.cons_append, List.nil_append, stringRest, escape_control hcontrol]
      rfl
    · next hcontrol =>
      rw [List.singleton_append, stringRest, if_neg hcontrol]
      · exact hquote
      · exact hbackslash

/-- A string is read back up to its closing quote, one round for each character. -/
theorem stringRest_quoted {fuel : Nat} (s done rest : List Char) (h : s.length < fuel) :
    stringRest fuel done (s.flatMap quotedChar ++ '"' :: rest) =
      .ok (String.ofList (done.reverse ++ s), rest) := by
  induction s generalizing fuel done with
  | nil =>
    obtain ⟨fuel, rfl⟩ := Nat.exists_eq_add_of_lt h
    simp [stringRest]
  | cons c s ih =>
    cases fuel with
    | zero => simp at h
    | succ fuel =>
      rw [List.flatMap_cons, List.append_assoc, stringRest_quotedChar,
        ih (c :: done) (Nat.lt_of_succ_lt_succ h), List.reverse_cons, List.append_assoc,
        List.singleton_append]

theorem length_le_length_flatMap_quotedChar (s : List Char) :
    s.length ≤ (s.flatMap quotedChar).length := by
  induction s with
  | nil => exact Nat.le_refl 0
  | cons c s ih =>
    have hpos : 0 < (quotedChar c).length := by
      unfold quotedChar
      split <;> try exact Nat.succ_pos _
      split <;> exact Nat.succ_pos _
    rw [List.flatMap_cons, List.length_append, List.length_cons]
    omega

theorem startsWith_quoted (s : String) (rest : List Char) :
    StartsWith (quoted s ++ rest) (.string (.ok s)) rest := by
  refine ⟨'"', s.toList.flatMap quotedChar ++ '"' :: rest, by simp [quoted], rfl, ?_, ?_⟩
  · simp only [List.length_append, List.length_cons]
    omega
  · intro bound hbound
    have hround := length_le_length_flatMap_quotedChar s.toList
    rw [List.length_append] at hbound
    simp only [lexeme]
    rw [stringRest_quoted s.toList [] rest (by omega)]
    simp

def EndsNumber (rest : List Char) : Prop :=
  ∀ c, rest.head? = some c → c.isDigit = false ∧ c ≠ '.' ∧ c ≠ 'e' ∧ c ≠ 'E'

theorem addWhole_eq (digits : List Char) (n : Nat)
    (h : Nat.ofDigitChars 10 digits n < UInt64.size) :
    Significand.addWhole ⟨n, 0⟩ digits = ⟨Nat.ofDigitChars 10 digits n, 0⟩ := by
  induction digits generalizing n with
  | nil => rfl
  | cons d digits ih =>
    rw [Nat.ofDigitChars_cons] at h ⊢
    have hroom : Significand.hasRoom ⟨n, 0⟩ d = true := by
      have hle := Numeral.le_ofDigitChars digits (10 * n + (d.toNat - '0'.toNat))
      simp only [Significand.hasRoom, decide_eq_true_eq]
      omega
    rw [Significand.addWhole, if_pos hroom, Significand.push, Nat.mul_comm n 10, ih _ h]

theorem head?_toDigits_ne_zero {n : Nat} (h : 0 < n) :
    (Nat.toDigits 10 n).head? ≠ some '0' := by
  induction n using Nat.strongRecOn with
  | ind n ih =>
    by_cases hsmall : n < 10
    · have hdigit : ∀ m < 10, 0 < m → Nat.digitChar m ≠ '0' := by decide
      rw [Nat.toDigits_of_lt_base hsmall, List.head?_cons]
      intro hzero
      exact hdigit n hsmall h (Option.some.inj hzero)
    · have hrest := ih (n / 10) (by omega) (by omega)
      obtain ⟨d, digits, hdigits⟩ :=
        List.exists_cons_of_ne_nil (Nat.toDigits_ne_nil (n := n / 10) (b := 10))
      rw [hdigits] at hrest
      rw [Nat.toDigits_of_base_le (by decide) (by omega), hdigits]
      exact hrest

theorem takeWhile_digits {digits rest : List Char} (h : ∀ c ∈ digits, c.isDigit = true)
    (hrest : EndsNumber rest) : (digits ++ rest).takeWhile Char.isDigit = digits ∧
      (digits ++ rest).dropWhile Char.isDigit = rest := by
  rw [List.takeWhile_append_of_pos h, List.dropWhile_append_of_pos h]
  cases rest with
  | nil => simp
  | cons c rest => simp [(hrest c rfl).1]

theorem unsignedNumber_cons {c : Char} {digits rest : List Char} (negative : Bool)
    (hdigits : ∀ d ∈ c :: digits, d.isDigit = true) (hzero : c = '0' → digits = [])
    (hrest : EndsNumber rest) :
    unsignedNumber negative (c :: digits ++ rest) =
      wholeNumber negative (Significand.addWhole ⟨0, 0⟩ (c :: digits)) rest := by
  have hc : c.isDigit = true := hdigits c List.mem_cons_self
  obtain ⟨htake, hdrop⟩ := takeWhile_digits hdigits hrest
  have hwhole : (if c = '0' then [c] else (c :: digits ++ rest).takeWhile Char.isDigit) =
      c :: digits := by
    split
    · next hc => rw [hzero hc]
    · exact htake
  have hbehind :
      (if c = '0' then digits ++ rest else (c :: digits ++ rest).dropWhile Char.isDigit) = rest := by
    split
    · next hc => rw [hzero hc, List.nil_append]
    · exact hdrop
  rw [List.cons_append] at hwhole hbehind ⊢
  unfold unsignedNumber
  simp only [hc, not_true_eq_false, if_false]
  rw [hwhole, hbehind]
  cases rest with
  | nil => rfl
  | cons next rest =>
    obtain ⟨hdigit, hpoint, he, hE⟩ := hrest next rfl
    split
    · next heq => exact absurd (List.cons.inj heq).1 hpoint
    · next heq => exact absurd (List.cons.inj heq).1 he
    · next heq => exact absurd (List.cons.inj heq).1 hE
    · next heq =>
      obtain ⟨rfl, rfl⟩ := List.cons.inj heq
      rw [hdigit, if_neg Bool.false_ne_true]
    · contradiction

theorem unsignedNumber_toDigits {n : Nat} (h : n < UInt64.size) (negative : Bool)
    {rest : List Char} (hrest : EndsNumber rest) :
    unsignedNumber negative (Nat.toDigits 10 n ++ rest) = wholeNumber negative ⟨n, 0⟩ rest := by
  have hvalue : Nat.ofDigitChars 10 (Nat.toDigits 10 n) 0 = n := Nat.ofDigitChars_ten_toDigits
  have hall : ∀ d ∈ Nat.toDigits 10 n, d.isDigit = true := by
    intro d hd
    exact Nat.isDigit_of_mem_toDigits (by decide) (by decide) hd
  obtain ⟨c, digits, hdigits⟩ :=
    List.exists_cons_of_ne_nil (Nat.toDigits_ne_nil (n := n) (b := 10))
  have hzero : c = '0' → digits = [] := by
    rintro rfl
    rcases Nat.eq_zero_or_pos n with rfl | hpos
    · exact (List.cons.inj hdigits).2.symm
    · exact absurd (by rw [hdigits, List.head?_cons]) (head?_toDigits_ne_zero hpos)
  rw [hdigits] at hall hvalue ⊢
  rw [unsignedNumber_cons negative hall hzero hrest, addWhole_eq _ _ (by rw [hvalue]; exact h),
    hvalue]

/-- A word with a sign is an integer. Only minus zero is not, which is never written. -/
theorem wholeNumber_eq {n : WordInt} {negative : Bool} {m : Nat}
    (hvalue : n.val = if negative then -(m : Int) else m) (hzero : ¬(negative = true ∧ m = 0))
    (rest : List Char) : wholeNumber negative ⟨m, 0⟩ rest = .ok (.integer n, rest) := by
  have hword : WordInt.ofInt? n.val = some n := dif_pos n.fits
  simp only [wholeNumber]
  rw [← hvalue, hword]
  exact if_pos ⟨trivial, hzero⟩

theorem lexeme_of_scalar? {c : Char} {behind rest : List Char} {value : Json}
    (h : scalar? c behind = some (.ok (value, rest))) (bound : Nat) :
    lexeme bound c behind = (.scalar (.ok value), rest) := by
  unfold lexeme
  split
  case h_8 => rw [h]
  -- the marks and the quote start no scalar
  all_goals simp [scalar?] at h

theorem scalar?_of_isDigit {c : Char} (h : c.isDigit = true) (behind : List Char) :
    scalar? c behind =
      some ((unsignedNumber false (c :: behind)).map fun (n, rest) => (number n, rest)) := by
  unfold scalar?
  split
  · contradiction
  · contradiction
  · contradiction
  · contradiction
  · rw [if_pos h]

theorem startsWith_of_scalar? {c : Char} {behind rest : List Char} {value : Json}
    (h : scalar? c behind = some (.ok (value, rest))) (hlength : rest.length ≤ behind.length) :
    StartsWith (c :: behind) (.scalar (.ok value)) rest := by
  have hblank : isBlank c = false := by
    rw [Bool.eq_false_iff]
    intro hblank
    simp only [isBlank, Bool.or_eq_true, decide_eq_true_eq] at hblank
    rcases hblank with ((rfl | rfl) | rfl) | rfl <;> simp [scalar?] at h
  exact ⟨c, behind, rfl, hblank, hlength, fun bound _ => lexeme_of_scalar? h bound⟩

theorem startsWith_integer (n : WordInt) {rest : List Char} (hrest : EndsNumber rest) :
    StartsWith ((numberText (.integer n)).toList ++ rest) (.scalar (.ok (number (.integer n))))
      rest := by
  have hfits := n.fits
  by_cases hsign : 0 ≤ n.val
  · have htext : (numberText (.integer n)).toList = Nat.toDigits 10 n.val.toNat := by
      rw [numberText, Int.repr_eq_if, if_pos hsign, Nat.toList_repr]
    have hsize : n.val.toNat < UInt64.size := by
      simp only [UInt64.size]
      omega
    obtain ⟨c, digits, hdigits⟩ :=
      List.exists_cons_of_ne_nil (Nat.toDigits_ne_nil (n := n.val.toNat) (b := 10))
    have hc : c.isDigit = true := by
      refine Nat.isDigit_of_mem_toDigits (b := 10) (n := n.val.toNat) (by decide) (by decide) ?_
      rw [hdigits]
      exact List.mem_cons_self
    have hread := unsignedNumber_toDigits hsize false hrest
    rw [hdigits, List.cons_append,
      wholeNumber_eq (n := n) (by simp [Int.toNat_of_nonneg hsign]) (by simp)] at hread
    rw [htext, hdigits, List.cons_append]
    apply startsWith_of_scalar?
    · rw [scalar?_of_isDigit hc, hread]
      rfl
    · simp
  · have htext : (numberText (.integer n)).toList = '-' :: Nat.toDigits 10 (-n.val).toNat := by
      rw [numberText, Int.repr_eq_if, if_neg hsign, String.toList_append, Nat.toList_repr]
      rfl
    have hsize : (-n.val).toNat < UInt64.size := by
      simp only [UInt64.size]
      omega
    have hvalue : n.val = -((-n.val).toNat : Int) := by omega
    have hread := unsignedNumber_toDigits hsize true hrest
    rw [wholeNumber_eq (n := n) (by simpa using hvalue) (by omega)] at hread
    rw [htext, List.cons_append]
    apply startsWith_of_scalar?
    · simp only [scalar?, hread]
      rfl
    · simp

theorem keywordRest_self (value : Json) (letters rest : List Char) :
    keywordRest value letters (letters ++ rest) = .ok (value, rest) := by
  induction letters with
  | nil => simp [keywordRest]
  | cons letter letters ih => simp [keywordRest, ih]

theorem startsWith_keyword {c : Char} (letters : List Char) {rest : List Char} {value : Json}
    (h : scalar? c (letters ++ rest) = some (keywordRest value letters (letters ++ rest))) :
    StartsWith (c :: (letters ++ rest)) (.scalar (.ok value)) rest := by
  rw [keywordRest_self] at h
  exact startsWith_of_scalar? h (by simp)

theorem startsWith_null (rest : List Char) :
    StartsWith (null.compactChars ++ rest) (.scalar (.ok null)) rest :=
  startsWith_keyword "ull".toList rfl

theorem startsWith_bool (b : Bool) (rest : List Char) :
    StartsWith ((bool b).compactChars ++ rest) (.scalar (.ok (bool b))) rest := by
  cases b with
  | true => exact startsWith_keyword "rue".toList rfl
  | false => exact startsWith_keyword "alse".toList rfl

end Json
end DocumentQuery

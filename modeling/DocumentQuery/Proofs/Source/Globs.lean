import DocumentQuery.Proofs.Source.Resolution
import DocumentQuery.Proofs.Text.Expressions
import DocumentQuery.Source.Glob
import Mathlib.Data.List.Forall2

/-!
# What globs describe

A glob describes a text if the text falls into parts, one for each character of the glob, of
which each is what that character takes. Every glob makes an expression, character by
character, since each sign of the language of expressions is escaped; the anchors around it
leave it no other place than the whole text.
-/

namespace DocumentQuery

namespace Glob

open Expression

inductive Takes : Char → List Char → Prop
  | run {part : List Char} (h : '\n' ∉ part) : Takes '*' part
  | place {c : Char} (h : c ≠ '\n') : Takes '?' [c]
  | itself {c : Char} (hrun : c ≠ '*') (hplace : c ≠ '?') : Takes c [c]

/-- The text falls into parts, one for each character of the glob. -/
def Describes (pattern text : String) : Prop :=
  ∃ parts, List.Forall₂ Takes pattern.toList parts ∧ text.toList = parts.flatten

def isWildcard (c : Char) : Bool := c = '*' || c = '?'

def itemOf (c : Char) : Item :=
  if c = '*' then .many .dot else if c = '?' then .one .dot else .one (.character c)

theorem foldlM_add_translate (c : Char) (items : List Item) :
    (translate c).foldlM Draft.add ⟨items, false⟩ = some ⟨itemOf c :: items, false⟩ := by
  unfold translate itemOf
  by_cases hrun : c = '*'
  · rw [if_pos hrun, if_pos hrun]
    rfl
  · by_cases hplace : c = '?'
    · rw [if_neg hrun, if_pos hplace, if_neg hrun, if_pos hplace]
      rfl
    · rw [if_neg hrun, if_neg hplace, if_neg hrun, if_neg hplace]
      exact foldlM_add_escape c items

theorem foldlM_add_flatMap_translate (pattern : List Char) (items : List Item) :
    (pattern.flatMap translate).foldlM Draft.add ⟨items, false⟩ =
      some ⟨(pattern.map itemOf).reverse ++ items, false⟩ := by
  induction pattern generalizing items with
  | nil => rfl
  | cons c pattern ih =>
    rw [List.flatMap_cons, List.foldlM_append, foldlM_add_translate]
    change (pattern.flatMap translate).foldlM Draft.add _ = _
    rw [ih, List.map_cons, List.reverse_cons, List.append_assoc, List.singleton_append]

def expressionOf (pattern : String) : Expression :=
  ⟨.start :: (pattern.toList.map itemOf ++ [.stop])⟩

theorem ofText?_expressionText (pattern : String) :
    Expression.ofText? (expressionText pattern) = some (expressionOf pattern) := by
  have hread : (expressionText pattern).toList.foldlM Draft.add {} =
      some ⟨.stop :: ((pattern.toList.map itemOf).reverse ++ [.start]), false⟩ := by
    rw [expressionText, String.toList_ofList, List.cons_append, List.foldlM_cons]
    change List.foldlM Draft.add ⟨[.start], false⟩ _ = _
    rw [List.foldlM_append, foldlM_add_flatMap_translate]
    rfl
  rw [Expression.ofText?, hread]
  change some (Expression.mk (List.reverse _)) = _
  rw [expressionOf, List.reverse_cons, List.reverse_append, List.reverse_reverse, List.reverse_singleton,
    List.cons_append, List.nil_append, List.cons_append]

theorem hasDot_itemOf (c : Char) : (itemOf c).hasDot = isWildcard c := by
  unfold itemOf isWildcard
  by_cases hrun : c = '*'
  · simp [hrun, Item.hasDot]
  · by_cases hplace : c = '?'
    · simp [hplace, Item.hasDot]
    · simp [hrun, hplace, Item.hasDot]

theorem isSmall_expressionOf_iff {pattern : String} :
    (expressionOf pattern).isSmall = true ↔ pattern.toList.countP isWildcard < maxDots := by
  have hcomp : Item.hasDot ∘ itemOf = isWildcard := funext hasDot_itemOf
  rw [isSmall, expressionOf, List.countP_cons_of_neg (by simp [Item.hasDot]), List.countP_append,
    List.countP_map, hcomp, List.countP_singleton]
  simp [Item.hasDot]

variable {compiles : Expression → Bool} {pattern : String} {glob : Glob}

theorem ofText_eq_ok_iff : ofText compiles pattern = .ok glob ↔
    compiles (expressionOf pattern) = true ∧ glob = ⟨expressionOf pattern⟩ := by
  rw [ofText, ofText?_expressionText]
  dsimp only
  by_cases hcompiles : compiles (expressionOf pattern) = true
  · rw [if_pos hcompiles, Except.ok.injEq]
    simp [hcompiles, eq_comm]
  · rw [if_neg hcompiles]
    simp [hcompiles]

theorem takes_run_iff {part : List Char} :
    Takes '*' part ↔ ∀ c ∈ part, Atom.dot.takes c = true := by
  constructor
  · intro h c hc
    cases h with
    | run hbreak => exact decide_eq_true (ne_of_mem_of_not_mem hc hbreak)
    | itself hrun => contradiction
  · intro h
    exact .run fun hmem => absurd (h '\n' hmem) (by decide)

theorem takes_place_iff {part : List Char} :
    Takes '?' part ↔ ∃ c, part = [c] ∧ Atom.dot.takes c = true := by
  constructor
  · intro h
    cases h with
    | @place c hc => exact ⟨c, rfl, decide_eq_true hc⟩
    | itself _ hplace => contradiction
  · rintro ⟨c, rfl, hc⟩
    exact .place (of_decide_eq_true hc)

theorem takes_itself_iff {c : Char} (hrun : c ≠ '*') (hplace : c ≠ '?') {part : List Char} :
    Takes c part ↔ part = [c] := by
  constructor
  · intro h
    cases h with
    | run => contradiction
    | place => contradiction
    | itself => rfl
  · rintro rfl
    exact .itself hrun hplace

/-- The item that a character becomes takes from a text what the character does. -/
theorem matchFrom_itemOf (c : Char) (items : List Item) (before rest : List Char) :
    MatchFrom (itemOf c :: items) before rest ↔
      ∃ part behind, rest = part ++ behind ∧ Takes c part ∧
        MatchFrom items (before ++ part) behind := by
  unfold itemOf
  by_cases hrun : c = '*'
  · subst hrun
    rw [if_pos rfl]
    simp only [takes_run_iff]
    rfl
  · by_cases hplace : c = '?'
    · subst hplace
      rw [if_neg hrun, if_pos rfl]
      simp only [takes_place_iff]
      constructor
      · rintro ⟨d, behind, rfl, htakes, h⟩
        exact ⟨[d], behind, rfl, ⟨d, rfl, htakes⟩, h⟩
      · rintro ⟨_, behind, rfl, ⟨d, rfl, htakes⟩, h⟩
        exact ⟨d, behind, rfl, htakes, h⟩
    · rw [if_neg hrun, if_neg hplace]
      simp only [takes_itself_iff hrun hplace]
      constructor
      · rintro ⟨d, behind, rfl, htakes, h⟩
        obtain rfl : d = c := of_decide_eq_true htakes
        exact ⟨[d], behind, rfl, rfl, h⟩
      · rintro ⟨_, behind, rfl, rfl, h⟩
        exact ⟨c, behind, rfl, decide_eq_true rfl, h⟩

theorem matchFrom_items (pattern before rest : List Char) :
    MatchFrom (pattern.map itemOf ++ [.stop]) before rest ↔
      ∃ parts, List.Forall₂ Takes pattern parts ∧ rest = parts.flatten := by
  induction pattern generalizing before rest with
  | nil => simp [MatchFrom]
  | cons c pattern ih =>
    rw [List.map_cons, List.cons_append, matchFrom_itemOf]
    simp only [ih, List.forall₂_cons_left_iff]
    constructor
    · rintro ⟨part, behind, rfl, htakes, parts, hparts, rfl⟩
      exact ⟨part :: parts, ⟨part, parts, htakes, hparts, rfl⟩, rfl⟩
    · rintro ⟨_, ⟨part, parts, htakes, hparts, rfl⟩, rfl⟩
      exact ⟨part, parts.flatten, rfl, htakes, parts, hparts, rfl⟩

theorem accepts_iff (h : ofText compiles pattern = .ok glob) (text : String) : glob.accepts text = true ↔ Describes pattern text := by
  obtain ⟨-, rfl⟩ := ofText_eq_ok_iff.mp h
  rw [accepts, isMatch_iff, Describes, expressionOf]
  simp only [← matchFrom_items pattern.toList [] text.toList]
  constructor
  · rintro ⟨front, back, htext, rfl, hmatch⟩
    rwa [htext]
  · intro hmatch
    exact ⟨[], text.toList, rfl, rfl, hmatch⟩

end Glob

namespace Resolver

/-- Patterns whose expressions can be compiled all become globs, and a path is excluded exactly
if its text is described by one of them. -/
theorem isExcluded_iff_describes (resolver : Resolver)
    (hcompiles : ∀ pattern ∈ resolver.exclude,
      resolver.compiles (Glob.expressionOf pattern) = true) :
    ∃ globs, resolver.exclude.mapM (Glob.ofText resolver.compiles) = .ok globs ∧
      ∀ path : FilePath, isExcluded globs path = true ↔
        ∃ pattern ∈ resolver.exclude, Glob.Describes pattern path.text := by
  have hreads : ∀ pattern ∈ resolver.exclude,
      ∃ glob, Glob.ofText resolver.compiles pattern = .ok glob := by
    intro pattern hpattern
    exact ⟨_, Glob.ofText_eq_ok_iff.mpr ⟨hcompiles pattern hpattern, rfl⟩⟩
  obtain ⟨globs, hglobs⟩ := exists_mapM_eq_ok_iff.mpr hreads
  refine ⟨globs, hglobs, fun path => ?_⟩
  rw [isExcluded_iff hglobs, Excludes]
  refine exists_congr fun pattern => and_congr_right fun hpattern => ?_
  obtain ⟨glob, hglob⟩ := hreads pattern hpattern
  rw [← Glob.accepts_iff hglob]
  constructor
  · rintro ⟨other, hother, haccepts⟩
    obtain rfl := Except.ok.inj (hglob.symm.trans hother)
    exact haccepts
  · intro haccepts
    exact ⟨glob, hglob, haccepts⟩

theorem describes_plusAndDot_iff {text : String} :
    Glob.Describes "*+.?" text ↔
      ∃ front c, text.toList = front ++ ['+', '.', c] ∧ '\n' ∉ front ∧ c ≠ '\n' := by
  constructor
  · rintro ⟨parts, hparts, htext⟩
    simp only [String.reduceToList, List.forall₂_cons_left_iff, List.forall₂_nil_left_iff,
      Glob.takes_itself_iff (show '+' ≠ '*' by decide) (show '+' ≠ '?' by decide),
      Glob.takes_itself_iff (show '.' ≠ '*' by decide) (show '.' ≠ '?' by decide)] at hparts
    obtain ⟨front, _, hfront, ⟨_, _, rfl, ⟨_, _, rfl, ⟨_, _, hlast, rfl, rfl⟩, rfl⟩, rfl⟩, rfl⟩ :=
      hparts
    obtain ⟨c, rfl, hc⟩ := Glob.takes_place_iff.mp hlast
    refine ⟨front, c, by simpa using htext, fun hmem => ?_, of_decide_eq_true hc⟩
    exact absurd (Glob.takes_run_iff.mp hfront '\n' hmem) (by decide)
  · rintro ⟨front, c, htext, hfront, hc⟩
    refine ⟨[front, ['+'], ['.'], [c]], ?_, by simpa using htext⟩
    exact .cons (.run hfront) (.cons (.itself (by decide) (by decide))
      (.cons (.itself (by decide) (by decide)) (.cons (.place hc) .nil)))

/-- The plus and the dot of a pattern stand for themselves, and no wildcard takes a line break. -/
theorem isExcluded_iff_describes_plusAndDot :
    let resolver : Resolver := { exclude := ["*+.?"] }
    (∀ pattern ∈ resolver.exclude, resolver.compiles (Glob.expressionOf pattern) = true) ∧
    ∃ globs, resolver.exclude.mapM (Glob.ofText resolver.compiles) = .ok globs ∧
      isExcluded globs ⟨"a/.b+.c"⟩ = true ∧ isExcluded globs ⟨"a/.b+xc"⟩ = false ∧
      isExcluded globs ⟨"a\n+.c"⟩ = false := by
  intro resolver
  have hcompiles : ∀ pattern ∈ resolver.exclude,
      resolver.compiles (Glob.expressionOf pattern) = true := by
    refine List.forall_mem_singleton.mpr ?_
    change (Glob.expressionOf "*+.?").isSmall = true
    rw [Glob.isSmall_expressionOf_iff]
    simp [Glob.isWildcard, Expression.maxDots]
  obtain ⟨globs, hglobs, hexcluded⟩ := isExcluded_iff_describes resolver hcompiles
  have hiff : ∀ path : FilePath, isExcluded globs path = true ↔
      ∃ front c, path.text.toList = front ++ ['+', '.', c] ∧ '\n' ∉ front ∧ c ≠ '\n' := by
    intro path
    rw [hexcluded, ← describes_plusAndDot_iff]
    simp [resolver]
  refine ⟨hcompiles, globs, hglobs, ?_, ?_, ?_⟩
  · rw [hiff]
    exact ⟨"a/.b".toList, 'c', by decide, by decide, by decide⟩
  · rw [← Bool.not_eq_true, hiff]
    rintro ⟨front, c, htext, -⟩
    have hchars : ['a', '/', '.', 'b'] ++ ['+', 'x', 'c'] = front ++ ['+', '.', c] := htext
    have hlast := (List.append_inj' hchars rfl).2
    simp at hlast
  · rw [← Bool.not_eq_true, hiff]
    rintro ⟨front, c, htext, hfront, -⟩
    have hchars : ['a', '\n'] ++ ['+', '.', 'c'] = front ++ ['+', '.', c] := htext
    have hfirst := (List.append_inj' hchars rfl).1
    exact hfront (hfirst ▸ by decide)

end Resolver
end DocumentQuery

import DocumentQuery.Json.Text
import DocumentQuery.Json.Token

/-!
# Written values and their blanks

The two written forms of a value differ in their blanks only. What can stand between the
parts of a value is a spacing, and both forms are the text of a value in some spacing.
-/

namespace DocumentQuery
namespace Json

/-- The blanks before an item or a closing bracket at each level, and behind a colon. -/
structure Spacing where
  line : Nat → List Char
  behindColon : List Char
  line_blank : ∀ level, ∀ c ∈ line level, isBlank c = true
  behindColon_blank : ∀ c ∈ behindColon, isBlank c = true

namespace Spacing

def tight : Spacing where
  line _ := []
  behindColon := []
  line_blank := by simp
  behindColon_blank := by simp

@[simp] theorem tight_line (level : Nat) : tight.line level = [] := rfl

@[simp] theorem tight_behindColon : tight.behindColon = [] := rfl

theorem newline_blank (level : Nat) : ∀ c ∈ newline level, isBlank c = true := by
  intro c hc
  rcases List.mem_cons.mp hc with rfl | hspace
  · rfl
  · rw [List.eq_of_mem_replicate hspace]
    rfl

def indented : Spacing where
  line := newline
  behindColon := [' ']
  line_blank := newline_blank
  behindColon_blank := by simp [isBlank]

@[simp] theorem indented_line (level : Nat) : indented.line level = newline level := rfl

@[simp] theorem indented_behindColon : indented.behindColon = [' '] := rfl

end Spacing

mutual

def chars (spacing : Spacing) (level : Nat) : Json → List Char
  | array [] => "[]".toList
  | array items =>
    '[' :: (itemChars spacing (level + 1) items ++ spacing.line level ++ [']'])
  | object [] => "\x7b\x7d".toList
  | object entries =>
    '\x7b' :: (entryChars spacing (level + 1) entries ++ spacing.line level ++ ['\x7d'])
  | value => value.compactChars

def itemChars (spacing : Spacing) (level : Nat) : List Json → List Char
  | [] => []
  | [item] => spacing.line level ++ chars spacing level item
  | item :: rest =>
    spacing.line level ++ chars spacing level item ++ ',' :: itemChars spacing level rest

def entryChars (spacing : Spacing) (level : Nat) : List (String × Json) → List Char
  | [] => []
  | [(key, value)] =>
    spacing.line level ++ quoted key ++ ':' :: spacing.behindColon ++ chars spacing level value
  | (key, value) :: rest =>
    spacing.line level ++ quoted key ++ ':' :: spacing.behindColon ++ chars spacing level value ++
      ',' :: entryChars spacing level rest

end

mutual

theorem chars_tight (level : Nat) : ∀ value : Json, value.chars .tight level = value.compactChars
  | null => rfl
  | bool _ => rfl
  | number _ => rfl
  | string _ => rfl
  | array [] => rfl
  | array (item :: rest) => by
    simp [chars, compactChars, itemChars_tight (level + 1) (item :: rest)]
  | object [] => rfl
  | object (entry :: rest) => by
    simp [chars, compactChars, entryChars_tight (level + 1) (entry :: rest)]

theorem itemChars_tight (level : Nat) :
    ∀ items : List Json, itemChars .tight level items = compactItems items
  | [] => rfl
  | [item] => by simp [itemChars, compactItems, chars_tight level item]
  | item :: next :: rest => by
    simp [itemChars, compactItems, chars_tight level item, itemChars_tight level (next :: rest)]

theorem entryChars_tight (level : Nat) :
    ∀ entries : List (String × Json), entryChars .tight level entries = compactEntries entries
  | [] => rfl
  | [(key, value)] => by
    simp [entryChars, compactEntries, chars_tight level value]
  | (key, value) :: next :: rest => by
    simp [entryChars, compactEntries, chars_tight level value,
      entryChars_tight level (next :: rest)]

end

mutual

theorem chars_indented (level : Nat) :
    ∀ value : Json, value.chars .indented level = value.prettyChars level
  | null => rfl
  | bool _ => rfl
  | number _ => rfl
  | string _ => rfl
  | array [] => rfl
  | array (item :: rest) => by
    simp [chars, prettyChars, itemChars_indented (level + 1) (item :: rest)]
  | object [] => rfl
  | object (entry :: rest) => by
    simp [chars, prettyChars, entryChars_indented (level + 1) (entry :: rest)]

theorem itemChars_indented (level : Nat) :
    ∀ items : List Json, itemChars .indented level items = prettyItems level items
  | [] => rfl
  | [item] => by simp [itemChars, prettyItems, chars_indented level item]
  | item :: next :: rest => by
    simp [itemChars, prettyItems, chars_indented level item,
      itemChars_indented level (next :: rest)]

theorem entryChars_indented (level : Nat) :
    ∀ entries : List (String × Json),
      entryChars .indented level entries = prettyEntries level entries
  | [] => rfl
  | [(key, value)] => by
    simp [entryChars, prettyEntries, chars_indented level value]
  | (key, value) :: next :: rest => by
    simp [entryChars, prettyEntries, chars_indented level value,
      entryChars_indented level (next :: rest)]

end

end Json
end DocumentQuery

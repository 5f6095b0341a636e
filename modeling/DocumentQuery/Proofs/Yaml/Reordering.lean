import DocumentQuery.Proofs.Yaml.JsonForm
import DocumentQuery.Query.Evaluation

/-!
# The order of entries

The entries of a mapping may stand in any order as long as the texts of its keys are different.
One reordering, anywhere in a value, keeps these texts and the JSON form or its absence, hence
so does any number of them, and no query can tell the order.
-/

namespace DocumentQuery.Yaml.Value

/-- The entries of one mapping are put in another order, at any place of a value. -/
inductive Reorders : Value → Value → Prop
  | here {entries others : List (Value × Value)} (h : entries.Perm others) :
      Reorders (mapping entries) (mapping others)
  | inItem (front back : List Value) {item other : Value} (h : Reorders item other) :
      Reorders (sequence (front ++ item :: back)) (sequence (front ++ other :: back))
  | inKey (front back : List (Value × Value)) (value : Value) {key other : Value}
      (h : Reorders key other) :
      Reorders (mapping (front ++ (key, value) :: back)) (mapping (front ++ (other, value) :: back))
  | inValue (front back : List (Value × Value)) (key : Value) {value other : Value}
      (h : Reorders value other) :
      Reorders (mapping (front ++ (key, value) :: back)) (mapping (front ++ (key, other) :: back))
  | inTagged (tag : String) {value other : Value} (h : Reorders value other) :
      Reorders (tagged tag value) (tagged tag other)

/-- Two values differ in nothing but the order of the entries of their mappings. -/
def Reordered : Value → Value → Prop := Relation.ReflTransGen Reorders

def ownTexts : Value → List String
  | mapping entries => keyTexts entries
  | _ => []

/-- In each mapping in a value position the keys that have a text have different ones. -/
def DistinctTexts (value : Value) : Prop :=
  ∀ node : Value, node.StandsIn value → node.ownTexts.Nodup

variable {value other : Value}

theorem distinctTexts_iff :
    value.DistinctTexts ↔
      value.ownTexts.Nodup ∧ ∀ child ∈ value.children, child.DistinctTexts :=
  forall_standsIn_iff

theorem distinctTexts_of_leaf (hown : value.ownTexts = []) (hchildren : value.children = []) :
    value.DistinctTexts := by
  rw [distinctTexts_iff, hown, hchildren]
  simp

theorem DistinctTexts.of_mem_children {child : Value} (h : value.DistinctTexts)
    (hchild : child ∈ value.children) : child.DistinctTexts :=
  (distinctTexts_iff.mp h).2 child hchild

/-- A key is reordered only where it has no text. -/
theorem Reorders.keyText?_eq (h : Reorders value other) : value.keyText? = other.keyText? := by
  cases h <;> rfl

theorem Reorders.ownTexts_perm (h : Reorders value other) :
    value.ownTexts.Perm other.ownTexts := by
  cases h with
  | here h => exact h.filterMap _
  | inKey front back value h => simp [ownTexts, keyTexts, List.filterMap_cons, h.keyText?_eq]
  | inValue front back key h => simp [ownTexts, keyTexts, List.filterMap_cons]
  | _ => exact .refl _

theorem Reorders.distinctTexts_of_children (h : Reorders value other) (hd : value.DistinctTexts)
    (hchildren : ∀ child ∈ other.children, child.DistinctTexts) : other.DistinctTexts :=
  distinctTexts_iff.mpr ⟨h.ownTexts_perm.nodup (distinctTexts_iff.mp hd).1, hchildren⟩

theorem Reorders.distinctTexts (h : Reorders value other) (hd : value.DistinctTexts) :
    other.DistinctTexts := by
  induction h with
  | here h =>
    refine (Reorders.here h).distinctTexts_of_children hd fun child hchild => ?_
    exact hd.of_mem_children ((h.map Prod.snd).mem_iff.mpr hchild)
  | inItem front back h ih =>
    refine (Reorders.inItem front back h).distinctTexts_of_children hd ?_
    have hchildren := (distinctTexts_iff.mp hd).2
    simp only [children, List.forall_mem_append, List.forall_mem_cons] at hchildren ⊢
    exact ⟨hchildren.1, ih hchildren.2.1, hchildren.2.2⟩
  | inKey front back value h ih =>
    refine (Reorders.inKey front back value h).distinctTexts_of_children hd fun child hchild => ?_
    exact hd.of_mem_children (by simpa [children] using hchild)
  | inValue front back key h ih =>
    refine (Reorders.inValue front back key h).distinctTexts_of_children hd ?_
    have hchildren := (distinctTexts_iff.mp hd).2
    simp only [children, List.map_append, List.map_cons, List.forall_mem_append,
      List.forall_mem_cons] at hchildren ⊢
    exact ⟨hchildren.1, ih hchildren.2.1, hchildren.2.2⟩
  | inTagged tag h ih =>
    refine (Reorders.inTagged tag h).distinctTexts_of_children hd ?_
    exact List.forall_mem_singleton.mpr (ih (hd.of_mem_children (List.mem_singleton_self _)))

theorem forall₂_replace_iff {α β : Type} {R : α → β → Prop} {item replacement : α}
    (h : ∀ result, R item result ↔ R replacement result) (front back : List α)
    (results : List β) :
    List.Forall₂ R (front ++ item :: back) results ↔
      List.Forall₂ R (front ++ replacement :: back) results := by
  induction front generalizing results with
  | nil => simp only [List.nil_append, List.forall₂_cons_left_iff, h]
  | cons first front ih => simp only [List.cons_append, List.forall₂_cons_left_iff, ih]

theorem keyTexts_eq_of_forall₂ {entries : List (Value × Value)} {pairs : List (String × Json)}
    (h : List.Forall₂ EntryConvertsTo entries pairs) : keyTexts entries = pairs.map Prod.fst := by
  induction h with
  | nil => rfl
  | cons hentry _ ih =>
    simp only [keyTexts, List.filterMap_cons, hentry.1, List.map_cons]
    exact congrArg _ ih

/-- The entries of a mapping whose keys have different texts make one object in any order. -/
theorem toJson_of_perm {entries others : List (Value × Value)} {document : Json}
    (hdistinct : (keyTexts entries).Nodup) (hperm : entries.Perm others)
    (h : (mapping entries).toJson = .ok document) : (mapping others).toJson = .ok document := by
  obtain ⟨pairs, hpairs, rfl⟩ := toJson_mapping_eq_ok_iff.mp h
  obtain ⟨reordered, hothers, hsame⟩ := List.perm_comp_forall₂ hperm.symm hpairs
  rw [keyTexts_eq_of_forall₂ hpairs] at hdistinct
  exact toJson_mapping_eq_ok_iff.mpr
    ⟨reordered, hothers, congrArg Json.object (Entries.ofPairs_eq_of_perm hdistinct hsame.symm)⟩

theorem Reorders.toJson_eq_ok_iff (h : Reorders value other) (hd : value.DistinctTexts)
    (document : Json) : value.toJson = .ok document ↔ other.toJson = .ok document := by
  induction h generalizing document with
  | here h =>
    have hown := (distinctTexts_iff.mp hd).1
    have hothers := (Reorders.here h).ownTexts_perm.nodup hown
    exact ⟨toJson_of_perm hown h, toJson_of_perm hothers h.symm⟩
  | @inItem front back item other h ih =>
    have hitem : ∀ form, item.ConvertsTo form ↔ other.ConvertsTo form :=
      ih (hd.of_mem_children (by simp [children]))
    simp only [toJson_sequence_eq_ok_iff, forall₂_replace_iff hitem]
  | @inKey front back value key other h ih =>
    -- Only a key without a text can be reordered, so neither mapping has a form.
    have hentry : ∀ pair,
        EntryConvertsTo (key, value) pair ↔ EntryConvertsTo (other, value) pair := by
      intro pair
      simp only [EntryConvertsTo, h.keyText?_eq]
    simp only [toJson_mapping_eq_ok_iff, forall₂_replace_iff hentry]
  | @inValue front back key value other h ih =>
    have hvalue : ∀ form, value.ConvertsTo form ↔ other.ConvertsTo form :=
      ih (hd.of_mem_children (by simp [children]))
    have hentry : ∀ pair,
        EntryConvertsTo (key, value) pair ↔ EntryConvertsTo (key, other) pair := by
      intro pair
      simp only [EntryConvertsTo, hvalue]
    simp only [toJson_mapping_eq_ok_iff, forall₂_replace_iff hentry]
  | @inTagged tag value other h ih =>
    exact ih (hd.of_mem_children (List.mem_singleton_self _)) document

theorem Reordered.toJson_eq_ok_iff (h : value.Reordered other) (hd : value.DistinctTexts)
    (document : Json) : value.toJson = .ok document ↔ other.toJson = .ok document := by
  have hrun : other.DistinctTexts ∧
      (value.toJson = .ok document ↔ other.toJson = .ok document) := by
    induction h with
    | refl => exact ⟨hd, Iff.rfl⟩
    | tail _ hstep ih =>
      exact ⟨hstep.distinctTexts ih.1, ih.2.trans (hstep.toJson_eq_ok_iff ih.1 document)⟩
  exact hrun.2

/-- The order of entries does not matter. Where two values differ in nothing but the order of the
entries of their mappings, and the keys of each mapping have different texts, either both have
a JSON form or none has. The form is the same, and so is the answer to every query, if it has
one: what a path finds, the search at any depth included, whether it finds something, and the
size and kind of what is measured. -/
theorem toJson_of_reordered (h : value.Reordered other) (hd : value.DistinctTexts) :
    ((∃ document, value.toJson = .ok document) ↔ ∃ document, other.toJson = .ok document) ∧
    (∀ document otherDocument, value.toJson = .ok document →
      other.toJson = .ok otherDocument → document = otherDocument) ∧
    ∀ (rooting : Rooting) (path field : String) (whole : Option String),
      (value.toJson.toOption.bind (·.evaluate rooting path) =
        other.toJson.toOption.bind (·.evaluate rooting path)) ∧
      (value.toJson.toOption.bind (·.search field) =
        other.toJson.toOption.bind (·.search field)) ∧
      (value.toJson.toOption.map (·.finds rooting path) =
        other.toJson.toOption.map (·.finds rooting path)) ∧
      (value.toJson.toOption.map (·.sizeAt rooting whole) =
        other.toJson.toOption.map (·.sizeAt rooting whole)) ∧
      value.toJson.toOption.map (·.kindAt rooting whole) =
        other.toJson.toOption.map (·.kindAt rooting whole) := by
  have hform := h.toJson_eq_ok_iff hd
  have hsame : value.toJson.toOption = other.toJson.toOption := toOption_eq_of_eq_ok_iff hform
  refine ⟨exists_congr hform, ?_, ?_⟩
  · intro document otherDocument hvalue hother
    exact Except.ok.inj (((hform document).mp hvalue).symm.trans hother)
  · intro rooting path field whole
    simp only [hsame, and_self]

def row : List (Value × Value) := [(bool false, null), (string "x", bool true)]

def rows : Value := mapping [(string "b", sequence [mapping row]), (string "a", null)]

/-- The entries of two mappings, one inside the other, in another order. -/
theorem toJson_of_reordered_rows :
    rows.Reordered (mapping [(string "a", null), (string "b", sequence [mapping row.reverse])]) ∧
      rows.DistinctTexts ∧
      rows.toJson = .ok (.object [("a", .null),
        ("b", .array [.object [("false", .null), ("x", .bool true)]])]) ∧
      (mapping [(string "a", null), (string "b", sequence [mapping row.reverse])]).toJson =
        .ok (.object [("a", .null),
          ("b", .array [.object [("false", .null), ("x", .bool true)]])]) := by
  have hreordered : rows.Reordered
      (mapping [(string "a", null), (string "b", sequence [mapping row.reverse])]) := by
    have hinner : Reorders (sequence [mapping row]) (sequence [mapping row.reverse]) :=
      .inItem [] [] (.here (List.reverse_perm row).symm)
    exact .tail (.single (.inValue [] _ _ hinner)) (.here (.swap _ _ _))
  have hrow : (mapping row).DistinctTexts := by
    refine distinctTexts_iff.mpr ⟨by decide, ?_⟩
    simp only [children, row, List.map_cons, List.map_nil, List.forall_mem_cons]
    exact ⟨distinctTexts_of_leaf rfl rfl, distinctTexts_of_leaf rfl rfl, by simp⟩
  have hdistinct : rows.DistinctTexts := by
    refine distinctTexts_iff.mpr ⟨by decide, ?_⟩
    simp only [children, rows, List.map_cons, List.map_nil, List.forall_mem_cons]
    refine ⟨distinctTexts_iff.mpr ⟨List.nodup_nil, ?_⟩, distinctTexts_of_leaf rfl rfl, by simp⟩
    exact List.forall_mem_singleton.mpr hrow
  have hrows : rows.toJson = .ok (.object [("a", .null),
      ("b", .array [.object [("false", .null), ("x", .bool true)]])]) := by rfl
  obtain ⟨hform, hsame, -⟩ := toJson_of_reordered hreordered hdistinct
  obtain ⟨document, hdocument⟩ := hform.mp ⟨_, hrows⟩
  obtain rfl := hsame _ document hrows hdocument
  exact ⟨hreordered, hdistinct, hrows, hdocument⟩

end DocumentQuery.Yaml.Value

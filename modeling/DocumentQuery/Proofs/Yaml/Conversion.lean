import DocumentQuery.Proofs.Json.Locations
import DocumentQuery.Proofs.Results
import DocumentQuery.Yaml.Conversion
import Mathlib.Data.List.Forall2

/-!
# Converted documents are ordered

Items and entries are converted one by one, and the entries of a mapping are sorted by
their texts when it becomes an object. Where a conversion fails, some part of the value has
no JSON form.
-/

namespace DocumentQuery.Yaml

namespace Value

def ConvertsTo (value : Value) (document : Json) : Prop := value.toJson = .ok document

def EntryConvertsTo (entry : Value × Value) (pair : String × Json) : Prop :=
  entry.1.keyText? = some pair.1 ∧ entry.2.ConvertsTo pair.2

theorem eq_number_of_numberToJson {n : Number} {document : Json}
    (h : numberToJson n = .ok document) : document = .number n := by
  unfold numberToJson at h
  split at h
  · exact (Except.ok.inj h).symm
  · split at h
    · exact (Except.ok.inj h).symm
    · contradiction

theorem keyText_eq_ok_iff {key : Value} {name : String} :
    keyText key = .ok name ↔ key.keyText? = some name := by
  unfold keyText
  cases key.keyText? <;> simp

theorem itemsToJson_eq_ok_iff {items : List Value} {converted : List Json} :
    itemsToJson items = .ok converted ↔ List.Forall₂ ConvertsTo items converted := by
  induction items generalizing converted with
  | nil => simp [itemsToJson, eq_comm]
  | cons item items ih =>
    rw [itemsToJson, List.forall₂_cons_left_iff]
    simp only [bind_eq_ok_iff, ih, Except.ok.injEq]
    constructor
    · rintro ⟨document, hitem, rest, hitems, rfl⟩
      exact ⟨document, rest, hitem, hitems, rfl⟩
    · rintro ⟨document, rest, hitem, hitems, rfl⟩
      exact ⟨document, hitem, rest, hitems, rfl⟩

theorem entriesToJson_eq_ok_iff {entries : List (Value × Value)} {pairs : List (String × Json)} :
    entriesToJson entries = .ok pairs ↔ List.Forall₂ EntryConvertsTo entries pairs := by
  induction entries generalizing pairs with
  | nil => simp [entriesToJson, eq_comm]
  | cons entry entries ih =>
    rw [entriesToJson, List.forall₂_cons_left_iff]
    simp only [bind_eq_ok_iff, ih, Except.ok.injEq, keyText_eq_ok_iff]
    constructor
    · rintro ⟨name, hkey, document, hvalue, rest, hentries, rfl⟩
      exact ⟨(name, document), rest, ⟨hkey, hvalue⟩, hentries, rfl⟩
    · rintro ⟨⟨name, document⟩, rest, ⟨hkey, hvalue⟩, hentries, rfl⟩
      exact ⟨name, hkey, document, hvalue, rest, hentries, rfl⟩

theorem toJson_sequence_eq_ok_iff {items : List Value} {document : Json} :
    (sequence items).toJson = .ok document ↔
      ∃ converted, List.Forall₂ ConvertsTo items converted ∧ document = .array converted := by
  rw [toJson]
  simp only [bind_eq_ok_iff, itemsToJson_eq_ok_iff, Except.ok.injEq]
  exact exists_congr fun _ => and_congr_right fun _ => eq_comm

theorem toJson_mapping_eq_ok_iff {entries : List (Value × Value)} {document : Json} :
    (mapping entries).toJson = .ok document ↔
      ∃ pairs, List.Forall₂ EntryConvertsTo entries pairs ∧
        document = .object (Entries.ofPairs pairs) := by
  rw [toJson]
  simp only [bind_eq_ok_iff, entriesToJson_eq_ok_iff, Except.ok.injEq]
  exact exists_congr fun _ => and_congr_right fun _ => eq_comm

mutual

theorem ordered_of_toJson (value : Value) {document : Json} (h : value.toJson = .ok document) :
    document.Ordered := by
  cases value with
  | number n =>
    obtain rfl := eq_number_of_numberToJson h
    trivial
  | sequence items =>
    obtain ⟨converted, hitems, h⟩ := bind_eq_ok_iff.mp h
    obtain rfl := Except.ok.inj h
    exact Json.orderedItems_iff.mpr (ordered_of_itemsToJson items hitems)
  | mapping entries =>
    obtain ⟨converted, hentries, h⟩ := bind_eq_ok_iff.mp h
    obtain rfl := Except.ok.inj h
    exact Json.ordered_ofPairs (ordered_of_entriesToJson entries hentries)
  | tagged tag value => exact ordered_of_toJson value h
  | _ =>
    obtain rfl := Except.ok.inj h
    trivial

theorem ordered_of_itemsToJson (items : List Value) {converted : List Json}
    (h : itemsToJson items = .ok converted) : ∀ item ∈ converted, item.Ordered := by
  cases items with
  | nil =>
    obtain rfl := Except.ok.inj h
    simp
  | cons item items =>
    obtain ⟨document, hitem, h⟩ := bind_eq_ok_iff.mp h
    obtain ⟨rest, hitems, h⟩ := bind_eq_ok_iff.mp h
    obtain rfl := Except.ok.inj h
    exact List.forall_mem_cons.mpr
      ⟨ordered_of_toJson item hitem, ordered_of_itemsToJson items hitems⟩

theorem ordered_of_entriesToJson (entries : List (Value × Value))
    {converted : List (String × Json)} (h : entriesToJson entries = .ok converted) :
    ∀ pair ∈ converted, pair.2.Ordered := by
  cases entries with
  | nil =>
    obtain rfl := Except.ok.inj h
    simp
  | cons entry entries =>
    obtain ⟨key, value⟩ := entry
    obtain ⟨name, -, h⟩ := bind_eq_ok_iff.mp h
    obtain ⟨document, hvalue, h⟩ := bind_eq_ok_iff.mp h
    obtain ⟨rest, hentries, h⟩ := bind_eq_ok_iff.mp h
    obtain rfl := Except.ok.inj h
    exact List.forall_mem_cons.mpr
      ⟨ordered_of_toJson value hvalue, ordered_of_entriesToJson entries hentries⟩

end

theorem exists_conversion_of_keyText {key : Value} {failure : Failure}
    (h : keyText key = .error failure) : ∃ source target, failure = .conversion source target := by
  unfold keyText at h
  split at h
  · contradiction
  · exact ⟨_, _, (Except.error.inj h).symm⟩

mutual

/-- A conversion fails for no other reason than that a part has no JSON form. -/
theorem exists_conversion_of_toJson (value : Value) {failure : Failure}
    (h : value.toJson = .error failure) :
    ∃ source target, failure = .conversion source target := by
  cases value with
  | number n =>
    unfold toJson numberToJson at h
    split at h
    · contradiction
    · split at h
      · contradiction
      · exact ⟨_, _, (Except.error.inj h).symm⟩
  | sequence items =>
    rcases bind_eq_error_iff.mp h with hitems | ⟨_, _, hdone⟩
    · exact exists_conversion_of_itemsToJson items hitems
    · contradiction
  | mapping entries =>
    rcases bind_eq_error_iff.mp h with hentries | ⟨_, _, hdone⟩
    · exact exists_conversion_of_entriesToJson entries hentries
    · contradiction
  | tagged tag value => exact exists_conversion_of_toJson value h
  | _ => contradiction

theorem exists_conversion_of_itemsToJson (items : List Value) {failure : Failure}
    (h : itemsToJson items = .error failure) :
    ∃ source target, failure = .conversion source target := by
  cases items with
  | nil => contradiction
  | cons item items =>
    rcases bind_eq_error_iff.mp h with hitem | ⟨_, -, h⟩
    · exact exists_conversion_of_toJson item hitem
    · rcases bind_eq_error_iff.mp h with hitems | ⟨_, _, hdone⟩
      · exact exists_conversion_of_itemsToJson items hitems
      · contradiction

theorem exists_conversion_of_entriesToJson (entries : List (Value × Value)) {failure : Failure}
    (h : entriesToJson entries = .error failure) :
    ∃ source target, failure = .conversion source target := by
  cases entries with
  | nil => contradiction
  | cons entry entries =>
    obtain ⟨key, value⟩ := entry
    rcases bind_eq_error_iff.mp h with hkey | ⟨_, -, h⟩
    · exact exists_conversion_of_keyText hkey
    · rcases bind_eq_error_iff.mp h with hvalue | ⟨_, -, h⟩
      · exact exists_conversion_of_toJson value hvalue
      · rcases bind_eq_error_iff.mp h with hentries | ⟨_, _, hdone⟩
        · exact exists_conversion_of_entriesToJson entries hentries
        · contradiction

end

end Value

theorem exists_yaml_or_conversion_of_decode {text : String} {failure : Failure}
    (h : decode text = .error failure) :
    (∃ reason, failure = .yaml reason) ∨ ∃ source target, failure = .conversion source target := by
  unfold decode at h
  split at h
  · next value _ => exact Or.inr (value.exists_conversion_of_toJson h)
  · exact Or.inl ⟨_, (Except.error.inj h).symm⟩

theorem ordered_of_decode {text : String} {document : Json} (h : decode text = .ok document) :
    document.Ordered := by
  unfold decode at h
  split at h
  · next value _ => exact value.ordered_of_toJson h
  · contradiction

end DocumentQuery.Yaml

import DocumentQuery.Proofs.Yaml.Navigation
import Mathlib.Data.List.Perm.Subperm

/-!
# The JSON form of a YAML value

A value has a JSON form exactly if every node in a value position fits: numbers are integers
or finite, and the keys of mappings are scalars other than null. `Becomes` tells what the form
is, without converting: it is the one document that keeps scalars and the order of items,
leaves out tags, and has for each text of a key the form of the last value under it.
-/

namespace DocumentQuery.Yaml.Value

/-- The values directly inside a value. What is inside a key does not count. -/
def children : Value → List Value
  | sequence items => items
  | mapping entries => entries.map Prod.snd
  | tagged _ value => [value]
  | _ => []

theorem sizeOf_lt_of_mem_children {value child : Value} (h : child ∈ value.children) :
    sizeOf child < sizeOf value := by
  cases value with
  | sequence items =>
    have hlt := List.sizeOf_lt_of_mem (show child ∈ items from h)
    simp only [sequence.sizeOf_spec]
    omega
  | mapping entries =>
    obtain ⟨entry, hentry, rfl⟩ := List.mem_map.mp h
    have hlt := List.sizeOf_lt_of_mem hentry
    have hvalue : sizeOf entry.2 < sizeOf entry := by
      obtain ⟨key, value⟩ := entry
      simp only [Prod.mk.sizeOf_spec]
      omega
    simp only [mapping.sizeOf_spec]
    omega
  | tagged tag value =>
    obtain rfl := List.mem_singleton.mp h
    simp only [tagged.sizeOf_spec]
    omega
  | _ => simp [children] at h

@[elab_as_elim]
theorem children_induction {motive : Value → Prop}
    (step : ∀ value, (∀ child ∈ value.children, motive child) → motive value) (value : Value) :
    motive value :=
  step value fun child hchild =>
    have := sizeOf_lt_of_mem_children hchild
    children_induction step child
termination_by sizeOf value

/-- A node stands in a value position of a value, at any depth. -/
inductive StandsIn (node : Value) : Value → Prop
  | here : StandsIn node node
  | inside {value child : Value} (hchild : child ∈ value.children) (h : StandsIn node child) :
      StandsIn node value

/-- What holds in all value positions holds of the value and in all positions of its children. -/
theorem forall_standsIn_iff {value : Value} {P : Value → Prop} :
    (∀ node, node.StandsIn value → P node) ↔
      P value ∧ ∀ child ∈ value.children, ∀ node, node.StandsIn child → P node := by
  constructor
  · intro h
    exact ⟨h value .here, fun child hchild node hnode => h node (.inside hchild hnode)⟩
  · rintro ⟨hvalue, hchildren⟩ node hnode
    cases hnode with
    | here => exact hvalue
    | inside hchild h => exact hchildren _ hchild node h

theorem StandsIn.trans {node inner value : Value} (h : node.StandsIn inner)
    (hinner : inner.StandsIn value) : node.StandsIn value := by
  induction hinner with
  | here => exact h
  | inside hchild _ ih => exact .inside hchild ih

def isTextKey : Value → Bool
  | string _ => true
  | number _ => true
  | bool _ => true
  | _ => false

/-- Whether JSON lacks nothing of a value itself: its number is an integer or finite, and its
keys have texts. -/
def fits : Value → Bool
  | number n => n.isFinite
  | mapping entries => entries.all fun entry => entry.1.isTextKey
  | _ => true

theorem isTextKey_iff {key : Value} : key.isTextKey = true ↔ ∃ name, key.keyText? = some name := by
  cases key <;> simp [isTextKey, keyText?]

theorem exists_numberToJson_iff {n : Number} :
    (∃ document, numberToJson n = .ok document) ↔ n.isFinite = true := by
  cases n with
  | integer n => simp [numberToJson, Number.isFinite]
  | float x => by_cases h : x.isFinite <;> simp [numberToJson, Number.isFinite, h]

theorem exists_forall₂_iff {α β : Type} {R : α → β → Prop} {items : List α} :
    (∃ results, List.Forall₂ R items results) ↔ ∀ item ∈ items, ∃ result, R item result := by
  induction items with
  | nil => exact ⟨by simp, fun _ => ⟨[], .nil⟩⟩
  | cons item items ih =>
    rw [List.forall_mem_cons, ← ih]
    constructor
    · rintro ⟨_, h⟩
      cases h with
      | cons hitem hitems => exact ⟨⟨_, hitem⟩, _, hitems⟩
    · rintro ⟨⟨result, hitem⟩, results, hitems⟩
      exact ⟨result :: results, .cons hitem hitems⟩

theorem exists_entryConvertsTo_iff {entry : Value × Value} :
    (∃ pair, EntryConvertsTo entry pair) ↔
      entry.1.isTextKey = true ∧ ∃ document, entry.2.toJson = .ok document := by
  simp [EntryConvertsTo, ConvertsTo, isTextKey_iff]

theorem exists_toJson_iff_children (value : Value) :
    (∃ document, value.toJson = .ok document) ↔
      value.fits = true ∧ ∀ child ∈ value.children, ∃ document, child.toJson = .ok document := by
  cases value with
  | number n => simpa [toJson, fits, children] using exists_numberToJson_iff
  | sequence items =>
    have hitems := @exists_forall₂_iff _ _ ConvertsTo items
    simp only [toJson_sequence_eq_ok_iff, fits, children, true_and]
    rw [exists_comm]
    simp only [exists_and_left, exists_eq, and_true]
    exact hitems
  | mapping entries =>
    have hentries := @exists_forall₂_iff _ _ EntryConvertsTo entries
    simp only [exists_entryConvertsTo_iff, forall_and] at hentries
    simp only [toJson_mapping_eq_ok_iff, fits, children, List.all_eq_true, List.forall_mem_map]
    rw [exists_comm]
    simp only [exists_and_left, exists_eq, and_true]
    exact hentries
  | tagged tag value => simp [toJson, fits, children]
  | _ => simp [toJson, fits, children]

/-- A value has a form exactly if every node in a value position fits. -/
theorem exists_toJson_iff (value : Value) :
    (∃ document, value.toJson = .ok document) ↔
      ∀ node : Value, node.StandsIn value → node.fits = true := by
  induction value using children_induction with
  | step value ih =>
    rw [exists_toJson_iff_children, forall_standsIn_iff]
    exact and_congr_right fun _ => forall₂_congr ih

def keyTexts (entries : List (Value × Value)) : List String :=
  entries.filterMap fun entry => entry.1.keyText?

theorem mem_keyTexts_iff {entries : List (Value × Value)} {name : String} :
    name ∈ keyTexts entries ↔ ∃ entry ∈ entries, entry.1.keyText? = some name :=
  List.mem_filterMap

/-- The last value under a text is that of an entry behind which the text is no more. -/
theorem lastUnder?_eq_some_iff {entries : List (Value × Value)} {name : String} {node : Value} :
    lastUnder? name entries = some node ↔
      ∃ front key back, entries = front ++ (key, node) :: back ∧ key.keyText? = some name ∧
        name ∉ keyTexts back := by
  rw [lastUnder?, Option.map_eq_some_iff]
  simp only [List.find?_eq_some_iff_append, decide_eq_true_eq]
  constructor
  · rintro ⟨⟨key, value⟩, ⟨hkey, back, front, hreverse, hbehind⟩, rfl⟩
    refine ⟨front.reverse, key, back.reverse, ?_, hkey, ?_⟩
    · rw [← List.reverse_reverse entries, hreverse]
      simp
    · rw [mem_keyTexts_iff]
      rintro ⟨entry, hentry, hname⟩
      simpa [hname] using hbehind entry (List.mem_reverse.mp hentry)
  · rintro ⟨front, key, back, rfl, hkey, hlast⟩
    refine ⟨(key, node), ⟨hkey, back.reverse, front.reverse, by simp, ?_⟩, rfl⟩
    intro entry hentry
    have hother : entry.1.keyText? ≠ some name := fun hname =>
      hlast (mem_keyTexts_iff.mpr ⟨entry, List.mem_reverse.mp hentry, hname⟩)
    simp [hother]

theorem exists_lastUnder?_iff {entries : List (Value × Value)} {name : String} :
    (∃ node, lastUnder? name entries = some node) ↔ name ∈ keyTexts entries := by
  rw [← Option.isSome_iff_exists, lastUnder?, Option.isSome_map, List.find?_isSome,
    mem_keyTexts_iff]
  simp

/-- What a value becomes. Scalars are kept, integers over the whole range of signed and unsigned
words; a sequence keeps its length and the order of its items; tags vanish. A mapping becomes
an object whose keys are the texts of its keys, each with the form of the last value under it. -/
inductive Becomes : Value → Json → Prop
  | null : Becomes null .null
  | bool (b : Bool) : Becomes (bool b) (.bool b)
  | integer (n : Int) (fits : -9223372036854775808 ≤ n ∧ n < 18446744073709551616) :
      Becomes (number (.integer ⟨n, fits⟩)) (.number (.integer ⟨n, fits⟩))
  | float (x : Float) (h : x.isFinite = true) :
      Becomes (number (.float x)) (.number (.float x))
  | string (s : String) : Becomes (string s) (.string s)
  | sequence {items : List Value} {converted : List Json}
      (hlength : items.length = converted.length)
      (hitems : ∀ (position : Nat) (item : Value) (document : Json),
        items[position]? = some item → converted[position]? = some document →
          Becomes item document) :
      Becomes (sequence items) (.array converted)
  | mapping {entries : List (Value × Value)} {object : List (String × Json)}
      (hsorted : Entries.Sorted object)
      (hkeys : ∀ name, name ∈ object.map Prod.fst ↔ name ∈ keyTexts entries)
      (hvalues : ∀ front key node back name document,
        entries = front ++ (key, node) :: back → key.keyText? = some name →
          name ∉ keyTexts back → object.lookup name = some document → Becomes node document) :
      Becomes (mapping entries) (.object object)
  | tagged (tag : String) {value : Value} {document : Json} (h : Becomes value document) :
      Becomes (tagged tag value) document

theorem Becomes.unique {value : Value} {document other : Json} (h : value.Becomes document)
    (hother : value.Becomes other) : document = other := by
  induction h generalizing other with
  | sequence hlength _ ih =>
    cases hother with
    | sequence hotherLength hitems =>
      refine congrArg Json.array
        (List.ext_getElem (hlength.symm.trans hotherLength) fun position h hother => ?_)
      have hitem := List.getElem?_eq_getElem (hlength ▸ h)
      exact ih position _ _ hitem (List.getElem?_eq_getElem h)
        (hitems position _ _ hitem (List.getElem?_eq_getElem hother))
  | @mapping entries object hsorted hkeys _ ih =>
    cases hother with
    | @mapping _ other hotherSorted hotherKeys hvalues =>
      refine congrArg Json.object (Entries.eq_of_lookup_eq hsorted hotherSorted fun name => ?_)
      by_cases hname : name ∈ keyTexts entries
      · obtain ⟨node, hnode⟩ := exists_lastUnder?_iff.mpr hname
        obtain ⟨front, key, back, hentries, hkey, hlast⟩ := lastUnder?_eq_some_iff.mp hnode
        obtain ⟨document, hdocument⟩ := Entries.mem_keys_iff.mp ((hkeys name).mpr hname)
        obtain ⟨found, hfound⟩ := Entries.mem_keys_iff.mp ((hotherKeys name).mpr hname)
        rw [hdocument, hfound]
        exact congrArg some (ih front key node back name document hentries hkey hlast hdocument
          (hvalues front key node back name found hentries hkey hlast hfound))
      · rw [Entries.lookup_eq_none_of_not_mem_keys (mt (hkeys name).mp hname),
          Entries.lookup_eq_none_of_not_mem_keys (mt (hotherKeys name).mp hname)]
  | tagged tag _ ih =>
    cases hother with
    | tagged _ h => exact ih h
  | _ =>
    cases hother
    rfl

theorem becomes_of_toJson (value : Value) {document : Json} (h : value.toJson = .ok document) :
    value.Becomes document := by
  induction value using children_induction generalizing document with
  | step value ih =>
    cases value with
    | number n =>
      obtain rfl := eq_number_of_numberToJson h
      cases n with
      | integer n => exact .integer n.val n.fits
      | float x => exact .float x (exists_numberToJson_iff.mp ⟨_, h⟩)
    | sequence items =>
      obtain ⟨converted, hitems, rfl⟩ := toJson_sequence_eq_ok_iff.mp h
      refine .sequence hitems.length_eq fun position item document hitem hdocument => ?_
      have hrel := rel_getElem? hitems position
      rw [hitem, hdocument] at hrel
      cases hrel with
      | some hconverts => exact ih item (List.mem_of_getElem? hitem) hconverts
    | mapping entries =>
      obtain ⟨pairs, hentries, rfl⟩ := toJson_mapping_eq_ok_iff.mp h
      refine .mapping (Entries.sorted_ofPairs pairs) (fun name => ?_) ?_
      · have hrel := rel_lastUnder? hentries name
        rw [Entries.mem_keys_iff, ← exists_lastUnder?_iff]
        generalize lastUnder? name entries = node at hrel ⊢
        generalize (Entries.ofPairs pairs).lookup name = document at hrel ⊢
        cases hrel <;> simp
      · intro front key node back name document hentry hkey hlast hdocument
        have hrel := rel_lastUnder? hentries name
        rw [lastUnder?_eq_some_iff.mpr ⟨front, key, back, hentry, hkey, hlast⟩, hdocument] at hrel
        cases hrel with
        | some hconverts => exact ih node (by simp [children, hentry]) hconverts
    | tagged tag value => exact .tagged tag (ih value (by simp [children]) h)
    | _ =>
      obtain rfl := Except.ok.inj h
      constructor

/-- An object has as many entries as the mapping exactly if the texts of the keys are
different. -/
theorem Becomes.length_eq_iff {entries : List (Value × Value)} {object : List (String × Json)}
    (h : (Value.mapping entries).Becomes (.object object))
    (htexts : ∀ entry ∈ entries, entry.1.isTextKey = true) :
    object.length = entries.length ↔ (keyTexts entries).Nodup := by
  cases h with
  | mapping hsorted hkeys _ =>
    have hcount : (keyTexts entries).length = entries.length :=
      List.filterMap_length_eq_length.mpr fun entry hentry =>
        Option.isSome_iff_exists.mpr (isTextKey_iff.mp (htexts entry hentry))
    have hkeyCount : (object.map Prod.fst).length = object.length := List.length_map _
    have hnodup := Entries.nodup_keys hsorted
    rw [← hcount, ← hkeyCount]
    constructor
    -- The texts include all keys of the object, which are different, and are no more of them.
    · intro hlength
      have hperm : (object.map Prod.fst).Perm (keyTexts entries) :=
        (hnodup.subperm fun name hname => (hkeys name).mp hname).perm_of_length_le hlength.ge
      exact hperm.nodup hnodup
    · intro hdistinct
      exact ((List.perm_ext_iff_of_nodup hnodup hdistinct).mpr hkeys).length_eq

/-- When a value has a JSON form, and which one. It has a form exactly if in every value position
a number is an integer or finite and the keys of a mapping are strings, numbers or truth values.
The form is then the one document that the value becomes. Of each mapping in a value position
as many entries are left as there were exactly if the texts of its keys are different. -/
theorem toJson_eq_ok_iff_becomes (value : Value) :
    ((∃ document, value.toJson = .ok document) ↔
      ∀ node : Value, node.StandsIn value → node.fits = true) ∧
    (∀ document, value.toJson = .ok document ↔
      (∀ node : Value, node.StandsIn value → node.fits = true) ∧ value.Becomes document) ∧
    ∀ document, value.toJson = .ok document →
      ∀ entries : List (Value × Value), (mapping entries).StandsIn value →
        ∃ object : List (String × Json), (mapping entries).toJson = .ok (.object object) ∧
          (object.length = entries.length ↔ (keyTexts entries).Nodup) := by
  have hfits := exists_toJson_iff value
  refine ⟨hfits, fun document => ⟨fun h => ?_, ?_⟩, ?_⟩
  · exact ⟨hfits.mp ⟨document, h⟩, becomes_of_toJson value h⟩
  · rintro ⟨hall, hbecomes⟩
    obtain ⟨found, hfound⟩ := hfits.mpr hall
    obtain rfl := hbecomes.unique (becomes_of_toJson value hfound)
    exact hfound
  · intro document h entries hentries
    have hall := hfits.mp ⟨document, h⟩
    have hhere : (mapping entries).fits = true := hall _ hentries
    obtain ⟨form, hform⟩ := (exists_toJson_iff (mapping entries)).mpr
      fun node hnode => hall node (hnode.trans hentries)
    obtain ⟨pairs, -, rfl⟩ := toJson_mapping_eq_ok_iff.mp hform
    exact ⟨_, hform, (becomes_of_toJson _ hform).length_eq_iff (List.all_eq_true.mp hhere)⟩

theorem greatestWord_fits : (-9223372036854775808 : Int) ≤ 18446744073709551615 ∧
    (18446744073709551615 : Int) < 18446744073709551616 := by decide

def greatestWord : Number := .integer ⟨18446744073709551615, greatestWord_fits⟩

def clashingEntries : List (Value × Value) :=
  [(number greatestWord, null), (string "18446744073709551615", number greatestWord),
    (bool true, string "b")]

/-- Of two keys with one text the last one stays, with the greatest word; a null key below a tag
leaves the whole value without a form. -/
theorem toJson_eq_ok_iff_becomes_clashingEntries :
    let document := Json.array
      [.object [("18446744073709551615", .number greatestWord), ("true", .string "b")]]
    (sequence [tagged "row" (mapping clashingEntries)]).toJson = .ok document ∧
      (sequence [tagged "row" (mapping clashingEntries)]).Becomes document ∧
      (∃ object : List (String × Json),
        (mapping clashingEntries).toJson = .ok (.object object) ∧
          object.length ≠ clashingEntries.length) ∧
      ¬ ∃ document, (sequence [tagged "row" (mapping [(null, null)])]).toJson = .ok document := by
  intro document
  obtain ⟨-, hbecomes, hcount⟩ :=
    toJson_eq_ok_iff_becomes (sequence [tagged "row" (mapping clashingEntries)])
  obtain ⟨hform, -, -⟩ :=
    toJson_eq_ok_iff_becomes (sequence [tagged "row" (mapping [(null, null)])])
  have hjson : (sequence [tagged "row" (mapping clashingEntries)]).toJson = .ok document := by rfl
  have htexts : keyTexts clashingEntries =
      ["18446744073709551615", "18446744073709551615", "true"] := by rfl
  have hin : ∀ entries, (mapping entries).StandsIn (sequence [tagged "row" (mapping entries)]) :=
    fun entries => .inside (List.mem_singleton_self _)
      (.inside (List.mem_singleton_self _) .here)
  refine ⟨hjson, ((hbecomes document).mp hjson).2, ?_, fun hany => ?_⟩
  · obtain ⟨object, hobject, hlength⟩ := hcount document hjson clashingEntries (hin _)
    refine ⟨object, hobject, fun hsame => ?_⟩
    have hdistinct := hlength.mp hsame
    rw [htexts] at hdistinct
    simp at hdistinct
  · have hfits := hform.mp hany _ (hin _)
    contradiction

end DocumentQuery.Yaml.Value

import DocumentQuery.Proofs.Query.Walks
import DocumentQuery.Proofs.Yaml.Conversion

/-!
# Walking a YAML value

A path can be walked in a YAML value as it is in a JSON value. If the value has a JSON form,
both walks lead to the same place, whatever tags are on the way and whichever keys have one
text: what is reached in the JSON form is the JSON form of what is reached in the value.
-/

namespace DocumentQuery.Yaml.Value

def lastUnder? (name : String) (entries : List (Value × Value)) : Option Value :=
  (entries.reverse.find? fun entry => entry.1.keyText? = some name).map Prod.snd

/-- One step. Tags are looked through, and a wildcard stays on a sequence. -/
def navigate (segment : Segment) : Value → Option Value
  | tagged _ value => navigate segment value
  | value =>
    match segment, value with
    | .field name, mapping entries => lastUnder? name entries
    | .index position, sequence items => items[position.toNat]?
    | .wildcard, sequence items => some (sequence items)
    | _, _ => none

def navigateAll (segments : List Segment) (value : Value) : Option Value :=
  segments.foldlM (fun value segment => navigate segment value) value

theorem rel_getElem? {items : List Value} {converted : List Json}
    (h : List.Forall₂ ConvertsTo items converted) (position : Nat) :
    Option.Rel ConvertsTo items[position]? converted[position]? := by
  induction h generalizing position with
  | nil => exact .none
  | cons hitem _ ih =>
    cases position with
    | zero => exact .some hitem
    | succ position => exact ih position

theorem rel_find? {entries : List (Value × Value)} {pairs : List (String × Json)}
    (h : List.Forall₂ EntryConvertsTo entries pairs) (name : String) :
    Option.Rel ConvertsTo
      ((entries.find? fun entry => entry.1.keyText? = some name).map Prod.snd)
      (pairs.lookup name) := by
  induction h with
  | nil => exact .none
  | @cons entry pair _ _ hentry _ ih =>
    obtain ⟨hkey, hvalue⟩ := hentry
    rw [List.find?_cons, Entries.lookup_cons, hkey]
    by_cases hname : name = pair.1
    · simp only [hname, decide_true, if_true]
      exact .some hvalue
    · simp only [Option.some.injEq, Ne.symm hname, decide_false, hname, if_false]
      exact ih

theorem rel_lastUnder? {entries : List (Value × Value)} {pairs : List (String × Json)}
    (h : List.Forall₂ EntryConvertsTo entries pairs) (name : String) :
    Option.Rel ConvertsTo (lastUnder? name entries) ((Entries.ofPairs pairs).lookup name) := by
  rw [Entries.lookup_ofPairs]
  exact rel_find? (List.forall₂_reverse_iff.mpr h) name

/-- One step leads to the same place in a value and in its JSON form. -/
theorem rel_navigate (value : Value) {document : Json} (h : value.ConvertsTo document)
    (segment : Segment) :
    Option.Rel ConvertsTo (value.navigate segment) (document.navigate segment) := by
  cases value with
  | tagged tag value => exact rel_navigate value h segment
  | sequence items =>
    obtain ⟨converted, hitems, rfl⟩ := toJson_sequence_eq_ok_iff.mp h
    cases segment with
    | index position => exact rel_getElem? hitems position.toNat
    | wildcard => exact .some h
    | _ => exact .none
  | mapping entries =>
    obtain ⟨pairs, hentries, rfl⟩ := toJson_mapping_eq_ok_iff.mp h
    cases segment with
    | field name => exact rel_lastUnder? hentries name
    | _ => exact .none
  | number n =>
    obtain rfl := eq_number_of_numberToJson h
    cases segment <;> exact .none
  | _ =>
    obtain rfl := Except.ok.inj h
    cases segment <;> exact .none

theorem rel_navigateAll {value : Value} {document : Json} (h : value.ConvertsTo document)
    (segments : List Segment) :
    Option.Rel ConvertsTo (value.navigateAll segments) (document.navigateAll segments) := by
  induction segments generalizing value document with
  | nil => exact .some h
  | cons segment segments ih =>
    have hstep := rel_navigate value h segment
    rw [navigateAll, List.foldlM_cons, Json.navigateAll_cons]
    generalize value.navigate segment = node at hstep ⊢
    generalize document.navigate segment = found at hstep ⊢
    cases hstep with
    | none => exact .none
    | some hconverts => exact ih hconverts

/-- Walking the JSON form of a YAML value finds something exactly if walking the value does,
and what it finds is the JSON form of what is reached in the value, which has one. -/
theorem navigateAll_toJson {value : Value} {document : Json} (h : value.toJson = .ok document)
    (segments : List Segment) :
    ((∃ found, document.navigateAll segments = some found) ↔
      ∃ node, value.navigateAll segments = some node) ∧
    ∀ node, value.navigateAll segments = some node →
      ∃ found, node.toJson = .ok found ∧ document.navigateAll segments = some found := by
  have hwalk := rel_navigateAll h segments
  generalize value.navigateAll segments = reached at hwalk ⊢
  generalize document.navigateAll segments = there at hwalk ⊢
  cases hwalk with
  | none => simp
  | @some node found hconverts =>
    refine ⟨⟨fun _ => ⟨node, rfl⟩, fun _ => ⟨found, rfl⟩⟩, ?_⟩
    intro other hother
    obtain rfl := Option.some.inj hother
    exact ⟨found, hconverts, rfl⟩

def taggedRows : Value :=
  mapping [(number (.integer ⟨1, by decide⟩), string "one"),
    (string "1", tagged "rows" (tagged "old" (sequence [null, tagged "flag" (bool true)])))]

theorem navigateAll_toJson_taggedRows :
    taggedRows.toJson = .ok (.object [("1", .array [.null, .bool true])]) ∧
      taggedRows.navigateAll [.field "1", .wildcard, .index 1] =
        some (tagged "flag" (bool true)) ∧
      (Json.object [("1", .array [.null, .bool true])]).navigateAll
        [.field "1", .wildcard, .index 1] = some (.bool true) := by
  have hjson : taggedRows.toJson = .ok (.object [("1", .array [.null, .bool true])]) := by rfl
  have hreached : taggedRows.navigateAll [.field "1", .wildcard, .index 1] =
      some (tagged "flag" (bool true)) := by rfl
  obtain ⟨found, hfound, hthere⟩ :=
    (navigateAll_toJson hjson [.field "1", .wildcard, .index 1]).2 _ hreached
  obtain rfl := Except.ok.inj hfound
  exact ⟨hjson, hreached, hthere⟩

end DocumentQuery.Yaml.Value

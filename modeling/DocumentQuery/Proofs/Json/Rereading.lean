import DocumentQuery.Json.Decode
import DocumentQuery.Proofs.Json.Lexemes
import DocumentQuery.Proofs.Json.Plain
import DocumentQuery.Proofs.Json.Spacing

/-!
# Written values are read back

A plain value that is written in some spacing is decoded to itself. Wherever the machine
wants a value, the text of one leads it to where that value is complete, through the same
states whatever the blanks are.
-/

namespace DocumentQuery
namespace Json

variable {text middle rest : List Char} {machine next last : Machine} {frames : List Frame}

/-- From the start of a text in one state the machine gets to the rest of it in another. -/
inductive Reads : List Char → Machine → List Char → Machine → Prop
  | refl (text : List Char) (machine : Machine) : Reads text machine text machine
  | blank {c : Char} {text rest : List Char} {machine next : Machine} (hblank : isBlank c = true)
      (hrest : Reads text machine rest next) : Reads (c :: text) machine rest next
  | lexeme {text behind rest : List Char} {lexeme : Lexeme} {machine next last : Machine}
      (hlexeme : StartsWith text lexeme behind)
      (hstep : ∀ token : Token, token.lexeme = lexeme → machine.step token = .ok next)
      (hrest : Reads behind next rest last) : Reads text machine rest last

theorem Reads.trans (h : Reads text machine middle next) (h' : Reads middle next rest last) :
    Reads text machine rest last := by
  induction h with
  | refl _ _ => exact h'
  | blank hblank _ ih => exact .blank hblank (ih h')
  | lexeme hlexeme hstep _ ih => exact .lexeme hlexeme hstep (ih h')

theorem Reads.blanks {blanks : List Char} (hblanks : ∀ c ∈ blanks, isBlank c = true)
    (h : Reads text machine rest next) : Reads (blanks ++ text) machine rest next := by
  induction blanks with
  | nil => exact h
  | cons c blanks ih =>
    obtain ⟨hc, hrest⟩ := List.forall_mem_cons.mp hblanks
    exact .blank hc (ih hrest)

/-- The tokens of a text are worked off up to the rest of it. How many rounds are left does not
matter as long as they cover the rest, so the induction on the run leaves their number open. -/
theorem Reads.foldlM_tokens (h : Reads text machine rest next) {fuel : Nat}
    (hfuel : text.length ≤ fuel) : ∃ left, rest.length ≤ left ∧
      (tokensWithin fuel text).foldlM Machine.step machine =
        (tokensWithin left rest).foldlM Machine.step next := by
  induction h generalizing fuel with
  | refl text machine => exact ⟨fuel, hfuel, rfl⟩
  | blank hblank _ ih =>
    cases fuel with
    | zero => simp at hfuel
    | succ fuel =>
      obtain ⟨left, hleft, hrun⟩ := ih (Nat.le_of_succ_le_succ hfuel)
      refine ⟨left, hleft, ?_⟩
      rw [tokensWithin, if_pos hblank, hrun]
  | lexeme hlexeme hstep _ ih =>
    obtain ⟨c, behind, rfl, hblank, hlength, hcut⟩ := hlexeme
    cases fuel with
    | zero => simp at hfuel
    | succ fuel =>
      have hbehind := Nat.le_of_succ_le_succ hfuel
      obtain ⟨left, hleft, hrun⟩ := ih (Nat.le_trans hlength hbehind)
      refine ⟨left, hleft, ?_⟩
      rw [tokensWithin, if_neg (by simp [hblank]), hcut fuel hbehind]
      dsimp only
      rw [List.foldlM_cons, hstep _ rfl]
      exact hrun

/-- A text that leads to a complete value is decoded to it. -/
theorem ofText?_of_reads {text : List Char} {value : Json}
    (h : Reads text .start [] ⟨[], .complete value⟩) :
    ofText? (String.ofList text) = some value := by
  obtain ⟨left, -, hrun⟩ := h.foldlM_tokens (Nat.le_refl _)
  have hend : tokensWithin left [] = [] := by cases left <;> rfl
  have hdecode : decode (String.ofList text) = .ok value := by
    rw [decode, String.toList_ofList, tokens, hrun, hend]
    rfl
  rw [ofText?, hdecode]
  rfl

def Machine.Wants (machine : Machine) (frames : List Frame) : Prop :=
  ∀ token : Token, token.lexeme ≠ .closeArray → machine.step token = Machine.takeValue frames token

def Machine.WantsKey (machine : Machine) (frames : List Frame) (entries : Entries Json) : Prop :=
  ∀ token : Token, token.lexeme ≠ .closeObject →
    machine.step token = Machine.takeKey frames entries token

theorem wants_value (frames : List Frame) : Machine.Wants ⟨frames, .value⟩ frames :=
  fun _ _ => rfl

theorem wants_firstItem (frames : List Frame) :
    Machine.Wants ⟨frames, .firstItem⟩ (.array [] :: frames) := by
  intro token htoken
  unfold Machine.step
  dsimp only
  split
  · contradiction
  · rfl

theorem wants_nextItem (frames : List Frame) : Machine.Wants ⟨frames, .nextItem⟩ frames := by
  intro token htoken
  unfold Machine.step
  dsimp only
  split
  · contradiction
  · rfl

theorem wantsKey_firstKey (frames : List Frame) :
    Machine.WantsKey ⟨frames, .firstKey⟩ frames [] := by
  intro token htoken
  unfold Machine.step
  dsimp only
  split
  · contradiction
  · rfl

theorem wantsKey_nextKey (frames : List Frame) (entries : Entries Json) :
    Machine.WantsKey ⟨frames, .nextKey entries⟩ frames entries := by
  intro token htoken
  unfold Machine.step
  dsimp only
  split
  · contradiction
  · rfl

namespace Reads

theorem scalar {value : Json} (hw : machine.Wants frames)
    (h : StartsWith text (.scalar (.ok value)) rest) :
    Reads text machine rest ⟨frames, .complete value⟩ := by
  refine .lexeme h (fun token htoken => ?_) (.refl _ _)
  rw [hw token (by simp [htoken]), Machine.takeValue, htoken]
  rfl

theorem string (hw : machine.Wants frames) (s : String) (rest : List Char) :
    Reads (quoted s ++ rest) machine rest ⟨frames, .complete (.string s)⟩ := by
  refine .lexeme (startsWith_quoted s rest) (fun token htoken => ?_) (.refl _ _)
  rw [hw token (by simp [htoken]), Machine.takeValue, htoken]
  rfl

theorem key {entries : Entries Json} (hw : machine.WantsKey frames entries) (s : String)
    (rest : List Char) :
    Reads (quoted s ++ rest) machine rest ⟨frames, .colon entries s⟩ := by
  refine .lexeme (startsWith_quoted s rest) (fun token htoken => ?_) (.refl _ _)
  rw [hw token (by simp [htoken]), Machine.takeKey, htoken]
  rfl

theorem mark {c : Char} {lexeme : Lexeme} (hblank : isBlank c = false)
    (hlexeme : ∀ bound behind, Json.lexeme bound c behind = (lexeme, behind))
    (hstep : ∀ token : Token, token.lexeme = lexeme → machine.step token = .ok next)
    (h : Reads text next rest last) : Reads (c :: text) machine rest last :=
  .lexeme ⟨c, text, rfl, hblank, Nat.le_refl _, fun bound _ => hlexeme bound text⟩ hstep h

theorem openArray (hw : machine.Wants frames) (hroom : frames.length < maxDepth)
    (h : Reads text ⟨frames, .firstItem⟩ rest last) : Reads ('[' :: text) machine rest last := by
  refine mark rfl (fun _ _ => rfl) (fun token htoken => ?_) h
  rw [hw token (by simp [htoken]), Machine.takeValue, htoken]
  exact if_pos hroom

theorem openObject (hw : machine.Wants frames) (hroom : frames.length < maxDepth)
    (h : Reads text ⟨frames, .firstKey⟩ rest last) :
    Reads ('\x7b' :: text) machine rest last := by
  refine mark rfl (fun _ _ => rfl) (fun token htoken => ?_) h
  rw [hw token (by simp [htoken]), Machine.takeValue, htoken]
  exact if_pos hroom

theorem closeEmptyArray (rest : List Char) :
    Reads (']' :: rest) ⟨frames, .firstItem⟩ rest ⟨frames, .complete (.array [])⟩ := by
  refine mark rfl (fun _ _ => rfl) (fun token htoken => ?_) (.refl _ _)
  simp [Machine.step, htoken]

theorem closeEmptyObject (rest : List Char) :
    Reads ('\x7d' :: rest) ⟨frames, .firstKey⟩ rest ⟨frames, .complete (.object [])⟩ := by
  refine mark rfl (fun _ _ => rfl) (fun token htoken => ?_) (.refl _ _)
  simp [Machine.step, htoken]

theorem comma_item {value : Json} {items : List Json}
    (h : Reads text ⟨.array (value :: items) :: frames, .nextItem⟩ rest last) :
    Reads (',' :: text) ⟨.array items :: frames, .complete value⟩ rest last := by
  refine mark rfl (fun _ _ => rfl) (fun token htoken => ?_) h
  simp [Machine.step, Machine.takeBehind, htoken]

theorem closeArray (items : List Json) (value : Json) (rest : List Char) :
    Reads (']' :: rest) ⟨.array items :: frames, .complete value⟩ rest
      ⟨frames, .complete (.array (items.reverse ++ [value]))⟩ := by
  refine mark rfl (fun _ _ => rfl) (fun token htoken => ?_) (.refl _ _)
  simp [Machine.step, Machine.takeBehind, htoken]

theorem colon {entries : Entries Json} {key : String}
    (h : Reads text ⟨.object entries key :: frames, .value⟩ rest last) :
    Reads (':' :: text) ⟨frames, .colon entries key⟩ rest last := by
  refine mark rfl (fun _ _ => rfl) (fun token htoken => ?_) h
  simp [Machine.step, htoken]

theorem comma_entry {value : Json} {entries : Entries Json} {key : String}
    (h : Reads text ⟨frames, .nextKey (entries.insert key value)⟩ rest last) :
    Reads (',' :: text) ⟨.object entries key :: frames, .complete value⟩ rest last := by
  refine mark rfl (fun _ _ => rfl) (fun token htoken => ?_) h
  simp [Machine.step, Machine.takeBehind, htoken]

theorem closeObject (entries : Entries Json) (key : String) (value : Json) (rest : List Char) :
    Reads ('\x7d' :: rest) ⟨.object entries key :: frames, .complete value⟩ rest
      ⟨frames, .complete (.object (entries.insert key value))⟩ := by
  refine mark rfl (fun _ _ => rfl) (fun token htoken => ?_) (.refl _ _)
  simp [Machine.step, Machine.takeBehind, htoken]

end Reads

theorem endsNumber_of_blanks {blanks : List Char} (hblanks : ∀ c ∈ blanks, isBlank c = true)
    (hrest : EndsNumber rest) : EndsNumber (blanks ++ rest) := by
  cases blanks with
  | nil => exact hrest
  | cons first blanks =>
    intro c hc
    obtain rfl := Option.some.inj hc
    have hblank := hblanks first List.mem_cons_self
    simp only [isBlank, Bool.or_eq_true, decide_eq_true_eq] at hblank
    rcases hblank with ((rfl | rfl) | rfl) | rfl <;> decide

theorem endsNumber_cons {c : Char}
    (h : c.isDigit = false ∧ c ≠ '.' ∧ c ≠ 'e' ∧ c ≠ 'E') (text : List Char) :
    EndsNumber (c :: text) := by
  intro other hother
  obtain rfl := Option.some.inj hother
  exact h

/-- Wherever a value is wanted and its levels have room, its text is read as the value. -/
def IsReread (spacing : Spacing) (value : Json) : Prop :=
  ∀ (level levels : Nat) (machine : Machine) (frames : List Frame) (rest : List Char),
    machine.Wants frames → value.Plain levels → frames.length + levels ≤ maxDepth →
      EndsNumber rest →
        Reads (value.chars spacing level ++ rest) machine rest ⟨frames, .complete value⟩

/-- The items of an array are read one after the other, up to its end. -/
theorem reads_items {spacing : Spacing} (level : Nat) {levels : Nat} {items : List Json}
    (hne : items ≠ []) (hitems : ∀ item ∈ items, IsReread spacing item ∧ item.Plain levels)
    (hroom : frames.length + 1 + levels ≤ maxDepth) {blanks : List Char}
    (hblanks : ∀ c ∈ blanks, isBlank c = true) (done : List Json)
    (hw : machine.Wants (.array done :: frames)) (rest : List Char) :
    Reads (itemChars spacing level items ++ (blanks ++ ']' :: rest)) machine rest
      ⟨frames, .complete (.array (done.reverse ++ items))⟩ := by
  induction items generalizing done machine with
  | nil => contradiction
  | cons item more ih =>
    obtain ⟨⟨hreread, hplain⟩, hmore⟩ := List.forall_mem_cons.mp hitems
    have hitem : ∀ behind, EndsNumber behind →
        Reads (item.chars spacing level ++ behind) machine behind
          ⟨.array done :: frames, .complete item⟩ := by
      intro behind hbehind
      exact hreread level levels machine _ behind hw hplain hroom hbehind
    cases more with
    | nil =>
      have hend : EndsNumber (blanks ++ ']' :: rest) :=
        endsNumber_of_blanks hblanks (endsNumber_cons (by decide) rest)
      rw [itemChars, List.append_assoc]
      apply Reads.blanks (spacing.line_blank level)
      exact (hitem _ hend).trans ((Reads.closeArray done item rest).blanks hblanks)
    | cons next more =>
      -- behind the comma this item is the last one done
      have hrest := ih (List.cons_ne_nil _ _) hmore (item :: done) (wants_nextItem _)
      rw [List.reverse_cons, List.append_assoc, List.singleton_append] at hrest
      rw [itemChars, List.append_assoc, List.append_assoc, List.cons_append]
      · apply Reads.blanks (spacing.line_blank level)
        exact (hitem _ (endsNumber_cons (by decide) _)).trans hrest.comma_item
      · exact List.cons_ne_nil _ _

/-- The entries of an object are read one after the other, up to its end. As their keys
ascend, each comes behind those before. -/
theorem reads_entries {spacing : Spacing} (level : Nat) {levels : Nat}
    {entries : Entries Json} (hne : entries ≠ [])
    (hentries : ∀ entry ∈ entries, IsReread spacing entry.2 ∧ entry.2.Plain levels)
    (hroom : frames.length + 1 + levels ≤ maxDepth) {blanks : List Char}
    (hblanks : ∀ c ∈ blanks, isBlank c = true) (done : Entries Json)
    (hsorted : Entries.Sorted (done ++ entries)) (hw : machine.WantsKey frames done)
    (rest : List Char) :
    Reads (entryChars spacing level entries ++ (blanks ++ '\x7d' :: rest)) machine rest
      ⟨frames, .complete (.object (done ++ entries))⟩ := by
  induction entries generalizing done machine with
  | nil => contradiction
  | cons entry more ih =>
    obtain ⟨key, value⟩ := entry
    obtain ⟨⟨hreread, hplain⟩, hmore⟩ := List.forall_mem_cons.mp hentries
    -- the entry is put behind those done, as its key is above theirs
    have hlast : done.insert key value = done ++ [(key, value)] := by
      apply Entries.insert_of_forall_lt
      intro entry hentry
      exact (List.pairwise_append.mp hsorted).2.2 entry hentry _ List.mem_cons_self
    have hentry : ∀ behind, EndsNumber behind →
        Reads
          (quoted key ++ (':' :: (spacing.behindColon ++ (value.chars spacing level ++ behind))))
          machine behind ⟨.object done key :: frames, .complete value⟩ := by
      intro behind hbehind
      have hvalue := hreread level levels ⟨.object done key :: frames, .value⟩ _ behind
        (wants_value _) hplain hroom hbehind
      exact (Reads.key hw key _).trans (hvalue.blanks spacing.behindColon_blank).colon
    cases more with
    | nil =>
      have hend : EndsNumber (blanks ++ '\x7d' :: rest) :=
        endsNumber_of_blanks hblanks (endsNumber_cons (by decide) rest)
      have hclose : Reads ('\x7d' :: rest) ⟨.object done key :: frames, .complete value⟩ rest
          ⟨frames, .complete (.object (done ++ [(key, value)]))⟩ := by
        rw [← hlast]
        exact Reads.closeObject done key value rest
      simp only [entryChars, List.append_assoc, List.cons_append]
      apply Reads.blanks (spacing.line_blank level)
      exact (hentry _ hend).trans (hclose.blanks hblanks)
    | cons next more =>
      rw [List.append_cons] at hsorted
      have hrest := ih (List.cons_ne_nil _ _) hmore (done ++ [(key, value)]) hsorted
        (wantsKey_nextKey _ _)
      rw [List.append_assoc, List.singleton_append, ← hlast] at hrest
      simp only [entryChars, List.append_assoc, List.cons_append]
      apply Reads.blanks (spacing.line_blank level)
      exact (hentry _ (endsNumber_cons (by decide) _)).trans hrest.comma_entry

theorem isReread_array {spacing : Spacing} {items : List Json}
    (h : ∀ item ∈ items, IsReread spacing item) : IsReread spacing (array items) := by
  intro level levels machine frames rest hw hplain hroom hrest
  obtain ⟨inner, rfl⟩ := hplain.exists_eq_succ (Nat.succ_pos _)
  cases items with
  | nil => exact (Reads.closeEmptyArray rest).openArray hw (by omega)
  | cons item more =>
    have hitems : ∀ child ∈ item :: more, IsReread spacing child ∧ child.Plain inner := by
      intro child hchild
      obtain ⟨step, hmem⟩ := exists_mem_children_array hchild
      exact ⟨h child hchild, hplain.of_mem_children hmem⟩
    have hread := reads_items (level + 1) (List.cons_ne_nil _ _) hitems (by omega)
      (spacing.line_blank level) [] (wants_firstItem frames) rest
    simpa [chars] using hread.openArray hw (by omega)

theorem isReread_object {spacing : Spacing} {entries : Entries Json}
    (h : ∀ entry ∈ entries, IsReread spacing entry.2) : IsReread spacing (object entries) := by
  intro level levels machine frames rest hw hplain hroom hrest
  obtain ⟨inner, rfl⟩ := hplain.exists_eq_succ (Nat.succ_pos _)
  cases entries with
  | nil => exact (Reads.closeEmptyObject rest).openObject hw (by omega)
  | cons entry more =>
    have hentries : ∀ child ∈ entry :: more, IsReread spacing child.2 ∧ child.2.Plain inner := by
      intro child hchild
      have hmem := mem_children_object.mpr ⟨child.1, rfl, hchild⟩
      exact ⟨h child hchild, hplain.of_mem_children hmem⟩
    have hread := reads_entries (level + 1) (List.cons_ne_nil _ _) hentries (by omega)
      (spacing.line_blank level) [] hplain.ordered.1 (wantsKey_firstKey frames) rest
    simpa [chars] using hread.openObject hw (by omega)

/-- Every value is read back where it is wanted. -/
theorem isReread (spacing : Spacing) (value : Json) : IsReread spacing value := by
  induction value using children_induction with
  | step value ih =>
    cases value with
    | null => exact fun _ _ _ _ rest hw _ _ _ => Reads.scalar hw (startsWith_null rest)
    | bool b => exact fun _ _ _ _ rest hw _ _ _ => Reads.scalar hw (startsWith_bool b rest)
    | number n =>
      intro _ _ _ _ _ hw hplain _ hrest
      cases n with
      | integer n => exact Reads.scalar hw (startsWith_integer n hrest)
      | float x => exact absurd hplain.floatFree Bool.false_ne_true
    | string s => exact fun _ _ _ _ rest hw _ _ _ => Reads.string hw s rest
    | array items =>
      refine isReread_array fun item hitem => ?_
      obtain ⟨step, hmem⟩ := exists_mem_children_array hitem
      exact ih _ hmem
    | object entries =>
      exact isReread_object fun entry hentry =>
        ih _ (mem_children_object.mpr ⟨entry.1, rfl, hentry⟩)

theorem ofText?_chars (spacing : Spacing) {value : Json} (h : value.Plain maxDepth)
    {blanks : List Char} (hblanks : ∀ c ∈ blanks, isBlank c = true) :
    ofText? (String.ofList (value.chars spacing 0 ++ blanks)) = some value := by
  have hend : EndsNumber blanks := by
    have hnil : EndsNumber [] := by simp [EndsNumber]
    simpa using endsNumber_of_blanks hblanks hnil
  have hvalue := isReread spacing value 0 maxDepth .start [] blanks (wants_value []) h
    (by simp) hend
  have hbehind := (Reads.refl [] ⟨[], .complete value⟩).blanks hblanks
  rw [List.append_nil] at hbehind
  exact ofText?_of_reads (hvalue.trans hbehind)

end Json
end DocumentQuery

import DocumentQuery.Json.Decode
import DocumentQuery.Proofs.Json.Locations
import DocumentQuery.Proofs.Results

/-!
# Decoded documents are ordered

The machine that puts a document together only ever holds ordered values: what it reads
from a token has no entries, and entries it adds are put in their place.
-/

namespace DocumentQuery
namespace Json

def Lexeme.Ordered : Lexeme → Prop
  | .scalar value => ∀ document, value = .ok document → document.Ordered
  | _ => True

def Frame.Ordered : Frame → Prop
  | .array items => (Json.array items).Ordered
  | .object entries _ => (Json.object entries).Ordered

def Phase.Ordered : Phase → Prop
  | .nextKey entries => (Json.object entries).Ordered
  | .colon entries _ => (Json.object entries).Ordered
  | .complete document => document.Ordered
  | _ => True

structure Machine.Ordered (machine : Machine) : Prop where
  frames : ∀ frame ∈ machine.frames, frame.Ordered
  phase : machine.phase.Ordered

theorem keywordRest_eq {value document : Json} {letters text rest : List Char}
    (h : keywordRest value letters text = .ok (document, rest)) : document = value := by
  fun_induction keywordRest value letters text with
  | case1 text => exact (Prod.mk.inj (Except.ok.inj h)).1.symm
  | case2 => contradiction
  | case3 _ _ _ ih => exact ih h
  | case4 => contradiction

theorem ordered_of_number {parsed : Except Fault (Number × List Char)} {document : Json}
    {rest : List Char} (h : (parsed.map fun (n, rest) => (number n, rest)) = .ok (document, rest)) :
    document.Ordered := by
  cases parsed with
  | error fault => contradiction
  | ok read =>
    obtain rfl := (Prod.mk.inj (Except.ok.inj h)).1
    trivial

theorem ordered_of_scalar? {c : Char} {text rest : List Char} {document : Json}
    (h : scalar? c text = some (.ok (document, rest))) : document.Ordered := by
  unfold scalar? at h
  split at h
  · exact keywordRest_eq (Option.some.inj h) ▸ trivial
  · exact keywordRest_eq (Option.some.inj h) ▸ trivial
  · exact keywordRest_eq (Option.some.inj h) ▸ trivial
  · exact ordered_of_number (Option.some.inj h)
  · split at h
    · exact ordered_of_number (Option.some.inj h)
    · contradiction

theorem ordered_lexeme (bound : Nat) (c : Char) (rest : List Char) :
    (lexeme bound c rest).1.Ordered := by
  unfold lexeme
  split <;> try trivial
  · split <;> trivial
  · split
    · rename_i hscalar
      intro document heq
      exact Except.ok.inj heq ▸ ordered_of_scalar? hscalar
    · intro document heq
      contradiction
    · trivial

theorem ordered_of_mem_tokens {fuel : Nat} {text : List Char} {token : Token}
    (h : token ∈ tokensWithin fuel text) : token.lexeme.Ordered := by
  fun_induction tokensWithin fuel text with
  | case1 => simp at h
  | case2 => simp at h
  | case3 _ _ _ _ ih => exact ih h
  | case4 fuel c rest hblank lexeme behind heq ih =>
    rcases List.mem_cons.mp h with rfl | hmem
    · have hlexeme := ordered_lexeme fuel c rest
      rw [heq] at hlexeme
      exact hlexeme
    · exact ih hmem

namespace Machine

variable {frames : List Frame} {token : Token} {next : Machine}

theorem ordered_takeValue (hf : ∀ frame ∈ frames, frame.Ordered) (ht : token.lexeme.Ordered)
    (h : takeValue frames token = .ok next) : next.Ordered := by
  unfold takeValue at h
  split at h
  · split at h
    · obtain rfl := Except.ok.inj h
      exact ⟨hf, trivial⟩
    · contradiction
  · split at h
    · obtain rfl := Except.ok.inj h
      exact ⟨hf, trivial⟩
    · contradiction
  · obtain ⟨text, -, h⟩ := bind_eq_ok_iff.mp h
    obtain rfl := Except.ok.inj h
    exact ⟨hf, trivial⟩
  · rename_i value hlexeme
    rw [hlexeme] at ht
    obtain ⟨document, hvalue, h⟩ := bind_eq_ok_iff.mp h
    obtain rfl := Except.ok.inj h
    exact ⟨hf, ht document hvalue⟩
  · contradiction

theorem ordered_takeKey {entries : Entries Json} (hf : ∀ frame ∈ frames, frame.Ordered)
    (he : (Json.object entries).Ordered) (h : takeKey frames entries token = .ok next) :
    next.Ordered := by
  unfold takeKey at h
  split at h
  · obtain ⟨text, -, h⟩ := bind_eq_ok_iff.mp h
    obtain rfl := Except.ok.inj h
    exact ⟨hf, he⟩
  · contradiction

theorem ordered_takeBehind {value : Json} (hf : ∀ frame ∈ frames, frame.Ordered)
    (hv : value.Ordered) (h : takeBehind frames value token = .ok next) : next.Ordered := by
  unfold takeBehind at h
  split at h
  · contradiction
  · rename_i items outer
    obtain ⟨hitems, houter⟩ := List.forall_mem_cons.mp hf
    have hall : (Json.array (value :: items)).Ordered := ⟨hv, hitems⟩
    split at h
    · obtain rfl := Except.ok.inj h
      exact ⟨List.forall_mem_cons.mpr ⟨hall, houter⟩, trivial⟩
    · obtain rfl := Except.ok.inj h
      refine ⟨houter, orderedItems_iff.mpr fun item hitem => ?_⟩
      exact orderedItems_iff.mp hall item (List.mem_reverse.mp hitem)
    · contradiction
  · rename_i entries key outer
    obtain ⟨hentries, houter⟩ := List.forall_mem_cons.mp hf
    have hall : (Json.object (entries.insert key value)).Ordered := ordered_insert hentries hv
    split at h
    · obtain rfl := Except.ok.inj h
      exact ⟨houter, hall⟩
    · obtain rfl := Except.ok.inj h
      exact ⟨houter, hall⟩
    · contradiction

/-- What one step keeps. -/
theorem Ordered.step {machine : Machine} (h : machine.Ordered) (ht : token.lexeme.Ordered)
    (hstep : machine.step token = .ok next) : next.Ordered := by
  obtain ⟨frames, phase⟩ := machine
  obtain ⟨hf, hp⟩ := h
  unfold Machine.step at hstep
  cases phase with dsimp only at hstep
  | value => exact ordered_takeValue hf ht hstep
  | firstItem =>
    split at hstep
    · obtain rfl := Except.ok.inj hstep
      exact ⟨hf, trivial⟩
    · have hempty : (Frame.array []).Ordered := trivial
      exact ordered_takeValue (List.forall_mem_cons.mpr ⟨hempty, hf⟩) ht hstep
  | nextItem =>
    split at hstep
    · contradiction
    · exact ordered_takeValue hf ht hstep
  | firstKey =>
    split at hstep
    · obtain rfl := Except.ok.inj hstep
      exact ⟨hf, ordered_object_nil⟩
    · exact ordered_takeKey hf ordered_object_nil hstep
  | nextKey entries =>
    split at hstep
    · contradiction
    · exact ordered_takeKey hf hp hstep
  | colon entries key =>
    split at hstep
    · obtain rfl := Except.ok.inj hstep
      exact ⟨List.forall_mem_cons.mpr ⟨hp, hf⟩, trivial⟩
    · contradiction
  | complete document => exact ordered_takeBehind hf hp hstep

theorem Ordered.run {machine : Machine} {tokens : List Token} (h : machine.Ordered)
    (ht : ∀ token ∈ tokens, token.lexeme.Ordered)
    (hrun : tokens.foldlM Machine.step machine = .ok next) : next.Ordered := by
  exact invariant_of_foldlM (fun machine token next htoken hordered hstep =>
    hordered.step (ht token htoken) hstep) h hrun

theorem ordered_of_finish {machine : Machine} {document : Json} (h : machine.Ordered)
    (hfinish : machine.finish = .ok document) : document.Ordered := by
  obtain ⟨frames, phase⟩ := machine
  cases phase with
  | complete value =>
    cases frames with
    | nil => exact Except.ok.inj hfinish ▸ h.phase
    | cons frame frames => cases frame <;> contradiction
  | _ => contradiction

end Machine

theorem ordered_of_decode {text : String} {document : Json} (h : decode text = .ok document) :
    document.Ordered := by
  obtain ⟨machine, hrun, hfinish⟩ := bind_eq_ok_iff.mp h
  have hstart : Machine.start.Ordered := ⟨by simp [Machine.start], trivial⟩
  exact Machine.ordered_of_finish (hstart.run (fun _ => ordered_of_mem_tokens) hrun) hfinish

theorem ofText?_eq_some_iff {text : String} {document : Json} :
    ofText? text = some document ↔ decode text = .ok document := by
  unfold ofText?
  cases decode text <;> simp [Except.toOption]

end Json
end DocumentQuery

import Charter.Proofs.Advance
import Mathlib.Data.Prod.Lex

/-!
Places in the order of the text. The tokens of a text stand in this order. A production tells of faults at places of
tokens that it was given; no fault is told of behind the token at which it ends, and what it tells of it tells in order.
-/

namespace Charter

namespace Position

-- By lines, and by columns in one line.
instance : Preorder Position := Preorder.lift fun p => toLex (p.line, p.column)

theorem le_iff {p q : Position} : p ≤ q ↔ p.line < q.line ∨ p.line = q.line ∧ p.column ≤ q.column :=
  Prod.Lex.toLex_le_toLex

theorem le_next (p : Position) (c : Char) : p ≤ p.next c := by
  rw [le_iff]
  unfold next
  split
  · exact .inl (Nat.lt_succ_self _)
  · exact .inr ⟨rfl, Nat.le_succ _⟩

theorem le_through (p : Position) (text : List Char) : p ≤ p.through text := by
  induction text generalizing p with
  | nil => exact le_refl p
  | cons c rest ih => exact (p.le_next c).trans (ih (p.next c))

end Position

-- Tokens in the order of their places, none in front of a place.
def Lexed.Rising (start : Position) (tokens : List Token) : Prop :=
  (∀ token ∈ tokens, start ≤ token.position) ∧ tokens.Pairwise fun first second => first.position ≤ second.position

theorem Lexed.ofCharacters_rising (start : Position) (chars : List Char) :
    Rising start (ofCharacters start chars).tokens := by
  fun_induction ofCharacters start chars with
  | case1 start => exact ⟨List.forall_mem_singleton.mpr (le_refl start), List.pairwise_singleton _ _⟩
  | case2 start c rest scan behind after ih =>
      obtain ⟨later, rising⟩ := ih
      have onward : start ≤ behind := start.le_through _
      cases scan.token with
      | none => exact ⟨fun token member => onward.trans (later token member), rising⟩
      | some found =>
          refine ⟨List.forall_mem_cons.mpr ⟨onward, fun token member => ?_⟩, List.pairwise_cons.mpr ⟨later, rising⟩⟩
          exact onward.trans (later token member)

theorem Lexed.ofCharacters_ended (start : Position) (chars : List Char) :
    ∃ before last, (ofCharacters start chars).tokens = before ++ [.endAt last] := by
  fun_induction ofCharacters start chars with
  | case1 start => exact ⟨[], start, rfl⟩
  | case2 start c rest scan behind after ih =>
      obtain ⟨before, last, same⟩ := ih
      dsimp only
      rw [same, ← List.append_assoc]
      exact ⟨_, last, rfl⟩

namespace Source
open Charter.Source.Parser

set_option synthInstance.maxSize 100000

-- What is left of a text that is read: it has an end, and its tokens stand in order.
structure Ready (tokens : List Token) : Prop where
  ended : Terminated tokens
  more : tokens ≠ []
  rising : tokens.Pairwise fun first second => first.position ≤ second.position

theorem ready_ofSource (source : String) : Ready (Lexed.ofSource source).tokens := by
  obtain ⟨before, last, same⟩ := Lexed.ofCharacters_ended .start source.toList
  have whole : (Lexed.ofSource source).tokens = before ++ [.endAt last] := same
  have rising := (Lexed.ofCharacters_rising .start source.toList).2
  rw [same] at rising
  rw [whole]
  exact ⟨terminated_append rfl, List.append_ne_nil_of_right_ne_nil _ (List.cons_ne_nil _ _), rising⟩

section Ready
variable {tokens middle rest : List Token}

theorem head_mem (more : tokens ≠ []) : head tokens ∈ tokens := by
  cases tokens with
  | nil => exact absurd rfl more
  | cons token rest => exact List.mem_cons_self

theorem Ready.suffix (ready : Ready tokens) (suffix : rest <:+ tokens) (more : rest ≠ []) : Ready rest where
  ended := ready.ended.suffix suffix
  more := more
  rising := ready.rising.sublist suffix.sublist

theorem Ready.head_le (ready : Ready tokens) {token : Token} (member : token ∈ tokens) :
    (head tokens).position ≤ token.position := by
  cases tokens with
  | nil => cases member
  | cons first rest =>
      rcases List.mem_cons.mp member with rfl | later
      · exact le_refl _
      · exact (List.pairwise_cons.mp ready.rising).1 token later

theorem Ready.onward (ready : Ready tokens) (suffix : rest <:+ tokens) (more : rest ≠ []) :
    (head tokens).position ≤ (head rest).position := ready.head_le (suffix.subset (head_mem more))

-- A place of one of the tokens, and none behind what is left.
def Shown (tokens rest : List Token) (place : Position) : Prop :=
  (∃ token ∈ tokens, token.position = place) ∧ place ≤ (head rest).position

theorem shown_head (ready : Ready tokens) (suffix : rest <:+ tokens) (more : rest ≠ []) :
    Shown tokens rest (head tokens).position :=
  ⟨⟨head tokens, head_mem ready.more, rfl⟩, ready.onward suffix more⟩

theorem Shown.widen {place : Position} (shown : Shown middle rest place) (suffix : middle <:+ tokens) :
    Shown tokens rest place := by
  obtain ⟨⟨token, member, same⟩, before⟩ := shown
  exact ⟨⟨token, suffix.subset member, same⟩, before⟩

theorem Shown.later {place : Position} (shown : Shown tokens middle place) (ready : Ready middle)
    (suffix : rest <:+ middle) (more : rest ≠ []) : Shown tokens rest place :=
  ⟨shown.1, shown.2.trans (ready.onward suffix more)⟩

theorem Ready.le_shown {place : Position} (ready : Ready tokens) (shown : Shown tokens rest place) :
    (head tokens).position ≤ place := by
  obtain ⟨⟨token, member, rfl⟩, _⟩ := shown
  exact ready.head_le member

-- Places in order, all of them shown.
def InOrder (tokens rest : List Token) (places : List Position) : Prop :=
  places.Pairwise (· ≤ ·) ∧ ∀ place ∈ places, Shown tokens rest place

theorem inOrder_nil (tokens rest : List Token) : InOrder tokens rest [] := ⟨.nil, List.forall_mem_nil _⟩

theorem inOrder_singleton {place : Position} (shown : Shown tokens rest place) : InOrder tokens rest [place] :=
  ⟨List.pairwise_singleton _ _, List.forall_mem_singleton.mpr shown⟩

-- What is shown of what was left stands behind what was shown before.
theorem InOrder.append {places later : List Position} (ready : Ready tokens) (inner : middle <:+ tokens)
    (more : middle ≠ []) (suffix : rest <:+ middle) (left : rest ≠ []) (first : InOrder tokens middle places)
    (second : InOrder middle rest later) : InOrder tokens rest (places ++ later) := by
  have readyThere := ready.suffix inner more
  refine ⟨List.pairwise_append.mpr ⟨first.1, second.1, fun place before place' behind => ?_⟩,
    List.forall_mem_append.mpr ⟨fun place before => ?_, fun place behind => (second.2 place behind).widen inner⟩⟩
  · exact (first.2 place before).2.trans (readyThere.le_shown (second.2 place' behind))
  · exact (first.2 place before).later readyThere suffix left

theorem InOrder.later {places : List Position} (told : InOrder tokens middle places) (ready : Ready middle)
    (suffix : rest <:+ middle) (more : rest ≠ []) : InOrder tokens rest places :=
  ⟨told.1, fun place member => (told.2 place member).later ready suffix more⟩

end Ready

theorem drop_ne_nil {tokens : List Token} (more : tokens ≠ []) : drop tokens ≠ [] := by
  unfold drop
  split
  · exact List.cons_ne_nil _ _
  · exact more

theorem dropWhile_ne_nil {q : Token → Bool} {tokens : List Token} (more : tokens ≠ []) : dropWhile q tokens ≠ [] := by
  fun_induction dropWhile q tokens with
  | case1 _ _ _ _ ih => exact ih (List.cons_ne_nil _ _)
  | case2 => exact more
  | case3 => exact more

theorem Grammar.resume_ne_nil (insideBlock : Bool) (start : List Token) {tokens : List Token} (more : tokens ≠ []) :
    Grammar.resume insideBlock start tokens ≠ [] := by
  unfold Grammar.resume
  refine Grammar.skipToDeclaration_ne_nil ?_
  split
  · exact drop_ne_nil more
  · exact more

-- The places of all that a production tells of, the fault in which it ends last.
def Parsed.places {α : Type} (parsed : Parsed α) : List Position :=
  parsed.reports.map (·.position) ++ match parsed.result with
    | .error report => [report.position]
    | .ok _ => []

theorem Parsed.places_ok {α : Type} (value : α) (rest : List Token) (reports : List Report) :
    (⟨.ok value, rest, reports⟩ : Parsed α).places = reports.map (·.position) := List.append_nil _

theorem Parsed.places_prefixed {α : Type} (reports : List Report) (parsed : Parsed α) :
    (parsed.prefixed reports).places = reports.map (·.position) ++ parsed.places := by
  unfold places prefixed
  rw [List.map_append, List.append_assoc]

namespace Parser
variable {α β σ : Type} {p q : Parser α} {next : α → Parser β} {since start : Position}

-- A production that reports nothing. A fault in which it ends is shown there or at `since`, a place in front.
class Quiet (since : Position) (p : Parser α) : Prop where
  silent : ∀ tokens, Ready tokens → since ≤ (head tokens).position → (p tokens).rest ≠ [] ∧ (p tokens).reports = [] ∧
    ∀ report, (p tokens).result = .error report →
      report.position = since ∨ Shown tokens (p tokens).rest report.position

-- From a token at `start` on a production tells of faults in order.
class Orderly (start : Position) (p : Parser α) : Prop where
  inOrder : ∀ tokens, Ready tokens → (head tokens).position = start →
    (p tokens).rest ≠ [] ∧ InOrder tokens (p tokens).rest (p tokens).places

namespace Quiet

instance pure (value : α) : Quiet since (Pure.pure value : Parser α) :=
  ⟨fun _ ready _ => ⟨ready.more, rfl, fun _ ended => by cases ended⟩⟩

instance bind [shrinks : Shrinks p] [first : Quiet since p] [behind : ∀ value, Quiet since (next value)] :
    Quiet since (p >>= next) := by
  constructor
  intro tokens ready before
  obtain ⟨more, silent, blames⟩ := first.silent tokens ready before
  have suffix := shrinks.suffix tokens
  cases ran : p tokens with
  | mk result rest reports =>
      rw [ran] at more silent blames suffix
      cases silent
      cases result with
      | error report =>
          rw [run_bind_error ran]
          refine ⟨more, rfl, fun _ ended => ?_⟩
          cases ended
          exact blames report rfl
      | ok value =>
          rw [run_bind ran]
          obtain ⟨left, silent, blames⟩ := (behind value).silent rest (ready.suffix suffix more)
            (before.trans (ready.onward suffix more))
          exact ⟨left, silent, fun report ended => (blames report ended).imp_right (·.widen suffix)⟩

-- A fault shown by the current token may be told of later.
theorem of_current {next : Token → Parser β} (shrinks : Shrinks (current >>= next))
    (each : ∀ token, Quiet token.position (next token)) : Quiet since (current >>= next) := by
  constructor
  intro tokens ready before
  obtain ⟨more, silent, blames⟩ := (each (head tokens)).silent tokens ready (le_refl _)
  refine ⟨more, silent, fun report ended => .inr ?_⟩
  rcases blames report ended with same | shown
  · exact same ▸ shown_head ready (shrinks.suffix tokens) more
  · exact shown

instance loop {step : σ → Parser (Turn σ α)} [shrinks : ∀ state, Shrinks (step state)]
    [each : ∀ state, Quiet since (step state)] (state : σ) : Quiet since (Parser.loop step state) := by
  constructor
  intro tokens
  fun_induction Parser.loop step state tokens with
  | case1 state tokens turn report failed =>
      intro ready before
      obtain ⟨more, silent, blames⟩ := (each state).silent tokens ready before
      refine ⟨more, silent, fun _ ended => ?_⟩
      cases ended
      exact blames report failed
  | case2 state tokens turn value ended =>
      intro ready before
      obtain ⟨more, silent, _⟩ := (each state).silent tokens ready before
      exact ⟨more, silent, fun _ ended => by cases ended⟩
  | case3 state tokens turn next again shorter others ih =>
      intro ready before
      obtain ⟨more, silent, _⟩ := (each state).silent tokens ready before
      have suffix := (shrinks state).suffix tokens
      obtain ⟨left, silent', blames⟩ := ih (ready.suffix suffix more) (before.trans (ready.onward suffix more))
      refine ⟨left, List.append_eq_nil_iff.mpr ⟨silent, silent'⟩, fun report ended => ?_⟩
      exact (blames report ended).imp_right (·.widen suffix)
  | case4 state tokens turn next again stalled =>
      intro ready before
      obtain ⟨more, silent, _⟩ := (each state).silent tokens ready before
      have suffix := (shrinks state).suffix tokens
      refine ⟨more, silent, fun _ ended => ?_⟩
      cases ended
      exact .inr ((shown_head (ready.suffix suffix more) (List.suffix_refl _) more).widen suffix)

instance ite {c : Prop} [Decidable c] [yes : Quiet since p] [no : Quiet since q] :
    Quiet since (if c then p else q) := by
  split
  · exact yes
  · exact no

-- For parts that are not found as instances.
theorem of_bind [Shrinks p] (first : Quiet since p) (behind : ∀ value, Quiet since (next value)) :
    Quiet since (p >>= next) := bind

instance current : Quiet since Parser.current := ⟨fun _ ready _ => ⟨ready.more, rfl, fun _ ended => by cases ended⟩⟩

instance following : Quiet since Parser.following := ⟨fun _ ready _ => ⟨ready.more, rfl, fun _ ended => by cases ended⟩⟩

instance advance : Quiet since Parser.advance :=
  ⟨fun _ ready _ => ⟨drop_ne_nil ready.more, rfl, fun _ ended => by cases ended⟩⟩

instance skipWhile (q : Token → Bool) : Quiet since (Parser.skipWhile q) :=
  ⟨fun _ ready _ => ⟨dropWhile_ne_nil ready.more, rfl, fun _ ended => by cases ended⟩⟩

instance failAt (fault : Fault) : Quiet since (failAt since fault : Parser α) :=
  ⟨fun _ ready _ => ⟨ready.more, rfl, fun _ ended => .inl (by cases ended; rfl)⟩⟩

instance skipNewlinesBeforeBrace : Quiet since Parser.skipNewlinesBeforeBrace := by
  constructor
  intro tokens ready before
  unfold Parser.skipNewlinesBeforeBrace
  refine ⟨?_, rfl, fun _ ended => by cases ended⟩
  dsimp only
  split
  · exact dropWhile_ne_nil ready.more
  · exact ready.more

instance fail (fault : Fault) : Quiet since (fail fault : Parser α) := by
  exact of_current (inferInstanceAs (Shrinks (Parser.fail fault))) fun token => inferInstance

-- Nothing is read behind a fault.
instance fail_bind (fault : Fault) : Quiet since (Parser.fail fault >>= next) :=
  ⟨(inferInstance : Quiet since (Parser.fail fault : Parser β)).silent⟩

instance isAt (kind : TokenKind) (value : String) : Quiet since (isAt kind value) := by
  unfold Parser.isAt; infer_instance

instance accept (kind : TokenKind) (value : String) : Quiet since (accept kind value) := by
  unfold Parser.accept; infer_instance

instance expect (kind : TokenKind) (value : String) : Quiet since (expect kind value) := by
  unfold Parser.expect; infer_instance

instance skipNewlines : Quiet since skipNewlines := by unfold Parser.skipNewlines; infer_instance

instance skipSeparators : Quiet since skipSeparators := by unfold Parser.skipSeparators; infer_instance

instance skipListSeparators : Quiet since skipListSeparators := by unfold Parser.skipListSeparators; infer_instance

instance name (what : String) : Quiet since (Parser.name what) := by
  unfold Parser.name
  refine of_bind inferInstance fun token => ?_
  split <;> infer_instance

instance string (what : String) : Quiet since (Parser.string what) := by unfold Parser.string; infer_instance

instance nameOrString (what : String) : Quiet since (Parser.nameOrString what) := by
  unfold Parser.nameOrString; infer_instance

instance message? : Quiet since Parser.message? := by unfold Parser.message?; infer_instance

instance after? (kind : TokenKind) (mark : String) [Shrinks p] [Quiet since p] :
    Quiet since (Parser.after? kind mark p) := by
  unfold Parser.after?; infer_instance

-- The fault of the token that was expected may be told of later too.
theorem of_expect {kind : TokenKind} {value : String} {next : Token → Parser β}
    (shrinks : Shrinks (Parser.expect kind value >>= next)) (each : ∀ token, Quiet token.position (next token)) :
    Quiet since (Parser.expect kind value >>= next) := by
  constructor
  intro tokens ready before
  have suffix := shrinks.suffix tokens
  by_cases found : (head tokens).is kind value = true
  · rw [run_bind (run_expect_head.trans (if_pos found))] at suffix ⊢
    have inner := Shrinks.drop_suffix tokens
    obtain ⟨more, silent, blames⟩ := (each (head tokens)).silent (drop tokens)
      (ready.suffix inner (drop_ne_nil ready.more)) (ready.onward inner (drop_ne_nil ready.more))
    refine ⟨more, silent, fun report ended => .inr ?_⟩
    rcases blames report ended with same | shown
    · exact same ▸ shown_head ready suffix more
    · exact shown.widen inner
  · rw [run_bind_error (run_expect_head.trans (if_neg found))]
    refine ⟨ready.more, rfl, fun _ ended => ?_⟩
    cases ended
    exact .inr (shown_head ready (List.suffix_refl _) ready.more)

end Quiet

namespace Orderly

-- Without reports there is at most the fault at the end.
instance quiet [quiet : Quiet start p] [shrinks : Shrinks p] : Orderly start p := by
  constructor
  intro tokens ready stands
  obtain ⟨more, silent, blames⟩ := quiet.silent tokens ready (le_of_eq stands.symm)
  refine ⟨more, ?_⟩
  unfold Parsed.places
  rw [silent]
  cases ended : (p tokens).result with
  | ok value => exact inOrder_nil _ _
  | error report =>
      refine inOrder_singleton ?_
      rcases blames report ended with same | shown
      · exact same ▸ stands ▸ shown_head ready (shrinks.suffix tokens) more
      · exact shown

instance bind [shrinks : Shrinks p] [first : Orderly start p] [each : ∀ value, Shrinks (next value)]
    [behind : ∀ value start, Orderly start (next value)] : Orderly start (p >>= next) := by
  constructor
  intro tokens ready stands
  obtain ⟨more, ordered⟩ := first.inOrder tokens ready stands
  have suffix := shrinks.suffix tokens
  cases ran : p tokens with
  | mk result rest reports =>
      rw [ran] at more ordered suffix
      cases result with
      | error report =>
          rw [run_bind_error ran]
          exact ⟨more, ordered⟩
      | ok value =>
          rw [run_bind_ok ran]
          obtain ⟨left, ordered'⟩ := (behind value _).inOrder rest (ready.suffix suffix more) rfl
          refine ⟨left, ?_⟩
          rw [Parsed.places_prefixed]
          rw [Parsed.places_ok] at ordered
          exact ordered.append ready suffix more ((each value).suffix rest) left ordered'

theorem of_current {next : Token → Parser β} (each : ∀ token, Orderly token.position (next token)) :
    Orderly start (current >>= next) :=
  ⟨fun tokens ready _ => (each (head tokens)).inOrder tokens ready rfl⟩

instance ite {c : Prop} [Decidable c] [yes : Orderly start p] [no : Orderly start q] :
    Orderly start (if c then p else q) := by
  split
  · exact yes
  · exact no

instance loop {step : σ → Parser (Turn σ α)} [shrinks : ∀ state, Shrinks (step state)]
    [each : ∀ state start, Orderly start (step state)] (state : σ) : Orderly start (Parser.loop step state) := by
  constructor
  rintro tokens ready -
  induction size : tokens.length using Nat.strongRecOn generalizing tokens state with
  | ind length ih =>
  subst size
  obtain ⟨more, ordered⟩ := (each state _).inOrder tokens ready rfl
  have suffix := (shrinks state).suffix tokens
  cases ran : step state tokens with
  | mk result rest reports =>
  rw [ran] at more ordered suffix
  have readyThere := ready.suffix suffix more
  cases result with
  | error report =>
      rw [run_loop_error ran]
      exact ⟨more, ordered⟩
  | ok turn =>
      rw [Parsed.places_ok] at ordered
      cases turn with
      | done value =>
          rw [run_loop_done ran, Parsed.places_ok]
          exact ⟨more, ordered⟩
      | again next =>
          by_cases shorter : rest.length < tokens.length
          · rw [run_loop_again ran shorter, Parsed.places_prefixed]
            obtain ⟨left, ordered'⟩ := ih rest.length shorter next rest readyThere rfl
            have inner := Shrinks.suffix (p := Parser.loop step next) rest
            exact ⟨left, ordered.append ready suffix more inner left ordered'⟩
          · rw [run_loop_stalled ran shorter]
            have last := inOrder_singleton (shown_head readyThere (List.suffix_refl rest) more)
            exact ⟨more, ordered.append ready suffix more (List.suffix_refl rest) more last⟩

-- Where reading goes on behind a fault, all that was told of stands in front.
instance recover [shrinks : Shrinks p] [whole : Orderly start p] (instead : α) (insideBlock : Bool) :
    Orderly start (Parser.recover instead p (Grammar.resume insideBlock)) := by
  constructor
  intro tokens ready stands
  obtain ⟨more, ordered⟩ := whole.inOrder tokens ready stands
  have suffix := shrinks.suffix tokens
  unfold Parser.recover
  cases ran : p tokens with
  | mk result rest reports =>
  rw [ran] at more ordered suffix
  cases result with
  | ok value => exact ⟨more, ordered⟩
  | error report =>
      have left := Grammar.resume_ne_nil insideBlock tokens more
      have told := ordered.later (ready.suffix suffix more) (Grammar.resume_suffix insideBlock tokens rest) left
      refine ⟨left, ?_⟩
      rw [Parsed.places_ok, List.map_append]
      exact told

-- The current token is reported and taken.
theorem reported (fault : Fault) (value : α) : Orderly start (do
    let _ ← advance
    report ⟨fault, start⟩
    return value) := by
  constructor
  intro tokens ready stands
  have ran : (do
      let _ ← advance
      report ⟨fault, start⟩
      return value : Parser α) tokens = ⟨.ok value, drop tokens, [⟨fault, start⟩]⟩ := rfl
  have more := drop_ne_nil ready.more
  rw [ran, Parsed.places_ok]
  exact ⟨more, inOrder_singleton (stands ▸ shown_head ready (Shrinks.drop_suffix tokens) more)⟩

instance declaredName (what : String) : Orderly start (Parser.declaredName what) := by
  unfold Parser.declaredName
  refine of_current fun token => ?_
  split
  · infer_instance
  · exact reported _ _
  · infer_instance

end Orderly
end Parser
end Source
end Charter

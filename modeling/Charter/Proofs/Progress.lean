import Charter.Proofs.Consumption

/-!
A text is read to its end. A declaration that is read takes its first word, one that fails is passed over, and
so no turn of the repetition over a text leaves all of it behind.
-/

namespace Charter.Source
open Charter.Source.Parser

set_option synthInstance.maxSize 100000

namespace Parser
variable {α β : Type} {p q : Parser α} {next : α → Parser β}

-- Whatever is read takes the first token, where another one stands behind it.
class Takes (p : Parser α) : Prop where
  suffix : ∀ first second rest value, (p (first :: second :: rest)).result = .ok value →
    (p (first :: second :: rest)).rest <:+ second :: rest

namespace Takes

instance bind [takes : Takes p] [behind : ∀ value, Shrinks (next value)] : Takes (p >>= next) := by
  constructor
  intro first second rest value read
  cases ran : p (first :: second :: rest) with
  | mk result rest' reports =>
      cases result with
      | error report =>
          rw [run_bind_error ran] at read
          cases read
      | ok middle =>
          have taken := takes.suffix first second rest middle (congrArg Parsed.result ran)
          rw [ran] at taken
          rw [run_bind_ok ran]
          exact ((behind middle).suffix rest').trans taken

instance current_bind {next : Token → Parser β} [each : ∀ token, Takes (next token)] : Takes (current >>= next) :=
  ⟨fun first second rest value read => (each first).suffix first second rest value read⟩

theorem of_current {next : Token → Parser β} (each : ∀ token, Takes (next token)) : Takes (current >>= next) :=
  current_bind

instance ite {c : Prop} [Decidable c] [yes : Takes p] [no : Takes q] : Takes (if c then p else q) := by
  split
  · exact yes
  · exact no

instance advance : Takes Parser.advance := ⟨fun _ second rest _ _ => List.suffix_refl (second :: rest)⟩

instance failAt (position : Position) (fault : Fault) : Takes (failAt position fault : Parser α) :=
  ⟨fun _ _ _ _ read => by cases read⟩

instance fail (fault : Fault) : Takes (fail fault : Parser α) := ⟨fun _ _ _ _ read => by cases read⟩

-- Nothing is read behind a fault.
instance fail_bind (fault : Fault) : Takes (Parser.fail fault >>= next) := ⟨fun _ _ _ _ read => by cases read⟩

instance expect (kind : TokenKind) (value : String) : Takes (expect kind value) := by
  unfold Parser.expect; infer_instance

end Takes
end Parser

namespace Grammar
variable (limit : Nat)

instance (word : String) : Takes (keyword word) := by unfold keyword; infer_instance

instance : Takes (module limit) := by unfold module; infer_instance

instance : Takes (entity limit) := by unfold entity; infer_instance

instance : Takes (command limit) := by unfold command; infer_instance

instance : Takes (policy limit) := by unfold policy; infer_instance

instance : Takes (store limit) := by unfold store; infer_instance

instance : Takes (event limit) := by unfold event; infer_instance

instance : Takes (flow limit) := by unfold flow; infer_instance

instance : Takes (effect limit) := by unfold effect; infer_instance

instance : Takes exposure := by unfold exposure; infer_instance

instance : Takes composition := by unfold composition; infer_instance

instance (m : Module) : Takes (moduleMember limit m) := by
  unfold moduleMember
  refine .of_current fun token => ?_
  split <;> infer_instance

instance (program : Program) : Takes (declaration limit program) := by
  unfold declaration
  refine .of_current fun token => @Takes.ite _ _ _ _ _ inferInstance ?_
  dsimp only
  split <;> infer_instance

end Grammar

-- Nothing but an end token stands last.
def Terminated (tokens : List Token) : Prop := ∀ token, tokens.getLast? = some token → token.kind = .endOfInput

theorem terminated_append {tokens : List Token} {token : Token} (ended : token.kind = .endOfInput) :
    Terminated (tokens ++ [token]) := by
  intro last found
  rw [List.getLast?_concat] at found
  cases found
  exact ended

-- Whatever a list of tokens is, an end is put behind it.
theorem terminates (tokens : List Token) : Terminated (terminated tokens) ∧ terminated tokens ≠ [] := by
  unfold terminated
  cases last : tokens.getLast? with
  | none => exact ⟨fun token found => (by cases found; rfl), List.cons_ne_nil _ _⟩
  | some token =>
      dsimp only
      split
      · next isEnd =>
        refine ⟨fun other found => ?_, fun none => ?_⟩
        · cases last.symm.trans found
          exact eq_of_beq isEnd
        · rw [none] at last
          cases last
      · exact ⟨terminated_append rfl, List.append_ne_nil_of_right_ne_nil _ (List.cons_ne_nil _ _)⟩

theorem Terminated.suffix {rest tokens : List Token} (ended : Terminated tokens) (suffix : rest <:+ tokens) :
    Terminated rest := by
  intro last found
  obtain ⟨before, rfl⟩ := suffix
  apply ended
  rw [List.getLast?_append, found]
  rfl

-- Behind a token that does not end the text stands another one.
theorem Terminated.more {tokens : List Token} (ended : Terminated tokens) (going : (head tokens).kind ≠ .endOfInput) :
    ∃ first second rest, tokens = first :: second :: rest := by
  match tokens with
  | [] => exact absurd rfl going
  | [last] => exact absurd (ended last rfl) going
  | first :: second :: rest => exact ⟨first, second, rest, rfl⟩

theorem Terminated.behind {tokens : List Token} (ended : Terminated tokens) (more : tokens ≠ []) (before : List Token) :
    Terminated (before ++ tokens) := by
  intro last found
  rw [List.getLast?_append, List.getLast?_eq_some_getLast more, Option.some_or] at found
  exact ended last ((List.getLast?_eq_some_getLast more).trans found)

namespace Grammar
variable (limit : Nat)

-- One turn of the repetition over a text.
def programTurn (program : Program) : Parser (Turn Program Program) := do
  skipSeparators
  if (← current).kind == .endOfInput then return .done program
  return .again (← recover program (declaration limit program) (resume false))

theorem program_eq : Grammar.program limit = loop (programTurn limit) {} := rfl

-- One turn of the repetition in a module.
def moduleTurn (name : String) (m : Module) : Parser (Turn Module Module) := do
  skipSeparators
  if ← accept .punctuation "\x7d" then return .done m
  notEnded "module" name
  return .again (← recover m (moduleMember limit m) (resume true))

theorem module_eq : Grammar.module limit = (do
    let position := (← keyword "module").position
    let name ← declaredName "module"
    skipNewlines
    let _ ← expect .punctuation "\x7b"
    loop (moduleTurn limit name) { name, position }) := rfl

theorem programTurn_skip (program : Program) (tokens : List Token) : programTurn limit program tokens =
    (if (head (dropWhile isSeparator tokens)).kind == .endOfInput then pure (.done program)
      else (do return .again (← recover program (declaration limit program) (resume false)))
      : Parser (Turn Program Program)) (dropWhile isSeparator tokens) := rfl

-- A turn in front of the end, and one in front of something else.

theorem programTurn_done {program : Program} {tokens : List Token}
    (ended : (head (dropWhile isSeparator tokens)).kind = .endOfInput) :
    programTurn limit program tokens = ⟨.ok (.done program), dropWhile isSeparator tokens, []⟩ := by
  rw [programTurn_skip, ended]
  rfl

theorem programTurn_again {program next : Program} {tokens rest : List Token} {reports : List Report}
    (going : (head (dropWhile isSeparator tokens)).kind ≠ .endOfInput)
    (ran : recover program (declaration limit program) (resume false) (dropWhile isSeparator tokens) =
      ⟨.ok next, rest, reports⟩) : programTurn limit program tokens = ⟨.ok (.again next), rest, reports⟩ := by
  rw [programTurn_skip, if_neg (mt beq_iff_eq.mp going), run_bind_ok ran]
  exact congrArg (Parsed.mk _ _) (List.append_nil reports)

-- Where something else than the end stands, what is read or the passing over it takes a token.
theorem recover_takes {α : Type} {p : Parser α} [shrinks : Shrinks p] [takes : Takes p] (instead : α)
    (insideBlock : Bool) {tokens : List Token} (ended : Terminated tokens) (going : (head tokens).kind ≠ .endOfInput) :
    ∃ next rest reports, recover instead p (resume insideBlock) tokens = ⟨.ok next, rest, reports⟩ ∧
      rest.length < tokens.length := by
  obtain ⟨first, second, behind, rfl⟩ := ended.more going
  have shorter {rest : List Token} (suffix : rest <:+ second :: behind) :
      rest.length < (first :: second :: behind).length := Nat.lt_succ_of_le suffix.length_le
  have suffix := shrinks.suffix (first :: second :: behind)
  have takes := takes.suffix first second behind
  unfold recover
  cases ran : p (first :: second :: behind) with
  | mk result rest reports =>
      rw [ran] at suffix takes
      cases result with
      | ok next => exact ⟨next, rest, reports, rfl, shorter (takes next rfl)⟩
      | error report =>
          refine ⟨instead, _, _, rfl, shorter ?_⟩
          rcases List.suffix_cons_iff.mp suffix with rfl | suffix
          · -- Nothing was taken: the first token is passed over.
            unfold resume
            dsimp only
            rw [Nat.sub_self]
            exact skipToDeclaration_suffix ..
          · exact (resume_suffix ..).trans suffix

theorem programTurn_takes (program : Program) {tokens : List Token} (ended : Terminated tokens) :
    (∃ rest, programTurn limit program tokens = ⟨.ok (.done program), rest, []⟩ ∧ (head rest).kind = .endOfInput) ∨
    ∃ next rest reports, programTurn limit program tokens = ⟨.ok (.again next), rest, reports⟩ ∧
      rest <:+ tokens ∧ rest.length < tokens.length := by
  have suffix := Shrinks.dropWhile_suffix isSeparator tokens
  by_cases going : (head (dropWhile isSeparator tokens)).kind = .endOfInput
  · exact .inl ⟨_, programTurn_done limit going, going⟩
  · obtain ⟨next, rest, reports, ran, shorter⟩ :=
      recover_takes (p := declaration limit program) program false (ended.suffix suffix) going
    have behind := Shrinks.suffix (p := recover program (declaration limit program) (resume false))
      (dropWhile isSeparator tokens)
    rw [ran] at behind
    exact .inr ⟨next, rest, reports, programTurn_again limit going ran, behind.trans suffix,
      Nat.lt_of_lt_of_le shorter suffix.length_le⟩

-- However a text is written, reading it gives a program, and ends where the text does.
theorem loop_programTurn_ok (program : Program) {tokens : List Token} (ended : Terminated tokens) :
    ∃ last rest reports, loop (programTurn limit) program tokens = ⟨.ok last, rest, reports⟩ ∧
      (head rest).kind = .endOfInput := by
  induction size : tokens.length using Nat.strongRecOn generalizing tokens program with
  | ind length ih =>
  subst size
  rcases programTurn_takes limit program ended with ⟨rest, ran, last⟩ | ⟨next, rest, reports, ran, suffix, shorter⟩
  · exact ⟨program, rest, [], run_loop_done ran, last⟩
  · obtain ⟨program', rest', reports', read, last⟩ := ih rest.length shorter next (ended.suffix suffix) rfl
    exact ⟨program', rest', reports ++ reports', by rw [run_loop_again ran shorter, read]; rfl, last⟩

end Grammar

theorem Terminated.terminated {tokens : List Token} (ended : Terminated tokens) (more : tokens ≠ []) :
    Source.terminated tokens = tokens := by
  have found := List.getLast?_eq_some_getLast more
  unfold Source.terminated
  rw [found]
  exact if_pos (beq_iff_eq.mpr (ended _ found))

-- The program of a text that ends is what the repetition ends with.
theorem Program.ofTokens_eq {limit : Nat} {tokens rest : List Token} {program : Program} {reports : List Report}
    (ended : Terminated tokens) (more : tokens ≠ [])
    (read : loop (Grammar.programTurn limit) {} tokens = ⟨.ok program, rest, reports⟩) :
    ofTokens limit tokens = (program, reports) := by
  unfold ofTokens
  rw [ended.terminated more, Grammar.program_eq, read]

-- The faults of a text that ends are those that the repetition tells.
theorem Program.ofTokens_reports (limit : Nat) {tokens : List Token} (ended : Terminated tokens) (more : tokens ≠ []) :
    (ofTokens limit tokens).2 = (loop (Grammar.programTurn limit) {} tokens).reports := by
  obtain ⟨program, rest, reports, read, _⟩ := Grammar.loop_programTurn_ok limit {} ended
  rw [ofTokens_eq ended more read, read]

end Charter.Source

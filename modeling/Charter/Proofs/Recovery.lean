import Charter.Proofs.Progress
import Charter.Proofs.Resumption

/-!
Reading a text whose brackets are all closed, and then a declaration behind it: whatever is wrong with the text,
the declarations of both are found, and the faults of what follows are those that it has on its own.
-/

namespace Charter.Source
open Charter.Source.Parser

def Parsed.map {α β : Type} (f : α → β) (parsed : Parsed α) : Parsed β :=
  { parsed with result := parsed.result.map f }

def Turn.map {σ : Type} (f : σ → σ) (turn : Turn σ σ) : Turn σ σ :=
  match turn with
  | .again state => .again (f state)
  | .done state => .done (f state)

namespace Parser
variable {α β σ : Type}

-- A production that does what another one does, and changes its value.
def Follows (f : α → α) (p' p : Parser α) : Prop := ∀ tokens, p' tokens = (p tokens).map f

namespace Follows
variable {f : β → β} {p : Parser α} {next next' : α → Parser β}

theorem bind (behind : ∀ value, Follows f (next' value) (next value)) : Follows f (p >>= next') (p >>= next) := by
  intro tokens
  cases ran : p tokens with
  | mk result rest reports =>
      cases result with
      | error report => rw [run_bind_error ran, run_bind_error ran]; rfl
      | ok value => rw [run_bind_ok ran, run_bind_ok ran, behind value]; rfl

theorem recover {q' q : Parser β} (same : Follows f q' q) (instead : β)
    (resume : List Token → List Token → List Token) :
    Follows f (Parser.recover (f instead) q' resume) (Parser.recover instead q resume) := by
  intro tokens
  unfold Parser.recover
  rw [same]
  cases ran : q tokens with
  | mk result rest reports => cases result <;> rfl

theorem again {f : σ → σ} {q' q : Parser σ} (same : Follows f q' q) :
    Follows (Turn.map f : Turn σ σ → Turn σ σ) (do return .again (← q')) (do return .again (← q)) := by
  intro tokens
  have ran' := same tokens
  cases ran : q tokens with
  | mk result rest reports =>
      rw [ran] at ran'
      cases result with
      | error report => rw [run_bind_error ran, run_bind_error ran']; rfl
      | ok value => rw [run_bind_ok ran, run_bind_ok ran']; rfl

theorem loop {f : σ → σ} {step : σ → Parser (Turn σ σ)}
    (same : ∀ state, Follows (Turn.map f) (step (f state)) (step state)) (state : σ) :
    Follows f (Parser.loop step (f state)) (Parser.loop step state) := by
  intro tokens
  induction size : tokens.length using Nat.strongRecOn generalizing tokens state with
  | ind length ih =>
  subst size
  have ran' := same state tokens
  cases ran : step state tokens with
  | mk result rest reports =>
      rw [ran] at ran'
      cases result with
      | error report =>
          change step (f state) tokens = ⟨.error report, rest, reports⟩ at ran'
          rw [Parser.loop, Parser.loop.eq_def step state, ran, ran']
          rfl
      | ok turn =>
          change step (f state) tokens = ⟨.ok (turn.map f), rest, reports⟩ at ran'
          cases turn with
          | done value =>
              rw [Parser.loop, Parser.loop.eq_def step state, ran, ran']
              rfl
          | again next =>
              by_cases shorter : rest.length < tokens.length
              · rw [run_loop_again ran shorter, run_loop_again ran' shorter, ih rest.length shorter next rest rfl]
                rfl
              · rw [Parser.loop, Parser.loop.eq_def step state, ran, ran']
                dsimp only [Turn.map]
                rw [if_neg shorter, if_neg shorter]
                rfl

end Follows
end Parser

-- The declarations of two texts, kind by kind.
def Program.append (first second : Program) : Program where
  modules := first.modules ++ second.modules
  entities := first.entities ++ second.entities
  commands := first.commands ++ second.commands
  policies := first.policies ++ second.policies
  stores := first.stores ++ second.stores
  events := first.events ++ second.events
  flows := first.flows ++ second.flows
  effects := first.effects ++ second.effects
  exposures := first.exposures ++ second.exposures
  compositions := first.compositions ++ second.compositions

theorem Program.append_empty (program : Program) : program.append {} = program := by
  simp only [Program.append, List.append_nil]

namespace Grammar
variable (limit : Nat)

-- A declaration is added behind those that were read before, and reading it does not depend on them.
theorem declaration_append (first second : Program) :
    Follows first.append (declaration limit (first.append second)) (declaration limit second) := by
  have added {α : Type} {p : Parser α} {add add' : α → Program} (same : ∀ value, add' value = first.append (add value)) :
      Follows first.append (do return add' (← p)) (do return add (← p)) :=
    .bind fun value tokens => congrArg (fun program => Parsed.mk (.ok program) tokens []) (same value)
  unfold declaration
  refine .bind fun token => ?_
  dsimp only
  generalize token.value = word
  split
  · exact fun _ => rfl
  · split
    case h_11 => exact fun _ => rfl
    all_goals exact added fun value => by simp only [Program.append, List.append_assoc]

theorem programTurn_append (first second : Program) :
    Follows (Turn.map first.append) (programTurn limit (first.append second)) (programTurn limit second) := by
  unfold programTurn
  refine .bind fun _ => .bind fun token => ?_
  split
  · exact fun _ => rfl
  · exact ((declaration_append limit first second).recover second (resume false)).again

-- What is skipped first does not change the rest of the reading.
theorem loop_programTurn_skip (program : Program) {tokens rest : List Token} (ended : Terminated rest)
    (same : dropWhile isSeparator tokens = dropWhile isSeparator rest) (size : rest.length ≤ tokens.length) :
    loop (programTurn limit) program tokens = loop (programTurn limit) program rest := by
  have turn : programTurn limit program tokens = programTurn limit program rest := by
    rw [programTurn_skip, programTurn_skip, same]
  rcases programTurn_takes limit program ended with ⟨last, ran, _⟩ | ⟨next, behind, reports, ran, _, shorter⟩
  · rw [loop, loop.eq_def _ program rest, turn, ran]
  · rw [run_loop_again ran shorter, run_loop_again (turn.trans ran) (Nat.lt_of_lt_of_le shorter size)]

-- What a declaration tells is told by the reading of the text.
theorem loop_programTurn_tells (program : Program) {tokens behind : List Token}
    (skipped : dropWhile isSeparator tokens = behind) (going : (head behind).kind ≠ .endOfInput) :
    (recover program (declaration limit program) (resume false) behind).reports ⊆
      (loop (programTurn limit) program tokens).reports := by
  have turn : programTurn limit program tokens =
      (do return .again (← recover program (declaration limit program) (resume false)) : Parser (Turn Program Program))
        behind := by
    rw [programTurn_skip, skipped, if_neg (mt beq_iff_eq.mp going)]
  have first := reports_bind (recover program (declaration limit program) (resume false))
    (fun next => (pure (.again next) : Parser (Turn Program Program))) behind
  have all := reports_loop (programTurn limit) program tokens
  rw [turn] at all
  exact (first.trans all).subset

-- How a turn ends that begins in a closed text with a newline and a boundary behind it: at a place of the text; at the
-- boundary, passing over a declaration; where a parameter is wanted, if parentheses may be open; or nothing but
-- separators is left of the text.
inductive TurnEnds (brackets : Brackets) (place : Position) (program : Program) (tokens : List Token) : Prop
  | stays (next : Program) (behind : List Token) (reports : List Report) (within : Within brackets false behind)
      (suffix : behind <:+ tokens) (shorter : behind.length < tokens.length)
      (runs : ∀ after, Boundary after → programTurn limit program (tokens ++ newlineAt place :: after) =
        ⟨.ok (.again next), behind ++ newlineAt place :: after, reports⟩)
  | reaches (count : Nat)
      (runs : ∀ after, Boundary after → ∃ reports, reports.length = count ∧
        programTurn limit program (tokens ++ newlineAt place :: after) = ⟨.ok (.again program), after, reports⟩)
  | wants (loose : brackets = .butParentheses)
      (demanded : Demanded (loop (programTurn limit) program) (tokens ++ [newlineAt place]))
  | passes (skips : ∀ after, Boundary after → dropWhile isSeparator (tokens ++ newlineAt place :: after) = after)

theorem programTurn_ends {brackets : Brackets} (place : Position) (program : Program) {tokens : List Token}
    (within : Within brackets false tokens) (going : ∀ token ∈ tokens, token.kind ≠ .endOfInput) :
    TurnEnds limit brackets place program tokens := by
  obtain ⟨awaited, nested, _⟩ := within
  rcases Passes.skip (q := isSeparator) nested with ⟨first, rest, nested', _, skips⟩ | ⟨_, skips⟩
  · have goes (after : List Token) :
        (head (dropWhile isSeparator (tokens ++ newlineAt place :: after))).kind ≠ .endOfInput := by
      have skipped := Shrinks.dropWhile_suffix isSeparator (tokens ++ [newlineAt place])
      rw [skips place []] at skipped
      rw [skips place after]
      exact going first ((List.suffix_append_self_iff.mp skipped).mem List.mem_cons_self)
    have stays : Stays brackets (declaration limit program) := inferInstance
    have ends := @stays.ends place awaited (first :: rest) nested'
    cases recover_ends program nested' ends (Nat.zero_le _) (Nat.zero_le _) nofun with
    | stays next behind reports within runs =>
        have turn (after : List Token) (boundary : Boundary after) :
            programTurn limit program (tokens ++ newlineAt place :: after) =
              ⟨.ok (.again next), behind ++ newlineAt place :: after, reports⟩ :=
          programTurn_again limit (goes after) (by rw [skips]; exact runs after boundary)
        -- That a token was taken does not depend on what follows.
        have boundary : Boundary [.endAt place] := ⟨_, _, rfl, .inl rfl⟩
        have ended : Terminated (tokens ++ newlineAt place :: [.endAt place]) := by
          rw [List.append_cons]
          exact terminated_append rfl
        rcases programTurn_takes limit program ended with ⟨_, ran, _⟩ | ⟨_, _, _, ran, suffix, shorter⟩
        · cases (turn _ boundary).symm.trans ran
        · cases (turn _ boundary).symm.trans ran
          exact .stays next behind reports within (List.suffix_append_self_iff.mp suffix) (by simpa using shorter) turn
    | reaches _ count runs =>
        refine .reaches count fun after boundary => ?_
        obtain ⟨reports, same, ran⟩ := runs after boundary
        exact ⟨reports, same, programTurn_again limit (goes after) (by rw [skips]; exact ran)⟩
    | wants _ loose demanded =>
        refine .wants loose (demanded.behind fun after _ => ?_)
        rw [← List.append_cons, ← List.append_cons]
        exact loop_programTurn_tells limit program (skips place after) (by rw [← skips place after]; exact goes after)
  · exact .passes (skips place)

-- A closed text is read to its boundary, with a program that does not depend on what follows, or, if parentheses may
-- be open, a parameter is wanted there.
theorem loop_programTurn_ends {brackets : Brackets} (place : Position) (program : Program) {tokens : List Token}
    (within : Within brackets false tokens) (going : ∀ token ∈ tokens, token.kind ≠ .endOfInput) :
    (∃ middle count, ∀ after, Boundary after → Terminated after → ∃ reports, reports.length = count ∧
      loop (programTurn limit) program (tokens ++ newlineAt place :: after) =
        (loop (programTurn limit) middle after).prefixed reports) ∨
    (brackets = .butParentheses ∧ Demanded (loop (programTurn limit) program) (tokens ++ [newlineAt place])) := by
  induction size : tokens.length using Nat.strongRecOn generalizing tokens program with
  | ind length ih =>
  subst size
  cases programTurn_ends limit place program within going with
  | stays next behind reports within suffix shorter runs =>
      have again (after : List Token) (boundary : Boundary after) :
          loop (programTurn limit) program (tokens ++ newlineAt place :: after) =
            (loop (programTurn limit) next (behind ++ newlineAt place :: after)).prefixed reports :=
        run_loop_again (runs after boundary) (by simpa using shorter)
      have going' := fun token member => going token (suffix.mem member)
      rcases ih behind.length shorter next within going' rfl with ⟨middle, count, reads⟩ | ⟨loose, demanded⟩
      · refine .inl ⟨middle, reports.length + count, fun after boundary ended => ?_⟩
        obtain ⟨reports', rfl, read⟩ := reads after boundary ended
        refine ⟨reports ++ reports', List.length_append, ?_⟩
        rw [again after boundary, read]
        simp only [Parsed.prefixed, List.append_assoc]
      · refine .inr ⟨loose, demanded.behind fun after boundary => ?_⟩
        rw [← List.append_cons, ← List.append_cons, again after boundary]
        exact List.subset_append_right _ _
  | reaches count runs =>
      refine .inl ⟨program, count, fun after boundary _ => ?_⟩
      obtain ⟨reports, same, ran⟩ := runs after boundary
      have shorter : after.length < (tokens ++ newlineAt place :: after).length := by
        rw [List.length_append, List.length_cons]
        omega
      exact ⟨reports, same, run_loop_again ran shorter⟩
  | wants loose demanded => exact .inr ⟨loose, demanded⟩
  | passes skips =>
      refine .inl ⟨program, 0, fun after boundary ended => ⟨[], rfl, ?_⟩⟩
      have same := (skips after boundary).trans (Passes.boundary (q := isSeparator) boundary).symm
      have longer : after.length ≤ (tokens ++ newlineAt place :: after).length := by
        rw [List.length_append, List.length_cons]
        omega
      rw [loop_programTurn_skip limit program ended same longer]
      rfl

end Grammar

-- Where a text is read to its boundary, declarations behind it are read as they are on their own, and as many faults
-- are told before theirs as the text has.
theorem program_append_of_reads (limit : Nat) (text others : List Token) (place : Position) (last : Token)
    {middle : Program} {count : Nat}
    (through : ∀ after, Boundary after → Terminated after → ∃ reports, reports.length = count ∧
      loop (Grammar.programTurn limit) {} (text ++ newlineAt place :: after) =
        (loop (Grammar.programTurn limit) middle after).prefixed reports)
    (begins : (head others).beginsDeclaration = true) (ended : last.kind = .endOfInput) :
    let whole := Program.ofTokens limit (text ++ newlineAt place :: (others ++ [last]))
    let first := Program.ofTokens limit (text ++ [newlineAt place, last])
    let second := Program.ofTokens limit (others ++ [last])
    whole.1 = first.1.append second.1 ∧ ∃ before, before.length = first.2.length ∧ whole.2 = before ++ second.2 := by
  intro whole first second
  -- Reading from a boundary gives the same as reading the whole, but for the faults of the text.
  have behind {after rest : List Token} {program : Program} {reports : List Report} (boundary : Boundary after)
      (ended : Terminated after) (read : loop (Grammar.programTurn limit) middle after = ⟨.ok program, rest, reports⟩) :
      ∃ before, before.length = count ∧
        Program.ofTokens limit (text ++ newlineAt place :: after) = (program, before ++ reports) := by
    obtain ⟨before, same, reads⟩ := through after boundary ended
    rw [read] at reads
    have more : after ≠ [] := by
      obtain ⟨token, rest, rfl, _⟩ := boundary
      exact List.cons_ne_nil token rest
    refine ⟨before, same, Program.ofTokens_eq ?_ (List.append_ne_nil_of_right_ne_nil text (List.cons_ne_nil _ _)) reads⟩
    rw [List.append_cons]
    exact ended.behind more _
  have lastEnds (tokens : List Token) : Terminated (tokens ++ [last]) := terminated_append ended
  have isFirst : ∃ before, before.length = count ∧ first = (middle, before ++ []) := by
    have kind : (head (dropWhile isSeparator [last])).kind = .endOfInput := ended
    have done : loop (Grammar.programTurn limit) middle [last] = ⟨.ok middle, [last], []⟩ := by
      rw [loop, Grammar.programTurn_done limit kind]
      rfl
    exact behind ⟨last, [], rfl, .inl ended⟩ (lastEnds []) done
  obtain ⟨program, rest, reports, read, _⟩ := Grammar.loop_programTurn_ok limit {} (lastEnds others)
  have isSecond : second = (program, reports) :=
    Program.ofTokens_eq (lastEnds others) (List.append_ne_nil_of_right_ne_nil others (List.cons_ne_nil _ _)) read
  have isWhole : ∃ before, before.length = count ∧ whole = (middle.append program, before ++ reports) := by
    have follows := Follows.loop (Grammar.programTurn_append limit middle) {} (others ++ [last])
    rw [read, Program.append_empty] at follows
    refine behind ?_ (lastEnds others) follows
    cases others with
    | nil => cases begins
    | cons token rest => exact ⟨token, rest ++ [last], rfl, .inr begins⟩
  obtain ⟨faults, sameFaults, isFirst⟩ := isFirst
  obtain ⟨before, sameBefore, isWhole⟩ := isWhole
  rw [isFirst, isSecond, isWhole, List.append_nil]
  exact ⟨rfl, before, sameBefore.trans sameFaults.symm, rfl⟩

-- Recovery is compositional. Behind a text whose brackets are closed, however else it is written, and a newline,
-- declarations are read as they are on their own.
theorem program_append (limit : Nat) (text others : List Token) (place : Position) (last : Token)
    (closed : Nested [] text) (textGoes : ∀ token ∈ text, token.kind ≠ .endOfInput)
    (begins : (head others).beginsDeclaration = true) (ended : last.kind = .endOfInput) :
    let whole := Program.ofTokens limit (text ++ newlineAt place :: (others ++ [last]))
    let first := Program.ofTokens limit (text ++ [newlineAt place, last])
    let second := Program.ofTokens limit (others ++ [last])
    whole.1 = first.1.append second.1 ∧ second.2 <:+ whole.2 := by
  intro whole first second
  rcases Grammar.loop_programTurn_ends limit place {} closed.place textGoes with ⟨_, _, through⟩ | ⟨loose, _⟩
  · obtain ⟨same, before, _, told⟩ := program_append_of_reads limit text others place last through begins ended
    exact ⟨same, before, told.symm⟩
  · cases loose

-- An entity without a name does not hide what stands behind it.
theorem composition_behind_nameless_entity :
    let word (value : String) : Token := ⟨.keyword, value, .nowhere⟩
    let mark (value : String) : Token := ⟨.punctuation, value, .nowhere⟩
    let text := [word "entity", mark "\x7b", mark "\x7d"]
    let others := [word "compose", ⟨.identifier, "All", .nowhere⟩, mark "\x7b", mark "\x7d"]
    let whole := Program.ofTokens 64 (text ++ newlineAt .nowhere :: (others ++ [.endAt .nowhere]))
    let first := Program.ofTokens 64 (text ++ [newlineAt .nowhere, .endAt .nowhere])
    let second := Program.ofTokens 64 (others ++ [.endAt .nowhere])
    Nested [] text ∧ (head others).beginsDeclaration = true ∧
      whole.1 = first.1.append second.1 ∧ second.2 <:+ whole.2 := by
  intro word mark text others whole first second
  have closed : Nested [] text := .plain (by decide) (.opening rfl rfl (@Nested.closing (mark "\x7d") [] [] rfl rfl .nil))
  exact ⟨closed, rfl, program_append 64 text others .nowhere (.endAt .nowhere) closed (by decide) rfl rfl⟩

end Charter.Source

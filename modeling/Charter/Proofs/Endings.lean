import Charter.Proofs.Brackets
import Charter.Proofs.Progress

/-!
How productions end. A text whose brackets are all closed is followed by a newline and then by the end or a
declaration. A production that begins in the text, behind some open brackets, takes no more than the text that these
close; or it fails, at the latest where the text ends, and in the same way whatever follows. The other way round, what
a production reads without a fault has its brackets closed. Both are so of a sequence and of a repetition, if they are
so of their parts.
-/

namespace Charter.Source
open Charter.Source.Parser

def newlineAt (place : Position) : Token := ⟨.newline, "\n", place⟩

-- What may follow a text: the end, or a declaration.
def Boundary (tokens : List Token) : Prop :=
  ∃ token rest, tokens = token :: rest ∧ (token.kind = .endOfInput ∨ token.beginsDeclaration = true)

-- What holds of the tokens behind a turn, by whether it is the last one.
def Turn.holds {σ α : Type} (again : List Token → Prop) (done : α → List Token → Prop) (turn : Turn σ α)
    (rest : List Token) : Prop :=
  match turn with
  | .again _ => again rest
  | .done value => done value rest

theorem Turn.holds_iff {σ α : Type} {every : List Token → Prop} {turn : Turn σ α} {rest : List Token} :
    turn.holds every (fun _ => every) rest ↔ every rest := by
  cases turn <;> rfl

namespace Parser
variable {α β σ : Type}

-- Where a parameter is wanted: at the end it is missing, and a declaration there gives its keyword for the name.
structure Demands (p : Parser α) (tokens : List Token) (reports : List Report) : Prop where
  missing : ∀ last : Token, last.kind = .endOfInput →
    p (tokens ++ [last]) = ⟨.error ⟨.expected "parameter name" last, last.position⟩, [last], reports⟩
  taken : ∀ (first : Token) (more : List Token), first.beginsDeclaration = true → more ≠ [] →
    reports ++ [⟨.reserved first.value "parameter", first.position⟩] <+: (p (tokens ++ first :: more)).reports

-- How a production ends that begins at some tokens, with a newline and a boundary behind them: with a value
-- and tokens of which something holds, with a fault among the tokens and behind the awaited brackets, or, if
-- no bracket is awaited, with a fault at the boundary. Behind a parenthesis that is not closed it may also want a
-- parameter there.
inductive Ends (brackets : Brackets) (place : Position) (awaited : List String) (p : Parser α) (tokens : List Token)
    (holds : α → List Token → Prop) : Prop
  | passes (value : α) (rest : List Token) (reports : List Report)
      (runs : ∀ after, Boundary after →
        p (tokens ++ newlineAt place :: after) = ⟨.ok value, rest ++ newlineAt place :: after, reports⟩)
      (held : holds value rest)
  | fails (report : Report) (rest : List Token) (reports : List Report) (opened : List String)
      (runs : ∀ after, Boundary after →
        p (tokens ++ newlineAt place :: after) = ⟨.error report, rest ++ newlineAt place :: after, reports⟩)
      (within : Balanced brackets (opened ++ awaited) rest)
  | stops (reports : List Report) (outside : awaited = [])
      (runs : ∀ after, Boundary after →
        ∃ report, p (tokens ++ newlineAt place :: after) = ⟨.error report, after, reports⟩)
  | demands (reports : List Report) (outside : awaited = []) (loose : brackets = .butParentheses)
      (wants : Demands p (tokens ++ [newlineAt place]) reports)

theorem reports_bind (p : Parser α) (next : α → Parser β) (tokens : List Token) :
    (p tokens).reports <+: ((p >>= next) tokens).reports := by
  cases ran : p tokens with
  | mk result rest reports =>
      cases result with
      | error report =>
          exact ⟨[], (List.append_nil reports).trans (congrArg Parsed.reports (run_bind_error ran)).symm⟩
      | ok value =>
          rw [run_bind_ok ran]
          exact List.prefix_append _ _

theorem reports_loop (step : σ → Parser (Turn σ α)) (state : σ) (tokens : List Token) :
    (step state tokens).reports <+: (Parser.loop step state tokens).reports := by
  rw [Parser.loop]
  dsimp only
  split
  · exact List.prefix_refl _
  · exact List.prefix_refl _
  · split
    · exact List.prefix_append _ _
    · exact List.prefix_refl _

namespace Demands
variable {p : Parser α} {next : α → Parser β} {tokens rest : List Token} {reports : List Report}

theorem bind (wants : Demands p tokens reports) : Demands (p >>= next) tokens reports where
  missing last ended := run_bind_error (wants.missing last ended)
  taken first more begins some := (wants.taken first more begins some).trans (reports_bind p next _)

theorem loop {step : σ → Parser (Turn σ α)} {state : σ} (wants : Demands (step state) tokens reports) :
    Demands (Parser.loop step state) tokens reports where
  missing last ended := run_loop_error (wants.missing last ended)
  taken first more begins some := (wants.taken first more begins some).trans (reports_loop step state _)

theorem prefixed {q : Parser α} (wants : Demands p rest reports) (before : List Report)
    (same : ∀ after, Boundary after → q (tokens ++ after) = (p (rest ++ after)).prefixed before) :
    Demands q tokens (before ++ reports) where
  missing last ended := by
    rw [same _ ⟨last, [], rfl, .inl ended⟩, wants.missing last ended]
    rfl
  taken first more begins some := by
    rw [same _ ⟨first, more, rfl, .inr begins⟩, List.append_assoc]
    exact List.prefix_append_right_inj before |>.mpr (wants.taken first more begins some)

end Demands

namespace Ends
variable {brackets : Brackets} {place : Position} {awaited : List String} {close : String} {p : Parser α} {q : Parser β}
  {next : α → Parser β} {tokens rest : List Token} {holds : α → List Token → Prop} {holds' : β → List Token → Prop}

-- A production ends as one that runs the same but for faults reported before.
theorem prefixed {q : Parser α} (ends : Ends brackets place awaited p rest holds) (reports : List Report)
    (same : ∀ after, Boundary after →
      q (tokens ++ newlineAt place :: after) = (p (rest ++ newlineAt place :: after)).prefixed reports) :
    Ends brackets place awaited q tokens holds := by
  cases ends with
  | passes value rest' others runs held =>
      exact .passes value rest' (reports ++ others)
        (fun after boundary => by rw [same after boundary, runs after boundary]; rfl) held
  | fails report rest' others opened runs within =>
      exact .fails report rest' (reports ++ others) opened
        (fun after boundary => by rw [same after boundary, runs after boundary]; rfl) within
  | stops others outside runs =>
      refine .stops (reports ++ others) outside fun after boundary => ?_
      obtain ⟨report, ran⟩ := runs after boundary
      exact ⟨report, by rw [same after boundary, ran]; rfl⟩
  | demands others outside loose wants =>
      refine .demands (reports ++ others) outside loose (wants.prefixed reports fun after boundary => ?_)
      rw [← List.append_cons, ← List.append_cons, same after boundary]

theorem bind (first : Ends brackets place awaited p tokens holds)
    (behind : ∀ value rest, holds value rest → Ends brackets place awaited (next value) rest holds') :
    Ends brackets place awaited (p >>= next) tokens holds' := by
  cases first with
  | passes value rest reports runs held =>
      exact (behind value rest held).prefixed reports fun after boundary => run_bind_ok (runs after boundary)
  | fails report rest reports opened runs within =>
      exact .fails report rest reports opened (fun after boundary => run_bind_error (runs after boundary)) within
  | stops reports outside runs =>
      refine .stops reports outside fun after boundary => ?_
      obtain ⟨report, ran⟩ := runs after boundary
      exact ⟨report, run_bind_error ran⟩
  | demands reports outside loose wants => exact .demands reports outside loose wants.bind

theorem imp {holds' : α → List Token → Prop} (ends : Ends brackets place awaited p tokens holds)
    (weaker : ∀ value rest, holds value rest → holds' value rest) : Ends brackets place awaited p tokens holds' := by
  cases ends with
  | passes value rest reports runs held => exact .passes value rest reports runs (weaker value rest held)
  | fails report rest reports opened runs within => exact .fails report rest reports opened runs within
  | stops reports outside runs => exact .stops reports outside runs
  | demands reports outside loose wants => exact .demands reports outside loose wants

-- What stays behind more brackets stays behind fewer.
theorem fewer {opened : List String} (ends : Ends brackets place (opened ++ awaited) p tokens holds) :
    Ends brackets place awaited p tokens holds := by
  cases ends with
  | passes value rest reports runs held => exact .passes value rest reports runs held
  | fails report rest reports others runs within =>
      refine .fails report rest reports (others ++ opened) runs ?_
      rwa [List.append_assoc]
  | stops reports outside runs => exact .stops reports (List.append_eq_nil_iff.mp outside).2 runs
  | demands reports outside loose wants => exact .demands reports (List.append_eq_nil_iff.mp outside).2 loose wants

theorem outward (ends : Ends brackets place (brackets.await close awaited) p tokens holds) :
    Ends brackets place awaited p tokens holds := by
  obtain ⟨opened, same⟩ := brackets.await_eq_append close awaited
  rw [same] at ends
  exact ends.fewer

theorem freed (ends : Ends brackets place awaited p tokens holds) : Ends brackets place [] p tokens holds := by
  rw [← List.append_nil awaited] at ends
  exact ends.fewer

-- What every turn keeps, a repetition keeps, as long as it stays behind the awaited brackets.
theorem loop (keeps : List Token → Prop)
    (within : ∀ tokens, keeps tokens → ∃ opened, Balanced brackets (opened ++ awaited) tokens)
    {step : σ → Parser (Turn σ α)}
    (each : ∀ state tokens, keeps tokens →
      Ends brackets place awaited (step state) tokens (Turn.holds keeps holds))
    (state : σ) (kept : keeps tokens) : Ends brackets place awaited (Parser.loop step state) tokens holds := by
  induction size : tokens.length using Nat.strongRecOn generalizing tokens state with
  | ind length ih =>
  subst size
  cases each state tokens kept with
  | fails report rest reports opened runs within =>
      refine .fails report rest reports opened (fun after boundary => ?_) within
      rw [Parser.loop]
      simp only [runs after boundary]
  | stops reports outside runs =>
      refine .stops reports outside fun after boundary => ?_
      obtain ⟨report, ran⟩ := runs after boundary
      refine ⟨report, ?_⟩
      rw [Parser.loop]
      simp only [ran]
  | demands reports outside loose wants => exact .demands reports outside loose wants.loop
  | passes turn rest reports runs held =>
      cases turn with
      | done value =>
          refine .passes value rest reports (fun after boundary => ?_) held
          rw [Parser.loop]
          simp only [runs after boundary]
      | again state' =>
          have lengths (after : List Token) :
              (rest ++ newlineAt place :: after).length < (tokens ++ newlineAt place :: after).length ↔
                rest.length < tokens.length := by simp
          by_cases shorter : rest.length < tokens.length
          · exact (ih rest.length shorter state' held rfl).prefixed reports fun after boundary =>
              run_loop_again (runs after boundary) ((lengths after).mpr shorter)
          · obtain ⟨opened, nested⟩ := within rest held
            refine .fails ⟨.stalled, (head (rest ++ [newlineAt place])).position⟩ rest reports opened
              (fun after boundary => ?_) nested
            rw [Parser.loop]
            simp only [runs after boundary, lengths, if_neg shorter]
            cases rest <;> rfl

end Ends

-- What a production reads without a fault: some brackets are awaited in front of it, as far as something holds of what
-- is left behind it.
def Traces (brackets : Brackets) (awaited : List String) (p : Parser α) (tokens : List Token)
    (holds : α → List Token → Prop) : Prop :=
  ∀ value rest, p tokens = ⟨.ok value, rest, []⟩ →
    Terminated rest ∧ (holds value rest → Balanced brackets awaited tokens)

namespace Traces
variable {brackets : Brackets} {awaited between : List String} {p : Parser α} {next : α → Parser β} {tokens : List Token}
  {holds : α → List Token → Prop} {holds' : β → List Token → Prop}

theorem bind (first : Traces brackets awaited p tokens fun _ rest => Balanced brackets between rest)
    (behind : ∀ value rest, Terminated rest → Traces brackets between (next value) rest holds') :
    Traces brackets awaited (p >>= next) tokens holds' := by
  intro value rest read
  obtain ⟨middle, left, ran, others⟩ := bind_clean read
  obtain ⟨ended, front⟩ := first middle left ran
  obtain ⟨ended', inside⟩ := behind middle left ended value rest others
  exact ⟨ended', fun held => front (inside held)⟩

-- What is so of every turn is so of a repetition.
theorem loop {outside : List String} {step : σ → Parser (Turn σ α)}
    (each : ∀ state tokens, Terminated tokens → Traces brackets awaited (step state) tokens
      (Turn.holds (Balanced brackets awaited) fun _ => Balanced brackets outside))
    (state : σ) (ended : Terminated tokens) :
    Traces brackets awaited (Parser.loop step state) tokens fun _ rest => Balanced brackets outside rest := by
  intro value rest read
  induction size : tokens.length using Nat.strongRecOn generalizing tokens state with
  | ind length ih =>
  subst size
  obtain ran | ⟨state', left, ran, shorter, others⟩ := loop_clean read
  · exact each state tokens ended _ _ ran
  · obtain ⟨ended', front⟩ := each state tokens ended _ _ ran
    obtain ⟨ended'', inside⟩ := ih left.length shorter state' ended' others rfl
    exact ⟨ended'', fun held => front (inside held)⟩

-- Where there is a fault, nothing is read.
theorem of_error {report : Report} {rest : List Token} {reports : List Report}
    (ran : p tokens = ⟨.error report, rest, reports⟩) : Traces brackets awaited p tokens holds := by
  intro value rest read
  cases ran.symm.trans read

-- What takes nothing.
theorem of_ok {value : α} (ran : p tokens = ⟨.ok value, tokens, []⟩) (ended : Terminated tokens)
    (held : holds value tokens → Balanced brackets awaited tokens) : Traces brackets awaited p tokens holds := by
  intro value rest read
  cases ran.symm.trans read
  exact ⟨ended, held⟩

end Traces

-- A mark does not end the text, so that it is taken.
theorem advance_mark {mark : String} {tokens : List Token} (ended : Terminated tokens)
    (found : (head tokens).is .punctuation mark = true) :
    ∃ first rest, tokens = first :: rest ∧ first.is .punctuation mark = true ∧ Terminated rest ∧
      Parser.advance tokens = ⟨.ok first, rest, []⟩ := by
  obtain ⟨first, second, behind, rfl⟩ := ended.more ((isPunctuation_of_is found).1 ▸ nofun)
  exact ⟨first, second :: behind, rfl, found, ended.suffix (List.suffix_cons _ _), rfl⟩

end Parser
end Charter.Source

import Charter.Proofs.Consumption
import Charter.Proofs.Unplaced

/-!
Productions do not look at positions. Read from tokens without them, a production takes the same tokens, and gives
the value and the reports that it gives otherwise, without the positions in those.
-/

namespace Charter.Source
open Charter.Source.Parser

def Parsed.unplaced {α : Type} (view : α → α) (parsed : Parsed α) : Parsed α where
  result := parsed.result.map view |>.mapError Report.unplaced
  rest := parsed.rest.map Token.unplaced
  reports := parsed.reports.map Report.unplaced

def Turn.unplaced {σ α : Type} (state : σ → σ) (value : α → α) : Turn σ α → Turn σ α
  | .again next => .again (state next)
  | .done result => .done (value result)

namespace Parser
variable {α β σ : Type}

-- From tokens without positions `q` reads what `p` reads from the tokens, seen through `view`.
def Tracks (view : α → α) (q p : Parser α) : Prop :=
  ∀ tokens, q (tokens.map Token.unplaced) = (p tokens).unplaced view

-- A production that reads the same without positions; `view` takes those out of its value.
class Blind (view : outParam (α → α)) (p : Parser α) : Prop where
  tracks : Tracks view p p

namespace Tracks
variable {view : α → α} {view' : β → β} {q p q' p' : Parser α} {next next' : α → Parser β}

theorem pure {value value' : α} (same : value' = view value) :
    Tracks view (Pure.pure value' : Parser α) (Pure.pure value) := by
  subst same
  exact fun _ => rfl

theorem bind (first : Tracks view q p) (behind : ∀ value, Tracks view' (next' (view value)) (next value)) :
    Tracks view' (q >>= next') (p >>= next) := by
  intro tokens
  have ran' := first tokens
  cases ran : p tokens with
  | mk result rest reports =>
      rw [ran] at ran'
      cases result with
      | error report => rw [run_bind_error ran, run_bind_error ran']; rfl
      | ok value =>
          rw [run_bind_ok ran, run_bind_ok ran', behind value]
          simp only [Parsed.prefixed, Parsed.unplaced, List.map_append]

-- The rule for a part that is blind in itself.
theorem read [first : Blind view p] (behind : ∀ value, Tracks view' (next' (view value)) (next value)) :
    Tracks view' (p >>= next') (p >>= next) := first.tracks.bind behind

theorem ite {c : Prop} [Decidable c] (yes : Tracks view q p) (no : Tracks view q' p') :
    Tracks view (if c then q else q') (if c then p else p') := by
  split
  · exact yes
  · exact no

-- Two ways to the value from which reading goes on.
theorem either {c : Prop} [Decidable c] (yes : Tracks view q p) (no : Tracks view q' p')
    (behind : ∀ value, Tracks view' (next' (view value)) (next value)) :
    Tracks view' (if c then q >>= next' else q' >>= next') (if c then p >>= next else p' >>= next) :=
  .ite (.bind yes behind) (.bind no behind)

theorem head_unplaced (tokens : List Token) : head (tokens.map Token.unplaced) = (head tokens).unplaced := by
  cases tokens <;> rfl

theorem failAt {fault fault' : Fault} {position : Position} (same : fault' = fault.unplaced) :
    Tracks view (Parser.failAt .nowhere fault' : Parser α) (Parser.failAt position fault) := by
  subst same
  exact fun _ => rfl

theorem fail {fault fault' : Fault} (same : fault' = fault.unplaced) :
    Tracks view (Parser.fail fault' : Parser α) (Parser.fail fault) := by
  subst same
  intro tokens
  cases tokens <;> rfl

-- Nothing is read behind a fault.
theorem fail_bind {fault fault' : Fault} (same : fault' = fault.unplaced) :
    Tracks view' (Parser.fail fault' >>= next') (Parser.fail fault >>= next) := by
  subst same
  intro tokens
  cases tokens <;> rfl

theorem loop (stateView : σ → σ) {step : σ → Parser (Turn σ α)}
    (each : ∀ state, Tracks (Turn.unplaced stateView view) (step (stateView state)) (step state)) (state : σ) :
    Tracks view (Parser.loop step (stateView state)) (Parser.loop step state) := by
  intro tokens
  induction size : tokens.length using Nat.strongRecOn generalizing tokens state with
  | ind length ih =>
  subst size
  have ran' := each state tokens
  cases ran : step state tokens with
  | mk result rest reports =>
      rw [ran] at ran'
      cases result with
      | error report => rw [run_loop_error ran, run_loop_error ran']; rfl
      | ok turn =>
          cases turn with
          | done value => rw [run_loop_done ran, run_loop_done ran']; rfl
          | again next =>
              have same : (rest.map Token.unplaced).length < (tokens.map Token.unplaced).length ↔
                  rest.length < tokens.length := by rw [List.length_map, List.length_map]
              by_cases shorter : rest.length < tokens.length
              · rw [run_loop_again ran shorter, run_loop_again ran' (same.mpr shorter),
                  ih rest.length shorter next rest rfl]
                simp only [Parsed.prefixed, Parsed.unplaced, List.map_append]
              · rw [run_loop_stalled ran shorter, run_loop_stalled ran' (mt same.mp shorter), head_unplaced]
                rfl

theorem recover {instead : α} {resume : List Token → List Token → List Token} (each : Tracks view q p)
    (resumes : ∀ start tokens, resume (start.map Token.unplaced) (tokens.map Token.unplaced) =
      (resume start tokens).map Token.unplaced) :
    Tracks view (Parser.recover (view instead) q resume) (Parser.recover instead p resume) := by
  intro tokens
  have ran' := each tokens
  unfold Parser.recover
  rw [ran']
  cases p tokens with
  | mk result rest reports =>
      cases result with
      | ok value => rfl
      | error report =>
          dsimp only [Parsed.unplaced, Except.map, Except.mapError]
          rw [resumes, List.map_append]
          rfl

end Tracks

theorem drop_unplaced (tokens : List Token) : drop (tokens.map Token.unplaced) = (drop tokens).map Token.unplaced := by
  unfold drop
  rcases tokens with _ | ⟨token, _ | ⟨next, rest⟩⟩ <;> rfl

theorem dropWhile_unplaced {q : Token → Bool} (same : ∀ token, q token.unplaced = q token) (tokens : List Token) :
    dropWhile q (tokens.map Token.unplaced) = (dropWhile q tokens).map Token.unplaced := by
  fun_induction dropWhile q tokens with
  | case1 token next rest holds ih =>
      rw [List.map_cons, List.map_cons, dropWhile, if_pos ((same token).trans holds)]
      exact ih
  | case2 token next rest fails =>
      rw [List.map_cons, List.map_cons, dropWhile, if_neg ((same token).symm ▸ fails)]
  | case3 tokens short =>
      rcases tokens with _ | ⟨token, _ | ⟨next, rest⟩⟩
      · rfl
      · rfl
      · exact absurd rfl (short token next rest)

namespace Blind

instance current : Blind Token.unplaced Parser.current :=
  ⟨fun tokens => by rw [Parser.current, Tracks.head_unplaced]; rfl⟩

instance following : Blind Token.unplaced Parser.following :=
  ⟨fun tokens => by rw [Parser.following, drop_unplaced, Tracks.head_unplaced]; rfl⟩

instance advance : Blind Token.unplaced Parser.advance :=
  ⟨fun tokens => by rw [Parser.advance, drop_unplaced, Tracks.head_unplaced]; rfl⟩

theorem skipWhile {q : Token → Bool} (same : ∀ token, q token.unplaced = q token) :
    Blind (fun value => value) (Parser.skipWhile q) :=
  ⟨fun tokens => by rw [Parser.skipWhile, dropWhile_unplaced same]; rfl⟩

instance skipNewlines : Blind (fun value => value) Parser.skipNewlines := skipWhile fun _ => rfl

instance skipSeparators : Blind (fun value => value) Parser.skipSeparators := skipWhile fun _ => rfl

instance skipListSeparators : Blind (fun value => value) Parser.skipListSeparators := skipWhile fun _ => rfl

instance skipNewlinesBeforeBrace : Blind (fun value => value) Parser.skipNewlinesBeforeBrace := by
  constructor
  intro tokens
  unfold Parser.skipNewlinesBeforeBrace
  dsimp only
  rw [dropWhile_unplaced fun _ => rfl, Tracks.head_unplaced, Token.unplaced_is]
  split <;> rfl

theorem report (report : Report) : Tracks (fun value => value) (Parser.report report.unplaced) (Parser.report report) :=
  fun _ => rfl

instance isAt (kind : TokenKind) (value : String) : Blind (fun value => value) (Parser.isAt kind value) := by
  constructor
  refine .read fun token => ?_
  exact .pure rfl

instance accept (kind : TokenKind) (value : String) : Blind (fun value => value) (Parser.accept kind value) := by
  constructor
  refine .read fun here => .ite ?_ (.pure rfl)
  refine .read fun token => ?_
  exact .pure rfl

instance expect (kind : TokenKind) (value : String) : Blind Token.unplaced (Parser.expect kind value) := by
  constructor
  refine .read fun token => ?_
  exact .ite advance.tracks (.fail rfl)

-- The value of the current token, which is taken.
theorem taken {γ : Type} {view : γ → γ} {f : Token → γ} (same : ∀ token, f token.unplaced = view (f token)) :
    Tracks view (do return f (← Parser.advance)) (do return f (← Parser.advance)) := by
  refine .read fun token => ?_
  exact .pure (same token)

instance name (what : String) : Blind (fun value => value) (Parser.name what) := by
  constructor
  refine .read fun token => ?_
  rw [Token.unplaced_kind]
  split
  · exact taken fun _ => rfl
  · exact taken fun _ => rfl
  · exact .fail rfl

instance declaredName (what : String) : Blind (fun value => value) (Parser.declaredName what) := by
  constructor
  refine .read fun token => ?_
  rw [Token.unplaced_kind]
  split
  · exact taken fun _ => rfl
  · refine .read fun _ => ?_
    exact .bind (report ⟨.reserved token.value what, token.position⟩) fun _ => .pure rfl
  · exact .fail rfl

instance string (what : String) : Blind (fun value => value) (Parser.string what) := by
  constructor
  refine .read fun token => ?_
  exact .ite (taken fun _ => rfl) (.fail rfl)

instance nameOrString (what : String) : Blind (fun value => value) (Parser.nameOrString what) := by
  constructor
  refine .read fun token => ?_
  exact .ite (taken fun _ => rfl) (name what).tracks

instance message? : Blind (fun value => value) Parser.message? := by
  constructor
  refine .read fun token => ?_
  exact .ite (taken fun _ => rfl) (.pure rfl)

theorem after?_tracks {p q : Parser α} (same : Tracks (fun value => value) q p) (kind : TokenKind) (mark : String) :
    Tracks (fun value => value) (Parser.after? kind mark q) (Parser.after? kind mark p) := by
  refine .read fun here => ?_
  exact .ite (.bind same fun _ => .pure rfl) (.pure rfl)

instance after? {p : Parser α} [blind : Blind (fun value => value) p] (kind : TokenKind) (mark : String) :
    Blind (fun value => value) (Parser.after? kind mark p) := ⟨after?_tracks blind.tracks kind mark⟩

end Blind
end Parser

namespace Grammar
open Charter.Source.Parser

section Expression
variable {expression operand plain : Parser Expression} [Blind (fun e => e) expression] [Blind (fun e => e) operand]

theorem binary_ofToken?_unplaced (token : Token) :
    BinaryOperator.ofToken? token.unplaced = BinaryOperator.ofToken? token := rfl

theorem unary_ofToken?_unplaced (token : Token) :
    UnaryOperator.ofToken? token.unplaced = UnaryOperator.ofToken? token := rfl

instance (level : Nat) : Blind (fun operator => operator) (binaryOperator? level) := by
  constructor
  refine .read fun token => ?_
  rw [binary_ofToken?_unplaced]
  split
  · refine .ite ?_ (.pure rfl)
    refine .read fun _ => ?_
    exact .pure rfl
  · exact .pure rfl

instance (level : Nat) : Blind (fun e => e) (chain level operand) := by
  constructor
  refine .read fun first => ?_
  refine .loop (fun e => e) (fun left => ?_) first
  refine .read fun operator => ?_
  cases operator with
  | none => exact .pure rfl
  | some operator =>
      repeat refine .read fun _ => ?_
      exact .pure rfl

instance : Blind (fun e => e) (binary operand) := by unfold binary; infer_instance

instance : Blind (fun e => e) (conditional expression operand) := by
  constructor
  refine .read fun condition => ?_
  refine .read fun asked => .ite ?_ (.pure rfl)
  repeat refine .read fun _ => ?_
  exact .pure rfl

instance [plainly : Blind (fun e => e) plain] : Blind (fun e => e) (signed operand plain) := by
  constructor
  refine .read fun token => ?_
  rw [unary_ofToken?_unplaced]
  split
  · repeat refine .read fun _ => ?_
    exact .pure rfl
  · exact plainly.tracks

instance (close : String) : Blind (fun items => items) (sequence expression close) := by
  constructor
  refine .loop (fun items => items) (fun items => ?_) []
  refine .read fun _ => ?_
  refine .read fun closes => .ite (.pure rfl) ?_
  repeat refine .read fun _ => ?_
  refine .ite ?_ (.pure rfl)
  refine .read fun token => ?_
  exact .fail_bind rfl

instance : Blind (fun pairs => pairs) (entries expression) := by
  constructor
  refine .read fun _ => ?_
  refine .loop (fun pairs => pairs) (fun pairs => ?_) []
  refine .read fun _ => ?_
  refine .read fun closes => .ite (.pure rfl) ?_
  repeat refine .read fun _ => ?_
  exact .ite (.fail_bind rfl) (.pure rfl)

theorem parameterNames?_unplaced (tokens : List Token) :
    parameterNames? (tokens.map Token.unplaced) =
      (parameterNames? tokens).map fun (names, rest) => (names, rest.map Token.unplaced) := by
  match tokens with
  | [] => rfl
  | [token] =>
      simp only [List.map_cons, List.map_nil, parameterNames?, Token.unplaced_is, apply_ite (Option.map _)]
      rfl
  | token :: mark :: others =>
      simp only [List.map_cons, parameterNames?, Token.unplaced_is, parameterNames?_unplaced others, Option.map_map,
        apply_ite (Option.map _)]
      rfl

theorem lambdaHead?_unplaced (tokens : List Token) :
    lambdaHead? (tokens.map Token.unplaced) =
      (lambdaHead? tokens).map fun (names, body) => (names, body.map Token.unplaced) := by
  cases tokens with
  | nil => rfl
  | cons opening rest =>
      simp only [List.map_cons, lambdaHead?, Token.unplaced_is, parameterNames?_unplaced, apply_ite (Option.map _)]
      rcases parameterNames? rest with _ | ⟨names, _ | ⟨arrow, body⟩⟩
      · rfl
      · rfl
      · simp only [Option.map_some, List.map_cons, Token.unplaced_is, apply_ite (Option.map _)]
        rfl

instance : Blind (fun names => names) lambdaParameters? := by
  constructor
  intro tokens
  unfold lambdaParameters?
  rw [lambdaHead?_unplaced]
  cases lambdaHead? tokens <;> rfl

instance (params : List String) : Blind (fun e => e) (lambda expression params) := by
  constructor
  repeat refine .read fun _ => ?_
  exact .pure rfl

instance : Blind (fun e => e) (parenthesized expression) := by
  constructor
  refine .read fun params => ?_
  cases params with
  | some params => exact Blind.tracks
  | none =>
      repeat refine .read fun _ => ?_
      exact .pure rfl

instance : Blind (fun e => e) (primary expression) := by
  constructor
  refine .read fun token => ?_
  rw [Token.unplaced_kind, Token.unplaced_value]
  split
  · refine .read fun _ => ?_
    split
    · exact .pure rfl
    · exact .failAt rfl
  · refine .read fun _ => ?_
    exact .pure rfl
  · split
    · refine .read fun _ => ?_
      exact .pure rfl
    · exact .fail rfl
  · refine .read fun _ => ?_
    refine .read fun arrow => ?_
    exact .ite Blind.tracks (.pure rfl)
  · split
    · exact Blind.tracks
    · repeat refine .read fun _ => ?_
      exact .pure rfl
    · refine .read fun _ => ?_
      exact .pure rfl
    · exact .fail rfl
  · exact .fail rfl

instance : Blind (fun e => e) (accesses expression) := by
  constructor
  refine .read fun first => ?_
  refine .loop (fun e => e) (fun target => ?_) first
  refine .read fun point => .ite ?_ ?_
  · refine .read fun _ => ?_
    exact .pure rfl
  refine .read fun call => .ite ?_ ?_
  · refine .read fun _ => ?_
    exact .pure rfl
  refine .read fun index => .ite ?_ (.pure rfl)
  repeat refine .read fun _ => ?_
  exact .pure rfl

instance nested_blind (limit levels : Nat) (production : Production) :
    Blind (fun e => e) (nested limit levels production) := by
  have deepest : Blind (fun e => e) (fail (.tooDeep limit) : Parser Expression) := ⟨.fail rfl⟩
  induction levels generalizing production with
  | zero =>
      cases production with
      | expression => exact deepest
      | operand =>
          exact (inferInstance : Blind _ (signed (fail (.tooDeep limit)) (accesses (fail (.tooDeep limit)))))
  | succ levels ih =>
      have deeper := ih .expression
      have operand := ih .operand
      cases production with
      | expression =>
          exact (inferInstance : Blind _ (conditional (nested limit levels .expression) (nested limit levels .operand)))
      | operand =>
          exact (inferInstance : Blind _ (signed (nested limit levels .operand)
            (accesses (conditional (nested limit levels .expression) (nested limit levels .operand)))))

instance (limit : Nat) : Blind (fun e => e) (Grammar.expression limit) := nested_blind limit limit .expression

end Expression
end Grammar
end Charter.Source

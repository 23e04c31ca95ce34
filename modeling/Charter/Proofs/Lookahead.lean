import Charter.Proofs.Advance

/-!
Skipping and looking ahead, one token after another. What the grammar finds out about the tokens ahead in one step
is found by a production that goes on token by token and comes back where it was in vain.
-/

namespace Charter.Source
open Charter.Source.Parser

namespace Parser

-- Looks ahead. Where that finds nothing, nothing is taken.
def tentatively {α : Type} (look : Parser (Option α)) : Parser (Option α) := fun tokens =>
  match look tokens with
  | ⟨.ok none, _, reports⟩ => ⟨.ok none, tokens, reports⟩
  | parsed => parsed

end Parser

-- One more token to skip.
def skipTurn (q : Token → Bool) (_ : Unit) : Parser (Turn Unit Unit) := do
  if q (← current) then
    let _ ← advance
    return .again ()
  else return .done ()

-- Newlines, if a brace stands behind them.
def braceAhead? : Parser (Option Unit) := do
  skipNewlines
  if ← isAt .punctuation "\x7b" then return some () else return none

theorem isNewline_inner {token : Token} (found : isNewline token = true) : Inner token.kind :=
  ⟨by rw [eq_of_beq found]; decide⟩

theorem isSeparator_inner {token : Token} (found : isSeparator token = true) : Inner token.kind := by
  rcases Bool.or_eq_true_iff.mp found with newline | mark
  · exact isNewline_inner newline
  · exact .of_is mark

theorem isListSeparator_inner {token : Token} (found : isListSeparator token = true) : Inner token.kind := by
  rcases Bool.or_eq_true_iff.mp found with separator | mark
  · exact isSeparator_inner separator
  · exact .of_is mark

theorem skipTurn_advances {q : Token → Bool} (inner : ∀ token, q token = true → Inner token.kind) (state : Unit) :
    Advances (skipTurn q state) := by
  unfold skipTurn
  refine .of_current fun token => ?_
  split
  · next found =>
    have := inner token found
    infer_instance
  · infer_instance

theorem skipWhile_eq {q : Token → Bool} (inner : ∀ token, q token = true → Inner token.kind) {tokens : List Token}
    (ended : Terminated tokens) : skipWhile q tokens = loop (skipTurn q) () tokens := by
  have last (rest : List Token) (other : ¬ q (head rest) = true) : skipTurn q () rest = ⟨.ok (.done ()), rest, []⟩ := by
    change (if q (head rest) then _ else _ : Parser (Turn Unit Unit)) rest = _
    rw [if_neg other]
    rfl
  unfold skipWhile
  fun_induction dropWhile q tokens with
  | case1 token next rest found ih =>
      have turned : skipTurn q () (token :: next :: rest) = ⟨.ok (.again ()), next :: rest, []⟩ := by
        change (if q token then _ else _ : Parser (Turn Unit Unit)) (token :: next :: rest) = _
        rw [if_pos found]
        rfl
      rw [run_loop_again turned (Nat.lt_succ_self _), ← ih (ended.suffix (List.suffix_cons _ _))]
      rfl
  | case2 token next rest other => exact (run_loop_done (last (token :: next :: rest) other)).symm
  | case3 tokens short =>
      refine (run_loop_done (last tokens fun found => ?_)).symm
      obtain ⟨first, second, rest, more⟩ := ended.more (inner _ found).going
      exact short first second rest more

theorem skipNewlinesBeforeBrace_eq : skipNewlinesBeforeBrace = (do let _ ← Parser.tentatively braceAhead?) := by
  funext tokens
  have looked : braceAhead? tokens =
      (if (head (dropWhile isNewline tokens)).is .punctuation "\x7b" then return some () else return none :
        Parser (Option Unit)) (dropWhile isNewline tokens) := rfl
  unfold skipNewlinesBeforeBrace
  change _ = Parser.bind (Parser.tentatively braceAhead?) _ tokens
  unfold Parser.bind Parser.tentatively
  rw [looked]
  dsimp only
  split <;> rfl

-- One more parameter name, with the comma behind it or in front of the closing parenthesis.
def scanTurn (names : List String) : Parser (Turn (List String) (Option (List String))) := do
  if ← accept .punctuation ")" then return .done (some names)
  let token ← current
  if token.kind == .identifier then
    let _ ← advance
    if ← accept .punctuation "," then return .again (names ++ [token.value])
    else if ← isAt .punctuation ")" then return .again (names ++ [token.value])
    else return .done none
  else return .done none

-- The names stand if the arrow does.
def scanArrow : Option (List String) → Parser (Option (List String))
  | some names => do if ← accept .operator "=>" then return some names else return none
  | none => return none

def scanParameters : Parser (Option (List String)) := do
  if ← accept .punctuation "(" then scanArrow (← loop scanTurn []) else return none

instance (names : List String) : Advances (scanTurn names) := by
  unfold scanTurn
  refine .of_bind inferInstance fun closed => @Advances.ite _ _ _ _ _ _ inferInstance (.of_current fun token => ?_)
  split
  · next named =>
    have := Inner.of_eq (eq_of_beq named)
    infer_instance
  · infer_instance

section Scan
variable {tokens rest : List Token} {token second : Token} {names : List String}

theorem scanTurn_closing (closes : token.is .punctuation ")" = true) :
    scanTurn names (token :: second :: rest) = ⟨.ok (.done (some names)), second :: rest, []⟩ := by
  have found : (head (token :: second :: rest)).is .punctuation ")" = true := closes
  unfold scanTurn
  rw [run_bind (run_accept_head.trans (if_pos found))]
  rfl

theorem scanTurn_other (tokens : List Token) (inside : ¬ (head tokens).is .punctuation ")" = true)
    (other : ¬ ((head tokens).kind == .identifier) = true) :
    scanTurn names tokens = ⟨.ok (.done none), tokens, []⟩ := by
  unfold scanTurn
  rw [run_bind (run_accept_head.trans (if_neg inside)), if_neg Bool.false_ne_true, run_current_bind, if_neg other]
  rfl

theorem scanTurn_name (names : List String) (named : (token.kind == .identifier) = true) (second : Token)
    (rest : List Token) : scanTurn names (token :: second :: rest) =
    if second.is .punctuation "," = true then ⟨.ok (.again (names ++ [token.value])), drop (second :: rest), []⟩
    else if second.is .punctuation ")" = true then ⟨.ok (.again (names ++ [token.value])), second :: rest, []⟩
    else ⟨.ok (.done none), second :: rest, []⟩ := by
  have inside : ¬ (head (token :: second :: rest)).is .punctuation ")" = true := by
    simp [head, Token.is, eq_of_beq named]
  unfold scanTurn
  rw [run_bind (run_accept_head.trans (if_neg inside)), if_neg Bool.false_ne_true, run_current_bind]
  have identifier : ((head (token :: second :: rest)).kind == .identifier) = true := named
  rw [if_pos identifier, run_advance_bind]
  by_cases comma : second.is .punctuation "," = true
  · rw [if_pos comma]
    have found : (head (drop (token :: second :: rest))).is .punctuation "," = true := comma
    rw [run_bind (run_accept_head.trans (if_pos found))]
    rfl
  · rw [if_neg comma]
    have other : ¬ (head (drop (token :: second :: rest))).is .punctuation "," = true := comma
    rw [run_bind (run_accept_head.trans (if_neg other)), if_neg Bool.false_ne_true, run_isAt_bind]
    change (if second.is .punctuation ")" = true then _ else _ : Parser _) _ = _
    split <;> rfl

-- A list of names is scanned as it is found, and where none is found the scan finds none.
theorem scan_eq (names : List String) (ended : Terminated tokens) : ∃ behind,
    loop scanTurn names tokens = ⟨.ok ((Grammar.parameterNames? tokens).map (names ++ ·.1)), behind, []⟩ ∧
      ∀ found rest, Grammar.parameterNames? tokens = some (found, rest) → behind = rest := by
  fun_induction Grammar.parameterNames? tokens generalizing names with
  | case1 => exact ⟨[], run_loop_done (scanTurn_other [] (by decide) (by decide)), fun _ _ read => by cases read⟩
  | case2 token rest closes =>
      obtain ⟨_, second, others, same⟩ := ended.more (Inner.of_is closes).going
      cases same
      refine ⟨second :: others, (run_loop_done (scanTurn_closing closes)).trans (by simp), ?_⟩
      rintro _ _ ⟨⟩
      rfl
  | case3 token inside named => exact absurd (ended token rfl) (by rw [eq_of_beq named]; decide)
  | case4 token inside named mark others comma ih =>
      have later := ended.suffix (List.suffix_cons token _)
      obtain ⟨_, second, rest, same⟩ := later.more (Inner.of_is comma).going
      cases same
      have turned : scanTurn names (token :: mark :: second :: rest) =
          ⟨.ok (.again (names ++ [token.value])), second :: rest, []⟩ :=
        (scanTurn_name names named mark (second :: rest)).trans (if_pos comma)
      obtain ⟨behind, ran, reached⟩ := ih (names ++ [token.value]) (later.suffix (List.suffix_cons _ _))
      refine ⟨behind, ?_, fun found rest read => ?_⟩
      · rw [run_loop_again turned (by simp), ran, Option.map_map]
        simp only [List.append_assoc, List.singleton_append, Function.comp_def]
        rfl
      · obtain ⟨⟨_, _⟩, inner, same⟩ := Option.map_eq_some_iff.mp read
        cases same
        exact reached _ _ inner
  | case5 token inside named mark others other closes =>
      obtain ⟨_, second, rest, same⟩ := (ended.suffix (List.suffix_cons token _)).more (Inner.of_is closes).going
      cases same
      have turned := (scanTurn_name names named mark (second :: rest)).trans ((if_neg other).trans (if_pos closes))
      refine ⟨second :: rest, ?_, ?_⟩
      · rw [run_loop_again turned (by simp), run_loop_done (scanTurn_closing closes)]
        rfl
      · rintro _ _ ⟨⟩
        rfl
  | case6 token inside named mark others other open' =>
      have stopped := (scanTurn_name names named mark others).trans ((if_neg other).trans (if_neg open'))
      exact ⟨_, run_loop_done stopped, fun _ _ read => by cases read⟩
  | case7 token rest inside other =>
      exact ⟨_, run_loop_done (scanTurn_other (token :: rest) inside other), fun _ _ read => by cases read⟩

theorem tentatively_none {look : Parser (Option (List String))} (looked : look tokens = ⟨.ok none, rest, []⟩) :
    Parser.tentatively look tokens = ⟨.ok none, tokens, []⟩ := by
  unfold Parser.tentatively
  rw [looked]

theorem lambdaHead?_of_names {body : List Token} (opens : token.is .punctuation "(" = true)
    (read : Grammar.parameterNames? tokens = some (names, body)) : Grammar.lambdaHead? (token :: tokens) =
      if (head body).is .operator "=>" = true then some (names, body.tail) else none := by
  unfold Grammar.lambdaHead?
  simp only [opens, if_true, read]
  cases body with
  | nil => rfl
  | cons arrow body => rfl

theorem run_scanParameters {found : Option (List String)} {behind : List Token}
    (opens : token.is .punctuation "(" = true) (scanned : loop scanTurn [] (second :: rest) = ⟨.ok found, behind, []⟩) :
    scanParameters (token :: second :: rest) = scanArrow found behind := by
  have accepted : (head (token :: second :: rest)).is .punctuation "(" = true := opens
  unfold scanParameters
  rw [run_bind (run_accept_head.trans (if_pos accepted)), if_pos rfl]
  exact run_bind scanned

theorem run_scanArrow (names : List String) (ended : Terminated tokens) : scanArrow (some names) tokens =
    if (head tokens).is .operator "=>" = true then ⟨.ok (some names), tokens.tail, []⟩ else ⟨.ok none, tokens, []⟩ := by
  change (accept .operator "=>" >>= fun found => if found = true then pure (some names) else pure none) tokens = _
  by_cases arrow : (head tokens).is .operator "=>" = true
  · obtain ⟨_, _, _, rfl⟩ := ended.more (Inner.of_is arrow).going
    rw [run_bind (run_accept_head.trans (if_pos arrow)), if_pos arrow]
    rfl
  · rw [run_bind (run_accept_head.trans (if_neg arrow)), if_neg arrow]
    rfl

theorem lambdaParameters?_opening (opens : token.is .punctuation "(" = true)
    (ended : Terminated (token :: second :: rest)) :
    Grammar.lambdaParameters? (token :: second :: rest) =
      Parser.tentatively scanParameters (token :: second :: rest) := by
  have later := ended.suffix (List.suffix_cons token _)
  obtain ⟨behind, scanned, reached⟩ := scan_eq [] later
  have ran := run_scanParameters opens scanned
  cases read : Grammar.parameterNames? (second :: rest) with
  | none =>
      rw [read] at ran
      rw [tentatively_none ran]
      unfold Grammar.lambdaParameters? Grammar.lambdaHead?
      simp only [opens, if_true, read]
  | some list =>
      obtain ⟨names, body⟩ := list
      obtain rfl := reached names body read
      have scanned := run_scanArrow names (later.suffix (Grammar.parameterNames?_suffix read))
      rw [read] at ran
      have ran := ran.trans scanned
      unfold Grammar.lambdaParameters?
      rw [lambdaHead?_of_names opens read]
      by_cases arrow : (head behind).is .operator "=>" = true
      · rw [if_pos arrow] at ran ⊢
        unfold Parser.tentatively
        rw [ran]
      · rw [if_neg arrow] at ran ⊢
        rw [tentatively_none ran]

theorem lambdaParameters?_eq (ended : Terminated tokens) :
    Grammar.lambdaParameters? tokens = Parser.tentatively scanParameters tokens := by
  by_cases opens : (head tokens).is .punctuation "(" = true
  · obtain ⟨_, second, rest, rfl⟩ := ended.more (Inner.of_is opens).going
    exact lambdaParameters?_opening opens ended
  · have none : scanParameters tokens = ⟨.ok none, tokens, []⟩ := by
      unfold scanParameters
      rw [run_bind (run_accept_head.trans (if_neg opens))]
      rfl
    rw [tentatively_none none]
    unfold Grammar.lambdaParameters? Grammar.lambdaHead?
    cases tokens with
    | nil => rfl
    | cons opening rest =>
        have other : ¬ opening.is .punctuation "(" = true := opens
        simp only [if_neg other]

end Scan

end Charter.Source

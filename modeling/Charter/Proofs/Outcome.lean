import Charter.Proofs.Consumption
import Charter.Proofs.Printing

/-!
Runs of productions over tokens that are known by their symbols. A run meets a goal where the levels of nesting
suffice, and else it fails because the text is nested too deeply.
-/

namespace Charter.Source.Parser
open Charter.Source.Grammar

variable {α β σ : Type} {limit : Nat} {fits fits' : Prop} {p : Parser α} {next : α → Parser β}
  {run goal : Parsed α} {goal' : Parsed β} {tokens rest : List Token} {token second : Token} {value : α}

structure Meets (limit : Nat) (fits : Prop) (run goal : Parsed α) : Prop where
  reaches : fits → run = goal
  sinks : ¬ fits → ∃ position rest, run = ⟨.error ⟨.tooDeep limit, position⟩, rest, []⟩

namespace Meets

theorem of_eq (same : run = goal) (enough : fits) : Meets limit fits run goal :=
  ⟨fun _ => same, fun less => absurd enough less⟩

theorem imp (meets : Meets limit fits run goal) (same : fits' ↔ fits) : Meets limit fits' run goal :=
  ⟨fun enough => meets.reaches (same.mp enough), fun less => meets.sinks (mt same.mpr less)⟩

theorem fail (less : ¬ fits) : Meets limit fits ((Parser.fail (.tooDeep limit) : Parser α) tokens) goal :=
  ⟨fun enough => absurd enough less, fun _ => ⟨_, _, rfl⟩⟩

theorem bind (first : Meets limit fits (p tokens) ⟨.ok value, rest, []⟩)
    (behind : Meets limit fits' (next value rest) goal') :
    Meets limit (fits ∧ fits') ((p >>= next) tokens) goal' := by
  constructor
  · rintro ⟨enough, enough'⟩
    rw [run_bind (first.reaches enough), behind.reaches enough']
  · intro less
    by_cases enough : fits
    · obtain ⟨position, rest', ran⟩ := behind.sinks fun enough' => less ⟨enough, enough'⟩
      exact ⟨position, rest', by rw [run_bind (first.reaches enough), ran]⟩
    · obtain ⟨position, rest', ran⟩ := first.sinks enough
      exact ⟨position, rest', run_bind_error ran⟩

-- Where the first part is read at any rate.
theorem after (ran : p tokens = ⟨.ok value, rest, []⟩) (behind : Meets limit fits (next value rest) goal') :
    Meets limit fits ((p >>= next) tokens) goal' :=
  ((of_eq ran trivial : Meets limit True _ _).bind behind).imp (iff_of_eq (true_and _)).symm

-- Where the second part is.
theorem before (first : Meets limit fits (p tokens) ⟨.ok value, rest, []⟩) (ran : next value rest = goal') :
    Meets limit fits ((p >>= next) tokens) goal' :=
  (first.bind (of_eq ran trivial)).imp (iff_of_eq (and_true _)).symm

theorem again {step : σ → Parser (Turn σ α)} {state state' : σ}
    (turn : Meets limit fits (step state tokens) ⟨.ok (.again state'), rest, []⟩) (shorter : rest.length < tokens.length)
    (behind : Meets limit fits' (loop step state' rest) goal) :
    Meets limit (fits ∧ fits') (loop step state tokens) goal := by
  constructor
  · rintro ⟨enough, enough'⟩
    rw [run_loop_again (turn.reaches enough) shorter, behind.reaches enough']
    rfl
  · intro less
    by_cases enough : fits
    · obtain ⟨position, rest', ran⟩ := behind.sinks fun enough' => less ⟨enough, enough'⟩
      exact ⟨position, rest', by rw [run_loop_again (turn.reaches enough) shorter, ran]; rfl⟩
    · obtain ⟨position, rest', ran⟩ := turn.sinks enough
      exact ⟨position, rest', by rw [loop, ran]⟩

end Meets

/-! What is done at a token that is known. -/

theorem is_symbol {symbol : Symbol} (same : token.symbol = symbol) (kind : TokenKind) (value : String) :
    token.is kind value = (symbol.kind == kind && symbol.value == value) := by
  rw [← same]
  rfl

theorem run_advance : advance (token :: second :: rest) = ⟨.ok token, second :: rest, []⟩ := rfl

theorem run_accept {kind : TokenKind} {mark : String} (found : token.is kind mark = true) :
    accept kind mark (token :: second :: rest) = ⟨.ok true, second :: rest, []⟩ := by
  change (if token.is kind mark = true then (do let _ ← advance; return true) else return false : Parser Bool) _ = _
  rw [if_pos found]
  rfl

theorem run_accept_other {kind : TokenKind} {mark : String} (other : token.is kind mark = false) :
    accept kind mark (token :: rest) = ⟨.ok false, token :: rest, []⟩ := by
  change (if token.is kind mark = true then (do let _ ← advance; return true) else return false : Parser Bool) _ = _
  rw [if_neg (Bool.eq_false_iff.mp other)]
  rfl

theorem run_expect {kind : TokenKind} {mark : String} (found : token.is kind mark = true) :
    expect kind mark (token :: second :: rest) = ⟨.ok token, second :: rest, []⟩ := by
  change (if token.is kind mark = true then advance else Parser.fail _ : Parser Token) _ = _
  rw [if_pos found]
  rfl

-- A word is taken as a name, whether it is reserved or not.
theorem run_word {text : String} (isWord : token.symbol = .word text) (what : String) :
    name what (token :: second :: rest) = ⟨.ok text, second :: rest, []⟩ := by
  obtain ⟨kind, value, place⟩ := token
  obtain ⟨same, rfl⟩ : kind = (if isKeyword text then .keyword else .identifier) ∧ value = text :=
    ⟨congrArg Symbol.kind isWord, congrArg Symbol.value isWord⟩
  subst same
  cases isKeyword value with
  | true => rfl
  | false => rfl

theorem run_string {text : String} (isString : token.symbol = ⟨.string, text⟩) (what : String) :
    string what (token :: second :: rest) = ⟨.ok text, second :: rest, []⟩ := by
  cases token
  cases isString
  rfl

theorem run_skipWhile {kind : Token → Bool} (other : kind token = false) :
    skipWhile kind (token :: rest) = ⟨.ok (), token :: rest, []⟩ := by
  cases rest with
  | nil => rfl
  | cons second rest => rw [skipWhile, dropWhile, if_neg (Bool.eq_false_iff.mp other)]

end Charter.Source.Parser

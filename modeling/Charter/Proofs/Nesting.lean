import Charter.Proofs.Endings

/-!
Reading inside of brackets that are closed: which productions close the brackets that they open, and which stop at the
boundary of a text.
-/

namespace Charter.Source
open Charter.Source.Parser

set_option synthInstance.maxSize 100000

namespace Parser
variable {α β σ : Type}

/-! What is known of productions, as classes: a production has a fact as soon as its parts do. -/

-- Every bracket that is opened on the way is closed on the way.
class Keeps (brackets : Brackets) (p : Parser α) : Prop where
  ends : ∀ {place awaited tokens}, Balanced brackets awaited tokens →
    Ends brackets place awaited p tokens fun _ rest => Balanced brackets awaited rest
  traces : ∀ {awaited tokens}, Terminated tokens →
    Traces brackets awaited p tokens fun _ rest => Balanced brackets awaited rest

-- The same, where the current token is known.
class KeepsAt (brackets : Brackets) (token : Token) (p : Parser α) : Prop where
  ends : ∀ {place awaited tokens}, head (tokens ++ [newlineAt place]) = token → Balanced brackets awaited tokens →
    Ends brackets place awaited p tokens fun _ rest => Balanced brackets awaited rest
  traces : ∀ {awaited tokens}, head tokens = token → Terminated tokens →
    Traces brackets awaited p tokens fun _ rest => Balanced brackets awaited rest

-- Begun inside of a bracket, it closes that bracket too.
class Closes (brackets : Brackets) (close : String) (p : Parser α) : Prop where
  ends : ∀ {place awaited tokens}, Balanced brackets (brackets.await close awaited) tokens →
    Ends brackets place awaited p tokens fun _ rest => Balanced brackets awaited rest
  traces : ∀ {awaited tokens}, Terminated tokens →
    Traces brackets (brackets.await close awaited) p tokens fun _ rest => Balanced brackets awaited rest

-- Begun inside of a bracket, it closes that bracket if it is the last turn of a repetition, and no other turn does.
class Circles (brackets : Brackets) (close : String) (p : Parser (Turn σ α)) : Prop where
  ends : ∀ {place awaited tokens}, Balanced brackets (brackets.await close awaited) tokens →
    Ends brackets place awaited p tokens
      (Turn.holds (Balanced brackets (brackets.await close awaited)) fun _ => Balanced brackets awaited)
  traces : ∀ {awaited tokens}, Terminated tokens → Traces brackets (brackets.await close awaited) p tokens
    (Turn.holds (Balanced brackets (brackets.await close awaited)) fun _ => Balanced brackets awaited)

-- At a boundary it fails and takes nothing.
class Stops (p : Parser α) : Prop where
  fails : ∀ {after}, Boundary after → ∃ report, p after = ⟨.error report, after, []⟩

-- At a boundary it wants a parameter.
class Wants (p : Parser α) : Prop where
  demands : Demands p [] []

-- A skip that ends in front of every closing mark that is looked at.
class Skips (p : Parser Unit) : Prop where
  inside : ∀ {brackets close awaited tokens}, Balanced brackets (close :: awaited) tokens →
    ∃ rest, Balanced brackets (close :: awaited) rest ∧
      ∀ place after, p (tokens ++ newlineAt place :: after) = ⟨.ok (), rest ++ newlineAt place :: after, []⟩
  traces : ∀ {brackets awaited tokens}, Terminated tokens →
    Traces brackets awaited p tokens fun _ rest => Balanced brackets awaited rest

section Rules
variable {brackets : Brackets} {p q : Parser α} {next : α → Parser β} {close mark : String} {token : Token}

instance Keeps.pure (value : α) : Keeps brackets (Pure.pure value : Parser α) where
  ends nested := .passes value _ [] (fun _ _ => rfl) nested
  traces ended := .of_ok rfl ended id

instance Keeps.bind [first : Keeps brackets p] [behind : ∀ value, Keeps brackets (next value)] :
    Keeps brackets (p >>= next) where
  ends nested := (first.ends nested).bind fun value _ kept => (behind value).ends kept
  traces ended := (first.traces ended).bind fun value _ ended => (behind value).traces ended

theorem Keeps.of_bind (first : Keeps brackets p) (behind : ∀ value, Keeps brackets (next value)) :
    Keeps brackets (p >>= next) := bind

instance Keeps.loop {step : σ → Parser (Turn σ α)} [each : ∀ state, Keeps brackets (step state)] (state : σ) :
    Keeps brackets (Parser.loop step state) where
  ends {_ awaited _} nested := by
    refine Ends.loop (Balanced brackets awaited) (fun _ nested => ⟨[], nested⟩) (fun state _ nested => ?_) state nested
    exact ((each state).ends nested).imp fun _ _ kept => Turn.holds_iff.mpr kept
  traces ended := by
    refine Traces.loop (fun state tokens ended turn rest ran => ?_) state ended
    exact ((each state).traces ended turn rest ran).imp_right fun front held => front (Turn.holds_iff.mp held)

instance Keeps.ite {c : Prop} [Decidable c] [yes : Keeps brackets p] [no : Keeps brackets q] :
    Keeps brackets (if c then p else q) := by
  split
  · exact yes
  · exact no

instance Keeps.failAt (position : Position) (fault : Fault) : Keeps brackets (Parser.failAt position fault : Parser α) :=
  ⟨fun nested => .fails ⟨fault, position⟩ _ [] [] (fun _ _ => rfl) nested, fun _ => .of_error rfl⟩

instance Keeps.report (report : Report) : Keeps brackets (Parser.report report) :=
  ⟨fun nested => .passes () _ [report] (fun _ _ => rfl) nested, fun _ _ _ read => by cases read⟩

-- The current token is the same whatever follows the text.
theorem head_append (place : Position) (tokens after : List Token) :
    head (tokens ++ newlineAt place :: after) = head (tokens ++ [newlineAt place]) := by
  cases tokens <;> rfl

theorem drop_cons_append (token : Token) (place : Position) (tokens after : List Token) :
    drop (token :: tokens ++ newlineAt place :: after) = tokens ++ newlineAt place :: after := by
  cases tokens <;> rfl

instance Keeps.current : Keeps brackets Parser.current where
  ends {place _ tokens} nested := by
    refine .passes (head (tokens ++ [newlineAt place])) tokens [] (fun after _ => ?_) nested
    rw [← head_append place tokens after]
    rfl
  traces ended := .of_ok rfl ended id

instance (priority := low) KeepsAt.of_keeps [keeps : Keeps brackets p] : KeepsAt brackets token p :=
  ⟨fun _ nested => keeps.ends nested, fun _ ended => keeps.traces ended⟩

-- What follows the current token may depend on it.
instance Keeps.current_bind {next : Token → Parser β} [each : ∀ token, KeepsAt brackets token (next token)] :
    Keeps brackets (Parser.current >>= next) where
  ends {place _ tokens} nested := by
    refine ((each (head (tokens ++ [newlineAt place]))).ends rfl nested).prefixed [] fun after _ => ?_
    rw [← head_append place tokens after]
    rfl
  traces {_ tokens} ended := (each (head tokens)).traces rfl ended

theorem Keeps.of_current {next : Token → Parser β} (each : ∀ token, KeepsAt brackets token (next token)) :
    Keeps brackets (Parser.current >>= next) := current_bind

instance KeepsAt.ite {c : Prop} [Decidable c] [yes : KeepsAt brackets token p] [no : KeepsAt brackets token q] :
    KeepsAt brackets token (if c then p else q) := by
  split
  · exact yes
  · exact no

instance KeepsAt.advance [plain : IsPlain token] : KeepsAt brackets token Parser.advance where
  ends {place _ tokens} current nested := by
    cases tokens with
    | nil => subst current; exact absurd rfl (plain.noNewline rfl)
    | cons first rest =>
        obtain rfl : first = token := current
        refine .passes first rest [] (fun after _ => ?_) ((balanced_plain plain.noBracket).mp nested)
        rw [← drop_cons_append first place rest after]
        rfl
  traces {_ tokens} current ended value rest read := by
    cases read
    exact ⟨ended.suffix (Shrinks.drop_suffix tokens), balanced_of_drop (current ▸ plain)⟩

instance KeepsAt.bind [first : KeepsAt brackets token p] [behind : ∀ value, Keeps brackets (next value)] :
    KeepsAt brackets token (p >>= next) where
  ends current nested := (first.ends current nested).bind fun value _ kept => (behind value).ends kept
  traces current ended := (first.traces current ended).bind fun value _ ended => (behind value).traces ended

theorem run_fail (fault : Fault) (place : Position) (tokens after : List Token) :
    (Parser.fail fault : Parser α) (tokens ++ newlineAt place :: after) =
      ⟨.error ⟨fault, (head (tokens ++ [newlineAt place])).position⟩, tokens ++ newlineAt place :: after, []⟩ := by
  rw [← head_append place tokens after]
  rfl

instance Keeps.fail (fault : Fault) : Keeps brackets (Parser.fail fault : Parser α) :=
  ⟨fun nested => .fails _ _ [] [] (fun after _ => run_fail fault _ _ after) nested, fun _ => .of_error rfl⟩

-- Nothing is read behind a fault.
instance Keeps.fail_bind (fault : Fault) : Keeps brackets (Parser.fail fault >>= next) where
  ends nested := .fails _ _ [] [] (fun after _ => run_bind_error (run_fail fault _ _ after)) nested
  traces _ := .of_error rfl

instance Keeps.isAt (kind : TokenKind) (value : String) : Keeps brackets (Parser.isAt kind value) := by
  unfold Parser.isAt; infer_instance

/-! Marks that are no brackets. -/

class PlainMark (kind : TokenKind) (mark : String) : Prop where
  noBracket : kind = .punctuation → closing? mark = none ∧ isClosing mark = false
  noNewline : kind ≠ .newline

instance : PlainMark .keyword mark := ⟨nofun, nofun⟩
instance : PlainMark .operator mark := ⟨nofun, nofun⟩
instance : PlainMark .identifier mark := ⟨nofun, nofun⟩
instance : PlainMark .punctuation ":" := ⟨fun _ => ⟨rfl, by decide⟩, nofun⟩
instance : PlainMark .punctuation "," := ⟨fun _ => ⟨rfl, by decide⟩, nofun⟩

theorem PlainMark.isPlain {kind : TokenKind} [plain : PlainMark kind mark] (found : token.is kind mark = true) :
    IsPlain token := by
  obtain ⟨same, same'⟩ := Bool.and_eq_true_iff.mp found
  obtain rfl := beq_iff_eq.mp same
  obtain rfl := beq_iff_eq.mp same'
  exact ⟨plain.noBracket, fun newline => absurd newline plain.noNewline⟩

theorem isPlain_of_kind {kind : TokenKind} (same : token.kind = kind) (newline : kind ≠ .newline)
    (punctuation : kind ≠ .punctuation) : IsPlain token :=
  ⟨fun mark => absurd (same.symm.trans mark) punctuation, fun line => absurd (same.symm.trans line) newline⟩

instance Keeps.expect (kind : TokenKind) [PlainMark kind mark] : Keeps brackets (Parser.expect kind mark) := by
  unfold Parser.expect
  refine .of_current fun token => ?_
  split
  · next found =>
    have := PlainMark.isPlain found
    infer_instance
  · infer_instance

theorem accept_eq (kind : TokenKind) (value : String) : Parser.accept kind value = (do
    let token ← Parser.current
    if token.is kind value then
      let _ ← Parser.advance
      return true
    else return false) := by
  funext tokens
  unfold Parser.accept Parser.isAt
  rfl

instance Keeps.accept (kind : TokenKind) [PlainMark kind mark] : Keeps brackets (Parser.accept kind mark) := by
  rw [accept_eq]
  refine .of_current fun token => ?_
  split
  · next found =>
    have := PlainMark.isPlain found
    infer_instance
  · infer_instance

instance Keeps.after? (kind : TokenKind) [PlainMark kind mark] [Keeps brackets p] :
    Keeps brackets (Parser.after? kind mark p) := by
  unfold Parser.after?; infer_instance

instance Keeps.name (what : String) : Keeps brackets (Parser.name what) := by
  unfold Parser.name
  refine .of_current fun token => ?_
  split
  · next kind =>
    have := isPlain_of_kind kind nofun nofun
    infer_instance
  · next kind =>
    have := isPlain_of_kind kind nofun nofun
    infer_instance
  · infer_instance

instance Keeps.declaredName (what : String) : Keeps brackets (Parser.declaredName what) := by
  unfold Parser.declaredName
  refine .of_current fun token => ?_
  split
  · next kind =>
    have := isPlain_of_kind kind nofun nofun
    infer_instance
  · next kind =>
    have := isPlain_of_kind kind nofun nofun
    infer_instance
  · infer_instance

theorem isPlain_string (string : (token.kind == .string) = true) : IsPlain token :=
  isPlain_of_kind (beq_iff_eq.mp string) nofun nofun

theorem isPlain_identifier (identifier : (token.kind == .identifier) = true) : IsPlain token :=
  isPlain_of_kind (beq_iff_eq.mp identifier) nofun nofun

instance Keeps.string (what : String) : Keeps brackets (Parser.string what) := by
  unfold Parser.string
  refine .of_current fun token => ?_
  split
  · next string =>
    have := isPlain_string string
    infer_instance
  · infer_instance

instance Keeps.nameOrString (what : String) : Keeps brackets (Parser.nameOrString what) := by
  unfold Parser.nameOrString
  refine .of_current fun token => ?_
  split
  · next string =>
    have := isPlain_string string
    infer_instance
  · infer_instance

instance Keeps.message? : Keeps brackets Parser.message? := by
  unfold Parser.message?
  refine .of_current fun token => ?_
  split
  · next string =>
    have := isPlain_string string
    infer_instance
  · infer_instance

-- Behind a token that is no newline stands a token of the text, or the newline behind it.
theorem KeepsAt.following_bind {next : Token → Parser β} (newline : token.kind ≠ .newline)
    [each : ∀ other, KeepsAt brackets token (next other)] : KeepsAt brackets token (Parser.following >>= next) where
  ends {place _ tokens} current nested := by
    cases tokens with
    | nil => subst current; exact absurd rfl newline
    | cons first rest =>
        refine ((each (head (rest ++ [newlineAt place]))).ends current nested).prefixed [] fun after _ => ?_
        rw [← head_append place rest after, ← drop_cons_append first place rest after]
        rfl
  traces {_ tokens} current ended := (each (head (drop tokens))).traces current ended

/-! Skips of newlines and separators. -/

-- What a skip may pass: newlines and marks that are no brackets.
class Passes (q : Token → Bool) : Prop where
  newline : ∀ place, q (newlineAt place) = true
  only : ∀ token, q token = true →
    token.kind = .newline ∨ token.kind = .punctuation ∧ closing? token.value = none ∧ isClosing token.value = false

instance : Passes isNewline := ⟨fun _ => rfl, fun _ newline => .inl (beq_iff_eq.mp newline)⟩

instance : Passes isSeparator := by
  refine ⟨fun _ => rfl, fun token separates => ?_⟩
  rcases Bool.or_eq_true_iff.mp separates with newline | semicolon
  · exact .inl (beq_iff_eq.mp newline)
  · obtain ⟨kind, value⟩ := isPunctuation_of_is semicolon
    exact .inr ⟨kind, by rw [value]; decide⟩

instance : Passes isListSeparator := by
  refine ⟨fun _ => rfl, fun token separates => ?_⟩
  rcases Bool.or_eq_true_iff.mp separates with separates | comma
  · exact Passes.only token separates
  · obtain ⟨kind, value⟩ := isPunctuation_of_is comma
    exact .inr ⟨kind, by rw [value]; decide⟩

theorem Passes.boundary {q : Token → Bool} [passes : Passes q] {after : List Token} (boundary : Boundary after) :
    dropWhile q after = after := by
  obtain ⟨token, rest, rfl, last⟩ := boundary
  cases rest with
  | nil => rfl
  | cons next rest =>
      rw [dropWhile, if_neg]
      intro passed
      rcases passes.only token passed with kind | ⟨kind, _⟩ <;> simp [Token.beginsDeclaration, kind] at last

theorem Passes.noBracket {q : Token → Bool} [passes : Passes q] (passed : q token = true) :
    token.kind = .punctuation → closing? token.value = none ∧ isClosing token.value = false := by
  intro mark
  rcases passes.only token passed with newline | ⟨_, plain⟩
  · cases mark.symm.trans newline
  · exact plain

theorem Passes.balanced {q : Token → Bool} [passes : Passes q] {awaited : List String} {tokens : List Token}
    (behind : Balanced brackets awaited (dropWhile q tokens)) : Balanced brackets awaited tokens := by
  fun_induction dropWhile q tokens with
  | case1 token next rest passed ih => exact (balanced_plain (passes.noBracket passed)).mpr (ih behind)
  | case2 => exact behind
  | case3 => exact behind

-- A skip stops in the text, or goes over all of it and the newline behind it.
theorem Passes.skip {q : Token → Bool} [passes : Passes q] {awaited : List String} {tokens : List Token}
    (nested : Balanced brackets awaited tokens) :
    (∃ first rest, Balanced brackets awaited (first :: rest) ∧ q first = false ∧ ∀ place after,
      dropWhile q (tokens ++ newlineAt place :: after) = first :: rest ++ newlineAt place :: after) ∨
    (awaited = [] ∧ ∀ place after, Boundary after → dropWhile q (tokens ++ newlineAt place :: after) = after) := by
  induction tokens with
  | nil =>
      refine .inr ⟨nested.of_nil, fun place after boundary => ?_⟩
      have same := passes.boundary boundary
      obtain ⟨token, rest, rfl, _⟩ := boundary
      rw [List.nil_append, dropWhile, if_pos (passes.newline place), same]
  | cons token tokens ih =>
      have step (place : Position) (after : List Token) (passed : q token = true) :
          dropWhile q (token :: tokens ++ newlineAt place :: after) =
            dropWhile q (tokens ++ newlineAt place :: after) := by
        cases tokens with
        | nil => rw [List.cons_append, List.nil_append, dropWhile, if_pos passed]
        | cons => rw [List.cons_append, List.cons_append, dropWhile, if_pos passed]
      cases passed : q token with
      | false =>
          refine .inl ⟨token, tokens, nested, passed, fun place after => ?_⟩
          cases tokens with
          | nil => rw [List.cons_append, List.nil_append, dropWhile, passed]; rfl
          | cons => rw [List.cons_append, List.cons_append, dropWhile, passed]; rfl
      | true =>
          have behind := (balanced_plain (passes.noBracket passed)).mp nested
          rcases ih behind with ⟨first, rest, nested', stays, runs⟩ | ⟨outside, runs⟩
          · refine .inl ⟨first, rest, nested', stays, fun place after => ?_⟩
            exact (step place after passed).trans (runs place after)
          · exact .inr ⟨outside, fun place after boundary => (step place after passed).trans (runs place after boundary)⟩

instance {q : Token → Bool} [Passes q] : Skips (skipWhile q) where
  inside nested := by
    rcases Passes.skip (q := q) nested with ⟨first, rest, nested', _, runs⟩ | ⟨outside, _⟩
    · exact ⟨first :: rest, nested', fun place after => by rw [skipWhile, runs place after]⟩
    · cases outside
  traces ended value rest read := by
    cases read
    exact ⟨ended.suffix (Shrinks.dropWhile_suffix _ _), Passes.balanced⟩

instance : Skips skipNewlines := by unfold skipNewlines; infer_instance
instance : Skips skipSeparators := by unfold skipSeparators; infer_instance
instance : Skips skipListSeparators := by unfold skipListSeparators; infer_instance

-- What follows a skip is read in the text, or at the boundary.
theorem Passes.skip_bind {q : Token → Bool} [passes : Passes q] {awaited : List String} {tokens : List Token}
    (next : Unit → Parser β) (nested : Balanced brackets awaited tokens) :
    (∃ rest, Balanced brackets awaited rest ∧ ∀ place after,
      (skipWhile q >>= next) (tokens ++ newlineAt place :: after) =
        (next () (rest ++ newlineAt place :: after)).prefixed []) ∨
    (awaited = [] ∧ ∀ place after, Boundary after →
      (skipWhile q >>= next) (tokens ++ newlineAt place :: after) = (next () after).prefixed []) := by
  rcases Passes.skip (q := q) nested with ⟨first, rest, nested', _, runs⟩ | ⟨outside, runs⟩
  · refine .inl ⟨_, nested', fun place after => run_bind_ok ?_⟩
    rw [skipWhile, runs place after]
  · refine .inr ⟨outside, fun place after boundary => run_bind_ok ?_⟩
    rw [skipWhile, runs place after boundary]

-- A skip may reach the boundary where what follows fails there.
theorem Ends.skip_stops {q : Token → Bool} [Passes q] {place : Position} {awaited outer : List String}
    {tokens : List Token} {next : Unit → Parser β} {holds : β → List Token → Prop} [stops : Stops (next ())]
    (nested : Balanced brackets awaited tokens) (outside : awaited = [] → outer = [])
    (behind : ∀ rest, Balanced brackets awaited rest → Ends brackets place outer (next ()) rest holds) :
    Ends brackets place outer (skipWhile q >>= next) tokens holds := by
  rcases Passes.skip_bind (q := q) next nested with ⟨rest, nested', runs⟩ | ⟨none, runs⟩
  · exact (behind rest nested').prefixed [] fun after _ => runs place after
  · refine .stops [] (outside none) fun after boundary => ?_
    obtain ⟨report, failed⟩ := stops.fails boundary
    exact ⟨report, by rw [runs place after boundary, failed]; rfl⟩

-- Behind an open parenthesis it may also reach the boundary where what follows wants a parameter.
theorem Ends.skip_wants {q : Token → Bool} [Passes q] {place : Position} {awaited outer : List String}
    {tokens : List Token} {next : Unit → Parser β} {holds : β → List Token → Prop} [wants : Wants (next ())]
    (nested : Balanced brackets awaited tokens)
    (outside : awaited = [] → outer = [] ∧ brackets = .butParentheses)
    (behind : ∀ rest, Balanced brackets awaited rest → Ends brackets place outer (next ()) rest holds) :
    Ends brackets place outer (skipWhile q >>= next) tokens holds := by
  rcases Passes.skip_bind (q := q) next nested with ⟨rest, nested', runs⟩ | ⟨none, runs⟩
  · exact (behind rest nested').prefixed [] fun after _ => runs place after
  · obtain ⟨outside, loose⟩ := outside none
    refine .demands [] outside loose (wants.demands.prefixed [] fun after boundary => ?_)
    rw [← List.append_cons]
    exact runs place after boundary

instance Keeps.skipNewlines_bind {next : Unit → Parser β} [keeps : Keeps brackets (next ())] [stops : Stops (next ())] :
    Keeps brackets (skipNewlines >>= next) where
  ends nested := .skip_stops nested id fun _ nested' => keeps.ends nested'
  traces ended := (Skips.traces ended).bind fun _ _ ended => keeps.traces ended

theorem skipNewlinesBeforeBrace_ends {place : Position} {awaited : List String} {tokens : List Token}
    (nested : Balanced brackets awaited tokens) :
    Ends brackets place awaited Parser.skipNewlinesBeforeBrace tokens fun _ rest => Balanced brackets awaited rest := by
  rcases Passes.skip (q := isNewline) nested with ⟨first, rest, nested', _, runs⟩ | ⟨outside, runs⟩
  · cases brace : first.is .punctuation "\x7b" with
    | true =>
        refine .passes () (first :: rest) [] (fun after _ => ?_) nested'
        unfold Parser.skipNewlinesBeforeBrace
        rw [runs place after]
        exact congrArg (Parsed.mk _ · _) (if_pos brace)
    | false =>
        refine .passes () tokens [] (fun after _ => ?_) nested
        unfold Parser.skipNewlinesBeforeBrace
        rw [runs place after]
        exact congrArg (Parsed.mk _ · _) (if_neg (Bool.eq_false_iff.mp brace))
  · refine .passes () tokens [] (fun after boundary => ?_) nested
    unfold Parser.skipNewlinesBeforeBrace
    rw [runs place after boundary]
    obtain ⟨token, rest, rfl, last⟩ := boundary
    refine congrArg (Parsed.mk _ · _) (if_neg fun brace => ?_)
    have kind : token.kind = .punctuation := (isPunctuation_of_is brace).1
    simp [Token.beginsDeclaration, kind] at last

instance Keeps.skipNewlinesBeforeBrace : Keeps brackets Parser.skipNewlinesBeforeBrace where
  ends nested := skipNewlinesBeforeBrace_ends nested
  traces {_ tokens} ended value rest read := by
    unfold Parser.skipNewlinesBeforeBrace at read
    dsimp only at read
    split at read
    · cases read
      exact ⟨ended.suffix (Shrinks.dropWhile_suffix _ tokens), Passes.balanced⟩
    · cases read
      exact ⟨ended, id⟩

/-! Brackets. -/

-- Reading a mark if it is there, with what is known of the tokens in either case.
theorem Ends.accept {place : Position} {awaited : List String} {tokens : List Token} (present absent : List Token → Prop)
    (found : ∀ token rest, tokens = token :: rest → token.is .punctuation mark = true → present rest)
    (missing : (head (tokens ++ [newlineAt place])).is .punctuation mark = false → absent tokens) :
    Ends brackets place awaited (Parser.accept .punctuation mark) tokens fun there rest =>
      if there = true then present rest else absent rest := by
  rw [accept_eq]
  by_cases here : (head (tokens ++ [newlineAt place])).is .punctuation mark = true
  · cases tokens with
    | nil => cases here
    | cons token rest =>
        refine .passes true rest [] (fun after _ => ?_) (found token rest rfl here)
        rw [← drop_cons_append token place rest after]
        exact congrArg (fun p : Parser Bool => p (token :: rest ++ newlineAt place :: after)) (if_pos here)
  · refine .passes false tokens [] (fun after _ => ?_) (missing (Bool.eq_false_iff.mpr here))
    rw [← head_append place tokens after] at here
    exact congrArg (fun p : Parser Bool => p (tokens ++ newlineAt place :: after)) (if_neg here)

theorem Ends.expect {place : Position} {awaited : List String} {tokens : List Token} (present : List Token → Prop)
    (nested : ∃ opened, Balanced brackets (opened ++ awaited) tokens)
    (found : ∀ token rest, tokens = token :: rest → token.is .punctuation mark = true → present rest) :
    Ends brackets place awaited (Parser.expect .punctuation mark) tokens fun _ rest => present rest := by
  by_cases here : (head (tokens ++ [newlineAt place])).is .punctuation mark = true
  · cases tokens with
    | nil => cases here
    | cons token rest =>
        refine .passes token rest [] (fun after _ => ?_) (found token rest rfl here)
        rw [← drop_cons_append token place rest after]
        exact congrArg (fun p : Parser Token => p (token :: rest ++ newlineAt place :: after)) (if_pos here)
  · let fault : Fault := .expected s!"'{mark}'" (head (tokens ++ [newlineAt place]))
    obtain ⟨opened, nested⟩ := nested
    refine .fails ⟨fault, (head (tokens ++ [newlineAt place])).position⟩ tokens [] opened (fun after _ => ?_) nested
    refine Eq.trans ?_ (run_fail fault place tokens after)
    unfold fault
    rw [← head_append place tokens after] at here ⊢
    change (if _ then _ else _ : Parser Token) _ = _
    rw [if_neg here]
    rfl

-- The same the other way round.

theorem Traces.expect {awaited between : List String} {tokens : List Token} (ended : Terminated tokens)
    (front : ∀ token rest, tokens = token :: rest → token.is .punctuation mark = true →
      Balanced brackets between rest → Balanced brackets awaited tokens) :
    Traces brackets awaited (Parser.expect .punctuation mark) tokens fun _ rest => Balanced brackets between rest := by
  intro value rest read
  have same : Parser.expect .punctuation mark tokens =
      (if (head tokens).is .punctuation mark then Parser.advance else Parser.fail (.expected s!"'{mark}'" (head tokens))
        : Parser Token) tokens := rfl
  rw [same] at read
  split at read
  · next found =>
    obtain ⟨first, behind, same, found, ended, ran⟩ := advance_mark ended found
    cases ran.symm.trans read
    exact ⟨ended, front _ _ same found⟩
  · cases read

theorem Traces.accept_bind {awaited between : List String} {tokens : List Token} {next : Bool → Parser β}
    {holds : β → List Token → Prop} (ended : Terminated tokens)
    (front : ∀ token rest, tokens = token :: rest → token.is .punctuation mark = true →
      Balanced brackets between rest → Balanced brackets awaited tokens)
    (present : ∀ {rest}, Terminated rest → Traces brackets between (next true) rest holds)
    (absent : ∀ {rest}, Terminated rest → Traces brackets awaited (next false) rest holds) :
    Traces brackets awaited (Parser.accept .punctuation mark >>= next) tokens holds := by
  have same : Parser.accept .punctuation mark tokens = (if (head tokens).is .punctuation mark
      then (do let _ ← advance; return true) else return false : Parser Bool) tokens := by
    rw [accept_eq]
    rfl
  intro value rest read
  by_cases here : (head tokens).is .punctuation mark = true
  · obtain ⟨first, behind, isCons, found, ended, ran⟩ := advance_mark ended here
    have taken : Parser.accept .punctuation mark tokens = ⟨.ok true, behind, []⟩ := by
      rw [same, if_pos here, run_bind_ok ran]
      rfl
    rw [run_bind_ok taken] at read
    exact (present ended value rest read).imp_right fun inside held => front first behind isCons found (inside held)
  · have other : Parser.accept .punctuation mark tokens = ⟨.ok false, tokens, []⟩ := by
      rw [same, if_neg here]
      rfl
    rw [run_bind_ok other] at read
    exact absent ended value rest read

instance Keeps.expect_bind {next : Token → Parser β} [opens : Opens mark close]
    [closes : ∀ token, Closes brackets close (next token)] :
    Keeps brackets (Parser.expect .punctuation mark >>= next) where
  ends {_ awaited _} nested := by
    refine (Ends.expect (Balanced brackets (brackets.await close awaited)) ⟨[], nested⟩ ?_).bind fun token _ inside =>
      (closes token).ends inside
    rintro token rest rfl found
    exact (balanced_opening found).mp nested
  traces {awaited _} ended := by
    refine (Traces.expect ended ?_).bind fun token _ ended => (closes token).traces ended
    rintro token rest rfl found
    exact (balanced_opening found).mpr

-- The choice made by an opening bracket: behind it the bracket is closed, else nothing was taken.
instance Keeps.accept_bind {next : Bool → Parser β} [opens : Opens mark close]
    [closes : Closes brackets close (next true)] [keeps : Keeps brackets (next false)] :
    Keeps brackets (Parser.accept .punctuation mark >>= next) where
  ends {_ awaited _} nested := by
    refine (Ends.accept (Balanced brackets (brackets.await close awaited)) (Balanced brackets awaited) ?_
      fun _ => nested).bind fun there rest held => ?_
    · rintro token rest rfl found
      exact (balanced_opening found).mp nested
    · cases there with
      | true => exact closes.ends held
      | false => exact keeps.ends held
  traces {awaited _} ended := by
    refine Traces.accept_bind ended ?_ closes.traces keeps.traces
    rintro token rest rfl found
    exact (balanced_opening found).mpr

theorem KeepsAt.advance_opening (mark : String) {next : Token → Parser β} [opens : Opens mark close]
    (found : token.is .punctuation mark = true) [closes : ∀ token, Closes brackets close (next token)] :
    KeepsAt brackets token (Parser.advance >>= next) where
  ends {place _ tokens} current nested := by
    cases tokens with
    | nil => subst current; cases found
    | cons first rest =>
        obtain rfl : first = token := current
        refine ((closes first).ends ((balanced_opening found).mp nested)).prefixed [] fun after _ => ?_
        rw [← drop_cons_append first place rest after]
        rfl
  traces current ended := by
    subst current
    obtain ⟨first, behind, rfl, found, ended, ran⟩ := advance_mark ended found
    intro value rest read
    rw [run_bind_ok ran] at read
    exact ((closes first).traces ended value rest read).imp_right fun inside held =>
      (balanced_opening found).mpr (inside held)

instance Keeps.if_true [keeps : Keeps brackets p] : Keeps brackets (if true = true then p else q) := keeps
instance Keeps.if_false [keeps : Keeps brackets q] : Keeps brackets (if false = true then p else q) := keeps
instance Closes.if_true [closes : Closes brackets close p] : Closes brackets close (if true = true then p else q) :=
  closes

instance Closes.expect [Bracket close] : Closes brackets close (Parser.expect .punctuation close) where
  ends {_ awaited _} nested := by
    refine .expect (Balanced brackets awaited) nested.opened ?_
    rintro token rest rfl found
    exact (balanced_closing found).mp nested
  traces ended := by
    refine .expect ended ?_
    rintro token rest rfl found
    exact (balanced_closing found).mpr

-- What goes on behind the bracket keeps the others.
instance Closes.bind [first : Closes brackets close p] [behind : ∀ value, Keeps brackets (next value)] :
    Closes brackets close (p >>= next) where
  ends nested := (first.ends nested).bind fun value _ kept => (behind value).ends kept
  traces ended := (first.traces ended).bind fun value _ ended => (behind value).traces ended

-- What goes before it keeps it.
instance Closes.keeps_bind [first : Keeps brackets p] [behind : ∀ value, Closes brackets close (next value)] :
    Closes brackets close (p >>= next) where
  ends nested := (first.ends nested).outward.bind fun value _ kept => (behind value).ends kept
  traces ended := (first.traces ended).bind fun value _ ended => (behind value).traces ended

instance Closes.skip_bind [Counted close] {skip : Parser Unit} {next : Unit → Parser β} [skips : Skips skip]
    [behind : Closes brackets close (next ())] : Closes brackets close (skip >>= next) where
  ends {place _ _} nested := by
    obtain ⟨rest, nested', runs⟩ := skips.inside (Balanced.counted.mp nested)
    exact (behind.ends (Balanced.counted.mpr nested')).prefixed [] fun after _ => run_bind_ok (runs place after)
  traces ended := (skips.traces ended).bind fun _ _ ended => behind.traces ended

instance Closes.skipNewlines_bind {next : Unit → Parser β} [closes : Closes brackets close (next ())]
    [stops : Stops (next ())] : Closes brackets close (skipNewlines >>= next) where
  ends nested := .skip_stops nested (fun none => (Brackets.of_await none).1) fun _ nested' => closes.ends nested'
  traces ended := (Skips.traces ended).bind fun _ _ ended => closes.traces ended

instance Closes.loop {step : σ → Parser (Turn σ α)} [each : ∀ state, Circles brackets close (step state)] (state : σ) :
    Closes brackets close (Parser.loop step state) where
  ends {_ awaited _} nested := .loop (Balanced brackets (brackets.await close awaited)) (fun _ nested => nested.opened)
    (fun state _ nested => (each state).ends nested) state nested
  traces ended := .loop (fun state _ ended => (each state).traces ended) state ended

section Circles
variable {p q : Parser (Turn σ α)} {first : Parser β} {next : β → Parser (Turn σ α)}

instance Circles.again (state : σ) : Circles brackets close (Pure.pure (.again state) : Parser (Turn σ α)) where
  ends nested := .passes (.again state) _ [] (fun _ _ => rfl) nested
  traces ended := .of_ok rfl ended id

instance Circles.keeps_bind [before : Keeps brackets first] [behind : ∀ value, Circles brackets close (next value)] :
    Circles brackets close (first >>= next) where
  ends nested := (before.ends nested).outward.bind fun value _ kept => (behind value).ends kept
  traces ended := (before.traces ended).bind fun value _ ended => (behind value).traces ended

instance Circles.skip_bind [Counted close] {skip : Parser Unit} {next : Unit → Parser (Turn σ α)} [skips : Skips skip]
    [behind : Circles brackets close (next ())] : Circles brackets close (skip >>= next) where
  ends {place _ _} nested := by
    obtain ⟨rest, nested', runs⟩ := skips.inside (Balanced.counted.mp nested)
    exact (behind.ends (Balanced.counted.mpr nested')).prefixed [] fun after _ => run_bind_ok (runs place after)
  traces ended := (skips.traces ended).bind fun _ _ ended => behind.traces ended

instance Circles.skipNewlines_bind {next : Unit → Parser (Turn σ α)} [circles : Circles brackets close (next ())]
    [stops : Stops (next ())] : Circles brackets close (skipNewlines >>= next) where
  ends nested := .skip_stops nested (fun none => (Brackets.of_await none).1) fun _ nested' => circles.ends nested'
  traces ended := (Skips.traces ended).bind fun _ _ ended => circles.traces ended

instance Circles.skipListSeparators_bind {next : Unit → Parser (Turn σ α)} [circles : Circles brackets close (next ())]
    [wants : Wants (next ())] : Circles brackets close (skipListSeparators >>= next) where
  ends nested := .skip_wants nested Brackets.of_await fun _ nested' => circles.ends nested'
  traces ended := (Skips.traces ended).bind fun _ _ ended => circles.traces ended

instance Circles.ite {c : Prop} [Decidable c] [yes : Circles brackets close p] [no : Circles brackets close q] :
    Circles brackets close (if c then p else q) := by
  split
  · exact yes
  · exact no

-- The closing bracket ends the repetition.
instance Circles.accept_bind [Bracket close] {value : α} [circles : Circles brackets close q] :
    Circles brackets close
      (Parser.accept .punctuation close >>= fun there => if there = true then pure (.done value) else q) where
  ends {_ awaited _} nested := by
    refine (Ends.accept (Balanced brackets awaited) (Balanced brackets (brackets.await close awaited)) ?_
      fun _ => nested).bind fun there rest held => ?_
    · rintro token rest rfl found
      exact (balanced_closing found).mp nested
    · cases there with
      | true => exact .passes (.done value) rest [] (fun _ _ => rfl) held
      | false => exact circles.ends held
  traces ended := by
    refine Traces.accept_bind ended ?_ (fun ended => .of_ok rfl ended id) circles.traces
    rintro token rest rfl found
    exact (balanced_closing found).mpr

instance Circles.fail_bind (fault : Fault) : Circles brackets close (Parser.fail fault >>= next) where
  ends nested := by
    obtain ⟨opened, nested⟩ := nested.opened
    exact .fails _ _ [] opened (fun after _ => run_bind_error (run_fail fault _ _ after)) nested
  traces _ := .of_error rfl

end Circles

/-! At a boundary. -/

instance Stops.bind [first : Stops p] : Stops (p >>= next) := by
  constructor
  intro after boundary
  obtain ⟨report, ran⟩ := first.fails boundary
  exact ⟨report, run_bind_error ran⟩

instance Stops.fail (fault : Fault) : Stops (Parser.fail fault : Parser α) := ⟨fun _ => ⟨_, rfl⟩⟩

theorem kind_of_boundary {after : List Token} (boundary : Boundary after) :
    (head after).kind = .endOfInput ∨
      (head after).kind = .keyword ∧ declarationKeywords.contains (head after).value = true := by
  obtain ⟨token, rest, rfl, ended | begins⟩ := boundary
  · exact .inl ended
  · exact .inr ((Bool.and_eq_true_iff.mp begins).imp_left beq_iff_eq.mp)

theorem Stops.of_current {next : Token → Parser β}
    (each : ∀ after, Boundary after → ∃ report, next (head after) after = ⟨.error report, after, []⟩) :
    Stops (Parser.current >>= next) := by
  constructor
  intro after boundary
  obtain ⟨report, ran⟩ := each after boundary
  exact ⟨report, ran⟩

instance Stops.current_bind {next : Token → Parser β} [each : ∀ token, Stops (next token)] :
    Stops (Parser.current >>= next) := .of_current fun after boundary => (each (head after)).fails boundary

-- No mark is found there.
theorem no_mark_of_boundary {after : List Token} (boundary : Boundary after) (mark : String) :
    (head after).is .punctuation mark = false := by
  rcases kind_of_boundary boundary with ended | ⟨keyword, _⟩
  · simp [Token.is, ended]
  · simp [Token.is, keyword]

instance Stops.expect : Stops (Parser.expect .punctuation mark) := by
  refine .of_current fun after boundary => ?_
  rw [if_neg (Bool.eq_false_iff.mp (no_mark_of_boundary boundary mark))]
  exact ⟨_, rfl⟩

theorem accept_boundary {after : List Token} (boundary : Boundary after) (mark : String) :
    Parser.accept .punctuation mark after = ⟨.ok false, after, []⟩ := by
  rw [accept_eq]
  exact congrArg (fun p : Parser Bool => p after) (if_neg (Bool.eq_false_iff.mp (no_mark_of_boundary boundary mark)))

instance Stops.accept_bind {next : Bool → Parser β} [stops : Stops (next false)] :
    Stops (Parser.accept .punctuation mark >>= next) := by
  constructor
  intro after boundary
  obtain ⟨report, failed⟩ := stops.fails boundary
  exact ⟨report, by rw [run_bind_ok (accept_boundary boundary mark), failed]; rfl⟩

instance Stops.isAt_bind {next : Bool → Parser β} [stops : Stops (next false)] :
    Stops (Parser.isAt .punctuation mark >>= next) := by
  constructor
  intro after boundary
  obtain ⟨report, failed⟩ := stops.fails boundary
  have away : Parser.isAt .punctuation mark after = ⟨.ok false, after, []⟩ :=
    congrArg (fun there => Parsed.mk (.ok there) after []) (no_mark_of_boundary boundary mark)
  exact ⟨report, by rw [run_bind_ok away, failed]; rfl⟩

instance Stops.if_false [stops : Stops q] : Stops (if false = true then p else q) := stops

instance Stops.if_neither [stops : Stops p] : Stops (if (!false && !false) = true then p else q) := stops

/-! What wants a parameter at a boundary. -/

namespace Wants

instance bind [first : Wants p] : Wants (p >>= next) := ⟨first.demands.bind⟩

instance current_bind {next : Token → Parser β} [each : ∀ token, Wants (next token)] :
    Wants (Parser.current >>= next) where
  demands.missing last ended := (each last).demands.missing last ended
  demands.taken first more begins some := (each first).demands.taken first more begins some

instance accept_bind {next : Bool → Parser β} [wants : Wants (next false)] :
    Wants (Parser.accept .punctuation mark >>= next) :=
  ⟨wants.demands.prefixed [] fun _ boundary => run_bind_ok (accept_boundary boundary mark)⟩

instance if_false [wants : Wants q] : Wants (if false = true then p else q) := wants

instance declaredName : Wants (Parser.declaredName "parameter") where
  demands.missing last ended := by
    obtain ⟨kind, value, place⟩ := last
    cases ended
    rfl
  demands.taken first more begins some := by
    obtain ⟨kind, value, place⟩ := first
    obtain ⟨kind, _⟩ := Bool.and_eq_true_iff.mp begins
    obtain ⟨second, rest, rfl⟩ := List.exists_cons_of_ne_nil some
    cases beq_iff_eq.mp kind
    exact List.prefix_refl _

end Wants

end Rules
end Parser
end Charter.Source

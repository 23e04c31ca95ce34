import Charter.Proofs.Containment

/-!
Going on after a fault. The braces that are awaited at a place of a closed text are told by the tokens behind
it, so a skip that counts braces never goes deeper than they are, and finds the end of the text with none open.
-/

namespace Charter.Source
open Charter.Source.Parser

set_option synthInstance.maxSize 100000

-- How a token changes the depth of braces.
def braceDepth (token : Token) : Int :=
  if token.is .punctuation "\x7b" then 1 else if token.is .punctuation "\x7d" then -1 else 0

-- How the tokens of a list change it together.
def depthOver : List Token → Int
  | [] => 0
  | token :: rest => braceDepth token + depthOver rest

theorem depthOver_append (tokens others : List Token) :
    depthOver (tokens ++ others) = depthOver tokens + depthOver others := by
  induction tokens with
  | nil => exact (Int.zero_add _).symm
  | cons token tokens ih => rw [List.cons_append, depthOver, depthOver, ih, Int.add_assoc]

theorem openBraces_eq (tokens : List Token) : Grammar.openBraces tokens = (depthOver tokens).toNat := by
  have sum (start : Int) : (tokens.map braceDepth).foldl (· + ·) start = start + depthOver tokens := by
    induction tokens generalizing start with
    | nil => exact (Int.add_zero start).symm
    | cons token tokens ih => rw [List.map_cons, List.foldl_cons, ih, depthOver, Int.add_assoc]
  have total := sum 0
  rw [Int.zero_add] at total
  exact congrArg Int.toNat total

-- How many braces are awaited.
def braces (awaited : List String) : Nat := awaited.count "\x7d"

theorem is_iff {token : Token} {mark : String} (kind : token.kind = .punctuation) :
    token.is .punctuation mark = true ↔ token.value = mark := by
  simp [Token.is, kind]

-- An opening brace awaits a closing one, and no other bracket does.
theorem braces_opening {token : Token} {close : String} (kind : token.kind = .punctuation)
    (opens : closing? token.value = some close) (awaited : List String) :
    (braces (close :: awaited) : Int) = braces awaited + braceDepth token := by
  unfold braceDepth braces
  simp only [is_iff kind]
  unfold closing? at opens
  split at opens <;> cases opens <;> rename_i value <;> simp [value]

theorem braces_closing {token : Token} (kind : token.kind = .punctuation) (closes : isClosing token.value = true)
    (awaited : List String) : (braces (token.value :: awaited) : Int) = braces awaited - braceDepth token := by
  unfold braceDepth braces
  simp only [is_iff kind]
  simp only [isClosing, Bool.or_eq_true, beq_iff_eq] at closes
  rcases closes with (value | value) | value <;> simp [value]

theorem braceDepth_plain {token : Token}
    (plain : token.kind = .punctuation → closing? token.value = none ∧ isClosing token.value = false) :
    braceDepth token = 0 := by
  unfold braceDepth
  split
  · next opens =>
    obtain ⟨kind, value⟩ := isPunctuation_of_is opens
    have none := (plain kind).1
    rw [value] at none
    cases none
  · split
    · next closes =>
      obtain ⟨kind, value⟩ := isPunctuation_of_is closes
      have none := (plain kind).2
      rw [value] at none
      cases none
    · rfl

-- The awaited braces are those that the rest closes and does not open.
theorem Nested.balance {awaited : List String} {tokens : List Token} (nested : Nested awaited tokens) :
    (braces awaited : Int) + depthOver tokens = 0 := by
  induction nested with
  | nil => rfl
  | opening mark opens inside ih =>
      have step := braces_opening mark opens
      rw [depthOver]
      rw [step] at ih
      omega
  | closing mark closes behind ih =>
      rw [depthOver, braces_closing mark closes]
      omega
  | plain plain behind ih =>
      rw [depthOver, braceDepth_plain plain]
      omega

-- What is not looked at is no brace.
theorem braceDepth_uncounted {brackets : Brackets} {token : Token} (other : ¬ brackets.counts token.value = true) :
    braceDepth token = 0 := by
  have brace (mark : String) [counted : Counted mark] : token.is .punctuation mark = false :=
    Bool.eq_false_iff.mpr fun found => other ((isPunctuation_of_is found).2 ▸ counted.counts brackets)
  simp [braceDepth, brace "\x7b", brace "\x7d"]

theorem depthOver_filter (brackets : Brackets) (tokens : List Token) :
    depthOver (tokens.filter (brackets.counts ·.value)) = depthOver tokens := by
  induction tokens with
  | nil => rfl
  | cons token tokens ih =>
      rw [List.filter_cons]
      split
      · rw [depthOver, depthOver, ih]
      · next other => rw [ih, depthOver, braceDepth_uncounted other, Int.zero_add]

theorem Balanced.balance {brackets : Brackets} {awaited : List String} {tokens : List Token}
    (nested : Balanced brackets awaited tokens) : (braces awaited : Int) + depthOver tokens = 0 := by
  rw [← depthOver_filter brackets tokens]
  exact Nested.balance nested

theorem Nested.next {awaited : List String} {token : Token} {rest : List Token}
    (nested : Nested awaited (token :: rest)) : ∃ awaited', Nested awaited' rest := by
  cases nested with
  | opening mark opens inside => exact ⟨_, inside⟩
  | closing mark closes behind => exact ⟨_, behind⟩
  | plain plain behind => exact ⟨_, behind⟩

theorem Balanced.next {brackets : Brackets} {awaited : List String} {token : Token} {rest : List Token}
    (nested : Balanced brackets awaited (token :: rest)) :
    ∃ awaited', Balanced brackets awaited' rest ∧ (braces awaited' : Int) = braces awaited + braceDepth token := by
  have balance := nested.balance
  obtain ⟨awaited', behind⟩ : ∃ awaited', Balanced brackets awaited' rest := by
    rw [balanced_cons] at nested
    split at nested
    · exact Nested.next nested
    · exact ⟨awaited, nested⟩
  have balance' := behind.balance
  rw [depthOver] at balance
  exact ⟨awaited', behind, by omega⟩

theorem braces_append (opened awaited : List String) : braces (opened ++ awaited) = braces opened + braces awaited :=
  List.count_append

-- A place of a closed text; inside of a block, with a brace still open.
def Within (brackets : Brackets) (insideBlock : Bool) (tokens : List Token) : Prop :=
  ∃ awaited, Balanced brackets awaited tokens ∧ insideBlock.toNat ≤ braces awaited

theorem Balanced.place {brackets : Brackets} {awaited : List String} {tokens : List Token}
    (nested : Balanced brackets awaited tokens) : Within brackets false tokens := ⟨awaited, nested, Nat.zero_le _⟩

theorem Nested.place {awaited : List String} {tokens : List Token} (nested : Nested awaited tokens) :
    Within .all false tokens := (balanced_all.mpr nested).place

theorem Within.opened {brackets : Brackets} {insideBlock : Bool} {tokens : List Token}
    (within : Within brackets insideBlock tokens) : ∃ opened, Balanced brackets (opened ++ []) tokens := by
  obtain ⟨awaited, nested, _⟩ := within
  exact ⟨awaited, by rwa [List.append_nil]⟩

namespace Parser

-- Where a parameter is wanted, that is told: at the end it is missing, and the keyword of a declaration is reserved.
structure Demanded {α : Type} (p : Parser α) (tokens : List Token) : Prop where
  missing : ∀ last : Token, last.kind = .endOfInput →
    ⟨.expected "parameter name" last, last.position⟩ ∈ (p (tokens ++ [last])).reports
  reserved : ∀ (first : Token) (more : List Token), first.beginsDeclaration = true → more ≠ [] →
    ⟨.reserved first.value "parameter", first.position⟩ ∈ (p (tokens ++ first :: more)).reports

-- It is told as well by what reports as much in front of every boundary.
theorem Demanded.behind {α β : Type} {p : Parser α} {q : Parser β} {tokens rest : List Token} (wanted : Demanded p rest)
    (tells : ∀ after, Boundary after → (p (rest ++ after)).reports ⊆ (q (tokens ++ after)).reports) :
    Demanded q tokens where
  missing last ended := tells [last] ⟨last, [], rfl, .inl ended⟩ (wanted.missing last ended)
  reserved first more begins some :=
    tells (first :: more) ⟨first, more, rfl, .inr begins⟩ (wanted.reserved first more begins some)

theorem Demands.recovered {α : Type} {p : Parser α} {tokens : List Token} {reports : List Report}
    (wants : Demands p tokens reports) (instead : α) (resume : List Token → List Token → List Token) :
    Demanded (recover instead p resume) tokens where
  missing last ended := by
    unfold recover
    rw [wants.missing last ended]
    exact List.mem_append_right _ List.mem_cons_self
  reserved first more begins some := by
    have told := (wants.taken first more begins some).mem (List.mem_append_right _ List.mem_cons_self)
    unfold recover
    dsimp only
    split
    · exact told
    · exact List.mem_append_left _ told

end Parser

namespace Grammar

section Skip
variable {brackets : Brackets} {insideBlock : Bool} {depth : Nat} {token : Token} {place : Position}
  {tokens after : List Token}

theorem skipToDeclaration_step (insideBlock : Bool)
    (skipped : (token.kind == .endOfInput || (depth == 0 && token.beginsDeclaration)) = false)
    (more : tokens ≠ []) : skipToDeclaration insideBlock depth (token :: tokens) =
      if token.is .punctuation "\x7b" then skipToDeclaration insideBlock (depth + 1) tokens
      else if token.is .punctuation "\x7d" then
        if depth == 0 && insideBlock then token :: tokens else skipToDeclaration insideBlock (depth - 1) tokens
      else skipToDeclaration insideBlock depth tokens := by
  cases tokens with
  | nil => exact absurd rfl more
  | cons next rest =>
      rw [skipToDeclaration, if_neg (Bool.eq_false_iff.mp skipped)]

theorem skipToDeclaration_stop (stops : (token.kind == .endOfInput || (depth == 0 && token.beginsDeclaration)) = true) :
    skipToDeclaration insideBlock depth (token :: tokens) = token :: tokens := by
  cases tokens with
  | nil => rfl
  | cons next rest => rw [skipToDeclaration, if_pos stops]

theorem skipToDeclaration_boundary (insideBlock : Bool) (boundary : Boundary after) :
    skipToDeclaration insideBlock 0 after = after := by
  obtain ⟨token, rest, rfl, last⟩ := boundary
  apply skipToDeclaration_stop
  rcases last with ended | begins
  · rw [ended]; rfl
  · rw [begins]; exact Bool.or_true _

-- A skip ends in the text, or at the boundary.
theorem skipToDeclaration_within {awaited : List String} (nested : Balanced brackets awaited tokens)
    (shallow : depth + insideBlock.toNat ≤ braces awaited) :
    (∃ rest, Within brackets insideBlock rest ∧ ∀ place after,
      skipToDeclaration insideBlock depth (tokens ++ newlineAt place :: after) = rest ++ newlineAt place :: after) ∨
    (insideBlock = false ∧ ∀ place after, Boundary after →
      skipToDeclaration insideBlock depth (tokens ++ newlineAt place :: after) = after) := by
  induction tokens generalizing depth awaited with
  | nil =>
      obtain rfl := nested.of_nil
      obtain ⟨rfl, outside⟩ := Nat.add_eq_zero_iff.mp (Nat.le_zero.mp shallow)
      have outside : insideBlock = false := Bool.toNat_eq_zero.mp outside
      refine .inr ⟨outside, fun place after boundary => ?_⟩
      rw [List.nil_append, skipToDeclaration_step _ rfl (by obtain ⟨token, rest, rfl, _⟩ := boundary; simp)]
      exact skipToDeclaration_boundary insideBlock boundary
  | cons token tokens ih =>
      cases stops : (token.kind == .endOfInput || (depth == 0 && token.beginsDeclaration)) with
      | true =>
          exact .inl ⟨token :: tokens, ⟨awaited, nested, by omega⟩, fun place after => skipToDeclaration_stop stops⟩
      | false =>
          obtain ⟨awaited', behind, change⟩ := nested.next
          have step (place : Position) (after : List Token) := skipToDeclaration_step insideBlock stops
            (List.append_ne_nil_of_right_ne_nil tokens (List.cons_ne_nil (newlineAt place) after))
          unfold braceDepth at change
          by_cases opens : token.is .punctuation "\x7b" = true
          · rw [if_pos opens] at change
            simp only [opens, if_true] at step
            simpa only [List.cons_append, step] using ih behind (show depth + 1 + insideBlock.toNat ≤ _ by omega)
          · rw [if_neg opens] at change
            simp only [if_neg opens] at step
            by_cases closes : token.is .punctuation "\x7d" = true
            · rw [if_pos closes] at change
              simp only [if_pos closes] at step
              cases last : depth == 0 && insideBlock with
              | true =>
                  refine .inl ⟨token :: tokens, ⟨awaited, nested, by omega⟩, fun place after => ?_⟩
                  rw [List.cons_append, step, if_pos last]
              | false =>
                  simp only [last, Bool.false_eq_true, if_false] at step
                  have : depth - 1 + insideBlock.toNat ≤ braces awaited' := by
                    cases depth with
                    | zero =>
                        have outside : insideBlock = false := last
                        rw [outside]
                        exact Nat.zero_le _
                    | succ depth => omega
                  simpa only [List.cons_append, step] using ih behind this
            · rw [if_neg closes] at change
              simp only [if_neg closes] at step
              simpa only [List.cons_append, step] using ih behind (show depth + insideBlock.toNat ≤ _ by omega)

end Skip

theorem resume_eq (insideBlock : Bool) (taken rest : List Token) : resume insideBlock (taken ++ rest) rest =
    skipToDeclaration insideBlock (openBraces taken) (if taken.isEmpty then drop rest else rest) := by
  unfold resume
  rw [List.length_append, Nat.add_sub_cancel, List.take_left]

-- Where to go on after a fault lies in the text too, or it is the boundary. What is passed over uncounted is
-- not the brace that closes the block.
theorem resume_within {brackets : Brackets} {insideBlock : Bool} {token : Token} {tokens rest : List Token}
    {awaited awaited' : List String}
    (nested : Balanced brackets awaited (token :: tokens)) (nested' : Balanced brackets awaited' rest)
    (suffix : rest <:+ token :: tokens)
    (block : insideBlock.toNat ≤ braces awaited) (block' : insideBlock.toNat ≤ braces awaited')
    (first : insideBlock = true → token.is .punctuation "\x7d" = false) :
    (∃ behind, Within brackets insideBlock behind ∧ ∀ place after,
      resume insideBlock (token :: tokens ++ newlineAt place :: after) (rest ++ newlineAt place :: after) =
        behind ++ newlineAt place :: after) ∨
    (insideBlock = false ∧ ∀ place after, Boundary after →
      resume insideBlock (token :: tokens ++ newlineAt place :: after) (rest ++ newlineAt place :: after) = after) := by
  obtain ⟨taken, same⟩ := suffix
  have resumed (place : Position) (after : List Token) :
      resume insideBlock (token :: tokens ++ newlineAt place :: after) (rest ++ newlineAt place :: after) =
        skipToDeclaration insideBlock (openBraces taken)
          (if taken.isEmpty then drop (rest ++ newlineAt place :: after) else rest ++ newlineAt place :: after) := by
    rw [← same, List.append_assoc, resume_eq]
  cases taken with
  | nil =>
      obtain rfl : rest = token :: tokens := same
      obtain ⟨awaited₁, behind, change⟩ := nested.next
      have shallow : openBraces [] + insideBlock.toNat ≤ braces awaited₁ := by
        rw [openBraces_eq]
        cases insideBlock with
        | false => exact Nat.zero_le _
        | true =>
            have opens : 0 ≤ braceDepth token := by
              unfold braceDepth
              rw [first rfl]
              split <;> decide
            change 0 + 1 ≤ _
            change 1 ≤ _ at block
            omega
      simp only [resumed, List.isEmpty_nil, if_true, drop_cons_append]
      exact skipToDeclaration_within behind shallow
  | cons start taken =>
      have shallow : openBraces (start :: taken) + insideBlock.toNat ≤ braces awaited' := by
        have balance := nested.balance
        have balance' := nested'.balance
        rw [← same, depthOver_append] at balance
        rw [openBraces_eq]
        omega
      simp only [resumed, List.isEmpty_cons, Bool.false_eq_true, if_false]
      exact skipToDeclaration_within nested' shallow

-- A fault at the boundary of a text leaves no brace open.
theorem resume_boundary {brackets : Brackets} {place : Position} {tokens after : List Token} {awaited : List String}
    (nested : Balanced brackets awaited tokens) (boundary : Boundary after) :
    resume false (tokens ++ newlineAt place :: after) after = after := by
  have closed : openBraces (tokens ++ [newlineAt place]) = 0 := by
    have balance := nested.balance
    have newline : depthOver [newlineAt place] = 0 := rfl
    rw [openBraces_eq, depthOver_append, newline]
    omega
  rw [List.append_cons, resume_eq, closed, if_neg (by simp)]
  exact skipToDeclaration_boundary false boundary

-- How a production ends whose faults are recovered, with a newline and a boundary behind the text: at a place of the
-- text; at the boundary, with what is taken instead; or where a parameter is wanted, if parentheses may be open.
inductive Recovers (brackets : Brackets) (insideBlock : Bool) (place : Position) {α : Type} (instead : α)
    (p : Parser α) (tokens : List Token) : Prop
  | stays (value : α) (rest : List Token) (reports : List Report) (within : Within brackets insideBlock rest)
      (runs : ∀ after, Boundary after →
        p (tokens ++ newlineAt place :: after) = ⟨.ok value, rest ++ newlineAt place :: after, reports⟩)
  | reaches (outside : insideBlock = false) (count : Nat)
      (runs : ∀ after, Boundary after → ∃ reports, reports.length = count ∧
        p (tokens ++ newlineAt place :: after) = ⟨.ok instead, after, reports⟩)
  | wants (outside : insideBlock = false) (loose : brackets = .butParentheses)
      (demanded : Demanded p (tokens ++ [newlineAt place]))

-- A production that stays in a closed text, or fails at its boundary, does so too where its faults are recovered.
theorem recover_ends {brackets : Brackets} {α : Type} {p : Parser α} [shrinks : Shrinks p] (instead : α)
    {insideBlock : Bool} {place : Position} {token : Token} {tokens : List Token} {awaited outer : List String}
    (nested : Balanced brackets awaited (token :: tokens))
    (ends : Ends brackets place outer p (token :: tokens) fun _ rest => Within brackets insideBlock rest)
    (block : insideBlock.toNat ≤ braces awaited) (block' : insideBlock.toNat ≤ braces outer)
    (first : insideBlock = true → token.is .punctuation "\x7d" = false) :
    Recovers brackets insideBlock place instead (recover instead p (resume insideBlock)) (token :: tokens) := by
  cases ends with
  | passes value rest reports runs held =>
      refine .stays value rest reports held fun after boundary => ?_
      unfold recover
      rw [runs after boundary]
  | fails report rest reports opened runs within =>
      have recovers (after : List Token) (boundary : Boundary after) :
          recover instead p (resume insideBlock) (token :: tokens ++ newlineAt place :: after) =
            ⟨.ok instead, resume insideBlock (token :: tokens ++ newlineAt place :: after)
              (rest ++ newlineAt place :: after), reports ++ [report]⟩ := by
        unfold recover
        rw [runs after boundary]
      have suffix : rest <:+ token :: tokens := by
        have ended : Boundary [.endAt place] := ⟨_, _, rfl, .inl rfl⟩
        have taken := shrinks.suffix (token :: tokens ++ newlineAt place :: [.endAt place])
        rw [runs _ ended] at taken
        exact List.suffix_append_self_iff.mp taken
      have outer' : insideBlock.toNat ≤ braces (opened ++ outer) := by
        rw [braces_append]
        omega
      rcases resume_within nested within suffix block outer' first with ⟨behind, stays, resumes⟩ | ⟨outside, resumes⟩
      · exact .stays instead behind _ stays fun after boundary => by rw [recovers after boundary, resumes]
      · refine .reaches outside _ fun after boundary => ⟨reports ++ [report], rfl, ?_⟩
        rw [recovers after boundary, resumes place after boundary]
  | stops reports outside runs =>
      subst outside
      have outside : insideBlock = false := Bool.toNat_eq_zero.mp (Nat.le_zero.mp block')
      subst outside
      refine .reaches rfl (reports.length + 1) fun after boundary => ?_
      obtain ⟨report, ran⟩ := runs after boundary
      refine ⟨reports ++ [report], List.length_append, ?_⟩
      unfold recover
      rw [ran]
      dsimp only
      rw [resume_boundary nested boundary]
  | demands reports outside loose wants =>
      subst outside
      have outside : insideBlock = false := Bool.toNat_eq_zero.mp (Nat.le_zero.mp block')
      exact .wants outside loose (wants.recovered instead _)

-- What is read without a fault was not recovered.
theorem recover_traces {brackets : Brackets} {α : Type} {p : Parser α} {awaited : List String} {tokens : List Token}
    {holds : α → List Token → Prop} (traces : Traces brackets awaited p tokens holds) (instead : α)
    (resume : List Token → List Token → List Token) :
    Traces brackets awaited (recover instead p resume) tokens holds := by
  intro value rest read
  exact traces value rest (recover_clean read)

-- A production that stays in a closed text; it need not close what it opens, unless it reads it without a fault.
class Stays (brackets : Brackets) {α : Type} (p : Parser α) : Prop where
  ends : ∀ {place awaited tokens}, Balanced brackets awaited tokens →
    Ends brackets place [] p tokens fun _ rest => Within brackets false rest
  traces : ∀ {awaited tokens}, Terminated tokens →
    Traces brackets awaited p tokens fun _ rest => Balanced brackets awaited rest

namespace Stays
variable {brackets : Brackets} {α β : Type} {p q : Parser α} {next : α → Parser β}

instance (priority := low) of_keeps [keeps : Keeps brackets p] : Stays brackets p :=
  ⟨fun nested => ((keeps.ends nested).imp fun _ _ kept => kept.place).freed, keeps.traces⟩

instance bind [first : Stays brackets p] [behind : ∀ value, Keeps brackets (next value)] :
    Stays brackets (p >>= next) where
  ends nested := (first.ends nested).bind fun value _ within => by
    obtain ⟨_, nested', _⟩ := within
    have stays : Stays brackets (next value) := inferInstance
    exact stays.ends nested'
  traces ended := (first.traces ended).bind fun value _ ended => (behind value).traces ended

instance ite {c : Prop} [Decidable c] [yes : Stays brackets p] [no : Stays brackets q] :
    Stays brackets (if c then p else q) := by
  split
  · exact yes
  · exact no

theorem of_current {next : Token → Parser β} (each : ∀ token, Stays brackets (next token)) :
    Stays brackets (current >>= next) where
  ends {place _ tokens} nested := by
    refine ((each (head (tokens ++ [newlineAt place]))).ends nested).prefixed [] fun after _ => ?_
    rw [← head_append place tokens after]
    rfl
  traces {_ tokens} ended := (each (head tokens)).traces ended

end Stays

section Module
variable {brackets : Brackets} (limit : Nat)

instance (m : Module) : Keeps brackets (moduleMember limit m) := by
  unfold moduleMember
  refine .of_current fun token => ?_
  split <;> infer_instance

theorem notEnded_ends {place : Position} {awaited : List String} {tokens : List Token} (what name : String)
    (nested : Balanced brackets awaited tokens) :
    Ends brackets place awaited (notEnded what name) tokens fun _ rest => rest = tokens := by
  have turn (after : List Token) : notEnded what name (tokens ++ newlineAt place :: after) =
      (if (head (tokens ++ [newlineAt place])).kind == .endOfInput then fail (.unterminated what name) else pure ()
        : Parser Unit) (tokens ++ newlineAt place :: after) := by
    rw [← head_append place tokens after]
    rfl
  cases ended : (head (tokens ++ [newlineAt place])).kind == .endOfInput with
  | true =>
      refine .fails ⟨.unterminated what name, (head (tokens ++ [newlineAt place])).position⟩ tokens [] []
        (fun after _ => ?_) nested
      rw [turn, if_pos ended]
      exact run_fail (.unterminated what name) place tokens after
  | false =>
      refine .passes () tokens [] (fun after _ => ?_) rfl
      rw [turn, ended]
      rfl

-- A turn inside of a module stays inside, unless it closes a brace; which need not be that of the module.
theorem moduleTurn_ends {place : Position} {tokens : List Token} (name : String) (m : Module)
    (within : Within brackets true tokens) : Ends brackets place [] (moduleTurn limit name m) tokens
      (Turn.holds (Within brackets true) fun _ => Within brackets false) := by
  obtain ⟨awaited, nested, block⟩ := within
  rcases Passes.skip (q := isSeparator) nested with ⟨first, rest, nested', _, runs⟩ | ⟨outside, _⟩
  · refine Ends.prefixed ?_ [] fun after _ => run_bind_ok (congrArg (Parsed.mk _ · _) (runs place after))
    refine (Ends.accept (Within brackets false)
      (fun tokens => tokens = first :: rest ∧ first.is .punctuation "\x7d" = false)
      ?_ fun other => ⟨rfl, other⟩).bind fun there tokens held => ?_
    · intro token rest' same _
      obtain ⟨awaited', behind, _⟩ := (same ▸ nested').next
      exact behind.place
    · cases there with
      | true => exact .passes (.done m) tokens [] (fun _ _ => rfl) held
      | false =>
          obtain ⟨rfl, other⟩ := held
          refine (notEnded_ends "module" name nested').freed.bind fun _ tokens same => ?_
          subst same
          have member : Ends brackets place awaited (moduleMember limit m) (first :: rest)
              fun _ rest => Within brackets true rest :=
            (Keeps.ends nested').imp fun _ _ kept => ⟨awaited, kept, block⟩
          cases recover_ends m nested' member block block fun _ => other with
          | stays value behind reports stays runs =>
              exact (Ends.passes value behind reports runs stays).bind fun value behind stays =>
                .passes (.again value) behind [] (fun _ _ => rfl) stays
          | reaches outside => cases outside
          | wants outside => cases outside
  · subst outside
    cases block

-- Read without a fault, a turn closes the brace of the module if it is the last one, and no other turn does.
theorem moduleTurn_traces {awaited : List String} {tokens : List Token} (name : String) (m : Module)
    (ended : Terminated tokens) : Traces brackets (brackets.await "\x7d" awaited) (moduleTurn limit name m) tokens
      (Turn.holds (Balanced brackets (brackets.await "\x7d" awaited)) fun _ => Balanced brackets awaited) := by
  refine Traces.bind (Skips.traces ended) fun _ _ ended => ?_
  refine Traces.accept_bind ended ?_ (fun ended => .of_ok rfl ended id) fun ended => ?_
  · rintro token rest rfl found
    exact (balanced_closing found).mpr
  · refine Traces.bind (Keeps.traces ended) fun _ _ ended => ?_
    exact Traces.bind (recover_traces (Keeps.traces ended) m _) fun _ _ ended => .of_ok rfl ended id

-- A module ends at a place of the text, though some of its braces may still be open there.
instance : Stays brackets (module limit) where
  ends {_ awaited _} nested := by
    refine (Keeps.ends nested).freed.bind fun _ _ nested => (Keeps.ends nested).freed.bind fun name _ nested => ?_
    refine .skip_stops nested (fun _ => rfl) fun _ nested => ?_
    refine (Ends.expect (Balanced brackets ("\x7d" :: awaited)) ⟨[], nested⟩ ?_).freed.bind fun _ _ inside => ?_
    · rintro token rest rfl found
      exact Balanced.counted.mp ((balanced_opening found).mp nested)
    · refine .loop (Within brackets true) (fun _ within => within.opened)
        (fun m _ within => moduleTurn_ends limit name m within) _ ?_
      exact ⟨_, inside, by rw [braces, List.count_cons_self]; exact Nat.le_add_left 1 _⟩
  traces ended := by
    refine Traces.bind (Keeps.traces ended) fun _ _ ended => Traces.bind (Keeps.traces ended) fun name _ ended => ?_
    refine Traces.bind (Skips.traces ended) fun _ _ ended => Traces.bind (Traces.expect ended ?_) fun _ _ ended =>
      Traces.loop (fun m _ ended => moduleTurn_traces limit name m ended) _ ended
    rintro token rest rfl found
    exact (balanced_opening found).mpr

instance (program : Program) : Stays brackets (declaration limit program) := by
  unfold declaration
  refine .of_current fun token => @Stays.ite _ _ _ _ _ _ inferInstance ?_
  dsimp only
  split <;> infer_instance

end Module
end Grammar
end Charter.Source

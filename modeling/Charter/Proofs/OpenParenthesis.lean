import Charter.Proofs.Recovery

/-!
Texts with open parentheses. What is read without a fault has its brackets closed, so an open one is told; and it hides
no declaration behind the text, unless a list of parameters is open there, which takes the keyword of the next one.
-/

namespace Charter.Source
open Charter.Source.Parser

variable {brackets : Brackets} {awaited : List String} {tokens : List Token}

namespace Grammar

instance (limit : Nat) (program : Program) : Shrinks (programTurn limit program) := by
  unfold programTurn; infer_instance

-- A declaration that is read without a fault closes what it opens.
theorem programTurn_traces (limit : Nat) (program : Program) (ended : Terminated tokens) :
    Traces brackets awaited (programTurn limit program) tokens
      (Turn.holds (Balanced brackets awaited) fun _ => Balanced brackets awaited) := by
  refine Traces.bind (Skips.traces ended) fun _ _ ended => ?_
  refine Traces.bind (Keeps.traces ended) fun token _ ended => ?_
  split
  · exact .of_ok rfl ended id
  · exact Traces.bind (recover_traces (Stays.traces ended) program _) fun _ _ ended => .of_ok rfl ended id

theorem loop_programTurn_traces (limit : Nat) (program : Program) (ended : Terminated tokens) :
    Traces brackets awaited (loop (programTurn limit) program) tokens fun _ rest => Balanced brackets awaited rest :=
  Traces.loop (fun program _ ended => programTurn_traces limit program ended) program ended

end Grammar

-- Where the end of a text is reached, no more than its end token is left.
theorem eq_end_of_suffix {text rest : List Token} {last : Token} (suffix : rest <:+ text ++ [last])
    (goes : ∀ token ∈ text, token.kind ≠ .endOfInput) (isEnd : (head rest).kind = .endOfInput) :
    rest = [] ∨ rest = [last] := by
  obtain ⟨before, same⟩ := suffix
  rcases List.eq_nil_or_concat rest with rfl | ⟨others, end', rfl⟩
  · exact .inl rfl
  · rw [List.concat_eq_append, ← List.append_assoc] at same
    obtain ⟨isText, isLast⟩ := List.append_inj' same rfl
    cases others with
    | nil => exact .inr isLast
    | cons token others =>
        have inText : token ∈ text := isText ▸ List.mem_append_right _ List.mem_cons_self
        exact absurd isEnd (goes token inText)

-- A text in which no fault is found has its brackets closed.
theorem nested_of_faultless (limit : Nat) (text : List Token) (last : Token)
    (goes : ∀ token ∈ text, token.kind ≠ .endOfInput) (ended : last.kind = .endOfInput)
    (faultless : (Program.ofTokens limit (text ++ [last])).2 = []) : Nested [] text := by
  have ends : Terminated (text ++ [last]) := terminated_append ended
  obtain ⟨program, rest, reports, read, isEnd⟩ := Grammar.loop_programTurn_ok limit {} ends
  rw [Program.ofTokens_reports limit ends (List.append_ne_nil_of_right_ne_nil text (List.cons_ne_nil _ _)), read]
    at faultless
  obtain rfl : reports = [] := faultless
  have noBracket : last.kind = .punctuation → closing? last.value = none ∧ isClosing last.value = false :=
    fun mark => by cases ended.symm.trans mark
  have suffix := Shrinks.suffix (p := loop (Grammar.programTurn limit) {}) (text ++ [last])
  rw [read] at suffix
  have left : Balanced .all [] rest := by
    rcases eq_end_of_suffix suffix goes isEnd with rfl | rfl
    · exact .nil
    · exact balanced_all.mpr (.plain noBracket .nil)
  have nested := balanced_all.mp ((Grammar.loop_programTurn_traces limit {} ends program rest read).2 left)
  exact nested.of_append_plain noBracket

-- A text whose braces and square brackets are closed, but not all of its parentheses, has a fault of its own, and hides
-- no declaration behind it. Only where it is missing a parameter at its end, the keyword of the declaration behind it is
-- taken for the name of one.
theorem open_parentheses_append (limit : Nat) (text others : List Token) (place : Position) (last : Token)
    (closed : Balanced .butParentheses [] text) (unclosed : ¬ Nested [] text)
    (textGoes : ∀ token ∈ text, token.kind ≠ .endOfInput) (begins : (head others).beginsDeclaration = true)
    (ended : last.kind = .endOfInput) :
    let whole := Program.ofTokens limit (text ++ newlineAt place :: (others ++ [last]))
    let first := Program.ofTokens limit (text ++ [newlineAt place, last])
    let second := Program.ofTokens limit (others ++ [last])
    (whole.1 = first.1.append second.1 ∧ ∃ before, before ≠ [] ∧ whole.2 = before ++ second.2) ∨
      ⟨.expected "parameter name" last, last.position⟩ ∈ first.2 ∧
      ⟨.reserved (head others).value "parameter", (head others).position⟩ ∈ whole.2 := by
  intro whole first second
  have told (after : List Token) : (Program.ofTokens limit (text ++ newlineAt place :: (after ++ [last]))).2 =
      (loop (Grammar.programTurn limit) {} (text ++ [newlineAt place] ++ (after ++ [last]))).reports := by
    rw [← List.append_cons]
    refine Program.ofTokens_reports limit ?_ (List.append_ne_nil_of_right_ne_nil text (List.cons_ne_nil _ _))
    rw [List.append_cons, ← List.append_assoc]
    exact terminated_append ended
  rcases Grammar.loop_programTurn_ends limit place {} closed.place textGoes with ⟨_, _, through⟩ | ⟨_, demanded⟩
  · obtain ⟨same, before, length, behind⟩ := program_append_of_reads limit text others place last through begins ended
    refine .inl ⟨same, before, fun none => unclosed ?_, behind⟩
    have faultless : first.2 = [] := List.eq_nil_of_length_eq_zero (length.symm.trans (congrArg List.length none))
    have goes : ∀ token ∈ text ++ [newlineAt place], token.kind ≠ .endOfInput := by
      simpa [or_imp, forall_and, newlineAt] using textGoes
    have nested := nested_of_faultless limit (text ++ [newlineAt place]) last goes ended (by rwa [← List.append_cons])
    exact nested.of_append_plain nofun
  · refine .inr ⟨?_, ?_⟩
    · exact told [] ▸ demanded.missing last ended
    · obtain ⟨keyword, more, rfl⟩ : ∃ keyword more, others = keyword :: more := by
        cases others with
        | nil => cases begins
        | cons keyword more => exact ⟨keyword, more, rfl⟩
      exact told (keyword :: more) ▸ demanded.reserved keyword (more ++ [last]) begins (by simp)

-- An entity with a parenthesis in place of its brace does not hide the composition behind it.
theorem composition_behind_open_parenthesis :
    let word (value : String) : Token := ⟨.keyword, value, .nowhere⟩
    let mark (value : String) : Token := ⟨.punctuation, value, .nowhere⟩
    let text := [word "entity", ⟨.identifier, "Order", .nowhere⟩, mark "("]
    let others := [word "compose", ⟨.identifier, "All", .nowhere⟩, mark "\x7b", mark "\x7d"]
    let whole := Program.ofTokens 64 (text ++ newlineAt .nowhere :: (others ++ [.endAt .nowhere]))
    let first := Program.ofTokens 64 (text ++ [newlineAt .nowhere, .endAt .nowhere])
    let second := Program.ofTokens 64 (others ++ [.endAt .nowhere])
    Balanced .butParentheses [] text ∧ ¬ Nested [] text ∧
      whole.1 = first.1.append second.1 ∧ ∃ before, before ≠ [] ∧ whole.2 = before ++ second.2 := by
  intro word mark text others whole first second
  have closed : Balanced .butParentheses [] text := .plain nofun (.plain nofun .nil)
  have unclosed : ¬ Nested [] text := by
    intro nested
    have last : Nested [] [mark "("] := (nested.tail nofun).tail nofun
    cases last with
    | opening _ _ inside => cases inside
    | plain plain _ => cases (plain rfl).1
  refine ⟨closed, unclosed, ?_⟩
  rcases open_parentheses_append 64 text others .nowhere (.endAt .nowhere) closed unclosed (by decide) rfl rfl with
    append | ⟨missing, _⟩
  · exact append
  · -- The fault of the text is the missing brace, not a missing parameter.
    let ending : List Token := [newlineAt .nowhere, .endAt .nowhere]
    let report : Report := ⟨.expected "'\x7b'" (mark "("), .nowhere⟩
    have read : Grammar.declaration 64 {} (text ++ ending) = ⟨.error report, mark "(" :: ending, []⟩ := rfl
    have passed : recover {} (Grammar.declaration 64 {}) (Grammar.resume false) (text ++ ending) =
        ⟨.ok {}, [.endAt .nowhere], [report]⟩ := by
      unfold recover
      rw [read]
      rfl
    have going : (head (dropWhile isSeparator (text ++ ending))).kind ≠ .endOfInput := nofun
    have turn := Grammar.programTurn_again 64 going passed
    have done := run_loop_done (@Grammar.programTurn_done 64 {} [.endAt .nowhere] rfl)
    have ends : Terminated (text ++ ending) := @terminated_append (text ++ [newlineAt .nowhere]) (.endAt .nowhere) rfl
    have ran : loop (Grammar.programTurn 64) {} (text ++ ending) = ⟨.ok {}, [.endAt .nowhere], [report]⟩ := by
      rw [run_loop_again turn (by decide), done]
      rfl
    have member : ⟨.expected "parameter name" (.endAt .nowhere), .nowhere⟩ ∈ (Program.ofTokens 64 (text ++ ending)).2 :=
      missing
    rw [Program.ofTokens_eq ends (List.cons_ne_nil _ _) ran] at member
    simp [report] at member

end Charter.Source

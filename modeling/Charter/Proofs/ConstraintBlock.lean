import Charter.Proofs.Extent

/-!
Constraint blocks and the order of their fields. Each field sets what its key says, and two fields with different
keys set different things, but for the two that decide whether the constraint may be overridden.
-/

namespace Charter.Source
open Charter.Source.Parser Charter.Source.Grammar

-- What a field says.
inductive Setting where
  | severity (level : Enforcement)
  | expression (e : Expression)
  | message (text : String)
  | code (text : String)
  | details (entries : List (String × Expression))
  | overridePolicy (policy : String)
  | overrideable (flag : Bool)

namespace Setting

def key : Setting → String
  | severity _ => "severity"
  | expression _ => "expression"
  | message _ => "message"
  | code _ => "code"
  | details _ => "details"
  | overridePolicy _ => "overridePolicy"
  | overrideable _ => "overrideable"

def set (fields : ConstraintFields) : Setting → ConstraintFields
  | severity level => { fields with severity := some level }
  | expression e => { fields with expression := some e }
  | message text => { fields with message := some text }
  | code text => { fields with code := some text }
  | details entries => { fields with details := entries }
  | overridePolicy policy => { fields with overridePolicy := some policy, overrideable := true }
  | overrideable flag => { fields with overrideable := flag }

end Setting

-- A name, or the string of its letters.
def IsNameOrString (symbol : Symbol) (text : String) : Prop := symbol = .word text ∨ symbol = ⟨.string, text⟩

-- The text of a field: its key, a colon, and what is read for the key.
inductive Field (limit : Nat) : List Symbol → Setting → Prop
  | severity (level : Enforcement) : Field limit [.word "severity", .mark ":", .word level.word] (.severity level)
  | expression {text : List Symbol} {e : Expression} (value : Spells limit text e) :
      Field limit (.word "expression" :: .mark ":" :: text) (.expression e)
  | message (text : String) : Field limit [.word "message", .mark ":", ⟨.string, text⟩] (.message text)
  | code {symbol : Symbol} {text : String} (value : IsNameOrString symbol text) :
      Field limit [.word "code", .mark ":", symbol] (.code text)
  | details {text : List Symbol} {entries : List (String × Expression)} (value : Spells limit text (.object entries)) :
      Field limit (.word "details" :: .mark ":" :: text) (.details entries)
  | overridePolicy {symbol : Symbol} {text : String} (value : IsNameOrString symbol text) :
      Field limit [.word "overridePolicy", .mark ":", symbol] (.overridePolicy text)
  | overrideable {text : List Symbol} {flag : Bool} (value : Spells limit text (.literal (.boolean flag))) :
      Field limit (.word "overrideable" :: .mark ":" :: text) (.overrideable flag)

-- One turn of the repetition over the fields.
def fieldTurn (limit : Nat) (fields : ConstraintFields) : Parser (Turn ConstraintFields ConstraintFields) := do
  skipListSeparators
  if ← accept .punctuation "\x7d" then return .done fields
  pure ()
  return .again (← constraintField limit fields)

def fieldsBehind (limit : Nat) (fields : ConstraintFields) : Parser ConstraintFields :=
  loop (fieldTurn limit) fields

def Separates (gap : List Token) : Prop := ∀ token ∈ gap, isListSeparator token = true

-- A text that is no field: wherever it stands among the fields, they are not read.
def Broken (limit : Nat) (text : List Symbol) : Prop :=
  ∀ fields gap tokens next more, Separates gap → tokens.map Token.symbol = text → Behind 0 next →
    (fieldsBehind limit fields (gap ++ tokens ++ next :: more)).Fails

-- The tokens of a block behind its opening brace: the fields, what separates them, the closing brace, and more.
inductive Block : List (List Symbol) → List Token → Prop
  | closed {gap more : List Token} {closing next : Token} (separates : Separates gap)
      (closes : closing.symbol = .mark "\x7d") : Block [] (gap ++ closing :: next :: more)
  | field {gap field more : List Token} {next : Token} {text : List Symbol} {texts : List (List Symbol)}
      (separates : Separates gap) (written : field.map Token.symbol = text) (stops : Behind 0 next)
      (others : Block texts (next :: more)) : Block (text :: texts) (gap ++ field ++ next :: more)

variable {limit : Nat} {text : List Symbol} {texts texts' : List (List Symbol)} {setting : Setting}
  {settings : List Setting} {fields : ConstraintFields} {tokens more : List Token} {next : Token}

theorem run_nameOrString {token second : Token} {rest : List Token} {symbol : Symbol} {text : String}
    (value : IsNameOrString symbol text) (same : token.symbol = symbol) (what : String) :
    nameOrString what (token :: second :: rest) = ⟨.ok text, second :: rest, []⟩ := by
  rcases value with rfl | rfl
  · have kind : (token.kind == .string) = false := by
      have kind : token.kind = if isKeyword text then .keyword else .identifier := congrArg Symbol.kind same
      rw [kind]
      split <;> rfl
    change (if token.kind == .string then _ else name what : Parser String) _ = _
    rw [kind]
    exact run_word same what
  · cases token
    cases same
    rfl

-- What is read behind a key and its colon.
def fieldValue (limit : Nat) (fields : ConstraintFields) (start : Position) (key : String) :
    Parser ConstraintFields := do
  match key with
  | "severity" =>
    let word ← name "severity"
    match Enforcement.ofWord? word with
    | some severity => return { fields with severity := some severity }
    | none => failAt start (.unknownSeverity word)
  | "expression" => return { fields with expression := some (← expression limit) }
  | "message" => return { fields with message := some (← string "message") }
  | "code" => return { fields with code := some (← nameOrString "constraint code") }
  | "details" =>
    match ← expression limit with
    | .object entries => return { fields with details := entries }
    | _ => fail .notDetails
  | "overridePolicy" =>
    return { fields with overridePolicy := some (← nameOrString "override policy"), overrideable := true }
  | "overrideable" =>
    match ← expression limit with
    | .literal (.boolean flag) => return { fields with overrideable := flag }
    | _ => fail .notFlag
  | other => failAt start (.unknownConstraintField other)

-- The tokens of a field are those of its key, of a colon, and of what is read for the key.
theorem constraintField_key (limit : Nat) {key : String} {value : List Symbol}
    (written : tokens.map Token.symbol = .word key :: .mark ":" :: value) (fields : ConstraintFields) (next : Token)
    (more : List Token) : ∃ start rest, rest.map Token.symbol = value ∧
      constraintField limit fields (tokens ++ next :: more) = fieldValue limit fields start key (rest ++ next :: more) := by
  obtain ⟨word, others, rfl, isWord, behind⟩ := List.map_eq_cons_iff.mp written
  obtain ⟨colon, rest, rfl, isColon, ofValue⟩ := List.map_eq_cons_iff.mp behind
  have parts : constraintField limit fields = (do
      let start := (← current).position
      let key ← name "constraint field"
      let _ ← expect .punctuation ":"
      fieldValue limit fields start key) := rfl
  refine ⟨word.position, rest, ofValue, ?_⟩
  obtain ⟨second, others, same⟩ := exists_cons_of_append rest next more
  rw [List.cons_append, List.cons_append, same, parts, run_bind run_current, run_bind (run_word isWord _),
    run_bind (run_expect (is_mark isColon))]

theorem ofWord?_word (level : Enforcement) : Enforcement.ofWord? level.word = some level := by
  cases level <;> rfl

theorem Field.begins (field : Field limit text setting) : ∃ value, text = .word setting.key :: .mark ":" :: value := by
  cases field <;> exact ⟨_, rfl⟩

-- A field is read up to its end, and sets what it says.
theorem Field.read (field : Field limit text setting) (written : tokens.map Token.symbol = text)
    (stops : Behind 0 next) (fields : ConstraintFields) (more : List Token) :
    constraintField limit fields (tokens ++ next :: more) = ⟨.ok (setting.set fields), next :: more, []⟩ := by
  cases field with
  | severity level =>
      obtain ⟨start, rest, ofValue, ran⟩ := constraintField_key limit written fields next more
      obtain ⟨word, rfl, isWord⟩ := List.map_eq_singleton_iff.mp ofValue
      refine ran.trans ((run_bind (run_word isWord _)).trans ?_)
      rw [ofWord?_word]
      rfl
  | message message =>
      obtain ⟨start, rest, ofValue, ran⟩ := constraintField_key limit written fields next more
      obtain ⟨word, rfl, isString⟩ := List.map_eq_singleton_iff.mp ofValue
      exact ran.trans (run_bind (run_string isString _))
  | code value | overridePolicy value =>
      obtain ⟨start, rest, ofValue, ran⟩ := constraintField_key limit written fields next more
      obtain ⟨word, rfl, isWord⟩ := List.map_eq_singleton_iff.mp ofValue
      exact ran.trans (run_bind (run_nameOrString value isWord _))
  | expression value | details value | overrideable value =>
      obtain ⟨start, rest, ofValue, ran⟩ := constraintField_key limit written fields next more
      exact ran.trans (run_bind (value.read ofValue stops more))

theorem dropWhile_gap {kind : Token → Bool} {gap : List Token} (separates : ∀ token ∈ gap, kind token = true)
    {first : Token} (other : kind first = false) (rest : List Token) :
    dropWhile kind (gap ++ first :: rest) = first :: rest := by
  induction gap with
  | nil => exact dropWhile_other other
  | cons token gap ih =>
      have skipped := ih fun token member => separates token (List.mem_cons_of_mem _ member)
      obtain ⟨second, others, same⟩ := exists_cons_of_append gap first rest
      rw [List.cons_append, same, dropWhile_first (separates token List.mem_cons_self), ← same]
      exact skipped

-- Behind what separates the fields one of them begins.
theorem fieldTurn_word {gap rest : List Token} {word : Token} {key : String} (separates : Separates gap)
    (isWord : word.symbol = .word key) : fieldTurn limit fields (gap ++ word :: rest) =
      (do return .again (← constraintField limit fields) : Parser (Turn ConstraintFields ConstraintFields))
        (word :: rest) := by
  have kinds : word.kind = .keyword ∨ word.kind = .identifier := by
    have kind : word.kind = if isKeyword key then .keyword else .identifier := congrArg Symbol.kind isWord
    rw [kind]
    split
    · exact .inl rfl
    · exact .inr rfl
  have other : isListSeparator word = false := by
    rcases kinds with kind | kind <;> simp [isListSeparator, isSeparator, isNewline, Token.is, kind]
  have brace : word.is .punctuation "\x7d" = false := by
    rcases kinds with kind | kind <;> simp [Token.is, kind]
  have skipped : skipListSeparators (gap ++ word :: rest) = ⟨.ok (), word :: rest, []⟩ := by
    unfold skipListSeparators skipWhile
    rw [dropWhile_gap separates other]
  exact (run_bind skipped).trans (run_bind (run_accept_other brace))

theorem fieldTurn_closing {gap : List Token} {closing : Token} (separates : Separates gap)
    (closes : closing.symbol = .mark "\x7d") (next : Token) (more : List Token) :
    fieldTurn limit fields (gap ++ closing :: next :: more) = ⟨.ok (.done fields), next :: more, []⟩ := by
  have other : isListSeparator closing = false := by
    rw [isListSeparator_symbol closes]
    rfl
  have skipped : skipListSeparators (gap ++ closing :: next :: more) = ⟨.ok (), closing :: next :: more, []⟩ := by
    unfold skipListSeparators skipWhile
    rw [dropWhile_gap separates other]
  exact (run_bind skipped).trans (run_bind (run_accept (is_mark closes)))

-- A field is read, and then those behind it.
theorem fieldsBehind_field {gap rest : List Token} (separates : Separates gap) (field : Field limit text setting)
    (written : tokens.map Token.symbol = text) (stops : Behind 0 next) :
    fieldsBehind limit fields (gap ++ tokens ++ next :: rest) = fieldsBehind limit (setting.set fields) (next :: rest) := by
  have read := field.read written stops fields rest
  obtain ⟨value, rfl⟩ := field.begins
  obtain ⟨word, others, rfl, isWord, _⟩ := List.map_eq_cons_iff.mp written
  have turn : fieldTurn limit fields (gap ++ (word :: others) ++ next :: rest) =
      ⟨.ok (.again (setting.set fields)), next :: rest, []⟩ := by
    rw [List.append_assoc]
    exact (fieldTurn_word separates isWord).trans (run_bind read)
  have shorter : (next :: rest).length < (gap ++ (word :: others) ++ next :: rest).length := by
    simp
    omega
  exact run_loop_again turn shorter

/-! Texts that are no fields. -/

theorem broken_of_value {key : String} {value : List Symbol}
    (fails : ∀ fields start rest next more, rest.map Token.symbol = value → Behind 0 next →
      (fieldValue limit fields start key (rest ++ next :: more)).Fails) :
    Broken limit (.word key :: .mark ":" :: value) := by
  intro fields gap tokens next more separates written stops
  obtain ⟨start, rest, ofValue, ran⟩ := constraintField_key limit written fields next more
  obtain ⟨report, rest', reports, failed⟩ := fails fields start rest next more ofValue stops
  obtain ⟨word, others, rfl, isWord, _⟩ := List.map_eq_cons_iff.mp written
  rw [List.append_assoc]
  exact ⟨report, rest', reports, run_loop_error ((fieldTurn_word separates isWord).trans (run_bind_error (ran.trans failed)))⟩

-- A key that is none of the seven, whatever stands behind it.
theorem broken_of_key {key : String} (unknown : ∀ setting : Setting, setting.key ≠ key) (value : List Symbol) :
    Broken limit (.word key :: .mark ":" :: value) := by
  refine broken_of_value fun fields start rest next more _ _ => ?_
  have := unknown (.severity .ok)
  have := unknown (.expression (.identifier ""))
  have := unknown (.message "")
  have := unknown (.code "")
  have := unknown (.details [])
  have := unknown (.overridePolicy "")
  have := unknown (.overrideable true)
  simp only [Setting.key] at *
  unfold fieldValue
  split
  case h_8 => exact ⟨_, _, _, rfl⟩
  all_goals contradiction

theorem broken_of_severity {word : String} (unknown : Enforcement.ofWord? word = none) :
    Broken limit [.word "severity", .mark ":", .word word] := by
  refine broken_of_value fun fields start rest next more ofValue _ => ?_
  obtain ⟨token, rfl, isWord⟩ := List.map_eq_singleton_iff.mp ofValue
  have named : fieldValue limit fields start "severity" ([token] ++ next :: more) = _ := run_bind (run_word isWord _)
  rw [named, unknown]
  exact ⟨_, _, _, rfl⟩

theorem broken_of_message {symbol : Symbol} (other : symbol.kind ≠ .string) (behind : List Symbol) :
    Broken limit (.word "message" :: .mark ":" :: symbol :: behind) := by
  refine broken_of_value fun fields start rest next more ofValue _ => ?_
  obtain ⟨token, others, rfl, rfl, _⟩ := List.map_eq_cons_iff.mp ofValue
  have failed : string "message" (token :: others ++ next :: more) =
      (fail (.expected "message string" token) : Parser String) (token :: others ++ next :: more) := by
    have kind : token.kind ≠ .string := other
    change (if token.kind == .string then _ else fail _ : Parser String) _ = _
    rw [if_neg (mt beq_iff_eq.mp kind)]
    rfl
  exact ⟨_, _, _, run_bind_error failed⟩

-- An expression that is no record, and one that is no flag.

theorem broken_of_details {e : Expression} (value : Spells limit text e) (other : ∀ entries, e ≠ .object entries) :
    Broken limit (.word "details" :: .mark ":" :: text) := by
  refine broken_of_value fun fields start rest next more ofValue stops => ?_
  have read : fieldValue limit fields start "details" (rest ++ next :: more) = _ :=
    run_bind (value.read ofValue stops more)
  rw [read]
  cases e with
  | object entries => exact absurd rfl (other entries)
  | _ => exact ⟨_, _, _, rfl⟩

theorem broken_of_flag {e : Expression} (value : Spells limit text e) (other : ∀ flag, e ≠ .literal (.boolean flag)) :
    Broken limit (.word "overrideable" :: .mark ":" :: text) := by
  refine broken_of_value fun fields start rest next more ofValue stops => ?_
  have read : fieldValue limit fields start "overrideable" (rest ++ next :: more) = _ :=
    run_bind (value.read ofValue stops more)
  rw [read]
  split
  · exact absurd rfl (other _)
  · exact ⟨_, _, _, rfl⟩

/-! Blocks of fields. -/

-- All fields of a block are read, one by one.
theorem Block.read (block : Block texts tokens) (each : List.Forall₂ (Field limit) texts settings)
    (fields : ConstraintFields) : ∃ rest,
      fieldsBehind limit fields tokens = ⟨.ok (settings.foldl Setting.set fields), rest, []⟩ := by
  induction block generalizing settings fields with
  | closed separates closes =>
      cases each
      exact ⟨_, run_loop_done (fieldTurn_closing separates closes _ _)⟩
  | field separates written stops others ih =>
      obtain ⟨setting, settings, field, behind, rfl⟩ := List.forall₂_cons_left_iff.mp each
      obtain ⟨rest, ran⟩ := ih behind (setting.set fields)
      exact ⟨rest, by rw [fieldsBehind_field separates field written stops, ran]; rfl⟩

-- Where a text among them is no field, they are not.
theorem Block.broken (block : Block texts tokens)
    (each : ∀ text ∈ texts, (∃ setting, Field limit text setting) ∨ Broken limit text)
    (some : ∃ text ∈ texts, Broken limit text) (fields : ConstraintFields) :
    (fieldsBehind limit fields tokens).Fails := by
  induction block generalizing fields with
  | closed _ _ =>
      obtain ⟨text, none, _⟩ := some
      cases none
  | @field gap tokens more next text texts separates written stops others ih =>
      obtain ⟨first, behind⟩ := List.forall_mem_cons.mp each
      by_cases here : Broken limit text
      · exact here fields gap tokens next more separates written stops
      · obtain ⟨setting, field⟩ := first.resolve_right here
        rw [fieldsBehind_field separates field written stops]
        refine ih behind ?_ _
        obtain ⟨other, member, broken⟩ := some
        rcases List.mem_cons.mp member with rfl | later
        · exact absurd broken here
        · exact ⟨other, later, broken⟩

/-! The order of settings. -/

-- The settings but for the permission to override.
def unswitched (fields : ConstraintFields) : ConstraintFields := { fields with overrideable := false }

theorem unswitched_set (setting : Setting) (fields : ConstraintFields) :
    unswitched (setting.set fields) = unswitched (setting.set (unswitched fields)) := by
  cases setting <;> rfl

theorem unswitched_foldl (settings : List Setting) (fields : ConstraintFields) :
    unswitched (settings.foldl Setting.set fields) =
      settings.foldl (fun fields setting => unswitched (setting.set fields)) (unswitched fields) := by
  induction settings generalizing fields with
  | nil => rfl
  | cons setting settings ih => rw [List.foldl_cons, List.foldl_cons, ih, unswitched_set]

theorem unswitched_comm {first second : Setting} (other : first.key ≠ second.key) (fields : ConstraintFields) :
    unswitched (second.set (unswitched (first.set fields))) =
      unswitched (first.set (unswitched (second.set fields))) := by
  cases first <;> cases second <;> first | rfl | exact absurd rfl other

-- One of the two forbids to override, and the other one names who may.
def Opposed (first second : Setting) : Prop :=
  first = .overrideable false ∧ ∃ policy, second = .overridePolicy policy

theorem set_comm {first second : Setting} (other : first.key ≠ second.key) (agree : ¬ Opposed first second)
    (agree' : ¬ Opposed second first) (fields : ConstraintFields) :
    second.set (first.set fields) = first.set (second.set fields) := by
  cases first with
  | overrideable flag =>
      cases second with
      | overridePolicy policy =>
          cases flag with
          | true => rfl
          | false => exact absurd ⟨rfl, policy, rfl⟩ agree
      | overrideable => exact absurd rfl other
      | _ => rfl
  | overridePolicy policy =>
      cases second with
      | overrideable flag =>
          cases flag with
          | true => rfl
          | false => exact absurd ⟨rfl, policy, rfl⟩ agree'
      | overridePolicy => exact absurd rfl other
      | _ => rfl
  | _ => cases second <;> first | rfl | exact absurd rfl other

section Order
variable {settings' : List Setting}

-- Settings with different keys are the same in every order, but for the permission to override.
theorem unswitched_permuted (permuted : settings.Perm settings') (once : (settings.map Setting.key).Nodup)
    (fields : ConstraintFields) :
    unswitched (settings.foldl Setting.set fields) = unswitched (settings'.foldl Setting.set fields) := by
  rw [unswitched_foldl, unswitched_foldl]
  refine permuted.foldl_eq' (fun first member second member' fields => ?_) (unswitched fields)
  by_cases same : first.key = second.key
  · rw [List.inj_on_of_nodup_map once member member' same]
  · exact unswitched_comm same fields

-- Where none forbids what another one permits, they are the same altogether.
theorem foldl_permuted (permuted : settings.Perm settings') (once : (settings.map Setting.key).Nodup)
    (agree : ∀ first ∈ settings, ∀ second ∈ settings, ¬ Opposed first second) (fields : ConstraintFields) :
    settings.foldl Setting.set fields = settings'.foldl Setting.set fields := by
  refine permuted.foldl_eq' (fun first member second member' fields => ?_) fields
  by_cases same : first.key = second.key
  · rw [List.inj_on_of_nodup_map once member member' same]
  · exact set_comm same (agree first member second member') (agree second member' first member) fields

end Order

-- A text is that of one field only.
theorem Field.unique {setting' : Setting} (field : Field limit text setting) (field' : Field limit text setting')
    (fields : ConstraintFields) : setting.set fields = setting'.set fields := by
  have written := placed_symbols text
  have stops : Behind 0 (.endAt .nowhere) := .ended rfl
  have same := (field.read written stops fields []).symm.trans (field'.read written stops fields [])
  exact Except.ok.inj (Parsed.mk.inj same).1

-- The key that a text begins with.
def keyOf (text : List Symbol) : Option String := text.head?.map Symbol.value

theorem Field.key (field : Field limit text setting) : keyOf text = some setting.key := by
  obtain ⟨value, rfl⟩ := field.begins
  rfl

theorem keys_eq (each : List.Forall₂ (Field limit) texts settings) :
    texts.map keyOf = (settings.map Setting.key).map some := by
  induction each with
  | nil => rfl
  | cons field _ ih => simp [field.key, ih]

theorem exists_text (each : List.Forall₂ (Field limit) texts settings) (member : setting ∈ settings) :
    ∃ text ∈ texts, Field limit text setting := by
  induction each with
  | nil => cases member
  | cons field _ ih =>
      rcases List.mem_cons.mp member with rfl | later
      · exact ⟨_, List.mem_cons_self, field⟩
      · obtain ⟨text, within, behind⟩ := ih later
        exact ⟨text, List.mem_cons_of_mem _ within, behind⟩

-- The keys of the two fields about the permission.
def IsSwitch (key : String) : Prop := key = "overridePolicy" ∨ key = "overrideable"

theorem foldl_overrideable (others : ∀ setting ∈ settings, ¬ IsSwitch setting.key) (fields : ConstraintFields) :
    (settings.foldl Setting.set fields).overrideable = fields.overrideable := by
  induction settings generalizing fields with
  | nil => rfl
  | cons setting settings ih =>
      obtain ⟨first, behind⟩ := List.forall_mem_cons.mp others
      rw [List.foldl_cons, ih behind]
      cases setting with
      | overridePolicy => exact absurd (.inl rfl) first
      | overrideable => exact absurd (.inr rfl) first
      | _ => rfl

-- The last of them decides.
theorem overrideable_last (each : List.Forall₂ (Field limit) texts settings) (once : (texts.map keyOf).Nodup)
    {last : List Symbol} (member : last ∈ texts) (field : Field limit last setting) {flag : Bool}
    (decides : ∀ fields, (setting.set fields).overrideable = flag)
    (others : ∀ text ∈ texts, text ≠ last → ∀ key, keyOf text = some key → ¬ IsSwitch key)
    (fields : ConstraintFields) : (settings.foldl Setting.set fields).overrideable = flag := by
  induction each generalizing fields with
  | nil => cases member
  | @cons text first texts settings one behind ih =>
      obtain ⟨fresh, once⟩ := List.nodup_cons.mp once
      obtain ⟨_, others⟩ := List.forall_mem_cons.mp others
      by_cases same : text = last
      · subst same
        rw [List.foldl_cons, one.unique field, foldl_overrideable, decides]
        intro setting member
        obtain ⟨text', within, field'⟩ := exists_text behind member
        refine others text' within (fun same => fresh ?_) setting.key field'.key
        exact List.mem_map.mpr ⟨text', within, congrArg keyOf same⟩
      · exact ih once (List.mem_of_ne_of_mem (Ne.symm same) member) others _

-- Where both stand in a block, and one of them forbids to override, the order of the two tells.
theorem overrideable_iff (each : List.Forall₂ (Field limit) texts settings) (once : (texts.map keyOf).Nodup)
    {off on : List Symbol} (first : off ∈ texts) (second : on ∈ texts) (forbids : Field limit off (.overrideable false))
    {policy : String} (permits : Field limit on (.overridePolicy policy)) (fields : ConstraintFields) :
    (settings.foldl Setting.set fields).overrideable = true ↔ [off, on].Sublist texts := by
  have distinct : off ≠ on := by
    rintro rfl
    have keys := forbids.key.symm.trans permits.key
    simp [Setting.key] at keys
  induction each generalizing fields with
  | nil => cases first
  | @cons text setting texts settings one behind ih =>
      have same {text' : List Symbol} (member : text' ∈ text :: texts) {other : List Symbol} (within : other ∈ text :: texts)
          (keys : keyOf text' = keyOf other) : text' = other := List.inj_on_of_nodup_map once member within keys
      obtain ⟨fresh, once'⟩ := List.nodup_cons.mp once
      have absent : text ∉ texts := fun member => fresh (List.mem_map_of_mem member)
      -- Among the texts behind one of the two, the other one alone tells.
      have alone {other : List Symbol} (both : text = off ∧ other = on ∨ text = on ∧ other = off) :
          ∀ text' ∈ texts, text' ≠ other → ∀ key, keyOf text' = some key → ¬ IsSwitch key := by
        intro text' member others key isKey switch
        have isOne : text' = on ∨ text' = off := by
          rcases switch with rfl | rfl
          · exact .inl (same (List.mem_cons_of_mem _ member) second (isKey.trans permits.key.symm))
          · exact .inr (same (List.mem_cons_of_mem _ member) first (isKey.trans forbids.key.symm))
        rcases both with ⟨rfl, rfl⟩ | ⟨rfl, rfl⟩ <;> rcases isOne with rfl | rfl <;> contradiction
      by_cases isOff : text = off
      · subst isOff
        have later := List.mem_of_ne_of_mem distinct.symm second
        have permitted := overrideable_last behind once' later permits (fun _ => rfl) (alone (.inl ⟨rfl, rfl⟩))
        simpa [permitted] using later
      · by_cases isOn : text = on
        · subst isOn
          have later := List.mem_of_ne_of_mem distinct first
          have forbidden := overrideable_last behind once' later forbids (fun _ => rfl) (alone (.inr ⟨rfl, rfl⟩))
          rw [List.foldl_cons, forbidden]
          have never : ¬ [off, text].Sublist (text :: texts) := by
            intro sublist
            rcases List.sublist_cons_iff.mp sublist with inside | ⟨rest, begins, _⟩
            · exact absent (inside.subset (by simp))
            · exact distinct (List.cons.inj begins).1
          simpa using never
        · refine (ih once' (List.mem_of_ne_of_mem (Ne.symm isOff) first)
            (List.mem_of_ne_of_mem (Ne.symm isOn) second) _).trans ?_
          simp [List.sublist_cons_iff, Ne.symm isOff]

/-! Blocks. -/

-- The constraint that the fields of a block make, if one of them is its expression.
def constraintOf? (name : String) (position : Position) (fields : ConstraintFields) : Option Constraint :=
  fields.expression.map fun expression => {
    name, expression, position
    code := fields.code
    severity := fields.severity
    message := fields.message
    details := fields.details
    overrideable := fields.overrideable
    overridePolicy := fields.overridePolicy }

theorem overrideable_of_made {name : String} {position : Position} {node : Constraint}
    (made : constraintOf? name position fields = some node) : node.overrideable = fields.overrideable := by
  obtain ⟨e, _, rfl⟩ := Option.map_eq_some_iff.mp made
  rfl

theorem constraintOf?_of_unswitched (name : String) (position : Position) {fields fields' : ConstraintFields}
    (same : unswitched fields = unswitched fields') : constraintOf? name position fields' =
      (constraintOf? name position fields).map fun node => { node with overrideable := fields'.overrideable } := by
  have apart : fields' = { fields with overrideable := fields'.overrideable } := by
    cases fields
    cases fields'
    cases same
    rfl
  rw [apart]
  unfold constraintOf?
  cases fields.expression <;> rfl

theorem Block.goes_on (block : Block texts tokens) : ∃ next more, tokens = next :: more := by
  cases block with
  | closed => exact exists_cons_of_append _ _ _
  | field => exact exists_cons_of_append _ _ _

section Reading
variable (name : String) (severity : Option Enforcement) (position : Position) {opening : Token}

-- A block of fields is read as what they set, if one of them is the expression.
theorem Block.constraint (block : Block texts tokens) (opens : opening.symbol = .mark "\x7b")
    (each : List.Forall₂ (Field limit) texts settings) :
    (constraintBlock limit name severity position (opening :: tokens)).result =
      match constraintOf? name position (settings.foldl Setting.set { severity }) with
      | some node => .ok node
      | none => .error ⟨.missingExpression name, position⟩ := by
  obtain ⟨rest, ran⟩ := block.read each { severity }
  obtain ⟨next, more, rfl⟩ := block.goes_on
  have opened : constraintBlock limit name severity position (opening :: next :: more) = _ :=
    (run_bind (run_expect (is_mark opens))).trans (run_bind ran)
  rw [opened]
  unfold constraintOf?
  cases (settings.foldl Setting.set { severity }).expression <;> rfl

theorem Block.refused (block : Block texts tokens) (opens : opening.symbol = .mark "\x7b")
    (each : ∀ text ∈ texts, (∃ setting, Field limit text setting) ∨ Broken limit text)
    (some : ∃ text ∈ texts, Broken limit text) :
    ∃ report, (constraintBlock limit name severity position (opening :: tokens)).result = .error report := by
  obtain ⟨report, rest, reports, failed⟩ := block.broken each some { severity }
  obtain ⟨next, more, rfl⟩ := block.goes_on
  have opened : constraintBlock limit name severity position (opening :: next :: more) = _ :=
    (run_bind (run_expect (is_mark opens))).trans (run_bind_error failed)
  exact ⟨report, congrArg Parsed.result opened⟩

end Reading

theorem exists_settings (each : ∀ text ∈ texts, ∃ setting, Field limit text setting) :
    ∃ settings, List.Forall₂ (Field limit) texts settings := by
  induction texts with
  | nil => exact ⟨[], .nil⟩
  | cons text texts ih =>
      obtain ⟨⟨setting, field⟩, behind⟩ := List.forall_mem_cons.mp each
      obtain ⟨settings, fields⟩ := ih behind
      exact ⟨setting :: settings, .cons field fields⟩

-- One field forbids to override the constraint, and another one names who may.
structure Contested (limit : Nat) (texts : List (List Symbol)) (off on : List Symbol) : Prop where
  first : off ∈ texts
  second : on ∈ texts
  forbids : Field limit off (.overrideable false)
  permits : ∃ policy, Field limit on (.overridePolicy policy)

-- The fields of a block, each key at most once, are read in every order or in none. The constraint is the same in
-- every order, but where one field forbids to override it and another one names who may: then the field behind the
-- other one decides, and nothing else differs.
theorem constraintBlock_permuted (limit : Nat) (name : String) (severity : Option Enforcement) (position : Position)
    {texts texts' : List (List Symbol)} {opening opening' : Token} {tokens tokens' : List Token}
    (opens : opening.symbol = .mark "\x7b") (opens' : opening'.symbol = .mark "\x7b")
    (block : Block texts tokens) (block' : Block texts' tokens') (permuted : texts.Perm texts')
    (once : (texts.map keyOf).Nodup) (each : ∀ text ∈ texts, (∃ setting, Field limit text setting) ∨ Broken limit text) :
    let read := (constraintBlock limit name severity position (opening :: tokens)).result
    let read' := (constraintBlock limit name severity position (opening' :: tokens')).result
    ((∃ report, read = .error report) ∧ ∃ report, read' = .error report) ∨
    ∃ node node', read = .ok node ∧ read' = .ok node' ∧
      node' = { node with overrideable := node'.overrideable } ∧
      ((∀ off on, ¬ Contested limit texts off on) → node' = node) ∧
      ∀ off on, Contested limit texts off on →
        (node.overrideable = true ↔ [off, on].Sublist texts) ∧ (node'.overrideable = true ↔ [off, on].Sublist texts') := by
  intro read read'
  have each' : ∀ text ∈ texts', (∃ setting, Field limit text setting) ∨ Broken limit text :=
    fun text member => each text (permuted.mem_iff.mpr member)
  by_cases present : ∃ text ∈ texts, Broken limit text
  · -- What is no field here is none there.
    obtain ⟨text, member, broken⟩ := present
    exact .inl ⟨block.refused name severity position opens each ⟨text, member, broken⟩,
      block'.refused name severity position opens' each' ⟨text, permuted.mem_iff.mp member, broken⟩⟩
  · have whole : ∀ text ∈ texts, ∃ setting, Field limit text setting :=
      fun text member => (each text member).resolve_right fun broken => present ⟨text, member, broken⟩
    obtain ⟨settings, fields⟩ := exists_settings whole
    obtain ⟨settings', fields', same⟩ := List.perm_comp_forall₂ permuted.symm fields
    have distinct : (settings.map Setting.key).Nodup := by
      rw [keys_eq fields] at once
      exact once.of_map some
    have once' : (texts'.map keyOf).Nodup := (permuted.map keyOf).nodup_iff.mp once
    have ran := block.constraint name severity position opens fields
    have ran' := block'.constraint name severity position opens' fields'
    have apart := constraintOf?_of_unswitched name position (unswitched_permuted same.symm distinct { severity })
    cases made : constraintOf? name position (settings.foldl Setting.set { severity }) with
    | none =>
        rw [made] at ran apart
        rw [apart] at ran'
        exact .inl ⟨⟨_, ran⟩, _, ran'⟩
    | some node =>
        rw [made] at ran apart
        rw [apart] at ran'
        refine .inr ⟨node, _, ran, ran', rfl, fun agree => ?_, fun off on contested => ⟨?_, ?_⟩⟩
        · have agree : ∀ first ∈ settings, ∀ second ∈ settings, ¬ Opposed first second := by
            rintro first member second member' ⟨rfl, policy, rfl⟩
            obtain ⟨off, within, forbids⟩ := exists_text fields member
            obtain ⟨on, within', permits⟩ := exists_text fields member'
            exact agree off on ⟨within, within', forbids, policy, permits⟩
          rw [← foldl_permuted same.symm distinct agree, ← overrideable_of_made made]
        · obtain ⟨policy, permits⟩ := contested.permits
          rw [overrideable_of_made made]
          exact overrideable_iff fields once contested.first contested.second contested.forbids permits _
        · obtain ⟨policy, permits⟩ := contested.permits
          exact overrideable_iff fields' once' (permuted.mem_iff.mp contested.first)
            (permuted.mem_iff.mp contested.second) contested.forbids permits _

-- Fields with commas between them, in front of the brace that closes the block.
def fieldTokens (texts : List (List Symbol)) : List Token :=
  placed (Symbol.list texts ++ [.mark "\x7d", ⟨.endOfInput, ""⟩])

theorem Block.behind_gap (block : Block texts tokens) {gap : List Token} (separates : Separates gap) :
    Block texts (gap ++ tokens) := by
  have both {others : List Token} (separates' : Separates others) : Separates (gap ++ others) :=
    List.forall_mem_append.mpr ⟨separates, separates'⟩
  cases block with
  | closed separates' closes =>
      rw [← List.append_assoc]
      exact .closed (both separates') closes
  | field separates' written stops others =>
      rw [← List.append_assoc, ← List.append_assoc]
      exact .field (both separates') written stops others

theorem fieldTokens_block (text : List Symbol) (texts : List (List Symbol)) :
    Block (text :: texts) (fieldTokens (text :: texts)) := by
  induction texts generalizing text with
  | nil =>
      unfold fieldTokens Symbol.list placed
      rw [List.intercalate_singleton, List.map_append]
      have closed : Block [] [⟨.punctuation, "\x7d", .nowhere⟩, ⟨.endOfInput, "", .nowhere⟩] :=
        @Block.closed [] [] _ _ nofun rfl
      exact @Block.field [] _ _ _ _ _ nofun (placed_symbols text) (@Behind.mark 0 _ "\x7d" rfl (by decide)) closed
  | cons second texts ih =>
      have comma : Separates [⟨.punctuation, ",", .nowhere⟩] := List.forall_mem_singleton.mpr (by decide)
      have behind := (ih second).behind_gap comma
      unfold fieldTokens Symbol.list placed at behind ⊢
      rw [List.intercalate_cons_cons, List.append_assoc, List.append_assoc, List.map_append]
      exact @Block.field [] _ _ _ _ _ nofun (placed_symbols text) (@Behind.mark 0 _ "," rfl (by decide)) behind

-- The fields of a gate that forbids to override it and names who may, in two orders.
def gateTexts : List (List Symbol) := [
  [.word "expression", .mark ":", .word "ready"],
  [.word "overrideable", .mark ":", .word "false"],
  [.word "overridePolicy", .mark ":", .word "managers"]]

def gateTexts' : List (List Symbol) := [
  [.word "overridePolicy", .mark ":", .word "managers"],
  [.word "expression", .mark ":", .word "ready"],
  [.word "overrideable", .mark ":", .word "false"]]

def readGate (texts : List (List Symbol)) : Except Report Constraint :=
  (constraintBlock 64 "gate" none .nowhere (⟨.punctuation, "\x7b", .nowhere⟩ :: fieldTokens texts)).result

theorem ready_spells : Spells 64 [.word "ready"] (.identifier "ready") := by
  have name : IsWord "ready".toList ∧ "ready" ∉ keywords := ⟨Symbol.isPlainWord_iff.mp rfl, by decide⟩
  have regular : Expression.Regular (fun _ => False) (.identifier "ready") := .identifier (.inl name)
  exact regular.spells (fun _ => "") nofun (by decide)

theorem order_decides_permission : gateTexts.Perm gateTexts' ∧ (gateTexts.map keyOf).Nodup ∧
    (readGate gateTexts).toOption.map Constraint.overrideable = some true ∧
    (readGate gateTexts').toOption.map Constraint.overrideable = some false :=
  ⟨by decide, by decide, by decide +kernel, by decide +kernel⟩

theorem gate_permuted : gateTexts.Perm gateTexts' ∧ (gateTexts.map keyOf).Nodup ∧
    ∃ node node', readGate gateTexts = .ok node ∧ readGate gateTexts' = .ok node' ∧
    node' = { node with overrideable := node'.overrideable } ∧
    node.overrideable = true ∧ node'.overrideable = false := by
  have never : Spells 64 [.word "false"] (.literal (.boolean false)) := by
    have regular : Expression.Regular (fun _ => False) (.literal (.boolean false)) := .literal nofun
    exact regular.spells (fun _ => "") nofun (by decide)
  have forbids : Field 64 [.word "overrideable", .mark ":", .word "false"] (.overrideable false) := .overrideable never
  have permits : Field 64 [.word "overridePolicy", .mark ":", .word "managers"] (.overridePolicy "managers") :=
    .overridePolicy (.inl rfl)
  have each : ∀ text ∈ gateTexts, (∃ setting, Field 64 text setting) ∨ Broken 64 text := by
    intro text member
    simp only [gateTexts, List.mem_cons, List.not_mem_nil, or_false] at member
    rcases member with rfl | rfl | rfl
    · exact .inl ⟨_, .expression ready_spells⟩
    · exact .inl ⟨_, forbids⟩
    · exact .inl ⟨_, permits⟩
  have read : (readGate gateTexts).toOption.isSome = true := by decide +kernel
  have contested : Contested 64 gateTexts [.word "overrideable", .mark ":", .word "false"]
      [.word "overridePolicy", .mark ":", .word "managers"] := ⟨by decide, by decide, forbids, _, permits⟩
  have opens : Token.symbol ⟨.punctuation, "\x7b", .nowhere⟩ = .mark "\x7b" := rfl
  rcases constraintBlock_permuted 64 "gate" none .nowhere opens opens (fieldTokens_block _ _) (fieldTokens_block _ _)
      (show gateTexts.Perm gateTexts' by decide) (by decide) each with
    ⟨⟨report, failed⟩, _⟩ | ⟨node, node', read, read', same, _, decides⟩
  · have failed : readGate gateTexts = .error report := failed
    rw [failed] at read
    cases read
  · obtain ⟨first, second⟩ := decides _ _ contested
    refine ⟨by decide, by decide, node, node', read, read', same, first.mpr (by decide), ?_⟩
    exact Bool.eq_false_iff.mpr (mt second.mp (by decide))

end Charter.Source

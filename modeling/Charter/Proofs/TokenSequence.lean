import Charter.Proofs.Acceptance
import Charter.Proofs.DeclarationBlindness
import Charter.Proofs.Fingerprint
import Charter.Proofs.Printing

/-!
What a text compiles to is told by the kinds and the values of its tokens. Spacing, comments and positions have no
part in it, whether the text is well formed or not.
-/

namespace Charter

-- A program without what records the text it came from, and when.
def Ir.untraced (ir : Ir) : Ir :=
  { ir with provenance := { ir.provenance with contentHash := "", irHash := "", compiledAt := "" } }

namespace Source

-- Tokens of the same kinds and values give programs, and faults, that differ in positions only.
theorem Program.ofTokens_unplaced_eq (limit : Nat) {tokens tokens' : List Token}
    (same : tokens.map Token.symbol = tokens'.map Token.symbol) :
    (ofTokens limit tokens).1.unplaced = (ofTokens limit tokens').1.unplaced ∧
      (ofTokens limit tokens).2.map Report.unplaced = (ofTokens limit tokens').2.map Report.unplaced := by
  have read := ofTokens_unplaced limit tokens
  rw [unplaced_of_symbols same, ofTokens_unplaced] at read
  exact ⟨(congrArg Prod.fst read).symm, (congrArg Prod.snd read).symm⟩

theorem Report.diagnostics_unplaced (reports : List Report) :
    (reports.map Report.unplaced).map (·.diagnostic.unplaced) = (reports.map diagnostic).map Diagnostic.unplaced := by
  rw [List.map_map, List.map_map]
  exact List.map_congr_left fun report _ => report.unplaced_diagnostic

end Source

namespace Compile
open Source

theorem harmless_unplaced {found : List Finding} : Harmless (found.map Finding.unplaced) ↔ Harmless found :=
  List.forall_mem_map

theorem Finding.diagnostics_unplaced (found : List Finding) :
    (found.map Finding.unplaced).map (·.diagnostic.unplaced) =
      (found.map Finding.diagnostic).map Diagnostic.unplaced := by
  rw [List.map_map, List.map_map]
  exact List.map_congr_left fun finding _ => finding.unplaced_diagnostic

-- The findings of programs that differ in positions only.
theorem findings_of_unplaced {p p' : Program} (same : p.unplaced = p'.unplaced) :
    (findings p).map Finding.unplaced = (findings p').map Finding.unplaced := by
  rw [← findings_unplaced, ← findings_unplaced, same]

end Compile
open Source Compile

-- Behind what is said of characters stand the faults of form, and the findings if nothing is an error so far.
theorem compile_diagnostics (options : CompileOptions) (time source : String) :
    let lexed := Lexed.ofSource source
    let read := Program.ofTokens options.maxNesting lexed.tokens
    (compile options time source).diagnostics =
      lexed.diagnostics options.anomalies ++ (read.2.map Report.diagnostic ++
        if read.2 = [] ∧ (options.anomalies = .error → lexed.anomalies = []) then
          (findings read.1).map Finding.diagnostic else []) := by
  have form := harmless_ofSource options.anomalies options.maxNesting source
  dsimp only
  obtain ⟨errors, same⟩ | ⟨clean, diagnostics, rfl, ends⟩ :=
    compile_cases options time source (rfl : Document.ofSource options.anomalies options.maxNesting source = _)
  · rw [if_neg fun clean => Bool.noConfusion (errors.symm.trans (hasErrors_eq_false.mpr (form.mpr clean))), same,
      List.append_nil]
    rfl
  · rw [if_pos (form.mp (hasErrors_eq_false.mp clean)), ← List.append_assoc]
    obtain ⟨_, same⟩ | ⟨_, ir, same⟩ := ends
    · rw [same]
      rfl
    · rw [same]
      rfl

theorem lower_untraced {p p' : Program} (same : p.unplaced = p'.unplaced) {provenance provenance' : Ir.Provenance}
    (compilers : provenance.compilerVersion = provenance'.compilerVersion)
    (schemas : provenance.schemaVersion = provenance'.schemaVersion) :
    (p.lower provenance).sealed.untraced = (p'.lower provenance').sealed.untraced := by
  rw [← p.unplaced_lower, ← p'.unplaced_lower, same]
  simp only [Ir.untraced, Ir.sealed, Program.lower, compilers, schemas]

section
variable {options : CompileOptions} {time time' source source' : String}

-- What one text compiles to, the other does, but for what traces it.
theorem compile_ir_of_tokens
    (tokens : (Lexed.ofSource source).tokens.map Token.symbol = (Lexed.ofSource source').tokens.map Token.symbol)
    (refused : options.anomalies = .error → (Lexed.ofSource source).anomalies = [] →
      (Lexed.ofSource source').anomalies = []) {ir : Ir} (compiled : (compile options time source).ir = some ir) :
    ∃ ir', (compile options time' source').ir = some ir' ∧ ir.untraced = ir'.untraced := by
  obtain ⟨programs, reports⟩ := Program.ofTokens_unplaced_eq options.maxNesting tokens
  obtain ⟨anomalies, none, harmless, rfl⟩ := compile_ir_eq_some_iff.mp compiled
  have none' : (Program.ofTokens options.maxNesting (Lexed.ofSource source').tokens).2 = [] := by
    rw [none] at reports
    exact List.map_eq_nil_iff.mp reports.symm
  have harmless' : Harmless (findings (Program.ofTokens options.maxNesting (Lexed.ofSource source').tokens).1) := by
    rw [← harmless_unplaced, findings_of_unplaced programs, harmless_unplaced] at harmless
    exact harmless
  exact ⟨_, compile_ir_eq_some_iff.mpr ⟨fun error => refused error (anomalies error), none', harmless', rfl⟩,
    lower_untraced programs rfl rfl⟩

-- For two texts with tokens of the same kinds and values, whose anomalies are refused alike: both compile or neither
-- does, the programs are the same up to the hashes and the time of compilation, and what is said of the form and
-- the meaning of the one is said of the other, with the same severity, code and message.
theorem tokens_determine_program (options : CompileOptions) (time time' source source' : String)
    (tokens : (Lexed.ofSource source).tokens.map Token.symbol = (Lexed.ofSource source').tokens.map Token.symbol)
    (refused : options.anomalies = .error →
      ((Lexed.ofSource source).anomalies = [] ↔ (Lexed.ofSource source').anomalies = [])) :
    let compiled := compile options time source
    let compiled' := compile options time' source'
    (compiled.ir.isSome ↔ compiled'.ir.isSome) ∧
    compiled.ir.map Ir.untraced = compiled'.ir.map Ir.untraced ∧
    ∃ faults faults',
      compiled.diagnostics = (Lexed.ofSource source).diagnostics options.anomalies ++ faults ∧
      compiled'.diagnostics = (Lexed.ofSource source').diagnostics options.anomalies ++ faults' ∧
      faults.map Diagnostic.unplaced = faults'.map Diagnostic.unplaced := by
  intro compiled compiled'
  obtain ⟨programs, reports⟩ := Program.ofTokens_unplaced_eq options.maxNesting tokens
  have irs : compiled.ir.map Ir.untraced = compiled'.ir.map Ir.untraced := by
    cases first : compiled.ir with
    | some ir =>
        obtain ⟨ir', second, same⟩ := compile_ir_of_tokens tokens (fun error => (refused error).mp) first
        rw [show compiled'.ir = _ from second, Option.map_some, Option.map_some, same]
    | none =>
        cases second : compiled'.ir with
        | none => rfl
        | some ir' =>
            obtain ⟨ir, impossible, _⟩ := compile_ir_of_tokens tokens.symm (fun error => (refused error).mpr) second
            cases first.symm.trans impossible
  refine ⟨?_, irs, _, _, compile_diagnostics options time source, compile_diagnostics options time' source', ?_⟩
  · rw [← Option.isSome_map, irs, Option.isSome_map]
  · have none : (Program.ofTokens options.maxNesting (Lexed.ofSource source).tokens).2 = [] ↔
        (Program.ofTokens options.maxNesting (Lexed.ofSource source').tokens).2 = [] := by
      rw [← List.map_eq_nil_iff, reports, List.map_eq_nil_iff]
    have accepted := and_congr none (forall_congr' refused)
    rw [List.map_append, List.map_append, apply_ite (List.map _), apply_ite (List.map _),
      ← Report.diagnostics_unplaced, ← Report.diagnostics_unplaced, reports, ← Finding.diagnostics_unplaced,
      ← Finding.diagnostics_unplaced, findings_of_unplaced programs, if_congr accepted rfl rfl]

-- A comment and some spaces more, where anomalies are errors.
theorem spacing_untold :
    let text := "entity Task \x7b property points: number = 3 \x7d"
    let spaced := "  entity Task /* of a day */ \x7b\tproperty points : number=3 \x7d "
    (Lexed.ofSource text).tokens.map Token.symbol = (Lexed.ofSource spaced).tokens.map Token.symbol ∧
      ((Lexed.ofSource text).anomalies = [] ↔ (Lexed.ofSource spaced).anomalies = []) ∧
      (Lexed.ofSource text).tokens ≠ (Lexed.ofSource spaced).tokens ∧
      (compile { anomalies := .error } "dawn" text).ir.isSome ∧
      (compile { anomalies := .error } "dawn" text).ir.map Ir.untraced =
        (compile { anomalies := .error } "noon" spaced).ir.map Ir.untraced := by
  intro text spaced
  have tokens : (Lexed.ofSource text).tokens.map Token.symbol = (Lexed.ofSource spaced).tokens.map Token.symbol := by
    decide +kernel
  have refused : (Lexed.ofSource text).anomalies = [] ↔ (Lexed.ofSource spaced).anomalies = [] := by decide +kernel
  have determined := tokens_determine_program { anomalies := .error } "dawn" "noon" text spaced tokens fun _ => refused
  exact ⟨tokens, refused, by decide +kernel, by decide +kernel, determined.2.1⟩

end

end Charter

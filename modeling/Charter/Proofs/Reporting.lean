import Charter.Proofs.Acceptance
import Charter.Proofs.Fingerprint

/-!
The policy on anomalies decides what is reported and nothing else. Here is the reading of a text with the policy
at hand, which is asked at each anomaly as it is met: its tokens are those of the text under every policy, and so
the program that is compiled is the same wherever the policy does not refuse it.
-/

namespace Charter
open Source

namespace AnomalyPolicy

-- What is said about an anomaly, if the policy lets it be told.
def diagnostic? (policy : AnomalyPolicy) (position : Position) (anomaly : Anomaly) : Option Diagnostic :=
  policy.severity?.map fun severity =>
    (({ severity, message := anomaly.message } : Diagnostic).place position).coded anomaly.code

end AnomalyPolicy

-- A reading under way: where it stands, and what it has found so far.
structure Lexing where
  position : Position := .start
  tokens : List Token := []
  diagnostics : List Diagnostic := []

namespace Lexing

-- One step, which asks the policy about an anomaly on the spot.
def take (policy : AnomalyPolicy) (lexing : Lexing) (scan : Scan) : Lexing :=
  let position := lexing.position.through scan.taken
  { position
    tokens := lexing.tokens ++ (scan.token.map fun (kind, value) => ⟨kind, value, position⟩).toList
    diagnostics := lexing.diagnostics ++ (scan.anomaly.bind (policy.diagnostic? position)).toList }

def run (policy : AnomalyPolicy) (lexing : Lexing) : List Char → Lexing
  | [] => { lexing with tokens := lexing.tokens ++ [.endAt lexing.position] }
  | c :: rest => run policy (lexing.take policy (Scan.step c rest)) (Scan.step c rest).rest
termination_by chars => chars.length
decreasing_by
  have := Scan.rest_length c rest
  simp only [List.length_cons]
  omega

-- The reading of a text under a policy.
def ofSource (policy : AnomalyPolicy) (source : String) : Lexing := run policy {} source.toList

end Lexing

theorem Lexed.diagnostics_eq_filterMap (lexed : Lexed) (policy : AnomalyPolicy) : lexed.diagnostics policy =
    lexed.anomalies.filterMap fun (anomaly, position) => policy.diagnostic? position anomaly := by
  unfold diagnostics AnomalyPolicy.diagnostic?
  cases policy.severity? with
  | none => simp
  | some severity => simp

namespace Lexing
variable {policy : AnomalyPolicy}

-- What a step finds, the run adds to what was found before; the policy is not asked where to go on.
theorem run_eq (lexing : Lexing) (chars : List Char) :
    (lexing.run policy chars).tokens = lexing.tokens ++ (Lexed.ofCharacters lexing.position chars).tokens ∧
    (lexing.run policy chars).diagnostics =
      lexing.diagnostics ++ (Lexed.ofCharacters lexing.position chars).diagnostics policy := by
  fun_induction run policy lexing chars with
  | case1 lexing =>
      rw [Lexed.ofCharacters, Lexed.diagnostics_eq_filterMap]
      exact ⟨rfl, (List.append_nil _).symm⟩
  | case2 lexing c rest ih =>
      obtain ⟨tokens, diagnostics⟩ := ih
      rw [Lexed.diagnostics_eq_filterMap] at diagnostics
      rw [tokens, diagnostics, Lexed.diagnostics_eq_filterMap, Lexed.ofCharacters]
      dsimp only [take]
      generalize lexing.position.through (Scan.step c rest).taken = position
      have told : ((Scan.step c rest).anomaly.map (·, position)).toList.filterMap
          (fun (anomaly, position) => policy.diagnostic? position anomaly) =
          ((Scan.step c rest).anomaly.bind (policy.diagnostic? position)).toList := by
        cases (Scan.step c rest).anomaly with
        | none => rfl
        | some anomaly => cases told : policy.diagnostic? position anomaly <;> simp [told]
      exact ⟨List.append_assoc .., by rw [List.filterMap_append, told, List.append_assoc]⟩

-- Reading with the policy at hand gives the tokens of the text, and of its anomalies what the policy says.
theorem ofSource_eq (policy : AnomalyPolicy) (source : String) :
    (ofSource policy source).tokens = (Lexed.ofSource source).tokens ∧
      (ofSource policy source).diagnostics = (Lexed.ofSource source).diagnostics policy :=
  run_eq {} source.toList

end Lexing

/-! What is told of the anomalies of a text under each policy. -/

theorem Lexed.diagnostics_warn (lexed : Lexed) :
    lexed.diagnostics .warn = (lexed.diagnostics .error).map ({ · with severity := .warning }) := by
  simp only [diagnostics, AnomalyPolicy.severity?, List.map_map]
  rfl

theorem Lexed.diagnostics_error (lexed : Lexed) :
    lexed.diagnostics .error = (lexed.diagnostics .warn).map ({ · with severity := .error }) := by
  simp only [diagnostics, AnomalyPolicy.severity?, List.map_map]
  rfl

-- The program is compiled alike under two policies that refuse no anomaly of the text.
theorem compile_ir_unrefused {options : CompileOptions} {source : String} (policy other : AnomalyPolicy)
    (unrefused : policy = .error → (Lexed.ofSource source).anomalies = [])
    (unrefused' : other = .error → (Lexed.ofSource source).anomalies = []) (time : String) :
    (compile { options with anomalies := policy } time source).ir =
      (compile { options with anomalies := other } time source).ir := by
  refine Option.ext fun ir => ?_
  rw [compile_ir_eq_some_iff, compile_ir_eq_some_iff]
  exact and_congr (iff_of_true unrefused unrefused') Iff.rfl

theorem compile_ir_refused {options : CompileOptions} {source : String}
    (anomalous : (Lexed.ofSource source).anomalies ≠ []) (time : String) :
    (compile { options with anomalies := .error } time source).ir = none := by
  refine Option.eq_none_iff_forall_ne_some.mpr fun ir compiled => ?_
  exact anomalous ((compile_ir_eq_some_iff.mp compiled).1 rfl)

theorem compile_ir_compiledAt (options : CompileOptions) (time later source : String) :
    (compile options time source).ir.map (·.compiledAt later) = (compile options later source).ir :=
  congrArg Compiled.ir (compile_compiledAt options time later source)

-- Reading a text gives the same tokens under every policy. Nothing is told of its anomalies under the one, and
-- the same under the two others but for the severity. The compiled program is the same, up to the time of
-- compilation, where anomalies are passed over and where they are warned of; where they are errors it is that
-- one too if the text has none, and otherwise there is none.
theorem policy_only_reports (options : CompileOptions) (source : String) :
    let reading := fun policy => Lexing.ofSource policy source
    let compiled := fun policy time later =>
      (compile { options with anomalies := policy } time source).ir.map (·.compiledAt later)
    let anomalies := (Lexed.ofSource source).anomalies
    (∀ policy, (reading policy).tokens = (Lexed.ofSource source).tokens ∧
      (reading policy).diagnostics = (Lexed.ofSource source).diagnostics policy) ∧
    (reading .skip).diagnostics = [] ∧
    (reading .warn).diagnostics = (reading .error).diagnostics.map ({ · with severity := .warning }) ∧
    (reading .error).diagnostics = (reading .warn).diagnostics.map ({ · with severity := .error }) ∧
    ∀ dawn noon dusk later, compiled .skip dawn later = compiled .warn noon later ∧
      (anomalies = [] → compiled .error dusk later = compiled .warn noon later) ∧
      (anomalies ≠ [] → compiled .error dusk later = none) := by
  intro reading compiled anomalies
  have read (policy : AnomalyPolicy) := Lexing.ofSource_eq policy source
  refine ⟨read, ?_, ?_, ?_, fun dawn noon dusk later => ?_⟩
  · rw [(read .skip).2]
    rfl
  · rw [(read .warn).2, (read .error).2, ← Lexed.diagnostics_warn]
  · rw [(read .warn).2, (read .error).2, ← Lexed.diagnostics_error]
  · simp only [compiled, compile_ir_compiledAt]
    refine ⟨compile_ir_unrefused .skip .warn nofun nofun later, fun none => ?_, fun some =>
      compile_ir_refused some later⟩
    exact compile_ir_unrefused .error .warn (fun _ => none) nofun later

end Charter

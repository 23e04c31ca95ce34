import Charter.Compile.Cycle
import Charter.Diagnostic

/-!
What a well-formed program can still have wrong with its meaning, in the order of its declarations.
Repeated constraint codes and defaults that are no constants are errors; a cycle is a warning only.
-/

namespace Charter.Compile
open Source

inductive Cause where
  | duplicateCode (code scope name first : String)
  | computedCycle (entity : String) (cycle : List String)
  | notLowered (kind name : String)
  | notConstant (what : String)

namespace Cause

def severity : Cause → Severity
  | duplicateCode .. | notConstant _ => .error
  | computedCycle .. => .warning
  | notLowered .. => .info

def code : Cause → String
  | duplicateCode .. => DiagnosticCode.duplicateConstraintCode
  | computedCycle .. => DiagnosticCode.computedCycle
  | notLowered .. => DiagnosticCode.notLowered
  | notConstant _ => DiagnosticCode.nonConstantDefault

def message : Cause → String
  | duplicateCode code scope name first =>
    s!"Duplicate constraint code '{code}' in {scope}: '{name}' reuses the code of '{first}'"
  | computedCycle entity cycle =>
    let way := String.intercalate " -> " cycle
    s!"Computed property cycle in entity '{entity}': {way}"
  | notLowered kind name => s!"{kind} '{name}' is parsed but not lowered to IR"
  | notConstant what => s!"Default value for {what} must be a constant"

end Cause

structure Finding where
  cause : Cause
  position : Position

def Finding.diagnostic (f : Finding) : Diagnostic :=
  (({ severity := f.cause.severity, message := f.cause.message } : Diagnostic).place f.position).coded
    f.cause.code

-- A default that is no constant.
def constantFindings (what : String) (position : Position) (default? : Option Source.Expression) :
    List Finding :=
  match default? with
  | some e => if e.constant?.isSome then [] else [⟨.notConstant what, position⟩]
  | none => []

-- Every constraint whose code an earlier one has, each against the first holder of the code.
def codeFindings (scope : String) (constraints : List Constraint) : List Finding :=
  constraints.zipIdx.filterMap fun (c, index) =>
    let holder := (constraints.take index).find? (·.resolvedCode == c.resolvedCode)
    holder.map fun first => ⟨.duplicateCode c.resolvedCode scope c.name first.name, c.position⟩

def commandFindings (c : Command) : List Finding :=
  codeFindings s!"command '{c.name}'" c.constraints ++
    c.parameters.flatMap fun p => constantFindings s!"parameter '{p.name}'" p.position p.default?

def storeFindings (s : Store) : List Finding :=
  s.config.flatMap fun (key, value) => constantFindings s!"store option '{key}'" s.position (some value)

def cycleFindings (e : Entity) : List Finding :=
  (computedCycles (e.computed.map Computed.lower)).filterMap fun (index, cycle) =>
    e.computed[index]?.map fun c => ⟨.computedCycle e.name cycle, c.position⟩

def entityFindings (e : Entity) : List Finding :=
  e.properties.flatMap (fun p => constantFindings s!"property '{p.name}'" p.position p.default?) ++
    cycleFindings e ++ codeFindings s!"entity '{e.name}'" e.constraints ++
    e.commands.flatMap commandFindings ++ e.store.toList.flatMap storeFindings

def scopeFindings (s : Scope) : List Finding :=
  s.entities.flatMap entityFindings ++ s.commands.flatMap commandFindings ++ s.stores.flatMap storeFindings

-- The declarations that have no compiled counterpart.
def unloweredFindings (p : Program) : List Finding :=
  p.flows.map (fun f => ⟨.notLowered "flow" f.name, f.position⟩) ++
    p.effects.map (fun e => ⟨.notLowered "effect" e.name, e.position⟩) ++
    p.exposures.map (fun e => ⟨.notLowered "expose" e.entity, e.position⟩) ++
    p.compositions.map (fun c => ⟨.notLowered "compose" c.name, c.position⟩)

def findings (p : Program) : List Finding := p.scopes.flatMap scopeFindings ++ unloweredFindings p

end Charter.Compile

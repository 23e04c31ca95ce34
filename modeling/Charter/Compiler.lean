import Charter.Compile.Finding
import Charter.Ir.Export
import Charter.Sha256
import Charter.Source.Grammar.Program

/-!
Compilation of a source text: the compiled program if no diagnostic is an error, and the diagnostics in
any case. A compiler may keep what it compiled, under the hash of the source.
-/

namespace Charter

namespace Ir

-- The hash of the document without the hash itself and the time of compilation.
def computedHash (ir : Ir) : String :=
  let fields := ir.provenance.json
  let hashed := match fields with
    | .object entries => .object (Fields.erase (Fields.erase entries "irHash") "compiledAt")
    | other => other
  Sha256.hex (ir.jsonWith hashed).canonicalText

-- Whether the recorded hash is the hash of the document.
def verified (ir : Ir) : Bool := ir.computedHash == ir.provenance.irHash

def sealed (ir : Ir) : Ir := { ir with provenance := { ir.provenance with irHash := ir.computedHash } }

end Ir

structure CompileOptions where
  useCache : Bool := true
  anomalies : AnomalyPolicy := .warn
  maxNesting : Nat := Source.defaultNesting
  deriving DecidableEq

structure Compiled where
  ir : Option Ir
  diagnostics : List Diagnostic

namespace Compiled

def hasErrors (compiled : Compiled) : Bool := Diagnostic.hasErrors compiled.diagnostics

def irHash? (compiled : Compiled) : Option String := compiled.ir.map (·.provenance.irHash)

end Compiled

def contentHash (source : String) : String := Sha256.hex source

-- Compiles a text; `time` is recorded as the time of compilation.
def compile (options : CompileOptions) (time source : String) : Compiled :=
  let document := Source.Document.ofSource options.anomalies options.maxNesting source
  if document.hasErrors then { ir := none, diagnostics := document.diagnostics }
  else
    let findings := (Compile.findings document.program).map Compile.Finding.diagnostic
    let diagnostics := document.diagnostics ++ findings
    if Diagnostic.hasErrors diagnostics then { ir := none, diagnostics }
    else
      let provenance : Ir.Provenance := {
        contentHash := contentHash source
        irHash := ""
        compilerVersion := Ir.compilerVersion
        schemaVersion := Ir.schemaVersion
        compiledAt := time }
      { ir := some (document.program.lower provenance).sealed, diagnostics }

-- Compiled programs by key.
structure Cache where
  entries : Fields Compiled := []

namespace Cache

def size (cache : Cache) : Nat := cache.entries.length

def lookup? (cache : Cache) (key : String) : Option Compiled := cache.entries.get? key

-- Only what has a compiled program is kept; the answer is whether it was.
def insert (cache : Cache) (key : String) (compiled : Compiled) : Cache × Bool :=
  if compiled.ir.isSome then ({ entries := cache.entries.put key compiled }, true) else (cache, false)

end Cache

structure Compiler where
  options : CompileOptions
  cache : Cache := {}

namespace Compiler

def compile (compiler : Compiler) (time source : String) : Compiler × Compiled :=
  if !compiler.options.useCache then (compiler, Charter.compile compiler.options time source)
  else
    let key := contentHash source
    match compiler.cache.lookup? key with
    | some hit => (compiler, hit)
    | none =>
      let compiled := Charter.compile compiler.options time source
      ({ compiler with cache := (compiler.cache.insert key compiled).1 }, compiled)

def clearCache (compiler : Compiler) : Compiler := { compiler with cache := {} }

end Compiler
end Charter

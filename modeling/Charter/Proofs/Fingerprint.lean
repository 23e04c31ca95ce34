import Charter.Compiler
import Charter.Proofs.Declarations

/-!
The hash of a program identifies it. What is hashed is the canonical text of the document without the hash and
the time of compilation, and that text tells everything else, up to the order of the keys of maps.
-/

namespace Charter

namespace Json

instance (a b : Json) : Decidable (a.NumbersApart b) :=
  List.decidableBAll (fun x => ∀ y ∈ b.numbers, numberLayout.write x = numberLayout.write y → x = y) a.numbers

end Json

namespace Ir
open Json

-- All numbers are finite, and no key stands twice in a map.
def isProper (ir : Ir) : Bool :=
  ir.entities.all Entity.isProper && ir.stores.all Store.isProper && ir.commands.all Command.isProper &&
    ir.policies.all Policy.isProper

-- The program with the keys of all maps in increasing order.
def ordered (ir : Ir) : Ir :=
  { ir with
    entities := ir.entities.map Entity.ordered
    stores := ir.stores.map Store.ordered
    commands := ir.commands.map Command.ordered
    policies := ir.policies.map Policy.ordered }

def compiledAt (ir : Ir) (time : String) : Ir := { ir with provenance := { ir.provenance with compiledAt := time } }

-- The program with neither its hash nor the time of its compilation.
def unsealed (ir : Ir) : Ir := { ir with provenance := { ir.provenance with irHash := "", compiledAt := "" } }

-- The document whose text is hashed.
def hashed (ir : Ir) : Json :=
  (ir.jsonWith (.object [("contentHash", .string ir.provenance.contentHash),
    ("compilerVersion", .string ir.provenance.compilerVersion),
    ("schemaVersion", .string ir.provenance.schemaVersion)])).canonical

theorem computedHash_eq (ir : Ir) : ir.computedHash = Sha256.hex ir.hashed.text := rfl

theorem plain_hashed (ir : Ir) : ir.hashed.Plain := by
  have provenance : Plain (.object [("contentHash", .string ir.provenance.contentHash),
      ("compilerVersion", .string ir.provenance.compilerVersion),
      ("schemaVersion", .string ir.provenance.schemaVersion)]) := .object (by simp [Plain.string])
  exact Plain.canonical (.object (by
    simp [Plain.string, provenance, plain_list plain_module, plain_list Entity.plain, plain_list Store.plain,
      plain_list plain_event, plain_list Command.plain, plain_list Policy.plain]))

-- The hashed document tells the program.
theorem hashed_eq_iff {a b : Ir} (proper : a.isProper = true) (proper' : b.isProper = true) :
    a.hashed = b.hashed ↔ a.unsealed.ordered = b.unsealed.ordered := by
  simp only [isProper, Bool.and_eq_true] at proper proper'
  obtain ⟨⟨⟨properEntities, properStores⟩, properCommands⟩, properPolicies⟩ := proper
  obtain ⟨⟨⟨properEntities', properStores'⟩, properCommands'⟩, properPolicies'⟩ := proper'
  have entities := Entity.faithful.list.iff properEntities properEntities'
  have stores := Store.faithful.list.iff properStores properStores'
  have commands := Command.faithful.list.iff properCommands properCommands'
  have policies := Policy.faithful.list.iff properPolicies properPolicies'
  have provenances : canonical (.object [("contentHash", .string a.provenance.contentHash),
      ("compilerVersion", .string a.provenance.compilerVersion),
      ("schemaVersion", .string a.provenance.schemaVersion)]) =
      canonical (.object [("contentHash", .string b.provenance.contentHash),
      ("compilerVersion", .string b.provenance.compilerVersion),
      ("schemaVersion", .string b.provenance.schemaVersion)]) ↔
      a.provenance.contentHash = b.provenance.contentHash ∧
      a.provenance.compilerVersion = b.provenance.compilerVersion ∧
      a.provenance.schemaVersion = b.provenance.schemaVersion := by
    rw [canonical_fields_iff]
    · simp
    · simp [Fields.Distinct, Fields.keys]
    · rfl
  unfold hashed jsonWith
  rw [canonical_fields_iff]
  · simp [unsealed, ordered, list_iff tells_module, list_iff tells_event, entities, stores, commands, policies,
      provenances, and_assoc]
  · simp [Fields.Distinct, Fields.keys]
  · rfl

theorem computedHash_eq_iff {a b : Ir} (proper : a.isProper = true) (proper' : b.isProper = true)
    (numbers : a.hashed.NumbersApart b.hashed)
    (collisionFree : Sha256.hex a.hashed.text = Sha256.hex b.hashed.text → a.hashed.text = b.hashed.text) :
    a.computedHash = b.computedHash ↔ a.unsealed.ordered = b.unsealed.ordered := by
  rw [← hashed_eq_iff proper proper', computedHash_eq, computedHash_eq]
  constructor
  · intro same
    exact text_inj (plain_hashed a) (plain_hashed b) numbers (collisionFree same)
  · intro same
    rw [same]

-- With one hash recorded in both, what is left to differ is the time of compilation.
theorem unsealed_ordered_iff {a b : Ir} (recorded : b.provenance.irHash = a.provenance.irHash) :
    a.unsealed.ordered = b.unsealed.ordered ↔ b.ordered = (a.compiledAt b.provenance.compiledAt).ordered := by
  obtain ⟨_, ⟨_, _, _, _, _⟩, _, _, _, _, _, _⟩ := a
  obtain ⟨_, ⟨_, _, _, _, _⟩, _, _, _, _, _, _⟩ := b
  cases recorded
  simp only [unsealed, ordered, compiledAt, Ir.mk.injEq, Provenance.mk.injEq, and_true, true_and]
  exact ⟨fun ⟨h, h', h''⟩ => by simp_all, fun ⟨h, h', h''⟩ => by simp_all⟩

end Ir

-- What is compiled is the lowered program with its own hash.
theorem compile_lowered {options : CompileOptions} {time source : String} {ir : Ir}
    (compiled : (compile options time source).ir = some ir) : ∃ provenance,
      ir = ((Source.Document.ofSource options.anomalies options.maxNesting source).program.lower provenance).sealed := by
  unfold compile at compiled
  dsimp only at compiled
  split at compiled
  · cases compiled
  · split at compiled
    · cases compiled
    · cases compiled
      exact ⟨_, rfl⟩

theorem compile_seals {options : CompileOptions} {time source : String} {ir : Ir}
    (compiled : (compile options time source).ir = some ir) : ir.provenance.irHash = ir.computedHash := by
  obtain ⟨_, rfl⟩ := compile_lowered compiled
  rfl

-- What was compiled, as if it had been compiled at another time.
def Compiled.compiledAt (compiled : Compiled) (time : String) : Compiled :=
  { compiled with ir := compiled.ir.map (·.compiledAt time) }

-- The time of compilation is recorded and nothing else: the hash leaves it out.
theorem compile_compiledAt (options : CompileOptions) (time later source : String) :
    (compile options time source).compiledAt later = compile options later source := by
  unfold compile
  dsimp only
  split
  · rfl
  · split <;> rfl

-- The hashes of two programs are the same exactly if the programs are, up to the recorded hash, the time of
-- compilation and the order of keys in maps. So a program that records the hash of a compiled one passes the
-- check exactly if it is the compiled one at another time. Numbers are equal here if their bits are, and maps
-- are lists whose keys are distinct.
theorem hash_identifies_program {a b : Ir} (proper : a.isProper = true) (proper' : b.isProper = true)
    (numbers : a.hashed.NumbersApart b.hashed)
    (collisionFree : Sha256.hex a.hashed.text = Sha256.hex b.hashed.text → a.hashed.text = b.hashed.text) :
    (a.computedHash = b.computedHash ↔ a.unsealed.ordered = b.unsealed.ordered) ∧
    ∀ options time source, (compile options time source).ir = some a →
      b.provenance.irHash = a.provenance.irHash →
      (b.verified = true ↔ b.ordered = (a.compiledAt b.provenance.compiledAt).ordered) := by
  have identified := Ir.computedHash_eq_iff proper proper' numbers collisionFree
  refine ⟨identified, fun options time source compiled recorded => ?_⟩
  rw [← Ir.unsealed_ordered_iff recorded, ← identified, ← compile_seals compiled, ← recorded]
  exact beq_iff_eq.trans eq_comm

-- A compiled program is itself at another time, so it passes the check there.
theorem later_copy_verified :
    let source := "entity Task \x7b\n property points: number = 3\n store memory \x7b retries: 2 \x7d\n\x7d\n"
    let copy (ir : Ir) : Ir := ir.compiledAt "evening"
    ∃ a, (compile {} "morning" source).ir = some a ∧ a.isProper = true ∧ (copy a).isProper = true ∧
      a.hashed.NumbersApart (copy a).hashed ∧
      (Sha256.hex a.hashed.text = Sha256.hex (copy a).hashed.text → a.hashed.text = (copy a).hashed.text) ∧
      (copy a).provenance.irHash = a.provenance.irHash ∧ (copy a).verified = true := by
  intro source copy
  have checks : ((compile {} "morning" source).ir.any fun a =>
      a.isProper && decide (a.hashed.NumbersApart (copy a).hashed)) = true := by decide +kernel
  obtain ⟨a, compiled, checks⟩ := (Option.any_eq_true ..).mp checks
  obtain ⟨proper, numbers⟩ := Bool.and_eq_true_iff.mp checks
  have apart : a.hashed.NumbersApart (copy a).hashed := of_decide_eq_true numbers
  have identified := (hash_identifies_program proper proper apart fun _ => rfl).2 {} "morning" source compiled rfl
  exact ⟨a, compiled, proper, proper, apart, fun _ => rfl, rfl, identified.mpr rfl⟩

end Charter

import Charter.Proofs.FiniteProgram
import Charter.Proofs.ReadProgram

/-!
The exchange of programs as documents. A program comes back as it was, with the hash that it had, so what was compiled
passes the check wherever its document goes.
-/

namespace Charter
open Json

namespace Ir
variable {ir back : Ir}

-- A document of the program: its own, with the keys of each object in some order.
def WrittenAs (ir : Ir) (document : Json) : Prop := document.Keyed ∧ document.canonical = ir.json.canonical

theorem writtenAs_json (proper : ir.isProper = true) : ir.WrittenAs ir.json := ⟨keyed ir proper, rfl⟩

theorem writtenAs_canonical (ir : Ir) : ir.WrittenAs ir.json.canonical :=
  ⟨keyed_canonical ir.json, canonical_canonical ir.json⟩

theorem computedHash_of_ordered (proper : ir.isProper = true) (proper' : back.isProper = true)
    (same : back.ordered = ir.ordered) : back.computedHash = ir.computedHash := by
  have unsealed : back.unsealed.ordered = ir.unsealed.ordered := congrArg Ir.unsealed same
  rw [computedHash_eq, computedHash_eq, (hashed_eq_iff proper' proper).mpr unsealed]

theorem computedHash_compiledAt (ir : Ir) (time : String) : (ir.compiledAt time).computedHash = ir.computedHash := by
  rw [computedHash_eq, computedHash_eq]
  rfl

-- What comes back is the program, and so is its hash.
theorem exchanged (proper : ir.isProper = true) {document : Json} (written : ir.WrittenAs document) :
    ∃ back, ofJson? document = some back ∧ back.ordered = ir.ordered ∧ back.computedHash = ir.computedHash := by
  obtain ⟨back, read, proper', same⟩ := reads ir proper document written.1 written.2
  exact ⟨back, read, same, computedHash_of_ordered proper proper' same⟩

theorem verified_compiledAt (recorded : ir.provenance.irHash = ir.computedHash) (time : String) :
    (ir.compiledAt time).verified = true := by
  rw [verified, computedHash_compiledAt, ← recorded]
  exact beq_self_eq_true _

end Ir

-- A program with finite numbers is read back from its document as it is, maps as maps, in whatever order keys
-- stand there, and its hash is the same. So a compiled program with finite numbers passes the check at any later
-- time of compilation, and again when it comes back from a document. A program here is proper: its numbers are
-- finite, and no key stands twice in a map; what is compiled has the latter always.
theorem exchange_keeps_program :
    (∀ ir : Ir, ir.isProper = true →
      ir.WrittenAs ir.json ∧ ir.WrittenAs ir.json.canonical ∧
      ∀ document, ir.WrittenAs document → ∃ back, Ir.ofJson? document = some back ∧
        back.ordered = ir.ordered ∧ back.computedHash = ir.computedHash) ∧
    ∀ options time source ir, (compile options time source).ir = some ir → ir.isFinite = true →
      ir.isProper = true ∧ ∀ later, (ir.compiledAt later).verified = true ∧
        ∀ document, (ir.compiledAt later).WrittenAs document → ∃ back, Ir.ofJson? document = some back ∧
          ∀ latest, (back.compiledAt latest).verified = true := by
  refine ⟨fun ir proper => ⟨Ir.writtenAs_json proper, ir.writtenAs_canonical, fun _ => Ir.exchanged proper⟩, ?_⟩
  intro options time source ir compiled finite
  have proper := compile_proper compiled finite
  have recorded := compile_seals compiled
  refine ⟨proper, fun later => ⟨Ir.verified_compiledAt recorded later, fun document written => ?_⟩⟩
  have proper' : (ir.compiledAt later).isProper = true := proper
  obtain ⟨back, read, same, hash⟩ := Ir.exchanged proper' written
  refine ⟨back, read, fun latest => Ir.verified_compiledAt ?_ latest⟩
  have provenances := congrArg (fun program : Ir => program.provenance.irHash) same
  rw [hash, Ir.computedHash_compiledAt, ← recorded]
  exact provenances

-- A program with a map whose keys are not in order comes back from the document that has them in order.
theorem store_exchanged :
    let source := "entity Task \x7b\n property points: number = 3\n store memory \x7b retries: 2, delay: 1 \x7d\n\x7d\n"
    ∃ ir, (compile {} "morning" source).ir = some ir ∧ ir.isFinite = true ∧
      ir.stores.map (·.config.keys) = [["retries", "delay"]] ∧
      (∃ back, Ir.ofJson? ir.json.canonical = some back ∧ back.ordered = ir.ordered) ∧
      (ir.compiledAt "noon").verified = true ∧
      ∃ back, Ir.ofJson? (ir.compiledAt "noon").json.canonical = some back ∧
        (back.compiledAt "evening").verified = true := by
  intro source
  have checks : ((compile {} "morning" source).ir.any fun ir =>
      ir.isFinite && ir.stores.map (·.config.keys) == [["retries", "delay"]]) = true := by decide +kernel
  obtain ⟨ir, compiled, checks⟩ := (Option.any_eq_true ..).mp checks
  obtain ⟨finite, keys⟩ := Bool.and_eq_true_iff.mp checks
  obtain ⟨proper, later⟩ := exchange_keeps_program.2 {} "morning" source ir compiled finite
  obtain ⟨_, written, exchanged⟩ := exchange_keeps_program.1 ir proper
  obtain ⟨back, read, same, _⟩ := exchanged _ written
  obtain ⟨verified, exchangedLater⟩ := later "noon"
  obtain ⟨back', read', verified'⟩ := exchangedLater _ (Ir.writtenAs_canonical (ir.compiledAt "noon"))
  exact ⟨ir, compiled, finite, beq_iff_eq.mp keys, ⟨back, read, same⟩, verified, back', read', verified' "evening"⟩

end Charter

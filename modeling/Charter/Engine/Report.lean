import Charter.Engine.Command
import Charter.Ir.Export

/-!
The JSON documents of what an engine answers. What an answer does not have is left out.
-/

namespace Charter
open Ir (record listJson namesJson unlessEmpty)

def ResolvedValue.json (value : ResolvedValue) : Json := .object [
  ("expression", .string value.expression), ("value", value.value)]

def ConstraintOutcome.json (outcome : ConstraintOutcome) : Json := record [
  ("code", some (.string outcome.code)),
  ("constraintName", some (.string outcome.constraintName)),
  ("severity", some (.string outcome.severity.word)),
  ("passed", some (.boolean outcome.passed)),
  ("expression", some (.string outcome.expression)),
  ("message", outcome.message.map .string),
  ("details", unlessEmpty .object outcome.details),
  ("resolved", some (listJson ResolvedValue.json outcome.resolved)),
  ("overridden", some (.boolean outcome.overridden))]

def WriteRejection.json : WriteRejection → Json
  | notFound id => .object [("kind", .string "notFound"), ("id", .string id)]
  | constraintViolation => .object [("kind", .string "constraintViolation")]
  | invalidTransition property previous next allowed => .object [
    ("kind", .string "invalidTransition"), ("property", .string property), ("from", previous),
    ("to", next), ("allowed", .array allowed)]
  | versionConflict expected actual => .object [
    ("kind", .string "versionConflict"), ("expected", expected), ("actual", actual)]

def WriteOutcome.json (outcome : WriteOutcome) : Json :=
  let (success, stored, refusal) := match outcome with
    | written stored _ => (true, some stored, none)
    | rejected rejection _ => (false, none, some rejection)
  record [
    ("success", some (.boolean success)), ("instance", stored.map .object),
    ("violations", some (listJson ConstraintOutcome.json outcome.violations)),
    ("rejection", refusal.map WriteRejection.json)]

def PolicyDenial.json (denial : PolicyDenial) : Json := .object [
  ("policyName", .string denial.policyName), ("expression", .string denial.expression),
  ("message", .string denial.message), ("contextKeys", namesJson denial.contextKeys),
  ("resolved", listJson ResolvedValue.json denial.resolved)]

def GuardFailure.json (failure : GuardFailure) : Json := .object [
  ("index", .integer failure.index), ("expression", .string failure.expression),
  ("resolved", listJson ResolvedValue.json failure.resolved)]

def EventProvenance.json (provenance : EventProvenance) : Json := .object [
  ("contentHash", .string provenance.contentHash), ("irHash", .string provenance.irHash),
  ("compilerVersion", .string provenance.compilerVersion)]

def Event.json (event : Event) : Json := record [
  ("name", some (.string event.name)), ("channel", some (.string event.channel)),
  ("payload", some event.payload), ("timestamp", some (.integer event.timestamp)),
  ("provenance", event.provenance.map EventProvenance.json)]

def CommandOutcome.json (outcome : CommandOutcome) : Json :=
  let result := match outcome with
    | succeeded result _ _ => some result
    | _ => none
  let denial := match outcome with
    | denied denial => some denial
    | _ => none
  let failure := match outcome with
    | guarded failure => some failure
    | _ => none
  record [
    ("success", some (.boolean outcome.isSuccess)),
    ("result", result),
    ("error", outcome.error?.map .string),
    ("deniedBy", denial.map fun denial => .string denial.policyName),
    ("guardFailure", failure.map GuardFailure.json),
    ("policyDenial", denial.map PolicyDenial.json),
    ("constraintOutcomes", unlessEmpty (listJson ConstraintOutcome.json) outcome.constraints),
    ("emittedEvents", some (listJson Event.json outcome.events))]

end Charter

import Charter.Compile.Lowering

/-!
Cycles among computed properties. The graph has the computed names of an entity as nodes and an edge
from each to the computed names that it reads; of a repeated name the last declaration counts.
-/

namespace Charter.Compile

-- Looks from a list of neighbours for a way to `start`, depth first and without visiting a name twice: the
-- way found, if any, and the names still unvisited.
def wayTo (edges : String → List String) (start : String) (neighbours unvisited : List String) :
    Option (List String) × { left : List String // left.length ≤ unvisited.length } :=
  match neighbours with
  | [] => (none, ⟨unvisited, Nat.le_refl _⟩)
  | next :: others =>
    if next = start then (some [next], ⟨unvisited, Nat.le_refl _⟩)
    else if fresh : next ∈ unvisited then
      have shorter : (unvisited.erase next).length < unvisited.length := by
        have := List.length_pos_of_mem fresh
        rw [List.length_erase_of_mem fresh]
        omega
      match wayTo edges start (edges next) (unvisited.erase next) with
      | (some way, left) => (some (next :: way), ⟨left.1, by have := left.2; omega⟩)
      | (none, left) =>
        let (way, rest) := wayTo edges start others left.1
        (way, ⟨rest.1, by have := left.2; have := rest.2; omega⟩)
    else wayTo edges start others unvisited
termination_by (unvisited.length, neighbours.length)
decreasing_by
  · exact Prod.Lex.left _ _ shorter
  · exact Prod.Lex.left _ _ (by have := left.2; omega)
  · exact Prod.Lex.right _ (by simp)

-- A way from `start` back to itself, both ends included.
def cycleThrough? (edges : String → List String) (names : List String) (start : String) :
    Option (List String) :=
  (wayTo edges start (edges start) (names.eraseDups.erase start)).1.map (start :: ·)

def computedEdges (computed : List Ir.Computed) (name : String) : List String :=
  let names := computed.map (·.name)
  match computed.reverse.find? (·.name == name) with
  | some c => c.dependencies.filter names.contains
  | none => []

-- Whether two cycles go through the same names.
def sameNames (a b : List String) : Bool := a.all b.contains && b.all a.contains

-- A cycle through each computed property in turn, with the place of the property in the list; cycles
-- through the same names count once.
def computedCycles (computed : List Ir.Computed) : List (Nat × List String) :=
  let names := computed.map (·.name)
  computed.zipIdx.foldl (fun found (c, index) =>
    match cycleThrough? (computedEdges computed) names c.name with
    | none => found
    | some cycle => if found.any (sameNames cycle ·.2) then found else found ++ [(index, cycle)]) []

end Charter.Compile

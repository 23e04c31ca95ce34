import Charter.Proofs.Printing
import Mathlib.Order.Monotone.Basic

/-!
How high the tree of an expression is. Two things make it high: levels of nesting, and rows of links that go on
at one level, such as sums and paths. The height is bounded by the levels where rows are short, and by nothing
else: a row grows with its text, whatever the levels are.
-/

namespace Charter.Source.Expression

def height : Expression → Nat
  | .literal _ | .identifier _ => 1
  | .member target _ => height target + 1
  | .index target key => max (height target) (height key) + 1
  | .binary _ left right => max (height left) (height right) + 1
  | .unary _ operand => height operand + 1
  | .call callee arguments => max (height callee) (items arguments) + 1
  | .conditional condition consequent alternate =>
    max (height condition) (max (height consequent) (height alternate)) + 1
  | .array elements => items elements + 1
  | .object entries => pairs entries + 1
  | .lambda _ body => height body + 1
where
  items : List Expression → Nat
    | [] => 0
    | item :: rest => max (height item) (items rest)
  pairs : List (String × Expression) → Nat
    | [] => 0
    | (_, value) :: rest => max (height value) (pairs rest)

-- The loosest row of the table in which an expression stands as it is. A lambda does so anywhere, and what
-- follows it belongs to its body.
def seat : Expression → Nat
  | .lambda .. => 9
  | e => e.tightness

-- The levels of an expression where the table asks for a row: parentheses take one more.
def raised (row : Nat) (e : Expression) (levels : Nat) : Nat := if e.seat < row then levels + 1 else levels

-- How many levels an expression goes down at least, however it is written: behind a unary operator, and in
-- parentheses, brackets, branches, elements and bodies.
def nesting : Expression → Nat
  | .literal _ | .identifier _ => 0
  | .member target _ => raised 8 target (nesting target)
  | .index target key => max (raised 8 target (nesting target)) (nesting key + 1)
  | .binary operator left right =>
    max (raised operator.row left (nesting left)) (raised (operator.row + 1) right (nesting right))
  | .unary _ operand => raised 7 operand (nesting operand) + 1
  | .call callee arguments => max (raised 8 callee (nesting callee)) (items arguments)
  | .conditional condition consequent alternate =>
    max (raised 1 condition (nesting condition)) (max (nesting consequent + 1) (nesting alternate + 1))
  | .array elements => items elements
  | .object entries => pairs entries
  | .lambda _ body => nesting body + 1
where
  items : List Expression → Nat
    | [] => 0
    | item :: rest => max (nesting item + 1) (items rest)
  pairs : List (String × Expression) → Nat
    | [] => 0
    | (_, value) :: rest => max (nesting value + 1) (pairs rest)

-- How many links of a row an expression ends with: operators of one level that are grouped to the left, or
-- members, indexes and calls behind each other.
def links (row : Nat) : Expression → Nat
  | .binary operator left _ => if operator.row = row then links row left + 1 else 0
  | .member target _ | .index target _ | .call target _ => if row = 8 then links row target + 1 else 0
  | _ => 0

-- The number of links in the longest row anywhere in an expression.
def longestChain : Expression → Nat
  | .literal _ | .identifier _ => 0
  | e@(.member target _) => max (links 8 e) (longestChain target)
  | e@(.index target key) => max (links 8 e) (max (longestChain target) (longestChain key))
  | e@(.binary operator left right) => max (links operator.row e) (max (longestChain left) (longestChain right))
  | .unary _ operand => longestChain operand
  | e@(.call callee arguments) => max (links 8 e) (max (longestChain callee) (items arguments))
  | .conditional condition consequent alternate =>
    max (longestChain condition) (max (longestChain consequent) (longestChain alternate))
  | .array elements => items elements
  | .object entries => pairs entries
  | .lambda _ body => longestChain body
where
  items : List Expression → Nat
    | [] => 0
    | item :: rest => max (longestChain item) (items rest)
  pairs : List (String × Expression) → Nat
    | [] => 0
    | (_, value) :: rest => max (longestChain value) (pairs rest)

-- What an expression may be high at its last level, if it stands in a row and no row has more than `chain` links.
def slack (chain row : Nat) : Nat :=
  if row = 0 then 7 * chain + 2 else if row = 8 then chain + 1 else (8 - row) * chain + 1

-- The same for one expression, by the links that it has.
def room (chain : Nat) : Expression → Nat
  | .conditional .. => slack chain 0
  | .unary .. => slack chain 7
  | e@(.binary operator ..) => slack chain (operator.row + 1) + e.links operator.row
  | e@(.member ..) | e@(.index ..) | e@(.call ..) => slack chain 9 + e.links 8
  | _ => slack chain 9

section Rows
variable {chain row levels : Nat} {e : Expression}

theorem slack_antitone : Antitone (slack chain) := by
  refine antitone_nat_of_succ_le fun row => ?_
  unfold slack
  have less : (8 - (row + 1)) * chain ≤ (8 - row) * chain := Nat.mul_le_mul_right _ (by omega)
  by_cases last : row = 7
  · subst last; simp
  · by_cases loosest : row = 0
    · subst loosest; simp
    · grind

theorem slack_last : slack chain 9 = 1 := by simp [slack]

-- Rows of operators and of accesses.
def IsChain (row : Nat) : Prop := 1 ≤ row ∧ row ≤ 6 ∨ row = 8

theorem isChain_binary (operator : BinaryOperator) : IsChain operator.row := by
  cases operator <;> exact .inl (by decide)

-- A row of links is as much higher as it has links.
theorem slack_link (linked : IsChain row) : slack chain row = slack chain (row + 1) + chain := by
  rcases linked with ⟨low, high⟩ | rfl
  · have split : 8 - row = (8 - (row + 1)) + 1 := by omega
    simp only [slack, split, Nat.succ_mul]
    grind
  · simp [slack, Nat.add_comm]

theorem links_le_longestChain (e : Expression) (row : Nat) : e.links row ≤ e.longestChain := by
  cases e with
  | binary operator left right =>
      by_cases same : operator.row = row
      · subst same; exact le_max_left _ _
      · simp [links, same]
  | member | index | call =>
      by_cases same : row = 8
      · subst same; exact le_max_left _ _
      · simp [links, same]
  | _ => exact Nat.zero_le _

theorem room_le (short : e.longestChain ≤ chain) : e.room chain ≤ slack chain e.seat := by
  have few := fun row => (links_le_longestChain e row).trans short
  cases e with
  | binary operator left right =>
      refine le_of_le_of_eq ?_ (slack_link (isChain_binary operator)).symm
      exact Nat.add_le_add_left (few _) _
  | member | index | call => exact le_of_le_of_eq (Nat.add_le_add_left (few 8) _) (slack_link (.inr rfl)).symm
  | _ => exact le_rfl

-- An expression is not too high for what it needs itself.
def Fits (chain : Nat) (e : Expression) : Prop :=
  e.height ≤ (7 * chain + 2) * e.nesting + e.room chain

-- One level more is room for any row.
theorem Fits.deeper (fits : e.Fits chain) (short : e.longestChain ≤ chain) (deep : e.nesting + 1 ≤ levels) :
    e.height ≤ (7 * chain + 2) * levels := by
  have whole : e.room chain ≤ 7 * chain + 2 := (room_le short).trans (slack_antitone (Nat.zero_le _))
  have more := Nat.mul_le_mul_left (7 * chain + 2) deep
  unfold Fits at fits
  rw [Nat.mul_succ] at more
  omega

theorem Fits.raised (fits : e.Fits chain) (short : e.longestChain ≤ chain)
    (within : raised row e e.nesting ≤ levels) : e.height ≤ (7 * chain + 2) * levels + slack chain row := by
  unfold Expression.raised at within
  split at within
  · exact (fits.deeper short within).trans (Nat.le_add_right _ _)
  · next tight =>
    have room := room_le short
    have more := Nat.mul_le_mul_left (7 * chain + 2) within
    have less := @slack_antitone chain _ _ (Nat.le_of_not_lt tight)
    unfold Fits at fits
    omega

theorem room_eq (linked : IsChain e.seat) : e.room chain = slack chain (e.seat + 1) + e.links e.seat := by
  cases e with
  | binary | member | index | call => rfl
  | _ => simp [IsChain, seat, tightness] at linked

-- What a row goes on from is as high as an operand of it, and its links.
theorem Fits.linked (fits : e.Fits chain) (short : e.longestChain ≤ chain) (linked : IsChain row)
    (within : Expression.raised row e e.nesting ≤ levels) :
    e.height ≤ (7 * chain + 2) * levels + (slack chain (row + 1) + e.links row) := by
  rcases Nat.lt_trichotomy e.seat row with looser | same | tighter
  · rw [Expression.raised, if_pos looser] at within
    exact (fits.deeper short within).trans (Nat.le_add_right _ _)
  · subst same
    rw [Expression.raised, if_neg (Nat.lt_irrefl _)] at within
    have more := Nat.mul_le_mul_left (7 * chain + 2) within
    unfold Fits at fits
    rw [room_eq linked] at fits
    omega
  · have tight : Expression.raised (row + 1) e e.nesting ≤ levels := by
      rwa [Expression.raised, if_neg (by omega)] at within ⊢
    have high := fits.raised short tight
    omega

end Rows

/-! By induction on the tree. -/

section Trees
variable {chain : Nat}

mutual

theorem fits : (e : Expression) → e.longestChain ≤ chain → e.Fits chain
  | .literal _, _ | .identifier _, _ => by simp [Fits, height, room, slack]
  | .member target name, short => by
      obtain ⟨_, within⟩ := Nat.max_le.mp short
      have first : target.height ≤ (7 * chain + 2) * nesting (.member target name) +
          (slack chain 9 + target.links 8) := (fits target within).linked within (.inr rfl) le_rfl
      simp only [Fits, height, room, links, if_true]
      omega
  | .index target key, short => by
      obtain ⟨_, within, inner⟩ := by simpa only [longestChain, Nat.max_le] using short
      have first : target.height ≤ (7 * chain + 2) * nesting (.index target key) +
          (slack chain 9 + target.links 8) := (fits target within).linked within (.inr rfl) (le_max_left _ _)
      have second : key.height ≤ (7 * chain + 2) * nesting (.index target key) :=
        (fits key inner).deeper inner (le_max_right _ _)
      simp only [Fits, height, room, links, if_true]
      omega
  | .binary operator left right, short => by
      obtain ⟨_, within, inner⟩ := by simpa only [longestChain, Nat.max_le] using short
      have first : left.height ≤ (7 * chain + 2) * nesting (.binary operator left right) +
          (slack chain (operator.row + 1) + left.links operator.row) :=
        (fits left within).linked within (isChain_binary operator) (le_max_left _ _)
      have second : right.height ≤ (7 * chain + 2) * nesting (.binary operator left right) +
          slack chain (operator.row + 1) := (fits right inner).raised inner (le_max_right _ _)
      simp only [Fits, height, room, links, if_true]
      omega
  | .unary _ operand, short => by
      have behind := @Fits.raised _ 7 _ _ (fits operand short) short le_rfl
      simp only [Fits, height, nesting, room, Nat.mul_succ]
      omega
  | .call callee arguments, short => by
      obtain ⟨_, within, inner⟩ := by simpa only [longestChain, Nat.max_le] using short
      have first : callee.height ≤ (7 * chain + 2) * nesting (.call callee arguments) +
          (slack chain 9 + callee.links 8) := (fits callee within).linked within (.inr rfl) (le_max_left _ _)
      have each : height.items arguments ≤ (7 * chain + 2) * nesting (.call callee arguments) :=
        (fits_items arguments inner).trans (Nat.mul_le_mul_left _ (le_max_right _ _))
      simp only [Fits, height, room, links, if_true]
      omega
  | .conditional condition consequent alternate, short => by
      obtain ⟨asked, yes, no⟩ := by simpa only [longestChain, Nat.max_le] using short
      let levels := nesting (.conditional condition consequent alternate)
      have first : condition.height ≤ (7 * chain + 2) * levels + slack chain 1 :=
        (fits condition asked).raised asked (le_max_left _ _)
      have second : consequent.height ≤ (7 * chain + 2) * levels :=
        (fits consequent yes).deeper yes ((le_max_left _ _).trans (le_max_right _ _))
      have third : alternate.height ≤ (7 * chain + 2) * levels :=
        (fits alternate no).deeper no ((le_max_right _ _).trans (le_max_right _ _))
      have loosest : slack chain 0 = slack chain 1 + 1 := rfl
      change max _ (max _ _) + 1 ≤ (7 * chain + 2) * levels + slack chain 0
      omega
  | .array elements, short => by
      have each := fits_items elements short
      simp only [Fits, height, nesting, room, slack_last]
      omega
  | .object entries, short => by
      have each := fits_pairs entries short
      simp only [Fits, height, nesting, room, slack_last]
      omega
  | .lambda _ body, short => by
      have inside := (fits body short).deeper short le_rfl
      simp only [Fits, height, nesting, room, slack_last]
      omega

theorem fits_items : (elements : List Expression) → longestChain.items elements ≤ chain →
    height.items elements ≤ (7 * chain + 2) * nesting.items elements
  | [], _ => Nat.zero_le _
  | element :: rest, short => by
      obtain ⟨first, others⟩ := Nat.max_le.mp short
      exact Nat.max_le.mpr ⟨(fits element first).deeper first (le_max_left _ _),
        (fits_items rest others).trans (Nat.mul_le_mul_left _ (le_max_right _ _))⟩

theorem fits_pairs : (entries : List (String × Expression)) → longestChain.pairs entries ≤ chain →
    height.pairs entries ≤ (7 * chain + 2) * nesting.pairs entries
  | [], _ => Nat.zero_le _
  | (_, value) :: rest, short => by
      obtain ⟨first, others⟩ := Nat.max_le.mp short
      exact Nat.max_le.mpr ⟨(fits value first).deeper first (le_max_left _ _),
        (fits_pairs rest others).trans (Nat.mul_le_mul_left _ (le_max_right _ _))⟩

end

end Trees

-- Levels and rows bound the height.
theorem height_le (e : Expression) : e.height ≤ (7 * e.longestChain + 2) * (e.nesting + 1) :=
  (fits e le_rfl).deeper le_rfl le_rfl

end Charter.Source.Expression

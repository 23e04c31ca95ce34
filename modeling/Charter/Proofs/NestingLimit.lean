import Charter.Proofs.Contents
import Charter.Proofs.Height

/-!
What the nesting limit bounds: every expression of a program goes down no more levels than the limit. The
length of its rows is left to the text.
-/

namespace Charter.Source
open Charter.Source.Parser Charter.Source.Expression

namespace Expression

-- An expression stands in a row of the table with so many levels.
def Stands (row levels : Nat) (e : Expression) : Prop := e.raised row e.nesting ≤ levels

variable {row looser levels : Nat} {e : Expression}

theorem Stands.loosen (stands : e.Stands row levels) (down : looser ≤ row) : e.Stands looser levels := by
  unfold Stands raised at stands ⊢
  split <;> split at stands <;> omega

theorem stands_of_seat (stood : row ≤ e.seat) (fewer : e.nesting ≤ levels) : e.Stands row levels := by
  rwa [Stands, raised, if_neg (Nat.not_lt.mpr stood)]

-- In parentheses it stands anywhere.
theorem stands_of_deeper (deep : e.nesting + 1 ≤ levels) : e.Stands row levels := by
  unfold Stands raised
  split <;> omega

theorem nesting_items {elements : List Expression} (each : ∀ element ∈ elements, element.nesting + 1 ≤ levels) :
    nesting.items elements ≤ levels := by
  induction elements with
  | nil => exact Nat.zero_le _
  | cons element rest ih =>
      obtain ⟨first, others⟩ := List.forall_mem_cons.mp each
      exact Nat.max_le.mpr ⟨first, ih others⟩

theorem nesting_pairs {entries : List (String × Expression)} :
    nesting.pairs entries ≤ levels ↔ ∀ entry ∈ entries, entry.2.nesting + 1 ≤ levels := by
  induction entries with
  | nil => simp [nesting.pairs]
  | cons entry rest ih => rw [nesting.pairs, Nat.max_le, ih, List.forall_mem_cons]

end Expression

namespace Grammar
variable {known : Token → Prop} {expression operand plain : Parser Expression} {levels : Nat}

theorem binaryOperator?_level (level : Nat) :
    Gives known (binaryOperator? level) fun found => ∀ operator, found = some operator → operator.level = level := by
  have nothing : ∀ operator, (none : Option BinaryOperator) = some operator → operator.level = level := by
    intro operator found
    cases found
  refine .after fun token => ?_
  split
  · split
    · next same =>
      refine .after fun _ => .pure fun _ found => ?_
      cases found
      exact beq_iff_eq.mp same
    · exact .pure nothing
  · exact .pure nothing

theorem chainTurn_stands [Shrinks operand] (level : Nat) (each : Gives known operand (Stands (level + 2) levels))
    {left : Expression} (first : left.Stands (level + 1) levels) :
    Gives known (chainTurn level operand left) (Turn.Each (Stands (level + 1) levels) (Stands (level + 1) levels)) := by
  refine (binaryOperator?_level level).bind fun found same => ?_
  cases found with
  | none => exact .pure first
  | some operator =>
      refine .after fun _ => each.bind fun right second => .pure ?_
      have row : operator.row = level + 1 := operator.row_eq.trans (congrArg (· + 1) (same operator rfl))
      refine stands_of_seat (le_of_eq row.symm) (Nat.max_le.mpr ⟨?_, ?_⟩)
      · exact row ▸ first
      · exact row ▸ second

theorem chain_stands [Shrinks operand] (level : Nat) (each : Gives known operand (Stands (level + 2) levels)) :
    Gives known (chain level operand) (Stands (level + 1) levels) := by
  rw [chain_eq]
  exact each.bind fun first start =>
    .loop (fun left stands => chainTurn_stands level each stands) (start.loosen (Nat.le_succ _))

theorem binary_stands [Shrinks operand] (each : Gives known operand (Stands 7 levels)) :
    Gives known (binary operand) (Stands 1 levels) := by
  unfold binary
  repeat apply chain_stands
  exact each

theorem conditional_nesting [Shrinks expression] [Shrinks operand]
    (whole : Gives known expression (·.nesting + 1 ≤ levels)) (each : Gives known operand (Stands 7 levels)) :
    Gives known (conditional expression operand) (·.nesting ≤ levels) := by
  refine (binary_stands each).bind fun condition asked => .after fun choice => .ite ?_ (.pure ?_)
  · refine .after fun _ => whole.bind fun consequent yes => .after fun _ => .after fun _ => .after fun _ => ?_
    exact whole.bind fun alternate no => .pure (Nat.max_le.mpr ⟨asked, Nat.max_le.mpr ⟨yes, no⟩⟩)
  · exact asked.loosen (Nat.zero_le 1)

theorem signed_stands [Shrinks operand] {levels : Nat}
    (behind : Gives known operand fun e => e.raised 7 e.nesting + 1 ≤ levels)
    (other : Gives known plain (Stands 8 levels)) : Gives known (signed operand plain) (Stands 7 levels) := by
  refine .after fun token => ?_
  split
  · exact .after fun _ => behind.bind fun inner within => .pure (stands_of_seat le_rfl within)
  · exact other.imp fun e stands => stands.loosen (Nat.le_succ 7)

theorem lambda_stands [Shrinks expression] (params : List String)
    (each : Gives known expression (·.nesting + 1 ≤ levels)) :
    Gives known (lambda expression params) (Stands 9 levels) :=
  .after fun _ => each.bind fun _ inside => .pure (stands_of_seat le_rfl inside)

theorem parenthesized_stands [Shrinks expression] (each : Gives known expression (·.nesting + 1 ≤ levels)) :
    Gives known (parenthesized expression) (Stands 9 levels) := by
  refine .after fun found => ?_
  cases found with
  | some params => exact lambda_stands params each
  | none =>
      refine .after fun _ => .after fun _ => each.bind fun inner deep => ?_
      exact .after fun _ => .after fun _ => .pure (stands_of_deeper deep)

theorem keywordOperand_stands {word : String} {operand : Expression} (known : keywordOperand word = some operand) :
    operand.Stands 9 levels := by
  unfold keywordOperand at known
  split at known <;> cases known <;> exact stands_of_seat le_rfl (Nat.zero_le _)

theorem primary_stands [Shrinks expression] (each : Gives known expression (·.nesting + 1 ≤ levels)) :
    Gives known (primary expression) (Stands 9 levels) := by
  have leaf : ∀ e : Expression, e.seat = 9 → e.nesting = 0 → e.Stands 9 levels := fun e seat nesting =>
    stands_of_seat (le_of_eq seat.symm) (nesting ▸ Nat.zero_le _)
  refine .after fun token => ?_
  split
  · refine .after fun _ => ?_
    split
    · exact .pure (leaf _ rfl rfl)
    · exact .failAt _ _
  · exact .after fun _ => .pure (leaf _ rfl rfl)
  · split
    · next known => exact .after fun _ => .pure (keywordOperand_stands known)
    · exact .fail _
  · exact .after fun _ => .after fun arrow => .ite (lambda_stands _ each) (.pure (leaf _ rfl rfl))
  · split
    · exact parenthesized_stands each
    · refine .after fun _ => (gives_sequence "]" each).bind fun items deep => .pure ?_
      exact stands_of_seat le_rfl (nesting_items deep)
    · refine (gives_entries each).bind fun pairs deep => .pure ?_
      exact stands_of_seat le_rfl (nesting_pairs.mpr deep)
    · exact .fail _
  · exact .fail _

theorem indexed_stands {target key : Expression} (within : target.Stands 8 levels) (deep : key.nesting + 1 ≤ levels) :
    (indexed target key).Stands 8 levels := by
  by_cases known : key.IsKnownIndex
  · obtain ⟨property, same⟩ := indexed_known target known
    rw [same]
    exact stands_of_seat le_rfl within
  · rw [indexed_unknown known]
    exact stands_of_seat le_rfl (Nat.max_le.mpr ⟨within, deep⟩)

theorem accessTurn_stands [Shrinks expression] (each : Gives known expression (·.nesting + 1 ≤ levels))
    {target : Expression} (within : target.Stands 8 levels) :
    Gives known (accessTurn expression target) (Turn.Each (Stands 8 levels) (Stands 8 levels)) := by
  refine .after fun point => .ite (.after fun property => .pure (stands_of_seat le_rfl within)) ?_
  refine .after fun call => .ite ((gives_sequence ")" each).bind fun arguments deep => .pure ?_) ?_
  · exact stands_of_seat le_rfl (Nat.max_le.mpr ⟨within, nesting_items deep⟩)
  · refine .after fun bracket => .ite (.after fun _ => each.bind fun key deep => ?_) (.pure within)
    exact .after fun _ => .after fun _ => .pure (indexed_stands within deep)

theorem accesses_stands [Shrinks expression] (each : Gives known expression (·.nesting + 1 ≤ levels)) :
    Gives known (accesses expression) (Stands 8 levels) := by
  rw [accesses_eq]
  exact (primary_stands each).bind fun first start =>
    .loop (fun target within => accessTurn_stands each within) (start.loosen (Nat.le_succ 8))

-- What each production reads with a number of levels.
def Allows (levels : Nat) : Production → Expression → Prop
  | .expression, e => e.nesting + 1 ≤ levels
  | .operand, e => e.Stands 7 levels

theorem nested_allows (limit levels : Nat) (production : Production) :
    Gives known (nested limit levels production) (Allows levels production) := by
  induction levels generalizing production with
  | zero =>
      cases production with
      | expression => exact .fail _
      | operand => exact signed_stands (.fail _) (accesses_stands (.fail _))
  | succ levels ih =>
      have whole : Gives known (conditional (nested limit levels .expression) (nested limit levels .operand))
          (·.nesting + 1 ≤ levels + 1) :=
        (conditional_nesting (ih .expression) (ih .operand)).imp fun _ => Nat.succ_le_succ
      cases production with
      | expression => exact whole
      | operand => exact signed_stands ((ih .operand).imp fun _ => Nat.succ_le_succ) (accesses_stands whole)

theorem supplies_nesting (limit : Nat) : Supplies known limit (·.nesting ≤ limit) where
  whole := (nested_allows limit limit .expression).imp fun _ => Nat.le_of_succ_le
  first := (primary_stands (nested_allows limit limit .expression)).imp fun _ stands => stands.loosen (Nat.zero_le 9)
  literal := Gives.trivial.imp fun _ _ => Nat.zero_le _
  entries := fun _ deep entry present => Nat.le_of_succ_le (nesting_pairs.mp deep entry present)
  self := Nat.zero_le _
  empty := Nat.zero_le _

end Grammar

-- Every expression of a program nests within the limit, and so its height is bounded by the limit and by the
-- longest row of links in it.
theorem nesting_bounded (anomalies : AnomalyPolicy) (limit : Nat) (source : String) :
    ∀ e ∈ (Document.ofSource anomalies limit source).program.expressions,
      e.nesting ≤ limit ∧ e.height ≤ (7 * e.longestChain + 2) * (limit + 1) := by
  have nested : ∀ e ∈ (Document.ofSource anomalies limit source).program.expressions, e.nesting ≤ limit := by
    change ∀ e ∈ (Program.ofTokens limit (Lexed.ofSource source).tokens).1.expressions, _
    unfold Program.ofTokens
    dsimp only
    split
    · next read =>
      have bounded := (Grammar.supplies_nesting limit).program _ _ (terminated_isRead (Lexed.isRead source)) read
      exact fun e present => bounded e (List.mem_append_left _ present)
    · nofun
  intro e present
  have within := nested e present
  exact ⟨within, e.height_le.trans (Nat.mul_le_mul_left _ (Nat.succ_le_succ within))⟩

-- A path is one row, however long it is, and goes down no level.
theorem path_higher_than_levels :
    let source := "policy deep: a" ++ String.join (List.replicate 32 ".a")
    ∃ e ∈ (Document.ofSource .warn 1 source).program.expressions,
      16 * (1 + 1) < e.height ∧ e.nesting ≤ 1 ∧ e.height ≤ (7 * e.longestChain + 2) * (1 + 1) := by
  intro source
  have checks : ((Document.ofSource .warn 1 source).program.expressions.any fun e => decide (16 * (1 + 1) < e.height)) =
      true := by decide +kernel
  obtain ⟨e, present, high⟩ := List.any_eq_true.mp checks
  exact ⟨e, present, of_decide_eq_true high, nesting_bounded .warn 1 source e present⟩

end Charter.Source

import Charter.Number.Decimal

/-!
The text of a finite number is not empty, and is written in digits, signs, a point and the mark of an exponent.
-/

namespace Charter

namespace Decimal

-- The characters that numbers are written in.
def isNumeric (c : Char) : Bool := c.isDigit || c == '-' || c == '+' || c == '.' || c == 'e'

def Numeric (text : List Char) : Prop := ∀ c ∈ text, isNumeric c = true

instance (text : List Char) : Decidable (Numeric text) := List.decidableBAll (isNumeric · = true) text

theorem Numeric.append {first second : List Char} (one : Numeric first) (two : Numeric second) :
    Numeric (first ++ second) := fun c member => (List.mem_append.mp member).elim (one c) (two c)

theorem Numeric.cons {c : Char} {rest : List Char} (one : isNumeric c = true) (others : Numeric rest) :
    Numeric (c :: rest) := List.forall_mem_cons.mpr ⟨one, others⟩

theorem Numeric.subset {text part : List Char} (whole : Numeric text) (inside : part ⊆ text) : Numeric part :=
  fun c member => whole c (inside member)

theorem numeric_toString (n : Nat) : Numeric (toString n).toList := by
  intro c member
  have digits : c ∈ Nat.toDigits 10 n := Nat.toList_repr ▸ member
  simp [isNumeric, Nat.isDigit_of_mem_toDigits (by decide) (by decide) digits]

theorem numeric_zeros (count : Int) : Numeric (zeros count) := by
  intro c member
  rw [(List.mem_replicate.mp member).2]
  rfl

theorem numeric_ofCount (count : Nat) (place : Int) : Numeric (Digits.ofCount count place).digits := by
  intro c member
  have kept := (List.dropWhile_sublist _).subset (List.mem_reverse.mp member)
  exact numeric_toString count c (List.mem_reverse.mp kept)

theorem numeric_exact (mantissa : Nat) (exponent : Int) : Numeric (Digits.exact mantissa exponent).digits := by
  unfold Digits.exact
  split <;> exact numeric_ofCount _ _

theorem numeric_shortest (tie : Tie) (mantissa : Nat) (exponent : Int) :
    Numeric (shortest tie mantissa exponent).digits := by
  unfold shortest
  dsimp only
  cases found : (List.range 17).findSome? _ with
  | none => exact numeric_exact mantissa exponent
  | some digits =>
      obtain ⟨index, _, attempted⟩ := List.exists_of_findSome?_eq_some found
      obtain ⟨count, _, rfl⟩ := Option.map_eq_some_iff.mp attempted
      exact numeric_ofCount count _

theorem numeric_positionalText {layout : Layout} (ending : Numeric layout.wholeEnding.toList) {d : Digits}
    (digits : Numeric d.digits) : Numeric (layout.positionalText d) := by
  unfold Layout.positionalText
  split
  · exact .cons rfl (.cons rfl ((numeric_zeros _).append digits))
  · split
    · exact (digits.append (numeric_zeros _)).append ending
    · exact (digits.subset (List.take_subset _ _)).append (.cons rfl (digits.subset (List.drop_subset _ _)))

theorem numeric_scientificText {d : Digits} (digits : Numeric d.digits) : Numeric (scientificText d) := by
  unfold scientificText
  dsimp only
  refine Numeric.append ?_ (.cons rfl (.cons (by split <;> rfl) (numeric_toString _)))
  split
  · next first second rest same =>
    obtain ⟨one, others⟩ := List.forall_mem_cons.mp (same ▸ digits)
    exact .cons one (.cons rfl others)
  · exact digits

theorem numeric_magnitudeText {layout : Layout} (ending : Numeric layout.wholeEnding.toList) (mantissa : Nat)
    (exponent : Int) : Numeric (layout.magnitudeText mantissa exponent) := by
  have digits := numeric_shortest layout.tie mantissa exponent
  unfold Layout.magnitudeText
  split
  · exact .cons rfl ending
  · dsimp only
    split
    · exact numeric_positionalText ending digits
    · split
      · exact numeric_positionalText ending digits
      · exact numeric_scientificText digits

theorem positionalText_ne_nil {layout : Layout} (ending : layout.wholeEnding.toList ≠ []) (d : Digits) :
    layout.positionalText d ≠ [] := by
  unfold Layout.positionalText
  split
  · exact List.cons_ne_nil _ _
  · split
    · exact List.append_ne_nil_of_right_ne_nil _ ending
    · exact List.append_ne_nil_of_right_ne_nil _ (List.cons_ne_nil _ _)

theorem scientificText_ne_nil (d : Digits) : scientificText d ≠ [] :=
  List.append_ne_nil_of_right_ne_nil _ (List.cons_ne_nil _ _)

theorem magnitudeText_ne_nil {layout : Layout} (ending : layout.wholeEnding.toList ≠ []) (mantissa : Nat)
    (exponent : Int) : layout.magnitudeText mantissa exponent ≠ [] := by
  unfold Layout.magnitudeText
  split
  · exact List.cons_ne_nil _ _
  · dsimp only
    split
    · exact positionalText_ne_nil ending _
    · split
      · exact positionalText_ne_nil ending _
      · exact scientificText_ne_nil _

theorem numeric_write {layout : Layout} (ending : Numeric layout.wholeEnding.toList)
    (longer : layout.wholeEnding.toList ≠ []) {x : Float} (finite : Binary64.isFinite x = true) :
    (layout.write x).toList ≠ [] ∧ Numeric (layout.write x).toList := by
  unfold Binary64.isFinite at finite
  unfold Layout.write
  split
  · next nan => rw [nan] at finite; cases finite
  · next infinite => rw [infinite] at finite; cases finite
  · next negative mantissa exponent _ =>
    have text := numeric_magnitudeText ending mantissa exponent
    rw [String.toList_ofList]
    split
    · exact ⟨List.cons_ne_nil _ _, .cons rfl text⟩
    · exact ⟨magnitudeText_ne_nil longer mantissa exponent, text⟩

end Decimal
end Charter

import Charter.Proofs.LexemeReading
import Charter.Proofs.Magnitude

/-!
Numerals are read as numbers, each as the one that is nearest to its decimal value. Numerals have no sign, and neither
have these numbers.
-/

namespace Charter

namespace Binary64
variable {magnitude : Nat}

theorem isUnsigned_ofMagnitude (bound : magnitude ≤ infinityPattern) :
    Source.IsUnsigned (ofMagnitude false magnitude) := by
  have top : magnitude ≤ 2047 * 2 ^ 52 := bound
  have small : magnitude < signPlace := Nat.lt_of_le_of_lt top (by decide)
  unfold Source.IsUnsigned read
  have bits : (ofMagnitude false magnitude).toBits.toNat = magnitude :=
    (toBits_ofMagnitude top).trans (Nat.zero_add magnitude)
  simp only [bits, Nat.mod_eq_of_lt small, decide_eq_false (Nat.not_le_of_lt small)]
  split
  · next full =>
    have full' : magnitude / mantissaPlace = 2047 := beq_iff_eq.mp full
    have whole : magnitude % mantissaPlace = 0 := by
      unfold mantissaPlace at full' ⊢
      omega
    rw [whole]
    exact .inl rfl
  · split
    · exact .inr ⟨_, _, rfl⟩
    · exact .inr ⟨_, _, rfl⟩

theorem nearestMagnitude_bounded (num den : Nat) : nearestMagnitude num den ≤ infinityPattern := by
  unfold nearestMagnitude
  split
  · exact Nat.zero_le _
  · exact Nat.min_le_right _ _

end Binary64

namespace Decimal
open Binary64 Text

theorem isUnsigned_nearest (mantissa : Nat) (exponent : Int) : Source.IsUnsigned (nearest false mantissa exponent) := by
  unfold nearest
  dsimp only
  split
  · exact isUnsigned_ofMagnitude (Nat.zero_le _)
  · split
    · exact isUnsigned_ofMagnitude le_rfl
    · exact isUnsigned_ofMagnitude (nearestMagnitude_bounded _ _)

theorem isUnsigned_unsigned {text : List Char} {n : Float} (parsed : unsigned? false text = some n) :
    Source.IsUnsigned n := by
  unfold unsigned? at parsed
  dsimp only at parsed
  split at parsed
  all_goals
    split at parsed
    · cases parsed
    · obtain ⟨exponent, _, rfl⟩ := Option.map_eq_some_iff.mp parsed
      exact isUnsigned_nearest _ _

-- A text that begins with a digit has no sign, and is none of the words for numbers without digits.

theorem splitSign_digit {d : Char} (digit : isDigit d = true) (rest : List Char) :
    splitSign (d :: rest) = (false, d :: rest) := by
  unfold splitSign
  split
  · next same => cases same; cases digit
  · next same => cases same; cases digit
  · rfl

theorem toLower_digit {d : Char} (digit : isDigit d = true) (rest : List Char) :
    ∃ others, (String.ofList (d :: rest)).toLower = String.ofList (d :: others) := by
  have bounds : d.toNat ≤ 57 := (Bool.and_eq_true_iff.mp digit).2 |> of_decide_eq_true
  have kept : d.toLower = d := dif_neg fun upper => by
    have above : 65 ≤ d.toNat := UInt32.le_iff_toNat_le.mp upper.1
    omega
  refine ⟨rest.map Char.toLower, String.ext ?_⟩
  rw [String.toLower, String.toList_map, String.toList_ofList, String.toList_ofList, List.map_cons, kept]

theorem parse_numeral {text : String} (numeral : IsNumeral text.toList) :
    parse? text = unsigned? false text.toList := by
  obtain ⟨d, rest, form, digit⟩ := numeral.first
  obtain ⟨others, lower⟩ := toLower_digit digit rest
  have other (word : Char) (letters : List Char) (letter : isDigit word = false) :
      String.ofList (d :: others) ≠ String.ofList (word :: letters) := by
    intro same
    obtain rfl := (List.cons.inj (String.ofList_injective same)).1
    exact absurd digit (Bool.eq_false_iff.mp letter)
  unfold parse?
  rw [form, splitSign_digit digit]
  dsimp only
  rw [lower]
  split
  · next same => exact absurd same (other 'i' ['n', 'f'] rfl)
  · next same => exact absurd same (other 'i' ['n', 'f', 'i', 'n', 'i', 't', 'y'] rfl)
  · next same => exact absurd same (other 'n' ['a', 'n'] rfl)
  · rfl

-- A numeral has an exponent, which is zero if none is written.
theorem exponent_isSome {text : List Char} (form : IsExponent text) : ∃ k, exponent? text = some k := by
  rcases form with rfl | ⟨mark, plus, digits, isMark, isPlus, ⟨some, each⟩, rfl⟩
  · exact ⟨0, rfl⟩
  · have split : (splitSign (plus ++ digits)).2 = digits := by
      rcases isPlus with rfl | rfl | rfl
      · obtain ⟨d, rest, rfl⟩ := List.exists_cons_of_ne_nil some
        rw [List.nil_append, splitSign_digit (each d List.mem_cons_self)]
      · rfl
      · rfl
    have marked : ((mark == 'e' || mark == 'E') && !digits.isEmpty && digits.all isDigit) = true := by
      simpa using ⟨⟨isMark, some⟩, each⟩
    rw [List.cons_append, exponent?]
    dsimp only
    rw [split, if_pos marked]
    exact ⟨_, rfl⟩

-- The digits on both sides of the point make up one number, which the exponent and the point shift.
theorem unsigned_numeral {whole fraction exponent : List Char} {k : Int} (digits : IsDigits whole)
    (part : IsFraction fraction) (form : IsExponent exponent) (shift : exponent? exponent = some k) :
    unsigned? false (whole ++ fraction ++ exponent) =
      some (nearest false (ofDigits (whole ++ fraction.tail)) (k - fraction.tail.length)) := by
  obtain ⟨some, each⟩ := digits
  have few : whole.isEmpty = false := List.isEmpty_eq_false_iff.mpr some
  -- No digit and no point stands in front of an exponent.
  have behind : ∀ c, (exponent ++ []).head? = Option.some c → isDigit c = false ∧ c ≠ '.' :=
    Scan.exponent_stop form fun _ c found => by cases found
  rw [List.append_nil] at behind
  obtain ⟨taken, left⟩ := Scan.run_append each (Scan.fraction_stop part fun _ c found => (behind c found).1)
  unfold unsigned?
  rw [List.append_assoc, taken, left]
  rcases part with rfl | ⟨places, ⟨_, each'⟩, rfl⟩
  · have plain : ∀ rest, exponent ≠ '.' :: rest := fun rest same => (behind '.' (by rw [same]; rfl)).2 rfl
    rw [List.nil_append]
    dsimp only
    split
    · next rest => exact absurd rfl (plain rest)
    · simp [few, shift]
  · obtain ⟨taken', left'⟩ := Scan.run_append each' fun c found => (behind c found).1
    simp [few, taken', left', shift]

theorem parse_isSome {text : String} (numeral : IsNumeral text.toList) : ∃ n, parse? text = some n := by
  rw [parse_numeral numeral]
  obtain ⟨whole, fraction, exponent, digits, part, form, same⟩ := numeral
  obtain ⟨k, shift⟩ := exponent_isSome form
  rw [same, unsigned_numeral digits part form shift]
  exact ⟨_, rfl⟩

theorem isUnsigned_parse {text : String} {n : Float} (numeral : IsNumeral text.toList) (parsed : parse? text = some n) :
    Source.IsUnsigned n := isUnsigned_unsigned (parse_numeral numeral ▸ parsed)

end Decimal

end Charter

import Charter.Proofs.LexemeReading
import Charter.Proofs.Partition

/-!
How far a numeral goes. A point or an exponent mark with no digit behind it is not taken, and whatever can be taken is:
the number that is read at a place of a text is the longest numeral there.
-/

namespace Charter
open Text

-- A numeral in front of a text, and no longer one.
structure IsLongestNumeral (numeral text : List Char) : Prop where
  form : IsNumeral numeral
  front : numeral <+: text
  longest : ∀ other, IsNumeral other → other <+: text → other.length ≤ numeral.length

theorem Lexeme.number {text : List Char} {value : String} {anomaly : Option Anomaly}
    (lexeme : Lexeme text .number value anomaly) : IsNumeral text ∧ value = String.ofList text := by
  cases lexeme with
  | numeral form => exact ⟨form, rfl⟩

namespace Scan

/-! What stands in front of a text in one of the forms is taken at least so far, whatever follows it. -/

theorem run_longest {kind : Char → Bool} {run : List Char} (each : ∀ c ∈ run, kind c = true) (rest : List Char) :
    run <+: (run ++ rest).takeWhile kind := by
  rw [List.takeWhile_append_of_pos each]
  exact List.prefix_append _ _

theorem fraction_longest {text : List Char} (form : IsFraction text) (rest : List Char) :
    text <+: (fraction (text ++ rest)).1 := by
  rcases form with rfl | ⟨digits, ⟨some, each⟩, rfl⟩
  · exact List.nil_prefix
  · obtain ⟨digit, digits, rfl⟩ := List.exists_cons_of_ne_nil some
    obtain ⟨first, others⟩ := List.forall_mem_cons.mp each
    rw [List.cons_append, List.cons_append, fraction, if_pos first]
    exact (List.prefix_append_right_inj ['.', digit]).mpr (run_longest others rest)

theorem exponent_longest {text : List Char} (form : IsExponent text) (rest : List Char) :
    text <+: (exponent (text ++ rest)).1 := by
  rcases form with rfl | ⟨mark, plus, digits, isMark, isPlus, isDigits, rfl⟩
  · exact List.nil_prefix
  · have longer := run_longest isDigits.2 rest
    have taken : (digits ++ rest).takeWhile isDigit ≠ [] := fun none => isDigits.1 (List.prefix_nil.mp (none ▸ longer))
    have marked : ((mark == 'e' || mark == 'E') && ((digits ++ rest).takeWhile isDigit != [])) = true :=
      Bool.and_eq_true_iff.mpr ⟨by simpa using isMark, bne_iff_ne.mpr taken⟩
    have split : mark :: plus ++ digits ++ rest = mark :: (plus ++ (digits ++ rest)) := by
      rw [List.append_assoc, List.cons_append]
    rw [split, exponent]
    simp only [sign_append_of isPlus isDigits, marked, if_true]
    exact (List.prefix_append_right_inj (mark :: plus)).mpr longer

-- By the last part that the numeral has: the parts in front of it end where it begins, and are taken as they are.
theorem ofNumber_longest {numeral : List Char} (form : IsNumeral numeral) (rest : List Char) :
    numeral <+: (ofNumber (numeral ++ rest)).taken := by
  obtain ⟨whole, fractionPart, exponentPart, ⟨_, each⟩, isFraction, isExponent, rfl⟩ := form
  by_cases plain : exponentPart = []
  · subst plain
    by_cases integral : fractionPart = []
    · subst integral
      rw [List.append_nil, List.append_nil]
      exact (run_longest each rest).trans ((List.prefix_append _ _).trans (List.prefix_append _ _))
    · obtain ⟨taken, left⟩ := run_append each (@fraction_stop _ rest isFraction fun none => absurd none integral)
      rw [List.append_nil, List.append_assoc]
      simp only [ofNumber, taken, left]
      have longer := (List.prefix_append_right_inj whole).mpr (fraction_longest isFraction rest)
      exact longer.trans (List.prefix_append _ _)
  · have behind := @exponent_stop _ rest isExponent fun none => absurd none plain
    obtain ⟨taken, left⟩ := run_append each (fraction_stop isFraction fun _ c found => (behind c found).1)
    have split : whole ++ fractionPart ++ exponentPart ++ rest = whole ++ (fractionPart ++ (exponentPart ++ rest)) := by
      simp only [List.append_assoc]
    rw [split]
    simp only [ofNumber, taken, left, fraction_append_of isFraction behind]
    exact (List.prefix_append_right_inj _).mpr (exponent_longest isExponent rest)

theorem ofNumber_isLongest {c : Char} (digit : isDigit c = true) (rest : List Char) :
    IsLongestNumeral (ofNumber (c :: rest)).taken (c :: rest) where
  form := (ofNumber_sound digit rest).form.number.1
  front := ⟨_, ofNumber_append (c :: rest)⟩
  longest := fun _ form ⟨behind, same⟩ => same ▸ (ofNumber_longest form behind).length_le

-- A step that takes a number begins with a digit.
theorem step_number {c : Char} {rest : List Char} {value : String}
    (read : (step c rest).token = some (.number, value)) : isDigit c = true ∧ step c rest = ofNumber (c :: rest) := by
  have form := (step_sound c rest).form
  rw [read] at form
  obtain ⟨first, others, taken, digit⟩ := form.number.1.first
  have whole := taken_append_rest c rest
  rw [taken] at whole
  obtain rfl := (List.cons.inj whole).1
  exact ⟨digit, step_of_digit digit rest⟩

end Scan

-- A piece that is a number has the longest numeral at its place as its value.
theorem Piece.IsStep.numeral {source : List Char} {piece : Piece} {value : String} (step : piece.IsStep source)
    (read : piece.token = some (.number, value)) :
    value.toList = piece.text source ∧ IsLongestNumeral value.toList (source.drop piece.start) := by
  obtain ⟨before, c, rest, rfl, rfl⟩ := step
  have form := (Scan.step_sound c rest).form
  rw [show (Scan.step c rest).token = some (.number, value) from read] at form
  have spelled : value.toList = (Scan.step c rest).taken := by rw [form.number.2, String.toList_ofList]
  have text : (ofScan before (Scan.step c rest)).text (before ++ c :: rest) = (Scan.step c rest).taken := by
    rw [← Scan.taken_append_rest c rest]
    exact text_ofScan
  have place : (before ++ c :: rest).drop (ofScan before (Scan.step c rest)).start = c :: rest := List.drop_left
  obtain ⟨digit, number⟩ := Scan.step_number read
  rw [text, place, spelled, number]
  exact ⟨rfl, Scan.ofNumber_isLongest digit rest⟩

end Charter

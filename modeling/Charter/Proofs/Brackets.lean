import Charter.Source.Parser

/-!
Brackets among tokens. They are nested and closed as far as others are awaited; either all of them are looked
at, or only braces and square brackets, whatever the parentheses.
-/

namespace Charter.Source
open Charter.Source.Parser

-- The mark that closes what a mark opens.
def closing? (mark : String) : Option String :=
  match mark with
  | "(" => some ")"
  | "[" => some "]"
  | "\x7b" => some "\x7d"
  | _ => none

def isClosing (mark : String) : Bool := mark == ")" || mark == "]" || mark == "\x7d"

theorem isClosing_of_closing? {mark close : String} (opens : closing? mark = some close) : isClosing mark = false := by
  unfold closing? at opens
  split at opens
  · decide
  · decide
  · decide
  · cases opens

-- Brackets are properly nested and all closed, where some are awaited that were opened before: their closing
-- marks, the innermost first.
inductive Nested : List String → List Token → Prop
  | nil : Nested [] []
  | opening {token : Token} {close : String} {awaited : List String} {rest : List Token}
      (mark : token.kind = .punctuation) (opens : closing? token.value = some close)
      (inside : Nested (close :: awaited) rest) : Nested awaited (token :: rest)
  | closing {token : Token} {awaited : List String} {rest : List Token} (mark : token.kind = .punctuation)
      (closes : isClosing token.value = true) (behind : Nested awaited rest) :
      Nested (token.value :: awaited) (token :: rest)
  | plain {token : Token} {awaited : List String} {rest : List Token}
      (plain : token.kind = .punctuation → closing? token.value = none ∧ isClosing token.value = false)
      (behind : Nested awaited rest) : Nested awaited (token :: rest)

-- The brackets that are looked at: all of them, or braces and square brackets, whatever the parentheses.
inductive Brackets where
  | all
  | butParentheses

namespace Brackets

def counts : Brackets → String → Bool
  | .all, _ => true
  | .butParentheses, mark => mark != "(" && mark != ")"

-- What is awaited behind the mark that a closing one belongs to.
def await (brackets : Brackets) (close : String) (awaited : List String) : List String :=
  if brackets.counts close then close :: awaited else awaited

theorem await_eq_append (brackets : Brackets) (close : String) (awaited : List String) :
    ∃ opened, brackets.await close awaited = opened ++ awaited := by
  unfold await
  split
  · exact ⟨[close], rfl⟩
  · exact ⟨[], rfl⟩

theorem counts_closing (brackets : Brackets) {mark close : String} (opens : closing? mark = some close) :
    brackets.counts mark = brackets.counts close := by
  cases brackets with
  | all => rfl
  | butParentheses => unfold closing? at opens; split at opens <;> cases opens <;> rfl

end Brackets

-- The brackets that are looked at are properly nested and closed, where some of them are awaited.
def Balanced (brackets : Brackets) (awaited : List String) (tokens : List Token) : Prop :=
  Nested awaited (tokens.filter (brackets.counts ·.value))

theorem balanced_all {awaited : List String} {tokens : List Token} :
    Balanced .all awaited tokens ↔ Nested awaited tokens := by
  have all : tokens.filter (Brackets.counts .all ·.value) = tokens := List.filter_eq_self.mpr fun _ _ => rfl
  rw [Balanced, all]

-- A token that is no bracket and not the newline behind the text.
class IsPlain (token : Token) : Prop where
  noBracket : token.kind = .punctuation → closing? token.value = none ∧ isClosing token.value = false
  noNewline : token.kind = .newline → token.value ≠ "\n"

theorem Nested.tail {token : Token} {awaited : List String} {rest : List Token}
    (nested : Nested awaited (token :: rest))
    (noBracket : token.kind = .punctuation → closing? token.value = none ∧ isClosing token.value = false) :
    Nested awaited rest := by
  cases nested with
  | opening mark opens inside => cases (noBracket mark).1.symm.trans opens
  | closing mark closes behind => cases (noBracket mark).2.symm.trans closes
  | plain plain behind => exact behind

-- What stands behind the last bracket has no part in the nesting.
theorem Nested.of_append_plain {token : Token} {awaited : List String} {tokens : List Token}
    (nested : Nested awaited (tokens ++ [token]))
    (noBracket : token.kind = .punctuation → closing? token.value = none ∧ isClosing token.value = false) :
    Nested awaited tokens := by
  induction tokens generalizing awaited with
  | nil => exact nested.tail noBracket
  | cons first tokens ih =>
      cases nested with
      | opening mark opens inside => exact .opening mark opens (ih inside)
      | closing mark closes behind => exact .closing mark closes (ih behind)
      | plain plain behind => exact .plain plain (ih behind)

section Marks
variable {brackets : Brackets} {close mark : String} {awaited : List String} {token : Token} {rest : List Token}

theorem Balanced.of_nil (balanced : Balanced brackets awaited []) : awaited = [] := by
  cases balanced
  rfl

theorem balanced_cons : Balanced brackets awaited (token :: rest) ↔
    if brackets.counts token.value then Nested awaited (token :: rest.filter (brackets.counts ·.value))
    else Balanced brackets awaited rest := by
  unfold Balanced
  rw [List.filter_cons]
  split <;> rfl

theorem balanced_plain
    (noBracket : token.kind = .punctuation → closing? token.value = none ∧ isClosing token.value = false) :
    Balanced brackets awaited (token :: rest) ↔ Balanced brackets awaited rest := by
  rw [balanced_cons]
  split
  · exact ⟨fun nested => nested.tail noBracket, .plain noBracket⟩
  · rfl

theorem isPunctuation_of_is (found : token.is .punctuation mark = true) :
    token.kind = .punctuation ∧ token.value = mark := by
  obtain ⟨same, same'⟩ := Bool.and_eq_true_iff.mp found
  exact ⟨beq_iff_eq.mp same, beq_iff_eq.mp same'⟩

class Opens (mark : String) (close : outParam String) : Prop where
  closing : closing? mark = some close

instance : Opens "(" ")" := ⟨rfl⟩
instance : Opens "[" "]" := ⟨rfl⟩
instance : Opens "\x7b" "\x7d" := ⟨rfl⟩

class Bracket (close : String) : Prop where
  closes : isClosing close = true

instance : Bracket ")" := ⟨rfl⟩
instance : Bracket "]" := ⟨rfl⟩
instance : Bracket "\x7d" := ⟨rfl⟩

theorem Nested.of_opening [opens : Opens mark close] (nested : Nested awaited (token :: rest))
    (found : token.is .punctuation mark = true) : Nested (close :: awaited) rest := by
  obtain ⟨kind, rfl⟩ := isPunctuation_of_is found
  have known := opens.closing
  cases nested with
  | opening _ opens' inside => cases known.symm.trans opens'; exact inside
  | closing _ closes _ => cases (isClosing_of_closing? known).symm.trans closes
  | plain plain _ => cases (plain kind).1.symm.trans known

theorem Nested.of_closing [bracket : Bracket close] (nested : Nested (close :: awaited) (token :: rest))
    (found : token.is .punctuation close = true) : Nested awaited rest := by
  obtain ⟨kind, value⟩ := isPunctuation_of_is found
  have known : isClosing token.value = true := value ▸ bracket.closes
  cases nested with
  | opening _ opens _ => cases (isClosing_of_closing? opens).symm.trans known
  | closing _ _ behind => exact behind
  | plain plain _ => cases (plain kind).2.symm.trans known

theorem balanced_of_drop (plain : IsPlain (head rest)) (behind : Balanced brackets awaited (drop rest)) :
    Balanced brackets awaited rest := by
  match rest with
  | [] => exact behind
  | [_] => exact behind
  | first :: second :: others => exact (balanced_plain plain.noBracket).mpr behind

-- In front of an opening mark one bracket less is awaited than behind it.
theorem balanced_opening [opens : Opens mark close] (found : token.is .punctuation mark = true) :
    Balanced brackets awaited (token :: rest) ↔ Balanced brackets (brackets.await close awaited) rest := by
  obtain ⟨kind, value⟩ := isPunctuation_of_is found
  rw [balanced_cons, value, brackets.counts_closing opens.closing, Brackets.await]
  split
  · refine ⟨fun nested => nested.of_opening found, fun inside => .opening kind ?_ inside⟩
    rw [value]
    exact opens.closing
  · rfl

theorem balanced_closing [bracket : Bracket close] (found : token.is .punctuation close = true) :
    Balanced brackets (brackets.await close awaited) (token :: rest) ↔ Balanced brackets awaited rest := by
  obtain ⟨kind, rfl⟩ := isPunctuation_of_is found
  rw [balanced_cons, Brackets.await]
  split
  · exact ⟨fun nested => nested.of_closing found, fun behind => .closing kind bracket.closes behind⟩
  · rfl

-- A bracket that is looked at in either case.
class Counted (close : String) : Prop where
  counts : ∀ brackets : Brackets, brackets.counts close = true

instance : Counted "]" := ⟨fun brackets => by cases brackets <;> rfl⟩
instance : Counted "\x7b" := ⟨fun brackets => by cases brackets <;> rfl⟩
instance : Counted "\x7d" := ⟨fun brackets => by cases brackets <;> rfl⟩

theorem Balanced.opened (inside : Balanced brackets (brackets.await close awaited) rest) :
    ∃ opened, Balanced brackets (opened ++ awaited) rest := by
  obtain ⟨opened, same⟩ := brackets.await_eq_append close awaited
  exact ⟨opened, same ▸ inside⟩

theorem Balanced.counted [counted : Counted close] :
    Balanced brackets (brackets.await close awaited) rest ↔ Balanced brackets (close :: awaited) rest := by
  rw [Brackets.await, if_pos (counted.counts brackets)]

-- Where nothing is awaited, nothing is awaited outside either, and parentheses are not looked at.
theorem Brackets.of_await (none : brackets.await close awaited = []) :
    awaited = [] ∧ brackets = .butParentheses := by
  cases brackets with
  | all => cases none
  | butParentheses =>
      unfold Brackets.await at none
      split at none
      · cases none
      · exact ⟨none, rfl⟩

end Marks

end Charter.Source

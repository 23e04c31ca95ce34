import Charter.Json
import Charter.Proofs.NumberText

/-!
The text of a document tells which document it is, given that the texts of its numbers do. What stands behind
a document begins with no character of a number, so a document is also told apart from what follows it.
-/

namespace Charter.Json
open Decimal (isNumeric Numeric)

-- Strings.

-- The character that an escaped text begins with, and the rest.
def unescape : List Char → Option (Char × List Char)
  | '\\' :: 'u' :: _ :: _ :: high :: low :: rest => some (Char.ofNat (16 * value high + value low), rest)
  | '\\' :: 'b' :: rest => some ('\x08', rest)
  | '\\' :: 't' :: rest => some ('\t', rest)
  | '\\' :: 'n' :: rest => some ('\n', rest)
  | '\\' :: 'f' :: rest => some ('\x0C', rest)
  | '\\' :: 'r' :: rest => some ('\r', rest)
  | '\\' :: c :: rest => some (c, rest)
  | c :: rest => some (c, rest)
  | [] => none
where
  value (c : Char) : Nat := if c.toNat < 58 then c.toNat - 48 else c.toNat - 87

theorem value_hexDigit : ∀ n < 16, unescape.value (hexDigit n) = n := by decide

theorem unescape_plain {c : Char} (plain : c ≠ '\\') (rest : List Char) : unescape (c :: rest) = some (c, rest) := by
  unfold unescape
  split <;> simp_all

theorem unescape_escape (c : Char) (rest : List Char) : unescape (escape c ++ rest) = some (c, rest) := by
  have same : c = Char.ofNat c.toNat := (Char.ofNat_toNat c).symm
  unfold escape
  split
  case h_8 =>
    split
    · next control =>
      have high := value_hexDigit (c.toNat / 16) (by omega)
      have low := value_hexDigit (c.toNat % 16) (by omega)
      change some (Char.ofNat (16 * unescape.value (hexDigit _) + unescape.value (hexDigit _)), rest) = _
      rw [high, low, show 16 * (c.toNat / 16) + c.toNat % 16 = c.toNat by omega, ← same]
    · next marks _ _ _ _ _ _ _ =>
      refine unescape_plain (fun isMark => ?_) rest
      subst isMark
      simp_all
  all_goals
    next code =>
    rw [code] at same
    subst same
    rfl

theorem escape_ne_quote (c : Char) (rest behind : List Char) : escape c ++ rest ≠ '\x22' :: behind := by
  intro same
  have first := unescape_escape c rest
  rw [same] at first
  obtain rfl : '\x22' = c := congrArg Prod.fst (Option.some.inj first)
  cases same

theorem escaped_inj {first second : List Char} {behind behind' : List Char}
    (same : first.flatMap escape ++ '\x22' :: behind = second.flatMap escape ++ '\x22' :: behind') :
    first = second ∧ behind = behind' := by
  induction first generalizing second with
  | nil =>
      cases second with
      | nil => exact ⟨rfl, List.tail_eq_of_cons_eq same⟩
      | cons c rest =>
          rw [List.flatMap_cons, List.append_assoc] at same
          exact absurd same.symm (escape_ne_quote c _ _)
  | cons c rest ih =>
      rw [List.flatMap_cons, List.append_assoc] at same
      cases second with
      | nil => exact absurd same (escape_ne_quote c _ _)
      | cons d others =>
          rw [List.flatMap_cons, List.append_assoc] at same
          have read := congrArg unescape same
          rw [unescape_escape, unescape_escape, Option.some.injEq, Prod.mk.injEq] at read
          obtain ⟨rfl, later⟩ := read
          obtain ⟨rfl, ends⟩ := ih later
          exact ⟨rfl, ends⟩

theorem quoted_inj {first second : String} {behind behind' : List Char}
    (same : quoted first ++ behind = quoted second ++ behind') : first = second ∧ behind = behind' := by
  unfold quoted at same
  rw [List.append_assoc, List.append_assoc, List.singleton_append, List.singleton_append, List.cons_append,
    List.cons_append] at same
  obtain ⟨equal, ends⟩ := escaped_inj (List.tail_eq_of_cons_eq same)
  exact ⟨String.toList_inj.mp equal, ends⟩

-- Numbers.

-- The doubles of a document.
def numbers : Json → List Float
  | .double value => [value]
  | .array items => elements items
  | .object fields => members fields
  | _ => []
where
  elements : List Json → List Float
    | [] => []
    | item :: rest => numbers item ++ elements rest
  members : List (String × Json) → List Float
    | [] => []
    | (_, value) :: rest => numbers value ++ members rest

-- No text of a number of one document is the text of another number of the other document.
def NumbersApart (a b : Json) : Prop :=
  ∀ x ∈ a.numbers, ∀ y ∈ b.numbers, numberLayout.write x = numberLayout.write y → x = y

theorem NumbersApart.mono {a b part other : Json} (apart : a.NumbersApart b) (first : part.numbers ⊆ a.numbers)
    (second : other.numbers ⊆ b.numbers) : part.NumbersApart other :=
  fun x left y right => apart x (first left) y (second right)

-- Documents whose numbers are finite doubles.
inductive Plain : Json → Prop where
  | null : Plain .null
  | boolean (value : Bool) : Plain (.boolean value)
  | double {value : Float} (finite : Binary64.isFinite value = true) : Plain (.double value)
  | string (value : String) : Plain (.string value)
  | array {items : List Json} (each : ∀ item ∈ items, Plain item) : Plain (.array items)
  | object {fields : List (String × Json)} (each : ∀ field ∈ fields, Plain field.2) : Plain (.object fields)

theorem numeric_text {x : Float} (finite : Binary64.isFinite x = true) :
    (numberLayout.write x).toList ≠ [] ∧ Numeric (numberLayout.write x).toList :=
  Decimal.numeric_write (by decide) (by decide) finite

-- What may stand behind a document.
def Delimited (behind : List Char) : Prop := ∀ c ∈ behind.head?, isNumeric c = false

theorem numeric_append_inj {first second behind behind' : List Char} (one : Numeric first) (two : Numeric second)
    (delimited : Delimited behind) (delimited' : Delimited behind') (same : first ++ behind = second ++ behind') :
    first = second ∧ behind = behind' := by
  have part {text rest : List Char} (numeric : Numeric text) (ends : Delimited rest) :
      (text ++ rest).takeWhile isNumeric = text := by
    rw [List.takeWhile_append_of_pos numeric]
    cases rest with
    | nil => simp
    | cons c others => simp [ends c rfl]
  have equal : first = second := by
    rw [← part one delimited, same, part two delimited']
  exact ⟨equal, List.append_cancel_left (equal ▸ same)⟩

-- Forms of documents, which the first character tells.
inductive Form where
  | null
  | boolean
  | number
  | string
  | array
  | object
  deriving DecidableEq

def form : Json → Form
  | .null => .null
  | .boolean _ => .boolean
  | .integer _ | .double _ => .number
  | .string _ => .string
  | .array _ => .array
  | .object _ => .object

def formOf? (c : Char) : Option Form :=
  if isNumeric c then some .number
  else
    match c with
    | 'n' => some .null
    | 't' | 'f' => some .boolean
    | '\x22' => some .string
    | '[' => some .array
    | '\x7b' => some .object
    | _ => none

theorem onto_form {document : Json} (plain : document.Plain) (behind : List Char) :
    ∃ c rest, document.onto behind = c :: rest ∧ formOf? c = some document.form := by
  cases plain with
  | null => exact ⟨_, _, rfl, by decide⟩
  | boolean value => cases value <;> exact ⟨_, _, rfl, by decide⟩
  | @double value finite =>
      obtain ⟨present, numeric⟩ := numeric_text finite
      obtain ⟨c, rest, text⟩ := List.exists_cons_of_ne_nil present
      refine ⟨c, rest ++ behind, ?_, if_pos (numeric c (text ▸ List.mem_cons_self))⟩
      rw [onto, text, List.cons_append]
  | string value => exact ⟨'\x22', _, rfl, rfl⟩
  | array _ => exact ⟨'[', _, rfl, rfl⟩
  | object _ => exact ⟨'\x7b', _, rfl, rfl⟩

theorem form_of_onto {a b : Json} (plain : a.Plain) (plain' : b.Plain) {behind behind' : List Char}
    (same : a.onto behind = b.onto behind') : a.form = b.form := by
  obtain ⟨c, rest, begins, found⟩ := onto_form plain behind
  obtain ⟨d, rest', begins', found'⟩ := onto_form plain' behind'
  rw [begins, begins'] at same
  cases same
  exact Option.some.inj (found.symm.trans found')

-- Documents.

-- A document can be told from a text that it begins.
def Told (a : Json) : Prop :=
  ∀ {b : Json} {behind behind' : List Char}, b.Plain → a.NumbersApart b → Delimited behind → Delimited behind' →
    a.onto behind = b.onto behind' → a = b ∧ behind = behind'

-- The elements behind the first, and the fields behind the first.

def moreElements : List Json → List Char → List Char
  | [], rest => rest
  | item :: others, rest => ',' :: item.onto (moreElements others rest)

def moreMembers : List (String × Json) → List Char → List Char
  | [], rest => rest
  | (key, value) :: others, rest => ',' :: (quoted key ++ ':' :: value.onto (moreMembers others rest))

theorem elements_cons (item : Json) (others : List Json) (rest : List Char) :
    onto.elements (item :: others) rest = item.onto (moreElements others rest) := by
  induction others generalizing item with
  | nil => rfl
  | cons next others ih => exact congrArg (fun text => item.onto (',' :: text)) (ih next)

theorem members_cons (key : String) (value : Json) (others : List (String × Json)) (rest : List Char) :
    onto.members ((key, value) :: others) rest = quoted key ++ ':' :: value.onto (moreMembers others rest) := by
  induction others generalizing key value with
  | nil => rfl
  | cons next others ih =>
      obtain ⟨name, first⟩ := next
      exact congrArg (fun text => quoted key ++ ':' :: value.onto (',' :: text)) (ih name first)

theorem delimited_moreElements {items : List Json} {c : Char} (delimiter : isNumeric c = false) (rest : List Char) :
    Delimited (moreElements items (c :: rest)) := by
  cases items with
  | nil => rintro _ ⟨⟩; exact delimiter
  | cons => rintro _ ⟨⟩; rfl

theorem delimited_moreMembers {fields : List (String × Json)} {c : Char} (delimiter : isNumeric c = false)
    (rest : List Char) : Delimited (moreMembers fields (c :: rest)) := by
  cases fields with
  | nil => rintro _ ⟨⟩; exact delimiter
  | cons => rintro _ ⟨⟩; rfl

theorem moreElements_inj {items others : List Json} (told : ∀ item ∈ items, item.Told)
    (plain : ∀ item ∈ others, item.Plain) (apart : NumbersApart (.array items) (.array others))
    {behind behind' : List Char} (same : moreElements items (']' :: behind) = moreElements others (']' :: behind')) :
    items = others ∧ behind = behind' := by
  induction items generalizing others with
  | nil =>
      cases others with
      | nil => exact ⟨rfl, List.tail_eq_of_cons_eq same⟩
      | cons => cases same
  | cons item rest ih =>
      cases others with
      | nil => cases same
      | cons other others =>
          obtain ⟨first, told⟩ := List.forall_mem_cons.mp told
          obtain ⟨plainFirst, plain⟩ := List.forall_mem_cons.mp plain
          have apartFirst : NumbersApart item other :=
            apart.mono (List.subset_append_left ..) (List.subset_append_left ..)
          have apartRest : NumbersApart (.array rest) (.array others) :=
            apart.mono (List.subset_append_right ..) (List.subset_append_right ..)
          obtain ⟨equal, later⟩ := first plainFirst apartFirst (delimited_moreElements rfl _)
            (delimited_moreElements rfl _) (List.tail_eq_of_cons_eq same)
          obtain ⟨equalRest, ends⟩ := ih told plain apartRest later
          exact ⟨by rw [equal, equalRest], ends⟩

theorem moreMembers_inj {fields others : List (String × Json)} (told : ∀ field ∈ fields, field.2.Told)
    (plain : ∀ field ∈ others, field.2.Plain) (apart : NumbersApart (.object fields) (.object others))
    {behind behind' : List Char}
    (same : moreMembers fields ('\x7d' :: behind) = moreMembers others ('\x7d' :: behind')) :
    fields = others ∧ behind = behind' := by
  induction fields generalizing others with
  | nil =>
      cases others with
      | nil => exact ⟨rfl, List.tail_eq_of_cons_eq same⟩
      | cons => cases same
  | cons field rest ih =>
      cases others with
      | nil => cases same
      | cons other others =>
          obtain ⟨key, value⟩ := field
          obtain ⟨name, found⟩ := other
          obtain ⟨first, told⟩ := List.forall_mem_cons.mp told
          obtain ⟨plainFirst, plain⟩ := List.forall_mem_cons.mp plain
          have apartFirst : NumbersApart value found :=
            apart.mono (List.subset_append_left ..) (List.subset_append_left ..)
          have apartRest : NumbersApart (.object rest) (.object others) :=
            apart.mono (List.subset_append_right ..) (List.subset_append_right ..)
          obtain ⟨sameKey, values⟩ := quoted_inj (List.tail_eq_of_cons_eq same)
          obtain ⟨equal, later⟩ := first plainFirst apartFirst (delimited_moreMembers rfl _)
            (delimited_moreMembers rfl _) (List.tail_eq_of_cons_eq values)
          obtain ⟨equalRest, ends⟩ := ih told plain apartRest later
          exact ⟨by rw [sameKey, show value = found from equal, equalRest], ends⟩

-- No document begins with the mark that ends a list.
theorem onto_ne_bracket {document : Json} (plain : document.Plain) (rest behind : List Char) :
    document.onto rest ≠ ']' :: behind := by
  intro same
  obtain ⟨c, others, begins, found⟩ := onto_form plain rest
  rw [begins] at same
  cases same
  cases found

theorem elements_inj {items others : List Json} (plain : ∀ item ∈ items, item.Plain)
    (told : ∀ item ∈ items, item.Told) (plain' : ∀ item ∈ others, item.Plain)
    (apart : NumbersApart (.array items) (.array others))
    {behind behind' : List Char} (same : onto.elements items (']' :: behind) = onto.elements others (']' :: behind')) :
    items = others ∧ behind = behind' := by
  cases items with
  | nil =>
      cases others with
      | nil => exact ⟨rfl, List.tail_eq_of_cons_eq same⟩
      | cons other others =>
          rw [elements_cons] at same
          exact absurd same.symm (onto_ne_bracket (plain' other List.mem_cons_self) _ _)
  | cons item rest =>
      cases others with
      | nil =>
          rw [elements_cons] at same
          exact absurd same (onto_ne_bracket (plain item List.mem_cons_self) _ _)
      | cons other others =>
          rw [elements_cons, elements_cons] at same
          exact moreElements_inj told plain' apart (congrArg (',' :: ·) same)

theorem members_inj {fields others : List (String × Json)} (told : ∀ field ∈ fields, field.2.Told)
    (plain : ∀ field ∈ others, field.2.Plain) (apart : NumbersApart (.object fields) (.object others))
    {behind behind' : List Char}
    (same : onto.members fields ('\x7d' :: behind) = onto.members others ('\x7d' :: behind')) :
    fields = others ∧ behind = behind' := by
  cases fields with
  | nil =>
      cases others with
      | nil => exact ⟨rfl, List.tail_eq_of_cons_eq same⟩
      | cons other others =>
          rw [members_cons] at same
          cases List.head_eq_of_cons_eq same
  | cons field rest =>
      cases others with
      | nil =>
          rw [members_cons] at same
          cases List.head_eq_of_cons_eq same
      | cons other others =>
          rw [members_cons, members_cons] at same
          exact moreMembers_inj told plain apart (congrArg (',' :: ·) same)

theorem Plain.told {a : Json} (plain : a.Plain) : a.Told := by
  induction plain with
  | null =>
      intro b behind behind' plain' _ _ _ same
      cases plain' with
      | null => exact ⟨rfl, List.append_cancel_left same⟩
      | _ => cases form_of_onto .null (by constructor <;> assumption) same
  | boolean value =>
      intro b behind behind' plain' _ _ _ same
      cases plain' with
      | boolean other =>
          cases value <;> cases other
          case false.false | true.true => exact ⟨rfl, List.append_cancel_left same⟩
          all_goals cases List.head_eq_of_cons_eq same
      | _ => cases form_of_onto (.boolean value) (by constructor <;> assumption) same
  | @double value finite =>
      intro b behind behind' plain' apart delimited delimited' same
      cases plain' with
      | @double other finite' =>
          obtain ⟨equal, ends⟩ :=
            numeric_append_inj (numeric_text finite).2 (numeric_text finite').2 delimited delimited' same
          have number := apart value List.mem_cons_self other List.mem_cons_self (String.toList_inj.mp equal)
          exact ⟨by rw [number], ends⟩
      | _ => cases form_of_onto (.double finite) (by constructor <;> assumption) same
  | string value =>
      intro b behind behind' plain' _ _ _ same
      cases plain' with
      | string other =>
          obtain ⟨equal, ends⟩ := quoted_inj same
          exact ⟨by rw [equal], ends⟩
      | _ => cases form_of_onto (.string value) (by constructor <;> assumption) same
  | @array items each ih =>
      intro b behind behind' plain' apart _ _ same
      cases plain' with
      | @array others each' =>
          obtain ⟨equal, ends⟩ := elements_inj each ih each' apart (List.tail_eq_of_cons_eq same)
          exact ⟨by rw [equal], ends⟩
      | _ => cases form_of_onto (.array each) (by constructor <;> assumption) same
  | @object fields each ih =>
      intro b behind behind' plain' apart _ _ same
      cases plain' with
      | @object others each' =>
          obtain ⟨equal, ends⟩ := members_inj ih each' apart (List.tail_eq_of_cons_eq same)
          exact ⟨by rw [equal], ends⟩
      | _ => cases form_of_onto (.object each) (by constructor <;> assumption) same

-- The whole text of a document.
theorem text_inj {a b : Json} (plain : a.Plain) (plain' : b.Plain) (apart : a.NumbersApart b)
    (same : a.text = b.text) : a = b :=
  (plain.told plain' apart (by rintro _ ⟨⟩) (by rintro _ ⟨⟩) (String.ofList_injective same)).1

end Charter.Json

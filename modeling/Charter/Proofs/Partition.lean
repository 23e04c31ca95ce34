import Charter.Proofs.Lexeme

/-!
The tokens of a text lie in it side by side. The text falls into pieces that fit end to end; each piece is a
token or may stand between tokens, and a token or anomaly is placed by the text in front of the end of its
piece. `tokens_partition` says so of every text.
-/

namespace Charter

namespace Position

-- The position behind a text, told from the text: lines by its newlines, columns by what follows the last.
def behind (text : List Char) : Position :=
  ⟨1 + text.count '\n', 1 + (text.reverse.takeWhile (· != '\n')).length⟩

theorem behind_append_singleton (text : List Char) (c : Char) : behind (text ++ [c]) = (behind text).next c := by
  unfold behind next
  rw [List.count_append, List.reverse_append, List.reverse_singleton, List.singleton_append]
  by_cases newline : c = '\n'
  · subst newline
    rw [if_pos rfl, List.takeWhile_cons_of_neg (by decide)]
    rfl
  · rw [if_neg newline, List.takeWhile_cons_of_pos (by simpa using newline),
      List.count_singleton, if_neg (by simpa using newline)]
    rfl

theorem through_behind (before text : List Char) : (behind before).through text = behind (before ++ text) := by
  induction text generalizing before with
  | nil => rw [List.append_nil]; rfl
  | cons c rest ih =>
      calc (behind before).through (c :: rest) = ((behind before).next c).through rest := rfl
        _ = (behind (before ++ [c])).through rest := by rw [behind_append_singleton]
        _ = behind (before ++ c :: rest) := by rw [ih, List.append_assoc, List.singleton_append]

end Position

-- A part of a text by the offsets of its ends, with the token that it is and what is wrong with it.
structure Piece where
  start : Nat
  stop : Nat
  token : Option (TokenKind × String)
  anomaly : Option Anomaly

namespace Piece

def text (piece : Piece) (source : List Char) : List Char := (source.take piece.stop).drop piece.start

-- Where a piece is reported: behind the text up to its end.
def position (piece : Piece) (source : List Char) : Position := .behind (source.take piece.stop)

-- A piece is a token or may stand between tokens. One without an end of its own reaches to the end of the text.
structure Fits (source : List Char) (piece : Piece) : Prop where
  form : match piece.token with
    | some (kind, value) => Lexeme (piece.text source) kind value piece.anomaly
    | none => Gap (piece.text source) piece.anomaly
  ends : ∀ anomaly, piece.anomaly = some anomaly → anomaly.isOpen = true → piece.stop = source.length

-- Pieces that are not empty and follow each other without a space from one offset to another.
def Tile : Nat → List Piece → Nat → Prop
  | start, [], stop => start = stop
  | start, piece :: rest, stop => piece.start = start ∧ start < piece.stop ∧ Tile piece.stop rest stop

def token? (source : List Char) (piece : Piece) : Option Token :=
  piece.token.map fun (kind, value) => ⟨kind, value, piece.position source⟩

def anomaly? (source : List Char) (piece : Piece) : Option (Anomaly × Position) :=
  piece.anomaly.map (·, piece.position source)

-- What is reported about a piece.
def diagnostic? (policy : AnomalyPolicy) (source : List Char) (piece : Piece) : Option Diagnostic :=
  policy.severity?.bind fun severity => piece.anomaly.map fun anomaly =>
    (({ severity, message := anomaly.message } : Diagnostic).place (piece.position source)).coded anomaly.code

-- The piece that a step takes behind a text.
def ofScan (before : List Char) (scan : Scan) : Piece where
  start := before.length
  stop := (before ++ scan.taken).length
  token := scan.token
  anomaly := scan.anomaly

section Taken
variable {before : List Char} {scan : Scan}

theorem take_ofScan : (before ++ (scan.taken ++ scan.rest)).take (ofScan before scan).stop = before ++ scan.taken := by
  rw [← List.append_assoc]
  exact List.take_left

theorem text_ofScan : (ofScan before scan).text (before ++ (scan.taken ++ scan.rest)) = scan.taken := by
  unfold text
  rw [take_ofScan]
  exact List.drop_left

theorem position_ofScan (before : List Char) (scan : Scan) :
    (ofScan before scan).position (before ++ (scan.taken ++ scan.rest)) =
    (Position.behind before).through scan.taken := by
  unfold position
  rw [take_ofScan, Position.through_behind]

theorem fits_ofScan (before : List Char) (sound : scan.Sound) :
    (ofScan before scan).Fits (before ++ (scan.taken ++ scan.rest)) := by
  constructor
  · rw [text_ofScan]
    exact sound.form
  · intro anomaly reported unended
    rw [sound.ends anomaly reported unended, List.append_nil]
    rfl

end Taken

-- A piece that a step takes at its place in the text.
def IsStep (source : List Char) (piece : Piece) : Prop :=
  ∃ before c rest, source = before ++ c :: rest ∧ piece = ofScan before (Scan.step c rest)

theorem IsStep.fits {source : List Char} {piece : Piece} (step : piece.IsStep source) : piece.Fits source := by
  obtain ⟨before, c, rest, rfl, rfl⟩ := step
  rw [← Scan.taken_append_rest c rest]
  exact fits_ofScan before (Scan.step_sound c rest)

theorem diagnostics_eq (policy : AnomalyPolicy) (source : List Char) (pieces : List Piece) (tokens : List Token) :
    Lexed.diagnostics ⟨tokens, pieces.filterMap (anomaly? source)⟩ policy =
      pieces.filterMap (diagnostic? policy source) := by
  unfold Lexed.diagnostics diagnostic?
  cases policy.severity? with
  | none => simp
  | some severity =>
      dsimp only
      rw [List.map_filterMap]
      congr 1
      funext piece
      unfold anomaly?
      rw [Option.map_map]
      rfl

end Piece

namespace Lexed
open Piece

-- One step of reading puts its piece in front of those of the rest.
theorem ofCharacters_steps (before chars : List Char) : ∃ pieces, Tile before.length pieces (before ++ chars).length ∧
    (∀ piece ∈ pieces, piece.IsStep (before ++ chars)) ∧
    ofCharacters (.behind before) chars =
      ⟨pieces.filterMap (token? (before ++ chars)) ++ [.endAt (.behind (before ++ chars))],
        pieces.filterMap (anomaly? (before ++ chars))⟩ := by
  cases chars with
  | nil =>
      refine ⟨[], by rw [List.append_nil]; rfl, nofun, ?_⟩
      rw [List.append_nil, ofCharacters]
      rfl
  | cons c rest =>
      have split := Scan.taken_append_rest c rest
      have shorter := Scan.rest_length c rest
      have place := position_ofScan before (Scan.step c rest)
      obtain ⟨pieces, tiled, steps, read⟩ :=
        ofCharacters_steps (before ++ (Scan.step c rest).taken) (Scan.step c rest).rest
      rw [List.append_assoc, split] at tiled steps read
      rw [split] at place
      have longer : before.length < (ofScan before (Scan.step c rest)).stop := by
        have whole := congrArg List.length split
        simp only [List.length_append, List.length_cons] at whole
        simp only [ofScan, List.length_append]
        omega
      refine ⟨ofScan before (Scan.step c rest) :: pieces, ⟨rfl, longer, tiled⟩,
        List.forall_mem_cons.mpr ⟨⟨before, c, rest, rfl, rfl⟩, steps⟩, ?_⟩
      have token : token? (before ++ c :: rest) (ofScan before (Scan.step c rest)) =
          (Scan.step c rest).token.map fun (kind, value) =>
            ⟨kind, value, (Position.behind before).through (Scan.step c rest).taken⟩ := by
        rw [← place]
        rfl
      have anomaly : anomaly? (before ++ c :: rest) (ofScan before (Scan.step c rest)) =
          (Scan.step c rest).anomaly.map (·, (Position.behind before).through (Scan.step c rest).taken) := by
        rw [← place]
        rfl
      rw [ofCharacters]
      dsimp only
      rw [Position.through_behind] at token anomaly ⊢
      rw [read, List.filterMap_cons, List.filterMap_cons, token, anomaly]
      cases (Scan.step c rest).token <;> cases (Scan.step c rest).anomaly <;> rfl
termination_by chars.length
decreasing_by
  simp only [List.length_cons]
  omega

theorem ofCharacters_pieces (before chars : List Char) : ∃ pieces, Tile before.length pieces (before ++ chars).length ∧
    (∀ piece ∈ pieces, piece.Fits (before ++ chars)) ∧
    ofCharacters (.behind before) chars =
      ⟨pieces.filterMap (token? (before ++ chars)) ++ [.endAt (.behind (before ++ chars))],
        pieces.filterMap (anomaly? (before ++ chars))⟩ := by
  obtain ⟨pieces, tiled, steps, read⟩ := ofCharacters_steps before chars
  exact ⟨pieces, tiled, fun piece present => (steps piece present).fits, read⟩

end Lexed

theorem Lexeme.ne_endOfInput {text : List Char} {kind : TokenKind} {value : String} {anomaly : Option Anomaly}
    (lexeme : Lexeme text kind value anomaly) : kind ≠ .endOfInput := by
  cases lexeme <;> nofun

-- Every text is a row of pieces that are not empty. Its tokens are those of the pieces in their order, none an
-- end token, and one end token behind them. The pieces between tokens are blanks, comments and unknown
-- characters; each piece with something wrong is reported where the policy reports at all. A token stands behind
-- the text up to the end of its piece, and the end token behind the whole text.
theorem tokens_partition (policy : AnomalyPolicy) (source : String) :
    ∃ pieces, Piece.Tile 0 pieces source.toList.length ∧ (∀ piece ∈ pieces, piece.Fits source.toList) ∧
      (Lexed.ofSource source).tokens =
        pieces.filterMap (Piece.token? source.toList) ++ [.endAt (.behind source.toList)] ∧
      (∀ token ∈ pieces.filterMap (Piece.token? source.toList), token.kind ≠ .endOfInput) ∧
      (Lexed.ofSource source).diagnostics policy = pieces.filterMap (Piece.diagnostic? policy source.toList) := by
  obtain ⟨pieces, tiled, fitting, read⟩ := Lexed.ofCharacters_pieces [] source.toList
  have whole : Lexed.ofSource source = _ := read
  rw [List.nil_append] at tiled fitting whole
  refine ⟨pieces, tiled, fitting, by rw [whole], ?_, by rw [whole, Piece.diagnostics_eq]⟩
  intro token member
  obtain ⟨piece, present, told⟩ := List.mem_filterMap.mp member
  obtain ⟨⟨kind, value⟩, read, rfl⟩ := Option.map_eq_some_iff.mp told
  have form := (fitting piece present).form
  rw [read] at form
  exact form.ne_endOfInput

end Charter

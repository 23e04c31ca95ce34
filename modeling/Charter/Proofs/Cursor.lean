import Charter.Proofs.Lookahead
import Charter.Proofs.Step

/-!
Reading with a cursor. A reader stands at an index of the token list and counts the levels that are open, as the
nesting limit asks for. It looks ahead by going on and coming back, and after a declaration that failed it goes on
from the tokens between the cursors at the beginning and at the fault. A script is made of what a reader can do.
-/

namespace Charter.Source
open Charter.Source.Parser

-- What a reader leaves behind on its way.
inductive Mark where
  -- The cursor was moved, or a level was opened or closed.
  | stood (cursor depth : Nat)
  -- A repetition asked for another turn.
  | turned (before after : Nat)
  -- A declaration that began at `start` was read, or failed.
  | ended (start cursor depth : Nat)

structure Reading where
  cursor : Nat := 0
  depth : Nat := 0
  reports : List Report := []
  marks : List Mark := []

namespace Reading

def note (s : Reading) (mark : Mark) : Reading := { s with marks := s.marks ++ [mark] }

def goTo (s : Reading) (cursor : Nat) : Reading := { s with cursor }.note (.stood cursor s.depth)

def setDepth (s : Reading) (depth : Nat) : Reading := { s with depth }.note (.stood s.cursor depth)

def tell (s : Reading) (report : Report) : Reading := { s with reports := s.reports ++ [report] }

end Reading

abbrev Reader := Step Reading Report

namespace Reader
variable {α β σ : Type} (tokens : List Token)

-- The token at a cursor. Behind the last token it is the last one.
def tokenAt (cursor : Nat) : Token := tokens.getD (min cursor (tokens.length - 1)) (.endAt .nowhere)

-- The cursor behind a token, unless that is the last one.
def behind (cursor : Nat) : Nat := if cursor < tokens.length - 1 then cursor + 1 else cursor

def current : Reader Token := .total fun s => (tokenAt tokens s.cursor, s)

def following : Reader Token := .total fun s => (tokenAt tokens (s.cursor + 1), s)

def advance : Reader Token := .total fun s => (tokenAt tokens s.cursor, s.goTo (behind tokens s.cursor))

def report (report : Report) : Reader Unit := .total fun s => ((), s.tell report)

-- Repeats `step` until it is done. A turn that leaves no fewer tokens ends in a fault.
def loop (step : σ → Reader (Turn σ α)) (state : σ) : Reader α := fun s =>
  match step state s with
  | (.error report, t) => (.error report, t)
  | (.ok (.done value), t) => (.ok value, t)
  | (.ok (.again next), t) =>
    if tokens.length - t.cursor < tokens.length - s.cursor then loop step next (t.note (.turned s.cursor t.cursor))
    else (.error ⟨.stalled, (tokenAt tokens t.cursor).position⟩, t.note (.turned s.cursor t.cursor))
termination_by s => tokens.length - s.cursor

-- Looks ahead. Where that finds nothing, the cursor goes back.
def tentatively (look : Reader (Option α)) : Reader (Option α) := fun s =>
  match look s with
  | (.ok none, t) => (.ok none, t.goTo s.cursor)
  | (result, t) => (result, t)

-- What a skip to the next declaration leaves, where one that began at `start` has failed at `cursor`.
def skipped (insideBlock : Bool) (start cursor : Nat) : List Token :=
  let taken := (tokens.take cursor).drop start
  let next := if cursor == start then behind tokens cursor else cursor
  Grammar.skipToDeclaration insideBlock (Grammar.openBraces taken) (tokens.drop next)

def synchronize (insideBlock : Bool) (start : Nat) (s : Reading) : Reading :=
  s.goTo (tokens.length - (skipped tokens insideBlock start s.cursor).length)

def recover (instead : α) (insideBlock : Bool) (run : Reader α) : Reader α := fun s =>
  match run s with
  | (.ok value, t) => (.ok value, t.note (.ended s.cursor t.cursor t.depth))
  | (.error report, t) =>
    (.ok instead, synchronize tokens insideBlock s.cursor ((t.note (.ended s.cursor t.cursor t.depth)).tell report))

-- Opens a level, unless all are open, and closes it again whatever comes of the run.
def deeper (limit : Nat) (run : Reader α) : Reader α := fun s =>
  if limit ≤ s.depth then (.error ⟨.tooDeep limit, (tokenAt tokens s.cursor).position⟩, s)
  else
    match run (s.setDepth (s.depth + 1)) with
    | (result, t) => (result, t.setDepth (t.depth - 1))

end Reader

-- What readers are made of.
inductive Script : Type → Type 1 where
  | pure {α : Type} (value : α) : Script α
  | bind {α β : Type} (first : Script α) (next : α → Script β) : Script β
  | current : Script Token
  | following : Script Token
  | advance : Script Token
  | failAt {α : Type} (position : Position) (fault : Fault) : Script α
  | report (report : Report) : Script Unit
  | loop {σ α : Type} (step : σ → Script (Turn σ α)) (state : σ) : Script α
  | tentatively {α : Type} (look : Script (Option α)) : Script (Option α)
  | recover {α : Type} (instead : α) (insideBlock : Bool) (script : Script α) : Script α
  | deeper {α : Type} (script : Script α) : Script α

def Script.run (limit : Nat) (tokens : List Token) {α : Type} : Script α → Reader α
  | .pure value => Pure.pure value
  | .bind first next => first.run limit tokens >>= fun value => (next value).run limit tokens
  | .current => Reader.current tokens
  | .following => Reader.following tokens
  | .advance => Reader.advance tokens
  | .failAt position fault => Step.fail ⟨fault, position⟩
  | .report told => Reader.report told
  | .loop step state => Reader.loop tokens (fun state => (step state).run limit tokens) state
  | .tentatively look => Reader.tentatively (look.run limit tokens)
  | .recover instead insideBlock script => Reader.recover tokens instead insideBlock (script.run limit tokens)
  | .deeper script => Reader.deeper tokens limit (script.run limit tokens)

-- The cursor stays in front of the last token and the levels within the limit, a turn that asks for another one has
-- moved the cursor on, and a declaration ends no earlier than it began, with all levels closed.
def Mark.Sound (limit : Nat) (tokens : List Token) : Mark → Prop
  | stood cursor depth => cursor < tokens.length ∧ depth ≤ limit
  | turned before after => before < after
  | ended start cursor depth => start ≤ cursor ∧ depth = 0

theorem Mark.stood_sound {limit cursor depth : Nat} {tokens : List Token} (inside : cursor < tokens.length)
    (fits : depth ≤ limit) : (stood cursor depth).Sound limit tokens := ⟨inside, fits⟩

theorem Mark.sound_concat {limit : Nat} {tokens : List Token} {marks : List Mark} {last : Mark}
    (sound : ∀ mark ∈ marks, mark.Sound limit tokens) (behind : last.Sound limit tokens) :
    ∀ mark ∈ marks ++ [last], mark.Sound limit tokens :=
  List.forall_mem_append.mpr ⟨sound, List.forall_mem_singleton.mpr behind⟩

-- From inside of the text a run does what the production does with the tokens that are left: it comes to the same
-- result and the same reports, and stands where these tokens are left behind, no deeper than before.
def Carries {α : Type} (limit depth : Nat) (tokens : List Token) (run : Reader α) (p : Parser α) : Prop :=
  ∀ cursor reports marks, cursor < tokens.length → ∃ result after reported marked,
    p (tokens.drop cursor) = ⟨result, tokens.drop after, reported⟩ ∧
      run ⟨cursor, depth, reports, marks⟩ = (result, ⟨after, depth, reports ++ reported, marks ++ marked⟩) ∧
      cursor ≤ after ∧ after < tokens.length ∧ ∀ mark ∈ marked, mark.Sound limit tokens

/-! The tokens that are left at a cursor. -/

section Left
variable {tokens : List Token} {cursor : Nat}

theorem tokenAt_eq (inside : cursor < tokens.length) : Reader.tokenAt tokens cursor = head (tokens.drop cursor) := by
  unfold Reader.tokenAt head
  rw [Nat.min_eq_left (Nat.le_sub_one_of_lt inside), List.headD_eq_head?_getD, List.head?_drop,
    List.getD_eq_getElem?_getD]

theorem drop_eq_cons (inside : cursor < tokens.length) :
    tokens.drop cursor = head (tokens.drop cursor) :: tokens.drop (cursor + 1) := by
  rw [List.drop_eq_getElem_cons inside]
  rfl

theorem drop_behind (inside : cursor < tokens.length) :
    drop (tokens.drop cursor) = tokens.drop (Reader.behind tokens cursor) := by
  unfold Reader.behind
  rw [drop_eq_cons inside]
  split
  · next more =>
    rw [drop_eq_cons (by omega : cursor + 1 < tokens.length)]
    rfl
  · next last =>
    rw [List.drop_eq_nil_of_le (by omega : tokens.length ≤ cursor + 1), drop_eq_cons inside,
      List.drop_eq_nil_of_le (by omega : tokens.length ≤ cursor + 1)]
    rfl

theorem behind_lt (inside : cursor < tokens.length) : Reader.behind tokens cursor < tokens.length := by
  unfold Reader.behind
  split <;> omega

theorem le_behind : cursor ≤ Reader.behind tokens cursor := by
  unfold Reader.behind
  split <;> omega

theorem tokenAt_succ (inside : cursor < tokens.length) :
    Reader.tokenAt tokens (cursor + 1) = head (drop (tokens.drop cursor)) := by
  have clamped : min (cursor + 1) (tokens.length - 1) = min (Reader.behind tokens cursor) (tokens.length - 1) := by
    unfold Reader.behind
    split <;> omega
  rw [drop_behind inside, ← tokenAt_eq (behind_lt inside)]
  unfold Reader.tokenAt
  rw [clamped]

theorem skipped_ne_nil (start : Nat) (insideBlock : Bool) (inside : cursor < tokens.length) :
    Reader.skipped tokens insideBlock start cursor ≠ [] := by
  refine Grammar.skipToDeclaration_ne_nil (mt List.drop_eq_nil_iff.mp (Nat.not_le.mpr ?_))
  split
  · exact behind_lt inside
  · exact inside

theorem resume_eq {start : Nat} (insideBlock : Bool) (onward : start ≤ cursor) (inside : cursor < tokens.length) :
    Grammar.resume insideBlock (tokens.drop start) (tokens.drop cursor) =
      Reader.skipped tokens insideBlock start cursor := by
  have between : (tokens.drop start).take ((tokens.drop start).length - (tokens.drop cursor).length) =
      (tokens.take cursor).drop start := by
    rw [List.drop_take, List.length_drop, List.length_drop]
    congr 1
    omega
  have same : ((tokens.take cursor).drop start).isEmpty = (cursor == start) := by
    rw [Bool.eq_iff_iff, List.isEmpty_iff, ← List.length_eq_zero_iff, List.length_drop, List.length_take, beq_iff_eq]
    omega
  unfold Grammar.resume Reader.skipped
  dsimp only
  rw [between, same, drop_behind inside]
  split <;> rfl

-- What is left behind a skip is left at the cursor behind it.
theorem resume_left {start : Nat} (insideBlock : Bool) (onward : start ≤ cursor) (inside : cursor < tokens.length) :
    ∃ after, Grammar.resume insideBlock (tokens.drop start) (tokens.drop cursor) = tokens.drop after ∧
      (∀ s : Reading, s.cursor = cursor → Reader.synchronize tokens insideBlock start s = s.goTo after) ∧
        cursor ≤ after ∧ after < tokens.length := by
  have suffix := Grammar.resume_suffix insideBlock (tokens.drop start) (tokens.drop cursor)
  rw [resume_eq insideBlock onward inside] at suffix ⊢
  have whole := List.suffix_iff_eq_drop.mp (suffix.trans (List.drop_suffix cursor tokens))
  have more := List.length_pos_iff.mpr (skipped_ne_nil start insideBlock inside)
  have short := suffix.length_le
  rw [List.length_drop] at short
  refine ⟨_, whole, fun s stands => ?_, by omega, by omega⟩
  subst stands
  rfl

end Left

/-! What scripts are made of carries out what productions are made of. -/

namespace Carries
variable {α β σ : Type} {limit depth : Nat} {tokens : List Token} {p : Parser α} {next : α → Parser β}
  {run : Reader α}

-- What neither moves the cursor nor tells of anything.
theorem still (result : Nat → Except Report α)
    (read : ∀ cursor, cursor < tokens.length → p (tokens.drop cursor) = ⟨result cursor, tokens.drop cursor, []⟩)
    (ran : ∀ s, run s = (result s.cursor, s)) : Carries limit depth tokens run p := by
  intro cursor reports marks inside
  refine ⟨result cursor, cursor, [], [], read cursor inside, ?_, Nat.le_refl _, inside, List.forall_mem_nil _⟩
  rw [ran, List.append_nil, List.append_nil]

theorem pure (value : α) : Carries limit depth tokens (Pure.pure value) (Pure.pure value) :=
  still (fun _ => .ok value) (fun _ _ => rfl) fun _ => rfl

theorem current : Carries limit depth tokens (Reader.current tokens) Parser.current := by
  refine still (fun cursor => .ok (Reader.tokenAt tokens cursor)) (fun cursor inside => ?_) fun _ => rfl
  rw [tokenAt_eq inside]
  rfl

theorem following : Carries limit depth tokens (Reader.following tokens) Parser.following := by
  refine still (fun cursor => .ok (Reader.tokenAt tokens (cursor + 1))) (fun cursor inside => ?_) fun _ => rfl
  rw [tokenAt_succ inside]
  rfl

theorem failAt (position : Position) (fault : Fault) :
    Carries (α := α) limit depth tokens (Step.fail ⟨fault, position⟩) (Parser.failAt position fault) :=
  still (fun _ => .error ⟨fault, position⟩) (fun _ _ => rfl) fun _ => rfl

theorem advance (fits : depth ≤ limit) : Carries limit depth tokens (Reader.advance tokens) Parser.advance := by
  intro cursor reports marks inside
  have within := behind_lt inside
  refine ⟨.ok (Reader.tokenAt tokens cursor), Reader.behind tokens cursor, [],
    [.stood (Reader.behind tokens cursor) depth], ?_, ?_, le_behind, within,
    List.forall_mem_singleton.mpr (Mark.stood_sound within fits)⟩
  · rw [tokenAt_eq inside, ← drop_behind inside]
    rfl
  · simp [Reader.advance, Reading.goTo, Reading.note]

theorem report (told : Report) : Carries limit depth tokens (Reader.report told) (Parser.report told) := by
  intro cursor reports marks inside
  refine ⟨.ok (), cursor, [told], [], rfl, ?_, Nat.le_refl _, inside, List.forall_mem_nil _⟩
  simp [Reader.report, Reading.tell]

theorem bind {behind : α → Reader β} (first : Carries limit depth tokens run p)
    (second : ∀ value, Carries limit depth tokens (behind value) (next value)) :
    Carries limit depth tokens (run >>= behind) (p >>= next) := by
  intro cursor reports marks inside
  obtain ⟨result, middle, reported, marked, read, ran, onward, inside, sound⟩ := first cursor reports marks inside
  cases result with
  | error report =>
      exact ⟨_, middle, reported, marked, run_bind_error read, Step.bind_of_error ran, onward, inside, sound⟩
  | ok value =>
      obtain ⟨result, after, reported', marked', read', ran', onward', inside, sound'⟩ :=
        second value middle (reports ++ reported) (marks ++ marked) inside
      refine ⟨result, after, reported ++ reported', marked ++ marked', ?_, ?_, Nat.le_trans onward onward', inside,
        List.forall_mem_append.mpr ⟨sound, sound'⟩⟩
      · rw [run_bind_ok read, read']
        rfl
      · rw [Step.bind_of_ok ran, ran', List.append_assoc, List.append_assoc]

-- A turn that asks for another one leaves fewer tokens, so the cursor has moved on.
theorem loop {step : σ → Parser (Turn σ α)} {turn : σ → Reader (Turn σ α)} (ended : Terminated tokens)
    [advances : ∀ state, Advances (step state)] (each : ∀ state, Carries limit depth tokens (turn state) (step state))
    (state : σ) : Carries limit depth tokens (Reader.loop tokens turn state) (Parser.loop step state) := by
  intro cursor
  induction left : tokens.length - cursor using Nat.strongRecOn generalizing cursor state with
  | ind count ih =>
  subst left
  intro reports marks inside
  obtain ⟨result, middle, reported, marked, read, ran, onward, within, sound⟩ :=
    each state cursor reports marks inside
  rw [Reader.loop]
  cases result with
  | error report =>
      refine ⟨_, middle, reported, marked, run_loop_error read, ?_, onward, within, sound⟩
      simp only [ran]
  | ok asked =>
      cases asked with
      | done value =>
          refine ⟨_, middle, reported, marked, run_loop_done read, ?_, onward, within, sound⟩
          simp only [ran]
      | again next =>
          have shorter : (tokens.drop middle).length < (tokens.drop cursor).length := by
            have taken := (advances state).shorter (ended.suffix (List.drop_suffix cursor tokens))
              (congrArg Parsed.result read)
            rwa [read] at taken
          have fewer : tokens.length - middle < tokens.length - cursor := by
            simpa only [List.length_drop] using shorter
          obtain ⟨result, after, reported', marked', read', ran', onward', inside', sound'⟩ :=
            ih _ fewer next middle rfl (reports ++ reported) (marks ++ marked ++ [.turned cursor middle]) within
          refine ⟨result, after, reported ++ reported', marked ++ (.turned cursor middle :: marked'), ?_, ?_,
            Nat.le_trans onward onward', inside', ?_⟩
          · rw [run_loop_again read shorter, read']
            rfl
          · simp only [ran, if_pos fewer, Reading.note]
            rw [ran']
            simp
          · refine List.forall_mem_append.mpr ⟨sound, List.forall_mem_cons.mpr ⟨?_, sound'⟩⟩
            change cursor < middle
            omega

theorem tentatively {look : Parser (Option α)} {ahead : Reader (Option α)} (fits : depth ≤ limit)
    (looked : Carries limit depth tokens ahead look) :
    Carries limit depth tokens (Reader.tentatively ahead) (Parser.tentatively look) := by
  intro cursor reports marks inside
  obtain ⟨result, middle, reported, marked, read, ran, onward, within, sound⟩ := looked cursor reports marks inside
  unfold Parser.tentatively Reader.tentatively
  rw [read, ran]
  match result with
  | .error report => exact ⟨_, middle, reported, marked, rfl, rfl, onward, within, sound⟩
  | .ok (some value) => exact ⟨_, middle, reported, marked, rfl, rfl, onward, within, sound⟩
  | .ok none =>
      refine ⟨.ok none, cursor, reported, marked ++ [.stood cursor depth], rfl, ?_, Nat.le_refl _, inside,
        Mark.sound_concat sound (Mark.stood_sound inside fits)⟩
      simp [Reading.goTo, Reading.note]

theorem deeper_full : Carries (α := α) limit limit tokens (Reader.deeper tokens limit run) (fail (.tooDeep limit)) := by
  intro cursor reports marks inside
  let fault : Report := ⟨.tooDeep limit, (head (tokens.drop cursor)).position⟩
  refine ⟨.error fault, cursor, [], [], rfl, ?_, Nat.le_refl _, inside, List.forall_mem_nil _⟩
  unfold Reader.deeper
  rw [if_pos (Nat.le_refl limit), tokenAt_eq inside]
  simp [fault]

theorem deeper (open' : depth < limit) (deep : Carries limit (depth + 1) tokens run p) :
    Carries limit depth tokens (Reader.deeper tokens limit run) p := by
  intro cursor reports marks inside
  obtain ⟨result, after, reported, marked, read, ran, onward, within, sound⟩ :=
    deep cursor reports (marks ++ [.stood cursor (depth + 1)]) inside
  have opened := Mark.stood_sound inside (Nat.succ_le_of_lt open')
  have closed := Mark.stood_sound within (Nat.le_of_lt open')
  refine ⟨result, after, reported, .stood cursor (depth + 1) :: (marked ++ [.stood after depth]), read, ?_, onward,
    within, List.forall_mem_cons.mpr ⟨opened, Mark.sound_concat sound closed⟩⟩
  unfold Reader.deeper
  rw [if_neg (Nat.not_le.mpr open')]
  simp only [Reading.setDepth, Reading.note]
  rw [ran]
  simp

-- A declaration that failed ended no earlier than it began, so there are tokens in between to count the braces of.
theorem recover {instead : α} {insideBlock : Bool} (whole : Carries limit 0 tokens run p) :
    Carries limit 0 tokens (Reader.recover tokens instead insideBlock run)
      (Parser.recover instead p (Grammar.resume insideBlock)) := by
  intro cursor reports marks inside
  obtain ⟨result, middle, reported, marked, read, ran, onward, within, sound⟩ := whole cursor reports marks inside
  unfold Parser.recover Reader.recover
  have closed : (Mark.ended cursor middle 0).Sound limit tokens := ⟨onward, rfl⟩
  cases result with
  | ok value =>
      rw [read, ran]
      refine ⟨_, middle, reported, marked ++ [.ended cursor middle 0], rfl, ?_, onward, within,
        Mark.sound_concat sound closed⟩
      simp [Reading.note]
  | error report =>
      obtain ⟨after, left, skipped, further, within⟩ := resume_left insideBlock onward within
      have stopped : (Mark.stood after 0).Sound limit tokens := ⟨within, Nat.zero_le limit⟩
      rw [read, ran]
      dsimp only
      rw [left]
      refine ⟨_, after, reported ++ [report], marked ++ [.ended cursor middle 0] ++ [.stood after 0], rfl, ?_,
        Nat.le_trans onward further, within, Mark.sound_concat (Mark.sound_concat sound closed) stopped⟩
      rw [skipped _ rfl]
      simp [Reading.goTo, Reading.tell, Reading.note]

-- Productions that agree where a text has an end are carried out alike.
theorem congr {q : Parser α} (ended : Terminated tokens) (same : ∀ rest, Terminated rest → p rest = q rest)
    (carried : Carries limit depth tokens run q) : Carries limit depth tokens run p := by
  intro cursor reports marks inside
  rw [same _ (ended.suffix (List.drop_suffix cursor tokens))]
  exact carried cursor reports marks inside

end Carries

end Charter.Source

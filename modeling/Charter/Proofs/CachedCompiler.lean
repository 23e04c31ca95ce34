import Charter.Proofs.Fingerprint
import Mathlib.Data.Finset.Card
import Mathlib.Data.Finset.Image

/-!
A compiler with a cache answers as one without. What it keeps under a key was compiled from a text with that
hash, so while no two of the texts it was given have one hash, it keeps no more and no less than one entry for
each text that compiled since it last forgot.
-/

namespace Charter

-- What is asked of a compiler.
inductive Request where
  | compile (time source : String)
  | clear

-- The answer to a request without a cache.
def Request.direct (options : CompileOptions) : Request → Option Compiled
  | compile time source => some (Charter.compile options time source)
  | clear => none

namespace Compiler

def serve (compiler : Compiler) : Request → Compiler × Option Compiled
  | .compile time source =>
    let (next, compiled) := compiler.compile time source
    (next, some compiled)
  | .clear => (compiler.clearCache, none)

-- The requests one after the other: the compiler behind them, and an answer for each.
def serveAll (compiler : Compiler) : List Request → Compiler × List (Option Compiled)
  | [] => (compiler, [])
  | request :: rest =>
    let (next, answer) := compiler.serve request
    let (last, answers) := next.serveAll rest
    (last, answer :: answers)

end Compiler

-- The texts that compiled since the compiler last forgot, told by what was asked and answered.
def remember (texts : Finset String) : Request × Option Compiled → Finset String
  | (.compile _ source, some compiled) => if compiled.ir.isSome then insert source texts else texts
  | (.compile _ _, none) => texts
  | (.clear, _) => ∅

-- A cache that keeps one compiled program for each of some texts, under its hash.
structure Cache.Keeps (options : CompileOptions) (texts : Finset String) (cache : Cache) : Prop where
  distinct : cache.entries.Distinct
  keys : cache.entries.keys.toFinset = texts.image contentHash
  compiled : ∀ entry ∈ cache.entries, ∃ source ∈ texts, ∃ time,
    entry = (contentHash source, compile options time source) ∧ entry.2.ir.isSome

namespace Cache.Keeps
variable {options : CompileOptions} {texts : Finset String} {cache : Cache}

theorem empty (options : CompileOptions) : Keeps options ∅ {} := ⟨List.nodup_nil, rfl, nofun⟩

theorem size (keeps : cache.Keeps options texts) (collisionFree : Set.InjOn contentHash (texts : Set String)) :
    cache.size = texts.card := by
  rw [← Finset.card_image_of_injOn collisionFree, ← keeps.keys, List.toFinset_card_of_nodup keeps.distinct]
  exact (List.length_map _).symm

-- A hit was compiled from the text that is asked for.
theorem hit (keeps : cache.Keeps options texts) {source : String} {found : Compiled}
    (kept : cache.lookup? (contentHash source) = some found)
    (collisionFree : ∀ other ∈ texts, contentHash source = contentHash other → source = other) :
    source ∈ texts ∧ found.ir.isSome ∧ ∀ time, found.compiledAt time = compile options time source := by
  obtain ⟨other, member, time, same, some⟩ := keeps.compiled _ (Fields.mem_of_get? kept)
  obtain ⟨hash, rfl⟩ := Prod.mk.inj same
  obtain rfl := collisionFree other member hash
  exact ⟨member, some, fun later => compile_compiledAt options time later source⟩

-- A miss is of a text that was not compiled, or not with success.
theorem miss (keeps : cache.Keeps options texts) {source : String}
    (missing : cache.lookup? (contentHash source) = none) : source ∉ texts := by
  intro member
  have key : contentHash source ∈ cache.entries.keys := by
    rw [← List.mem_toFinset, keeps.keys]
    exact Finset.mem_image_of_mem _ member
  obtain ⟨entry, present, same⟩ := List.mem_map.mp key
  have found := keeps.distinct.get?_of_mem present
  rw [same] at found
  cases missing.symm.trans found

theorem insert (keeps : cache.Keeps options texts) (time source : String)
    (succeeded : (compile options time source).ir.isSome = true) :
    (cache.insert (contentHash source) (compile options time source)).1.Keeps options (Insert.insert source texts) := by
  have entries : (cache.insert (contentHash source) (compile options time source)).1.entries =
      cache.entries.put (contentHash source) (compile options time source) := by
    rw [Cache.insert, if_pos succeeded]
  refine ⟨?_, ?_, ?_⟩
  · rw [entries]
    exact keeps.distinct.put _ _
  · rw [entries, Finset.image_insert, ← keeps.keys]
    ext key
    simp only [List.mem_toFinset, Finset.mem_insert, Fields.mem_keys_put]
  · rw [entries]
    intro entry present
    rcases Fields.mem_put present with rfl | old
    · exact ⟨source, Finset.mem_insert_self _ _, time, rfl, succeeded⟩
    · obtain ⟨other, member, told⟩ := keeps.compiled entry old
      exact ⟨other, Finset.mem_insert_of_mem member, told⟩

end Cache.Keeps

namespace Compiler

-- A compiler that knows some of the texts it was given. Without a cache it keeps nothing.
structure Knows (options : CompileOptions) (given : Set String) (texts : Finset String) (compiler : Compiler) :
    Prop where
  options_eq : compiler.options = options
  keeps : compiler.cache.Keeps options (if options.useCache then texts else ∅)
  within : ∀ source ∈ texts, source ∈ given

-- Two answers that are the same at any one time.
def Agree (answer direct : Option Compiled) : Prop :=
  ∀ time, answer.map (·.compiledAt time) = direct.map (·.compiledAt time)

variable {options : CompileOptions} {given : Set String} {texts : Finset String} {compiler : Compiler}

theorem mem_remember {time source : String} {compiled : Compiled} {other : String}
    (member : other ∈ remember texts (.compile time source, some compiled)) : other = source ∨ other ∈ texts := by
  unfold remember at member
  dsimp only at member
  split at member
  · exact Finset.mem_insert.mp member
  · exact .inr member

theorem serve_compile (knows : compiler.Knows options given texts) (collisionFree : Set.InjOn contentHash given)
    (time source : String) (known : source ∈ given) :
    ∃ next compiled, compiler.compile time source = (next, compiled) ∧ next.options = options ∧
      next.cache.Keeps options
        (if options.useCache then remember texts (.compile time source, some compiled) else ∅) ∧
      ∀ later, compiled.compiledAt later = Charter.compile options later source := by
  obtain ⟨rfl, keeps, within⟩ := knows
  have direct := fun later => compile_compiledAt compiler.options time later source
  unfold Compiler.compile
  cases uses : compiler.options.useCache with
  | false =>
      rw [uses] at keeps
      exact ⟨_, _, rfl, rfl, keeps, direct⟩
  | true =>
      rw [uses, if_pos rfl] at keeps
      dsimp only
      cases found : compiler.cache.lookup? (contentHash source) with
      | some hit =>
          have apart (other) (member : other ∈ texts) := collisionFree known (within other member)
          obtain ⟨member, some, same⟩ := keeps.hit found apart
          refine ⟨_, _, rfl, rfl, ?_, same⟩
          simpa only [remember, some, if_true, Finset.insert_eq_of_mem member] using keeps
      | none =>
          refine ⟨_, _, rfl, rfl, ?_, direct⟩
          cases succeeded : (Charter.compile compiler.options time source).ir.isSome with
          | true => simpa only [remember, succeeded, if_true] using keeps.insert time source succeeded
          | false => simpa [remember, succeeded, Cache.insert] using keeps

-- One request: the answer is the direct one, and what the compiler knows goes on as it should.
theorem serve_knows (knows : compiler.Knows options given texts) (collisionFree : Set.InjOn contentHash given)
    (request : Request) (asked : ∀ time source, request = .compile time source → source ∈ given) :
    ∃ next answer, compiler.serve request = (next, answer) ∧
      next.Knows options given (remember texts (request, answer)) ∧ Agree answer (request.direct options) := by
  cases request with
  | clear =>
      refine ⟨_, _, rfl, ⟨knows.options_eq, ?_, nofun⟩, fun _ => rfl⟩
      simp only [remember, ite_self]
      exact .empty options
  | compile time source =>
      have known : source ∈ given := asked time source rfl
      obtain ⟨next, compiled, ran, same, keeps, direct⟩ := serve_compile knows collisionFree time source known
      have within : ∀ other ∈ remember texts (.compile time source, some compiled), other ∈ given := by
        intro other member
        rcases mem_remember member with rfl | old
        · exact known
        · exact knows.within other old
      refine ⟨next, some compiled, ?_, ⟨same, keeps, within⟩, fun later => ?_⟩
      · rw [serve, ran]
      · exact congrArg some ((direct later).trans (compile_compiledAt options time later source).symm)

-- All requests, by induction: what the compiler knows behind the first ones carries to the others.
theorem serveAll_knows (knows : compiler.Knows options given texts) (collisionFree : Set.InjOn contentHash given)
    (requests : List Request) (asked : ∀ time source, .compile time source ∈ requests → source ∈ given) :
    ∃ last answers, compiler.serveAll requests = (last, answers) ∧
      last.Knows options given ((requests.zip answers).foldl remember texts) ∧
      List.Forall₂ Agree answers (requests.map (·.direct options)) := by
  induction requests generalizing compiler texts with
  | nil => exact ⟨compiler, [], rfl, knows, .nil⟩
  | cons request rest ih =>
      have first (time source) (same : request = .compile time source) : source ∈ given :=
        asked time source (same ▸ List.mem_cons_self)
      obtain ⟨next, answer, served, knows, agree⟩ := serve_knows knows collisionFree request first
      obtain ⟨last, answers, behind, knows, others⟩ :=
        ih knows fun time source member => asked time source (List.mem_cons_of_mem _ member)
      refine ⟨last, answer :: answers, ?_, knows, .cons agree others⟩
      rw [serveAll, served]
      dsimp only
      rw [behind]

end Compiler

-- A new compiler, whatever it is asked one after the other, answers each time what compiling the text alone
-- gives, but for the time of compilation. It keeps nothing without a program, and with the cache in use as many
-- programs as different texts compiled since it last forgot.
theorem cache_transparent (options : CompileOptions) (requests : List Request)
    (collisionFree : Set.InjOn contentHash {source | ∃ time, Request.compile time source ∈ requests}) :
    let (last, answers) := Compiler.serveAll { options } requests
    (List.Forall₂ (fun answer request => ∀ time, answer.map (·.compiledAt time) =
      (request.direct options).map (·.compiledAt time)) answers requests) ∧
    (∀ entry ∈ last.cache.entries, entry.2.ir.isSome) ∧
    last.cache.size = if options.useCache then ((requests.zip answers).foldl remember ∅).card else 0 := by
  have fresh : Compiler.Knows options {source | ∃ time, Request.compile time source ∈ requests} ∅ { options } :=
    ⟨rfl, by simpa only [ite_self] using Cache.Keeps.empty options, nofun⟩
  obtain ⟨last, answers, served, knows, agree⟩ :=
    Compiler.serveAll_knows fresh collisionFree requests fun time source member => ⟨time, member⟩
  rw [served]
  refine ⟨List.forall₂_map_right_iff.mp agree, fun entry kept => ?_, ?_⟩
  · obtain ⟨_, _, _, _, some⟩ := knows.keeps.compiled entry kept
    exact some
  · cases uses : options.useCache with
    | false =>
        have keeps := knows.keeps
        rw [uses] at keeps
        exact keeps.size (by simp)
    | true =>
        have keeps := knows.keeps
        rw [uses] at keeps
        exact keeps.size fun source one other two => collisionFree (knows.within _ one) (knows.within _ two)

-- A text that is compiled twice is kept once, and one from before a clearing not at all.
theorem one_text_kept :
    let task := "entity Task \x7b\x7d"
    let note := "entity Note \x7b\x7d"
    let requests : List Request :=
      [.compile "dawn" note, .clear, .compile "morning" task, .compile "noon" task, .compile "evening" "entity"]
    let (last, answers) := Compiler.serveAll { options := {} } requests
    Set.InjOn contentHash {source | ∃ time, Request.compile time source ∈ requests} ∧
      (List.Forall₂ (fun answer request => ∀ time, answer.map (·.compiledAt time) =
        (request.direct {}).map (·.compiledAt time)) answers requests) ∧
      (∀ entry ∈ last.cache.entries, entry.2.ir.isSome) ∧ last.cache.size = 1 := by
  intro task note requests
  have apart : ∀ source ∈ [note, task, "entity"], ∀ other ∈ [note, task, "entity"],
      contentHash source = contentHash other → source = other := by decide +kernel
  have asked {time source : String} (member : Request.compile time source ∈ requests) :
      source ∈ [note, task, "entity"] := by
    simp only [requests, List.mem_cons, Request.compile.injEq, reduceCtorEq, List.not_mem_nil, or_false,
      false_or] at member ⊢
    grind
  have collisionFree : Set.InjOn contentHash {source | ∃ time, Request.compile time source ∈ requests} :=
    fun source ⟨_, one⟩ other ⟨_, two⟩ => apart source (asked one) other (asked two)
  have kept : (((requests.zip (Compiler.serveAll { options := {} } requests).2).foldl remember ∅).card = 1) := by
    decide +kernel
  obtain ⟨agree, some, size⟩ := cache_transparent {} requests collisionFree
  exact ⟨collisionFree, agree, some, size.trans kept⟩

end Charter

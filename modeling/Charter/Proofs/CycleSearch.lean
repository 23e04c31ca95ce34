import Charter.Compile.Finding
import Mathlib.Data.List.Chain
import Mathlib.Data.List.Nodup
import Mathlib.Logic.Relation

/-!
The search for cycles among computed properties. From a property it finds a way along the edges back to it if and only
if the property leads to itself. The warnings of an entity print such ways: together they name exactly the properties
that lead to themselves, and no two of them name the same ones.
-/

namespace Charter.Compile
open Relation

def Leads (edges : String → List String) (a b : String) : Prop := b ∈ edges a

-- A way from a name back to it, both ends told, that passes no name twice.
def Round (edges : String → List String) (cycle : List String) : Prop :=
  ∃ start inner, cycle = start :: (inner ++ [start]) ∧ (start :: inner).Nodup ∧ cycle.IsChain (Leads edges)

-- A search that found nothing: neither the neighbours nor anything visited on the way leads to the start or
-- to a name that is left.
structure Exhausted (edges : String → List String) (start : String) (neighbours before left : List String) :
    Prop where
  kept : left.Sublist before
  neighbours : ∀ next ∈ neighbours, next ≠ start ∧ next ∉ left
  visited : ∀ name ∈ before, name ∉ left → ∀ next ∈ edges name, next ≠ start ∧ next ∉ left

section Search
variable {edges : String → List String} {start : String} {neighbours unvisited way cycle : List String}

theorem Exhausted.cons_fresh {next : String} {others before middle left : List String} (distinct : before.Nodup)
    (other : next ≠ start) (inner : Exhausted edges start (edges next) (before.erase next) middle)
    (outer : Exhausted edges start others middle left) : Exhausted edges start (next :: others) before left := by
  have gone : next ∉ left := fun member =>
    distinct.not_mem_erase (inner.kept.subset (outer.kept.subset member))
  refine ⟨(outer.kept.trans inner.kept).trans List.erase_sublist,
    List.forall_mem_cons.mpr ⟨⟨other, gone⟩, outer.neighbours⟩, fun name present absent target edge => ?_⟩
  by_cases same : name = next
  · subst same
    obtain ⟨away, passed⟩ := inner.neighbours target edge
    exact ⟨away, fun member => passed (outer.kept.subset member)⟩
  by_cases later : name ∈ middle
  · exact outer.visited name later absent target edge
  · obtain ⟨away, passed⟩ := inner.visited name ((List.mem_erase_of_ne same).mpr present) later target edge
    exact ⟨away, fun member => passed (outer.kept.subset member)⟩

theorem Exhausted.cons_visited {next : String} {others before left : List String} (other : next ≠ start)
    (visited : next ∉ before) (rest : Exhausted edges start others before left) :
    Exhausted edges start (next :: others) before left :=
  ⟨rest.kept, List.forall_mem_cons.mpr ⟨⟨other, fun member => visited (rest.kept.subset member)⟩, rest.neighbours⟩,
    rest.visited⟩

theorem wayTo_exhausted (distinct : unvisited.Nodup) (none : (wayTo edges start neighbours unvisited).1 = none) :
    Exhausted edges start neighbours unvisited (wayTo edges start neighbours unvisited).2.1 := by
  fun_induction wayTo edges start neighbours unvisited with
  | case1 unvisited => exact ⟨List.Sublist.refl _, nofun, fun _ present absent => absurd present absent⟩
  | case2 => cases none
  | case3 => cases none
  | case4 unvisited next others other fresh shorter left searched way rest searched' ih ih' =>
      have inner := ih (distinct.erase next) (by rw [searched])
      rw [searched] at inner
      have outer := ih' (inner.kept.nodup (distinct.erase next)) (by rw [searched']; exact none)
      rw [searched'] at outer
      exact inner.cons_fresh distinct other outer
  | case5 unvisited next others other visited ih => exact (ih distinct none).cons_visited other visited

theorem nodup_eraseDups (names : List String) : names.eraseDups.Nodup := by
  match names with
  | [] => exact List.nodup_nil
  | name :: rest =>
      rw [List.eraseDups_cons, List.nodup_cons, List.mem_eraseDups]
      exact ⟨by simp, nodup_eraseDups (rest.filter fun other => !other == name)⟩
termination_by names.length
decreasing_by exact Nat.lt_succ_of_le (List.length_filter_le _ rest)

-- Every name of a round leads to itself: first on to its end, and from there on to the name.
theorem Round.leads (round : Round edges cycle) {name : String} (member : name ∈ cycle) :
    TransGen (Leads edges) name name := by
  obtain ⟨start, inner, rfl, _, chain⟩ := round
  have order := (chain.imp fun _ _ => TransGen.single).pairwise
  obtain ⟨behind, inside⟩ := List.pairwise_cons.mp order
  obtain ⟨_, _, back⟩ := List.pairwise_append.mp inside
  have last : start ∈ inner ++ [start] := List.mem_append_right _ (List.mem_singleton_self start)
  rcases List.mem_cons.mp member with rfl | later
  · exact behind name last
  rcases List.mem_append.mp later with passed | ended
  · exact (back name passed start (List.mem_singleton_self start)).trans (behind name later)
  · exact List.mem_singleton.mp ended ▸ behind start last

-- A way that a search finds: from a neighbour to the start, through names that were unvisited and each once.
structure Way (edges : String → List String) (start : String) (neighbours unvisited : List String)
    (way inner : List String) : Prop where
  ends : way = inner ++ [start]
  begins : ∀ first ∈ way.head?, first ∈ neighbours
  chain : way.IsChain (Leads edges)
  distinct : inner.Nodup
  within : ∀ name ∈ inner, name ∈ unvisited

theorem Way.visit {next : String} {others inner : List String} (distinct : unvisited.Nodup) (fresh : next ∈ unvisited)
    (found : Way edges start (edges next) (unvisited.erase next) way inner) :
    Way edges start (next :: others) unvisited (next :: way) (next :: inner) where
  ends := congrArg (next :: ·) found.ends
  begins _ head := Option.mem_some.mp head ▸ List.mem_cons_self
  chain := found.chain.cons found.begins
  distinct := List.nodup_cons.mpr ⟨fun again => distinct.not_mem_erase (found.within next again), found.distinct⟩
  within := List.forall_mem_cons.mpr ⟨fresh, fun name member => List.mem_of_mem_erase (found.within name member)⟩

theorem Way.pass {next : String} {others left inner : List String} (found : Way edges start others left way inner)
    (kept : left ⊆ unvisited) : Way edges start (next :: others) unvisited way inner :=
  { found with
    begins := fun first head => List.mem_cons_of_mem _ (found.begins first head)
    within := fun name member => kept (found.within name member) }

theorem wayTo_way (distinct : unvisited.Nodup) (found : (wayTo edges start neighbours unvisited).1 = some way) :
    ∃ inner, Way edges start neighbours unvisited way inner := by
  fun_induction wayTo edges start neighbours unvisited generalizing way with
  | case1 => cases found
  | case2 unvisited others =>
      cases found
      have begins : ∀ first ∈ [start].head?, first ∈ start :: others :=
        fun _ head => Option.mem_some.mp head ▸ List.mem_cons_self
      exact ⟨[], rfl, begins, .singleton start, List.nodup_nil, List.forall_mem_nil _⟩
  | case3 unvisited next others other fresh _ way' left searched ih =>
      cases found
      obtain ⟨inner, found⟩ := ih (distinct.erase next) (by rw [searched])
      exact ⟨next :: inner, found.visit distinct fresh⟩
  | case4 unvisited next others other fresh _ left searched way' rest searched' ih ih' =>
      have exhausted := wayTo_exhausted (distinct.erase next) (by rw [searched])
      rw [searched] at exhausted
      obtain ⟨inner, found⟩ := ih' (exhausted.kept.nodup (distinct.erase next)) (by rw [searched']; exact found)
      exact ⟨inner, found.pass fun name member => List.mem_of_mem_erase (exhausted.kept.subset member)⟩
  | case5 unvisited next others other visited ih =>
      obtain ⟨inner, found⟩ := ih distinct found
      exact ⟨inner, found.pass (List.Subset.refl _)⟩

theorem cycleThrough?_round {names : List String} (found : cycleThrough? edges names start = some cycle) :
    Round edges cycle ∧ start ∈ cycle := by
  obtain ⟨way, searched, rfl⟩ := Option.map_eq_some_iff.mp found
  have distinct : (names.eraseDups.erase start).Nodup := (nodup_eraseDups names).erase start
  obtain ⟨inner, found⟩ := wayTo_way distinct searched
  refine ⟨⟨start, inner, congrArg (start :: ·) found.ends, ?_, found.chain.cons found.begins⟩, List.mem_cons_self⟩
  exact List.nodup_cons.mpr
    ⟨fun again => (nodup_eraseDups names).not_mem_erase (found.within start again), found.distinct⟩

-- Where every edge stays among the names, a way back is found exactly from the names that lead to themselves.
theorem cycleThrough?_isSome_iff {names : List String} (inside : ∀ a, ∀ b ∈ edges a, b ∈ names) :
    (cycleThrough? edges names start).isSome ↔ TransGen (Leads edges) start start := by
  constructor
  · intro some
    obtain ⟨cycle, found⟩ := Option.isSome_iff_exists.mp some
    obtain ⟨round, starts⟩ := cycleThrough?_round found
    exact round.leads starts
  · intro cycle
    unfold cycleThrough?
    rw [Option.isSome_map]
    cases missing : (wayTo edges start (edges start) (names.eraseDups.erase start)).1 with
    | some way => rfl
    | none =>
        have distinct : (names.eraseDups.erase start).Nodup := (nodup_eraseDups names).erase start
        have search := wayTo_exhausted distinct missing
        generalize (wayTo edges start (edges start) (names.eraseDups.erase start)).2.1 = left at search
        have passed (name : String) (reached : TransGen (Leads edges) start name) : name ≠ start ∧ name ∉ left := by
          induction reached with
          | single edge => exact search.neighbours _ edge
          | @tail middle last reached edge ih =>
              have known : middle ∈ names := by
                obtain ⟨_, _, into⟩ := TransGen.tail'_iff.mp reached
                exact inside _ _ into
              refine search.visited middle ?_ ih.2 last edge
              exact (List.mem_erase_of_ne ih.1).mpr (List.mem_eraseDups.mpr known)
        exact absurd rfl (passed start cycle).1

end Search

theorem sameNames_iff {a b : List String} : sameNames a b = true ↔ ∀ name, name ∈ a ↔ name ∈ b := by
  simp only [sameNames, Bool.and_eq_true, List.all_eq_true, List.contains_iff_mem]
  constructor
  · exact fun ⟨there, back⟩ name => ⟨there name, back name⟩
  · exact fun same => ⟨fun name => (same name).mp, fun name => (same name).mpr⟩

section Entity
variable {computed : List Ir.Computed} {found : List (Nat × List String)} {passed : List String}

theorem computedEdges_inside (a : String) : ∀ b ∈ computedEdges computed a, b ∈ computed.map (·.name) := by
  intro b edge
  unfold computedEdges at edge
  dsimp only at edge
  split at edge
  · exact List.contains_iff_mem.mp (List.mem_filter.mp edge).2
  · cases edge

-- One more property: the cycle through it is told unless one through the same names was.
def tellCycle (computed : List Ir.Computed) (found : List (Nat × List String)) (entry : Ir.Computed × Nat) :
    List (Nat × List String) :=
  match cycleThrough? (computedEdges computed) (computed.map (·.name)) entry.1.name with
  | none => found
  | some cycle => if found.any (sameNames cycle ·.2) then found else found ++ [(entry.2, cycle)]

theorem mem_tellCycle {found : List (Nat × List String)} {entry : Ir.Computed × Nat} {told : Nat × List String}
    (member : told ∈ tellCycle computed found entry) : told ∈ found ∨ told.1 = entry.2 := by
  unfold tellCycle at member
  split at member
  · exact .inl member
  · split at member
    · exact .inl member
    · rcases List.mem_append.mp member with before | last
      · exact .inl before
      · exact .inr (congrArg Prod.fst (List.mem_singleton.mp last))

theorem tellCycles_index {entries : List (Ir.Computed × Nat)} {found : List (Nat × List String)}
    {told : Nat × List String} (member : told ∈ entries.foldl (tellCycle computed) found) :
    told ∈ found ∨ ∃ entry ∈ entries, told.1 = entry.2 := by
  induction entries generalizing found with
  | nil => exact .inl member
  | cons entry rest ih =>
      rcases ih member with before | ⟨other, later, same⟩
      · rcases mem_tellCycle before with old | new
        · exact .inl old
        · exact .inr ⟨entry, List.mem_cons_self, new⟩
      · exact .inr ⟨other, List.mem_cons_of_mem _ later, same⟩

-- The cycles that are told once the search went through some names.
structure Told (computed : List Ir.Computed) (passed : List String) (found : List (Nat × List String)) : Prop where
  rounds : ∀ told ∈ found, Round (computedEdges computed) told.2
  apart : found.Pairwise fun one other => ¬ ∀ name, name ∈ one.2 ↔ name ∈ other.2
  covers : ∀ name ∈ passed, TransGen (Leads (computedEdges computed)) name name → ∃ told ∈ found, name ∈ told.2

-- A cycle that is not told for its names being told leaves no name out.
theorem Told.step (told : Told computed passed found) (entry : Ir.Computed × Nat) :
    Told computed (passed ++ [entry.1.name]) (tellCycle computed found entry) := by
  unfold tellCycle
  cases searched : cycleThrough? (computedEdges computed) (computed.map (·.name)) entry.1.name with
  | none =>
      refine { told with covers := List.forall_mem_append.mpr ⟨told.covers, List.forall_mem_singleton.mpr ?_⟩ }
      intro leads
      have some := (cycleThrough?_isSome_iff computedEdges_inside).mpr leads
      rw [searched] at some
      cases some
  | some cycle =>
      obtain ⟨round, starts⟩ := cycleThrough?_round searched
      dsimp only
      split
      · next repeated =>
        obtain ⟨before, listed, same⟩ := List.any_eq_true.mp repeated
        refine { told with covers := List.forall_mem_append.mpr ⟨told.covers, List.forall_mem_singleton.mpr ?_⟩ }
        exact fun _ => ⟨before, listed, (sameNames_iff.mp same _).mp starts⟩
      · next new =>
        refine ⟨List.forall_mem_append.mpr ⟨told.rounds, List.forall_mem_singleton.mpr round⟩,
          List.pairwise_append.mpr ⟨told.apart, List.pairwise_singleton _ _, fun before listed => ?_⟩,
          List.forall_mem_append.mpr ⟨fun name earlier leads => ?_, List.forall_mem_singleton.mpr fun _ => ?_⟩⟩
        · refine List.forall_mem_singleton.mpr fun same => ?_
          exact new (List.any_eq_true.mpr ⟨before, listed, sameNames_iff.mpr fun name => (same name).symm⟩)
        · obtain ⟨before, listed, inside⟩ := told.covers name earlier leads
          exact ⟨before, List.mem_append_left _ listed, inside⟩
        · exact ⟨_, List.mem_append_right _ (List.mem_singleton_self _), starts⟩

theorem Told.run (told : Told computed passed found) (entries : List (Ir.Computed × Nat)) :
    Told computed (passed ++ entries.map (·.1.name)) (entries.foldl (tellCycle computed) found) := by
  induction entries generalizing passed found with
  | nil => rwa [List.map_nil, List.append_nil]
  | cons entry rest ih =>
      have later := ih (told.step entry)
      rwa [List.append_assoc] at later

theorem computedCycles_told (computed : List Ir.Computed) :
    Told computed (computed.map (·.name)) (computedCycles computed) := by
  have start : Told computed [] [] := ⟨nofun, .nil, nofun⟩
  have all := start.run computed.zipIdx
  have names : computed.zipIdx.map (·.1.name) = computed.map (·.name) :=
    (List.map_map (l := computed.zipIdx)).symm.trans (congrArg _ (List.zipIdx_map_fst 0 computed))
  rwa [List.nil_append, names] at all

-- Some cycle is told exactly if some property leads to itself.
theorem computedCycles_ne_nil_iff : computedCycles computed ≠ [] ↔
    ∃ name, TransGen (Leads (computedEdges computed)) name name := by
  have told := computedCycles_told computed
  constructor
  · intro some
    obtain ⟨cycle, listed⟩ := List.exists_mem_of_ne_nil _ some
    obtain ⟨start, _, same, _⟩ := told.rounds cycle listed
    exact ⟨start, (told.rounds cycle listed).leads (same ▸ List.mem_cons_self)⟩
  · rintro ⟨name, leads⟩
    obtain ⟨_, _, into⟩ := TransGen.tail'_iff.mp leads
    obtain ⟨cycle, listed, _⟩ := told.covers name (computedEdges_inside _ _ into) leads
    exact List.ne_nil_of_mem listed

-- Every cycle that is told is a finding.
theorem cycleFindings_causes (entity : Source.Entity) : (cycleFindings entity).map (·.cause) =
    (computedCycles (entity.computed.map Source.Computed.lower)).map fun told =>
      Cause.computedCycle entity.name told.2 := by
  unfold cycleFindings
  rw [List.map_filterMap]
  refine List.filterMap_eq_map_iff_forall_eq_some.mpr fun told member => ?_
  obtain impossible | ⟨entry, listed, same⟩ := tellCycles_index member
  · cases impossible
  obtain ⟨here, _⟩ := List.getElem?_eq_some_iff.mp (List.mem_zipIdx_iff_getElem?.mp listed)
  rw [← same, List.length_map] at here
  dsimp only
  rw [List.getElem?_eq_getElem here]
  rfl

-- An entity has a finding about cycles exactly if one of its computed properties leads to itself, where of a
-- repeated name the last declaration counts.
theorem cycleFindings_ne_nil_iff {entity : Source.Entity} : cycleFindings entity ≠ [] ↔
    ∃ name, TransGen (Leads (computedEdges (entity.computed.map Source.Computed.lower))) name name := by
  have told := congrArg (· = []) (cycleFindings_causes entity)
  simp only [List.map_eq_nil_iff] at told
  rw [← computedCycles_ne_nil_iff, ne_eq, ne_eq, told]

-- The warnings about the cycles of an entity. Each prints a way from a property along the edges back to it, which
-- passes no name twice; a property is printed in one of them exactly if it leads to itself; and no two of them print
-- the same properties.
theorem cycleFindings_exact (entity : Source.Entity) :
    let edges := computedEdges (entity.computed.map Source.Computed.lower)
    ∃ cycles : List (List String),
      (cycleFindings entity).map (fun finding => (finding.diagnostic.code, finding.diagnostic.message)) =
          cycles.map (fun cycle => (some DiagnosticCode.computedCycle,
            "Computed property cycle in entity '" ++ entity.name ++ "': " ++ String.intercalate " -> " cycle)) ∧
        (∀ cycle ∈ cycles, Round edges cycle) ∧
        (∀ name, (∃ cycle ∈ cycles, name ∈ cycle) ↔
          name ∈ entity.computed.map (·.name) ∧ TransGen (Leads edges) name name) ∧
        cycles.Pairwise fun one other => ¬ ∀ name, name ∈ one ↔ name ∈ other := by
  intro edges
  have told := computedCycles_told (entity.computed.map Source.Computed.lower)
  have names : (entity.computed.map Source.Computed.lower).map (·.name) = entity.computed.map (·.name) := List.map_map
  rw [names] at told
  have rounds := List.forall_mem_map.mpr told.rounds
  refine ⟨(computedCycles _).map (·.2), ?_, rounds, fun name => ⟨?_, ?_⟩, List.pairwise_map.mpr told.apart⟩
  · have printed := congrArg (List.map fun cause => (some cause.code, cause.message)) (cycleFindings_causes entity)
    rw [List.map_map, List.map_map] at printed
    rw [List.map_map]
    exact printed
  · rintro ⟨cycle, listed, member⟩
    have leads := (rounds cycle listed).leads member
    obtain ⟨_, _, into⟩ := TransGen.tail'_iff.mp leads
    exact ⟨names ▸ computedEdges_inside _ name into, leads⟩
  · rintro ⟨declared, leads⟩
    obtain ⟨last, listed, member⟩ := told.covers name declared leads
    exact ⟨last.2, List.mem_map_of_mem listed, member⟩

end Entity
end Charter.Compile

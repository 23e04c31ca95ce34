import Charter.Fields
import Mathlib.Data.List.Induction

/-!
What reading a map sees after it was written.
-/

namespace Charter.Fields
variable {α β : Type}

theorem put_of_get? {fields : Fields α} {key : String} {value : α} (found : fields.get? key = some value) :
    fields.put key value = fields := by
  induction fields with
  | nil => cases found
  | cons head rest ih =>
      obtain ⟨name, old⟩ := head
      by_cases same : name = key
      · simp only [get?, if_pos same] at found
        cases found
        simp [put, same]
      · simp only [get?, if_neg same] at found
        simp [put, same, ih found]

theorem mem_put {fields : Fields α} {key : String} {value : α} {pair : String × α}
    (present : pair ∈ fields.put key value) : pair = (key, value) ∨ pair ∈ fields := by
  induction fields with
  | nil => exact .inl (List.mem_singleton.mp present)
  | cons head rest ih =>
      obtain ⟨name, old⟩ := head
      by_cases same : name = key
      · simp only [put, if_pos same] at present
        rcases List.mem_cons.mp present with first | later
        · exact .inl first
        · exact .inr (List.mem_cons_of_mem _ later)
      · simp only [put, if_neg same] at present
        rcases List.mem_cons.mp present with first | later
        · exact .inr (first ▸ List.mem_cons_self)
        · exact (ih later).imp_right (List.mem_cons_of_mem _)

theorem mem_place {fields : Fields α} {key : String} {value : α} {pair : String × α}
    (present : pair ∈ fields.place key value) : pair = (key, value) ∨ pair ∈ fields := by
  induction fields with
  | nil => exact .inl (List.mem_singleton.mp present)
  | cons head rest ih =>
      obtain ⟨name, old⟩ := head
      unfold place at present
      split at present
      · exact (List.mem_cons.mp present).imp_right (List.mem_cons_of_mem _)
      · split at present
        · exact List.mem_cons.mp present
        · rcases List.mem_cons.mp present with first | later
          · exact .inr (first ▸ List.mem_cons_self)
          · exact (ih later).imp_right (List.mem_cons_of_mem _)

theorem mem_of_mem_erase {fields : Fields α} {key : String} {pair : String × α}
    (present : pair ∈ fields.erase key) : pair ∈ fields := by
  induction fields with
  | nil => cases present
  | cons head rest ih =>
      obtain ⟨name, old⟩ := head
      by_cases same : name = key
      · simp only [erase, if_pos same] at present
        exact List.mem_cons_of_mem _ present
      · simp only [erase, if_neg same] at present
        rcases List.mem_cons.mp present with first | later
        · exact first ▸ List.mem_cons_self
        · exact List.mem_cons_of_mem _ (ih later)

theorem mem_of_get? {fields : Fields α} {key : String} {value : α} (found : fields.get? key = some value) :
    (key, value) ∈ fields := by
  induction fields with
  | nil => cases found
  | cons head rest ih =>
      obtain ⟨name, old⟩ := head
      by_cases same : name = key
      · simp only [get?, if_pos same, Option.some.injEq] at found
        subst same found
        exact List.mem_cons_self
      · simp only [get?, if_neg same] at found
        exact List.mem_cons_of_mem _ (ih found)

theorem get?_map (change : α → β) (fields : Fields α) (key : String) :
    get? (fields.map fun (name, value) => (name, change value)) key = (fields.get? key).map change := by
  induction fields with
  | nil => rfl
  | cons head rest ih =>
      obtain ⟨name, value⟩ := head
      by_cases same : name = key <;> simp [get?, same, ih]

theorem overlay_cons (fields : Fields α) (key : String) (value : α) (rest : Fields α) :
    fields.overlay ((key, value) :: rest) = (fields.place key value).overlay rest := rfl

-- What stands under a key came from the patch or was there before.
theorem get?_overlay (fields patch : Fields α) (key : String) :
    (∃ value, (key, value) ∈ patch ∧ (fields.overlay patch).get? key = some value) ∨
      (fields.overlay patch).get? key = fields.get? key := by
  induction patch generalizing fields with
  | nil => exact .inr rfl
  | cons pair rest ih =>
      obtain ⟨name, value⟩ := pair
      rw [overlay_cons]
      obtain ⟨found, member, same⟩ | kept := ih (fields.place name value)
      · exact .inl ⟨found, List.mem_cons_of_mem _ member, same⟩
      rw [kept, get?_place]
      by_cases here : name = key
      · subst here
        exact .inl ⟨value, List.mem_cons_self, if_pos rfl⟩
      · exact .inr (if_neg here)

-- No key stands twice.
def Distinct (fields : Fields α) : Prop := fields.keys.Nodup

@[simp] theorem keys_nil : keys ([] : Fields α) = [] := rfl

@[simp] theorem keys_cons (key : String) (value : α) (rest : Fields α) :
    keys ((key, value) :: rest) = key :: keys rest := rfl

@[simp] theorem distinct_nil : Distinct ([] : Fields α) := List.nodup_nil

@[simp] theorem distinct_cons {key : String} {value : α} {rest : Fields α} :
    Distinct ((key, value) :: rest) ↔ key ∉ keys rest ∧ Distinct rest := List.nodup_cons

theorem mem_keys_place {fields : Fields α} {key name : String} {value : α} :
    name ∈ (fields.place key value).keys ↔ name = key ∨ name ∈ fields.keys := by
  induction fields with
  | nil => simp [place, keys]
  | cons head rest ih =>
      obtain ⟨first, old⟩ := head
      unfold place
      unfold keys at ih ⊢
      split
      · next same => simp [same]
      · split
        · simp
        · rw [List.map_cons, List.mem_cons, ih, List.map_cons, List.mem_cons]
          exact or_left_comm

-- A key that is new comes last.
theorem keys_put (fields : Fields α) (key : String) (value : α) :
    (fields.put key value).keys = if key ∈ fields.keys then fields.keys else fields.keys ++ [key] := by
  induction fields with
  | nil => rfl
  | cons head rest ih =>
      obtain ⟨name, old⟩ := head
      unfold put
      by_cases same : name = key
      · rw [if_pos same, keys_cons, keys_cons, if_pos (by rw [same]; exact List.mem_cons_self), same]
      · rw [if_neg same, keys_cons, keys_cons, ih]
        by_cases later : key ∈ keys rest
        · rw [if_pos later, if_pos (List.mem_cons_of_mem _ later)]
        · rw [if_neg later, if_neg (by simp [later, Ne.symm same]), List.cons_append]

theorem mem_keys_put {fields : Fields α} {key name : String} {value : α} :
    name ∈ (fields.put key value).keys ↔ name = key ∨ name ∈ fields.keys := by
  rw [keys_put]
  split
  · next present => exact (or_iff_right_of_imp fun same => same ▸ present).symm
  · rw [List.mem_append, List.mem_singleton, or_comm]

theorem put_absent {fields : Fields α} {key : String} (absent : key ∉ fields.keys) (value : α) :
    fields.put key value = fields ++ [(key, value)] := by
  induction fields with
  | nil => rfl
  | cons head rest ih =>
      obtain ⟨name, old⟩ := head
      rw [keys_cons, List.mem_cons, not_or] at absent
      rw [put, if_neg (Ne.symm absent.1), ih absent.2, List.cons_append]

-- A value that is replaced keeps its place.
theorem put_present {fields : Fields α} {key : String} {old : α} (found : fields.get? key = some old) (value : α) :
    ∃ front back, key ∉ keys front ∧ front ++ (key, old) :: back = fields ∧
      front ++ (key, value) :: back = fields.put key value := by
  induction fields with
  | nil => cases found
  | cons head rest ih =>
      obtain ⟨name, first⟩ := head
      by_cases same : name = key
      · subst same
        simp only [get?, if_true, Option.some.injEq] at found
        subst found
        exact ⟨[], rest, List.not_mem_nil, rfl, by simp [put]⟩
      · rw [get?, if_neg same] at found
        obtain ⟨front, back, absent, parted, placed⟩ := ih found
        refine ⟨(name, first) :: front, back, ?_, by rw [List.cons_append, parted], ?_⟩
        · rw [keys_cons, List.mem_cons, not_or]
          exact ⟨Ne.symm same, absent⟩
        · rw [put, if_neg same, List.cons_append, placed]

theorem put_put (fields : Fields α) (key : String) (one other : α) :
    (fields.put key one).put key other = fields.put key other := by
  induction fields with
  | nil => exact if_pos rfl
  | cons head rest ih =>
      obtain ⟨name, old⟩ := head
      by_cases same : name = key <;> simp [put, same, ih]

-- Values of two keys that are there may be replaced in either order.
theorem put_comm {fields : Fields α} {key other : String} (apart : key ≠ other) (present : key ∈ fields.keys)
    (present' : other ∈ fields.keys) (value value' : α) :
    (fields.put key value).put other value' = (fields.put other value').put key value := by
  induction fields with
  | nil => cases present
  | cons head rest ih =>
      obtain ⟨name, old⟩ := head
      by_cases first : name = key
      · subst first
        simp [put, apart]
      by_cases second : name = other
      · subst second
        simp [put, first]
      · have later := (List.mem_cons.mp present).resolve_left (Ne.symm first)
        have later' := (List.mem_cons.mp present').resolve_left (Ne.symm second)
        simp [put, first, second, ih later later']

theorem Distinct.put {fields : Fields α} (distinct : fields.Distinct) (key : String) (value : α) :
    (fields.put key value).Distinct := by
  unfold Distinct
  rw [keys_put]
  split
  · exact distinct
  · next fresh =>
    refine List.nodup_append.mpr ⟨distinct, List.pairwise_singleton _ _, fun name present other last => ?_⟩
    cases List.mem_singleton.mp last
    exact fun same => fresh (same ▸ present)

theorem distinct_ofList (pairs : List (String × α)) : Distinct (ofList pairs) := by
  suffices ∀ fields : Fields α, fields.Distinct →
      Distinct (pairs.foldl (fun fields pair => fields.put pair.1 pair.2) fields) from this [] List.nodup_nil
  induction pairs with
  | nil => exact fun _ distinct => distinct
  | cons pair rest ih => exact fun fields distinct => ih (fields.put pair.1 pair.2) (distinct.put pair.1 pair.2)

theorem mem_of_mem_ofList {pairs : List (String × α)} {pair : String × α} (member : pair ∈ ofList pairs) :
    pair ∈ pairs := by
  suffices ∀ fields : Fields α, pair ∈ pairs.foldl (fun fields pair => fields.put pair.1 pair.2) fields →
      pair ∈ pairs ∨ pair ∈ fields from (this [] member).resolve_right List.not_mem_nil
  clear member
  induction pairs with
  | nil => exact fun _ => .inr
  | cons first rest ih =>
      intro fields member
      rcases ih (fields.put first.1 first.2) member with later | put
      · exact .inl (List.mem_cons_of_mem _ later)
      · rcases mem_put put with rfl | old
        · exact .inl List.mem_cons_self
        · exact .inr old

theorem get?_of_not_mem {fields : Fields α} {key : String} (absent : key ∉ fields.keys) : fields.get? key = none := by
  cases found : fields.get? key with
  | none => rfl
  | some value => exact absurd (List.mem_map_of_mem (mem_of_get? found)) absent

theorem get?_of_mem_keys {fields : Fields α} {key : String} (present : key ∈ fields.keys) :
    ∃ value, fields.get? key = some value := by
  induction fields with
  | nil => cases present
  | cons head rest ih =>
      obtain ⟨name, value⟩ := head
      by_cases same : name = key
      · exact ⟨value, if_pos same⟩
      · obtain ⟨later, found⟩ := ih ((List.mem_cons.mp present).resolve_left (Ne.symm same))
        exact ⟨later, (if_neg same).trans found⟩

theorem Distinct.get?_of_mem {fields : Fields α} (distinct : fields.Distinct) {key : String} {value : α}
    (member : (key, value) ∈ fields) : fields.get? key = some value := by
  induction fields with
  | nil => cases member
  | cons head rest ih =>
      obtain ⟨first, old⟩ := head
      obtain ⟨fresh, others⟩ := List.nodup_cons.mp distinct
      rcases List.mem_cons.mp member with same | later
      · cases same
        exact if_pos rfl
      · have other : first ≠ key := by
          rintro rfl
          exact fresh (List.mem_map.mpr ⟨_, later, rfl⟩)
        rw [get?, if_neg other, ih others later]

theorem keys_erase_sublist (fields : Fields α) (key : String) : (fields.erase key).keys.Sublist fields.keys := by
  induction fields with
  | nil => exact .slnil
  | cons head rest ih =>
      obtain ⟨name, value⟩ := head
      unfold erase
      split
      · exact List.sublist_cons_self _ _
      · exact ih.cons_cons _

theorem Distinct.erase {fields : Fields α} (distinct : fields.Distinct) (key : String) :
    (fields.erase key).Distinct := List.Pairwise.sublist (keys_erase_sublist fields key) distinct

theorem Distinct.get?_erase {fields : Fields α} (distinct : fields.Distinct) (key name : String) :
    (fields.erase key).get? name = if key = name then none else fields.get? name := by
  induction fields with
  | nil => exact (ite_self _).symm
  | cons head rest ih =>
      obtain ⟨first, old⟩ := head
      obtain ⟨fresh, others⟩ := List.nodup_cons.mp distinct
      unfold Fields.erase
      by_cases here : first = key
      · subst here
        rw [if_pos rfl, get?]
        split
        · next same => exact get?_of_not_mem (same ▸ fresh)
        · rfl
      · rw [if_neg here, get?, get?, ih others]
        by_cases same : first = name
        · rw [if_pos same, if_pos same, if_neg (fun equal => here (same.trans equal.symm))]
        · rw [if_neg same, if_neg same]

-- Keys stand in increasing order.
def Ascending (fields : Fields α) : Prop := fields.keys.Pairwise (· < ·)

instance (fields : Fields α) : Decidable fields.Ascending :=
  inferInstanceAs (Decidable (List.Pairwise (· < ·) fields.keys))

theorem Ascending.distinct {fields : Fields α} (ascending : fields.Ascending) : fields.Distinct := by
  refine List.Pairwise.imp (fun {first second} (less : first < second) (same : first = second) => ?_) ascending
  exact String.lt_irrefl _ (same ▸ less)

theorem Ascending.place {fields : Fields α} (ascending : fields.Ascending) (key : String) (value : α) :
    (fields.place key value).Ascending := by
  induction fields with
  | nil => exact List.pairwise_singleton _ _
  | cons head rest ih =>
      obtain ⟨first, old⟩ := head
      obtain ⟨least, others⟩ := List.pairwise_cons.mp ascending
      unfold Fields.place
      split
      · next same => exact same ▸ ascending
      · next other =>
        split
        · next less =>
          refine List.pairwise_cons.mpr ⟨fun name present => ?_, ascending⟩
          rcases List.mem_cons.mp present with rfl | later
          · exact less
          · exact String.lt_trans less (least name later)
        · next notLess =>
          refine List.pairwise_cons.mpr ⟨fun name present => ?_, ih others⟩
          rcases mem_keys_place.mp present with rfl | later
          · exact Decidable.byContradiction fun notMore =>
              other (String.le_antisymm (String.not_lt.mp notLess) (String.not_lt.mp notMore))
          · exact least name later

-- Over other fields, a patch whose keys are distinct shows all of its own.
theorem Distinct.get?_overlay {patch : Fields α} (distinct : patch.Distinct) {key : String} {value : α}
    (found : patch.get? key = some value) {fields : Fields α} : (fields.overlay patch).get? key = some value := by
  induction patch generalizing fields with
  | nil => cases found
  | cons pair rest ih =>
      obtain ⟨name, first⟩ := pair
      obtain ⟨fresh, others⟩ := List.nodup_cons.mp distinct
      rw [overlay_cons]
      by_cases here : name = key
      · subst here
        simp only [get?, if_true] at found
        obtain ⟨again, member, _⟩ | kept := Fields.get?_overlay (fields.place name first) rest name
        · exact absurd (List.mem_map_of_mem member) fresh
        · rw [kept, get?_place, if_pos rfl, found]
      · rw [get?, if_neg here] at found
        exact ih others found

theorem Distinct.get?_overlay_or {patch : Fields α} (distinct : patch.Distinct) (fields : Fields α) (key : String) :
    (fields.overlay patch).get? key = (patch.get? key).or (fields.get? key) := by
  cases found : patch.get? key with
  | some value => exact distinct.get?_overlay found
  | none =>
      obtain ⟨value, member, _⟩ | kept := Fields.get?_overlay fields patch key
      · rw [distinct.get?_of_mem member] at found
        cases found
      · exact kept

-- Two maps with their keys in order that read alike are the same.
theorem Ascending.ext {fields others : Fields α} (ascending : fields.Ascending) (ascending' : others.Ascending)
    (alike : ∀ key, fields.get? key = others.get? key) : fields = others := by
  induction fields generalizing others with
  | nil =>
      cases others with
      | nil => rfl
      | cons other others =>
          have found := alike other.1
          rw [get?, get?, if_pos rfl] at found
          cases found
  | cons head rest ih =>
      obtain ⟨key, value⟩ := head
      obtain ⟨least, later⟩ := List.pairwise_cons.mp ascending
      cases others with
      | nil =>
          have found := alike key
          rw [get?, get?, if_pos rfl] at found
          cases found
      | cons other others =>
          obtain ⟨name, found⟩ := other
          obtain ⟨least', later'⟩ := List.pairwise_cons.mp ascending'
          -- Each first key stands in the other map too, and is not less than the first key there.
          have first : key = name := by
            have here := alike key
            have there := alike name
            simp only [get?, if_true] at here there
            split at here
            · next same => exact same.symm
            split at there
            · next same => exact same
            have more := least' key (List.mem_map_of_mem (mem_of_get? here.symm))
            have less := least name (List.mem_map_of_mem (mem_of_get? there))
            exact absurd (String.lt_trans more less) (String.lt_irrefl _)
          subst first
          have here := alike key
          simp only [get?, if_true, Option.some.injEq] at here
          subst here
          refine congrArg ((key, value) :: ·) (ih later later' fun wanted => ?_)
          by_cases same : key = wanted
          · subst same
            rw [get?_of_not_mem (List.nodup_cons.mp ascending.distinct).1,
              get?_of_not_mem (List.nodup_cons.mp ascending'.distinct).1]
          · have others := alike wanted
            rwa [get?, get?, if_neg same, if_neg same] at others

theorem Ascending.overlay {fields : Fields α} (ascending : fields.Ascending) (patch : Fields α) :
    (fields.overlay patch).Ascending := by
  induction patch generalizing fields with
  | nil => exact ascending
  | cons pair rest ih => exact ih (ascending.place pair.1 pair.2)

theorem ascending_sorted (fields : Fields α) : (sorted fields).Ascending := by
  have empty : Ascending ([] : Fields α) := List.Pairwise.nil
  exact empty.overlay fields

theorem Distinct.get?_sorted {fields : Fields α} (distinct : fields.Distinct) (key : String) :
    (sorted fields).get? key = fields.get? key := (distinct.get?_overlay_or [] key).trans Option.or_none

theorem Distinct.sorted_inj {fields others : Fields α} (distinct : fields.Distinct) (distinct' : others.Distinct) :
    sorted fields = sorted others ↔ ∀ key, fields.get? key = others.get? key := by
  constructor
  · intro same key
    rw [← distinct.get?_sorted, same, distinct'.get?_sorted]
  · intro alike
    refine (ascending_sorted fields).ext (ascending_sorted others) fun key => ?_
    rw [distinct.get?_sorted, alike, distinct'.get?_sorted]

theorem Distinct.sorted_eq_nil {fields : Fields α} (distinct : fields.Distinct) : sorted fields = [] ↔ fields = [] := by
  constructor
  · intro empty
    cases fields with
    | nil => rfl
    | cons head rest =>
        have found := distinct.get?_sorted head.1
        rw [empty, get?, get?, if_pos rfl] at found
        cases found
  · rintro rfl
    rfl

theorem get?_append (fields others : Fields α) (key : String) :
    get? (fields ++ others) key = (fields.get? key).or (others.get? key) := by
  induction fields with
  | nil => rfl
  | cons head rest ih =>
      obtain ⟨name, value⟩ := head
      by_cases same : name = key <;> simp [get?, same, ih]

theorem Distinct.get?_reverse {fields : Fields α} (distinct : fields.Distinct) (key : String) :
    get? fields.reverse key = fields.get? key := by
  induction fields with
  | nil => rfl
  | cons head rest ih =>
      obtain ⟨name, value⟩ := head
      obtain ⟨fresh, others⟩ := distinct_cons.mp distinct
      rw [List.reverse_cons, get?_append, ih others]
      by_cases same : name = key
      · rw [get?_of_not_mem (same ▸ fresh), Option.none_or, get?, if_pos same, get?, if_pos same]
      · rw [get?, if_neg same, get?, Option.or_none, get?, if_neg same]

-- What stands under a key before a patch has a value after it.
theorem get?_overlay_eq_none {fields patch : Fields α} {key : String}
    (absent : (fields.overlay patch).get? key = none) : fields.get? key = none := by
  obtain ⟨value, _, found⟩ | kept := get?_overlay fields patch key
  · rw [found] at absent
    cases absent
  · exact kept.symm.trans absent

theorem keys_map (change : α → β) (fields : Fields α) :
    keys (fields.map fun (name, value) => (name, change value)) = fields.keys := by
  unfold keys
  rw [List.map_map]
  rfl

theorem Distinct.map {fields : Fields α} (distinct : fields.Distinct) (change : α → β) :
    Distinct (fields.map fun (name, value) => (name, change value)) := by
  unfold Distinct
  rwa [keys_map]

theorem put_map (change : α → β) (fields : Fields α) (key : String) (value : α) :
    put (fields.map fun (name, value) => (name, change value)) key (change value) =
      (fields.put key value).map fun (name, value) => (name, change value) := by
  induction fields with
  | nil => rfl
  | cons head rest ih =>
      obtain ⟨name, old⟩ := head
      by_cases same : name = key
      · simp [put, same]
      · simpa [put, same] using ih

theorem foldl_put_map (change : α → β) (pairs : List (String × α)) (fields : Fields α) :
    (pairs.map fun (name, value) => (name, change value)).foldl (fun kept pair => put kept pair.1 pair.2)
        (fields.map fun (name, value) => (name, change value)) =
      (pairs.foldl (fun kept pair => kept.put pair.1 pair.2) fields).map fun (name, value) => (name, change value) := by
  induction pairs generalizing fields with
  | nil => rfl
  | cons pair rest ih =>
      rw [List.map_cons, List.foldl_cons, List.foldl_cons, put_map]
      exact ih _

-- Changing the values of pairs does not change which of them are kept, nor where they stand.
theorem ofList_map (change : α → β) (pairs : List (String × α)) :
    ofList (pairs.map fun (name, value) => (name, change value)) =
      (ofList pairs).map fun (name, value) => (name, change value) := foldl_put_map change pairs []

/-! The first pair of each key. -/

section Firsts
variable {pairs : List (String × α)}

theorem firsts_concat (pairs : List (String × α)) (pair : String × α) :
    firsts (pairs ++ [pair]) = if (firsts pairs).has pair.1 then firsts pairs else firsts pairs ++ [pair] := by
  rw [firsts, List.foldl_append]
  rfl

theorem get?_firsts (pairs : List (String × α)) (key : String) : (firsts pairs).get? key = get? pairs key := by
  induction pairs using List.reverseRecOn with
  | nil => rfl
  | append_singleton before pair ih =>
      rw [firsts_concat, get?_append, ← ih]
      split
      · next known =>
        obtain ⟨old, found⟩ := Option.isSome_iff_exists.mp known
        by_cases same : pair.1 = key
        · rw [← same, found, Option.some_or]
        · simp [get?, same]
      · rw [get?_append]

theorem has_iff {fields : Fields α} {key : String} : fields.has key = true ↔ key ∈ fields.keys := by
  refine ⟨fun known => ?_, fun present => ?_⟩
  · obtain ⟨value, found⟩ := Option.isSome_iff_exists.mp known
    exact List.mem_map_of_mem (mem_of_get? found)
  · obtain ⟨value, found⟩ := get?_of_mem_keys present
    rw [has, found]
    rfl

theorem keys_firsts (pairs : List (String × α)) : (firsts pairs).keys = (keys pairs).eraseDups := by
  induction pairs using List.reverseRecOn with
  | nil => rfl
  | append_singleton before pair ih =>
      have last : keys (before ++ [pair]) = keys before ++ [pair.1] := List.map_append
      have known : (firsts before).has pair.1 = true ↔ pair.1 ∈ keys before := by
        rw [has_iff, ih, List.mem_eraseDups]
      rw [firsts_concat, last, List.eraseDups_append, ← ih]
      by_cases old : pair.1 ∈ keys before
      · simp [known.mpr old, List.removeAll, old]
      · have new : [pair.1].removeAll (keys before) = [pair.1] := by simp [List.removeAll, old]
        rw [if_neg (mt known.mp old), new, keys, List.map_append]
        rfl

theorem distinct_firsts (pairs : List (String × α)) : (firsts pairs).Distinct := by
  induction pairs using List.reverseRecOn with
  | nil => exact List.nodup_nil
  | append_singleton before pair ih =>
      rw [firsts_concat]
      split
      · exact ih
      · next fresh =>
        have absent : pair.1 ∉ (firsts before).keys := fun present => fresh (has_iff.mpr present)
        rw [← put_absent absent]
        exact ih.put pair.1 pair.2

theorem mem_of_mem_firsts {pair : String × α} (member : pair ∈ firsts pairs) : pair ∈ pairs :=
  mem_of_get? (get?_firsts pairs pair.1 ▸ (distinct_firsts pairs).get?_of_mem member)

-- A text stands for the first item that has it.
theorem get?_keyed {β : Type} (text : β → String) (items : List β) (key : String) :
    get? (items.map fun item => (text item, item)) key = items.find? (text · == key) := by
  induction items with
  | nil => rfl
  | cons item rest ih =>
      by_cases same : text item = key
      · simp [get?, same]
      · simp [get?, same, ih]

end Firsts

end Charter.Fields

/-!
Functions that go through a list item by item, as those do that go down a nested recursion. They give the list of what
the items give, or tell whether all items are so.
-/

namespace Charter
variable {α β : Type}

theorem List.eq_map_of {f : List α → List β} {g : α → β} (nil : f [] = [])
    (cons : ∀ item rest, f (item :: rest) = g item :: f rest) (items : List α) : f items = items.map g := by
  induction items with
  | nil => exact nil
  | cons item rest ih => rw [cons, ih, List.map_cons]

theorem List.eq_flatMap_of {f : List α → List β} {g : α → List β} (nil : f [] = [])
    (cons : ∀ item rest, f (item :: rest) = g item ++ f rest) (items : List α) : f items = items.flatMap g := by
  induction items with
  | nil => exact nil
  | cons item rest ih => rw [cons, ih, List.flatMap_cons]

theorem List.eq_all_of {f : List α → Bool} {g : α → Bool} (nil : f [] = true)
    (cons : ∀ item rest, f (item :: rest) = (g item && f rest)) (items : List α) : f items = items.all g := by
  induction items with
  | nil => exact nil
  | cons item rest ih => rw [cons, ih, List.all_cons]

end Charter

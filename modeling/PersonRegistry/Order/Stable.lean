/-! Sorting that keeps the order of what is equal. -/

namespace PersonRegistry.Order

/-- Puts an element before the first one it may stand before. -/
def insert (le : α → α → Bool) (a : α) : List α → List α
  | [] => [a]
  | b :: rest => if le a b then a :: b :: rest else b :: insert le a rest

/-- Sorts a list; elements that may stand in either order keep theirs. -/
def sort (le : α → α → Bool) : List α → List α
  | [] => []
  | a :: rest => insert le a (sort le rest)

end PersonRegistry.Order

/-! Taking a sequence apart at a separator. -/

namespace PersonRegistry.Text

/-- The parts of a sequence between the occurrences of a mark. There is one more of them than marks. -/
def partsAt [DecidableEq α] (mark : α) : List α → List (List α)
  | [] => [[]]
  | a :: rest =>
      if a = mark then [] :: partsAt mark rest
      else
        match partsAt mark rest with
        | [] => [[a]]
        | part :: more => (a :: part) :: more

end PersonRegistry.Text

import PersonRegistry.Proofs.Text.Lowercase

/-! The start of a text in small letters is a start of the text in small letters, unless it is cut off
within a word right behind a capital sigma: on its own such a start ends with the final sigma.
-/

namespace PersonRegistry.Text

/-- A start is cut off behind a capital sigma that ends a word there and does not in the whole text: no more
than case-ignorable characters stand behind it, and the rest goes on with a cased letter. `before` is read
backwards.
-/
def cutsSigmaAfter (before : List Char) : (start rest : List Char) → Bool
  | [], _ => false
  | c :: more, rest =>
      c = 'Σ' && (meetsCased before && more.all isCaseIgnorable && meetsCased rest)
        || cutsSigmaAfter (c :: before) more rest

/-- A start of a text is cut off behind a capital sigma that does not end a word in the text. -/
def cutsSigma (start text : String) : Bool :=
  cutsSigmaAfter [] start.toList (text.toList.drop start.toList.length)

theorem cutsSigmaAfter_of_not_mem {before start rest : List Char} (noSigma : 'Σ' ∉ start)
    : cutsSigmaAfter before start rest = false := by
  induction start generalizing before with
  | nil => rfl
  | cons c more ih =>
      obtain ⟨other, noMore⟩ := List.ne_and_not_mem_of_not_mem_cons noSigma
      rw [cutsSigmaAfter, decide_eq_false (Ne.symm other), ih noMore]
      rfl

theorem meetsCased_cons (c : Char) (rest : List Char)
    : meetsCased (c :: rest) = if isCaseIgnorable c then meetsCased rest else isCased c := by
  rw [meetsCased, List.dropWhile_cons]
  cases isCaseIgnorable c <;> rfl

theorem meetsCased_append (first later : List Char)
    : meetsCased (first ++ later)
      = if first.all isCaseIgnorable then meetsCased later else meetsCased first := by
  induction first with
  | nil => rfl
  | cons c more ih =>
      rw [List.cons_append, meetsCased_cons, meetsCased_cons, List.all_cons, ih]
      cases isCaseIgnorable c <;> rfl

theorem meetsCased_of_all {chars : List Char} (ignored : chars.all isCaseIgnorable = true)
    : meetsCased chars = false := by
  rw [← List.append_nil chars, meetsCased_append, if_pos ignored]
  rfl

/-- What follows a start changes whether a word ends in it just where the start is cut off in the word. -/
theorem endsWord_append (before start rest : List Char)
    : endsWord before start = endsWord before (start ++ rest)
      ↔ (meetsCased before && start.all isCaseIgnorable && meetsCased rest) = false := by
  rw [endsWord, endsWord, meetsCased_append]
  split
  next ignored =>
    rw [meetsCased_of_all ignored, ignored]
    cases meetsCased before <;> cases meetsCased rest <;> decide
  next solid => simp [solid]

/-- The small form of a character has the same length wherever it stands. -/
theorem length_lowerInPlace (before after other : List Char) (c : Char)
    : (lowerInPlace before c after).length = (lowerInPlace before c other).length := by
  rw [lowerInPlace, lowerInPlace]
  split
  next => rfl
  next => split <;> rfl

theorem lowerInPlace_append (before start rest : List Char) (c : Char)
    : lowerInPlace before c start = lowerInPlace before c (start ++ rest)
      ↔ (c = 'Σ' && (meetsCased before && start.all isCaseIgnorable && meetsCased rest)) = false := by
  by_cases sigma : c = 'Σ'
  · rw [lowerInPlace, lowerInPlace, if_pos sigma, if_pos sigma, decide_eq_true sigma, Bool.true_and,
      ← endsWord_append]
    cases endsWord before start <;> cases endsWord before (start ++ rest) <;> decide
  · simp [lowerInPlace, sigma]

theorem append_prefix_append {α : Type} {first other : List α} (same : first.length = other.length)
    (later rest : List α)
    : first ++ later <+: other ++ rest ↔ first = other ∧ later <+: rest := by
  constructor
  · rintro ⟨more, split⟩
    rw [List.append_assoc] at split
    obtain ⟨rfl, rest⟩ := List.append_inj split same
    exact ⟨rfl, more, rest⟩
  · rintro ⟨rfl, starts⟩
    exact (List.prefix_append_right_inj first).mpr starts

/-- A start in small letters starts the whole in small letters just if it cuts no sigma off, by induction on
the start.
-/
theorem lowercaseAfter_prefix (before start rest : List Char)
    : lowercaseAfter before start <+: lowercaseAfter before (start ++ rest)
      ↔ cutsSigmaAfter before start rest = false := by
  induction start generalizing before with
  | nil => exact iff_of_true (List.nil_prefix) rfl
  | cons c more ih =>
      rw [List.cons_append, lowercaseAfter, lowercaseAfter, cutsSigmaAfter,
        append_prefix_append (length_lowerInPlace before more (more ++ rest) c), lowerInPlace_append,
        ih, Bool.or_eq_false_iff]

theorem lowercase_prefix {start text : String} (starts : start.toList <+: text.toList)
    : (lowercase start).toList <+: (lowercase text).toList ↔ cutsSigma start text = false := by
  obtain ⟨rest, whole⟩ := starts
  rw [lowercase, lowercase, String.toList_ofList, String.toList_ofList, cutsSigma, ← whole,
    List.drop_left, lowercaseAfter_prefix]

-- the name of a sea that ends with a sigma, and its start up to the other one
example : cutsSigma "ΘΑΛΑΣ" "ΘΑΛΑΣΣΑ" = true := by decide +kernel

end PersonRegistry.Text

import PersonRegistry.Text.Lowercase

/-! The characters of a text in small letters: no Latin capital is among them, and what is neither a letter
nor a mark of one stood in the text before.
-/

namespace PersonRegistry.Text

def IsCapital (c : Char) : Prop := 0x41 ≤ c.toNat ∧ c.toNat ≤ 0x5a

theorem toLower_of_not_capital {c : Char} (small : ¬IsCapital c) : c.toLower = c := by
  refine dif_neg fun capital => small ?_
  simpa [IsCapital, UInt32.le_iff_toNat_le, ge_iff_le] using capital

theorem LowerRun.of_covering? {runs : List LowerRun} {code : Nat} {run : LowerRun}
    (found : covering? runs code = some run)
    : run ∈ runs ∧ run.covers code = true := by
  induction runs with
  | nil => cases found
  | cons first rest ih =>
      rw [covering?] at found
      split at found
      next => cases found
      next =>
        split at found
        next covers =>
          obtain rfl := Option.some.inj found
          exact ⟨List.mem_cons_self, covers⟩
        next =>
          obtain ⟨member, covers⟩ := ih found
          exact ⟨List.mem_cons_of_mem first member, covers⟩

/-- The small letters of a run are characters beyond the Latin capitals, and lie on one side of the last
code points of the first plane.
-/
theorem lowerRuns_targets
    : ∀ run ∈ lowerRuns,
        0x61 ≤ run.target
        ∧ (run.target + (run.last - run.first) < 0xd800
          ∨ 0xdfff < run.target ∧ run.target + (run.last - run.first) < 0xfffd
          ∨ 0xffff < run.target ∧ run.target + (run.last - run.first) < 0x110000) := by
  decide +kernel

/-- A small letter, or a mark of one, as lower-casing puts it in the place of another character. -/
structure IsLowered (c : Char) : Prop where
  small : 0x61 ≤ c.toNat
  assigned : c.toNat ≠ 0xfffd ∧ c.toNat ≠ 0xfffe ∧ c.toNat ≠ 0xffff

/-- A character that no run covers is no capital, since the first run covers them all. -/
theorem lowerChar_cases (c : Char) : lowerChar c = c ∧ ¬IsCapital c ∨ IsLowered (lowerChar c) := by
  rw [lowerChar, lowerCode]
  cases found : LowerRun.covering? lowerRuns c.toNat with
  | none =>
      refine Or.inl ⟨Char.ofNat_toNat c, fun capital => ?_⟩
      have covered : LowerRun.covers ⟨0x41, 0x5a, 1, 0x61⟩ c.toNat = true := by
        simp [LowerRun.covers, capital.1, capital.2, Nat.mod_one]
      rw [lowerRuns, LowerRun.covering?, if_neg (Nat.not_lt.mpr capital.1), if_pos covered] at found
      cases found
  | some run =>
      obtain ⟨member, covers⟩ := LowerRun.of_covering? found
      obtain ⟨small, places⟩ := lowerRuns_targets run member
      simp only [LowerRun.covers, Bool.and_eq_true, decide_eq_true_eq] at covers
      have code : (Char.ofNat (run.target + (c.toNat - run.first))).toNat
          = run.target + (c.toNat - run.first) := by
        rw [Char.ofNat, dif_pos (by rw [Nat.isValidChar]; omega)]
        rfl
      refine Or.inr ⟨?_, ?_⟩
      · rw [code]
        omega
      · rw [code]
        omega

/-- A character in small letters stood in the text and is no capital, or was put there, by induction on the
text.
-/
theorem mem_lowercaseAfter {c : Char} {before text : List Char}
    (member : c ∈ lowercaseAfter before text)
    : c ∈ text ∧ ¬IsCapital c ∨ IsLowered c := by
  induction text generalizing before with
  | nil => cases member
  | cons d rest ih =>
      rw [lowercaseAfter] at member
      rcases List.mem_append.mp member with here | later
      · rw [lowerInPlace] at here
        split at here
        next =>
          obtain rfl := List.mem_singleton.mp here
          exact Or.inr (by split <;> exact ⟨by decide, by decide⟩)
        next =>
          split at here
          next =>
            rcases List.mem_cons.mp here with rfl | dot
            · exact Or.inr ⟨by decide, by decide⟩
            · obtain rfl := List.mem_singleton.mp dot
              exact Or.inr ⟨by decide, by decide⟩
          next =>
            obtain rfl := List.mem_singleton.mp here
            rcases lowerChar_cases d with ⟨same, small⟩ | lowered
            · rw [same]
              exact Or.inl ⟨List.mem_cons_self, small⟩
            · exact Or.inr lowered
      · exact (ih later).imp_left fun ⟨old, small⟩ => ⟨List.mem_cons_of_mem d old, small⟩

theorem mem_lowercase {c : Char} {text : String} (member : c ∈ (lowercase text).toList)
    : c ∈ text.toList ∧ ¬IsCapital c ∨ IsLowered c := by
  rw [lowercase, String.toList_ofList] at member
  exact mem_lowercaseAfter member

/-- No character is lost in small letters, by induction on the text. -/
theorem length_le_lowercaseAfter (before text : List Char)
    : text.length ≤ (lowercaseAfter before text).length := by
  induction text generalizing before with
  | nil => exact Nat.le_refl 0
  | cons c rest ih =>
      have here : 1 ≤ (lowerInPlace before c rest).length := by
        rw [lowerInPlace]
        split
        next => exact Nat.le_refl 1
        next => split <;> exact Nat.le_add_left 1 _
      rw [lowercaseAfter, List.length_append, List.length_cons, Nat.add_comm]
      exact Nat.add_le_add here (ih _)

theorem toLower_of_mem_lowercase {c : Char} {text : String} (member : c ∈ (lowercase text).toList)
    : c.toLower = c := by
  refine toLower_of_not_capital fun capital => ?_
  rcases mem_lowercase member with ⟨-, small⟩ | lowered
  · exact small capital
  · exact absurd capital.2 (Nat.not_le.mpr (Nat.lt_of_lt_of_le (by decide) lowered.small))

end PersonRegistry.Text

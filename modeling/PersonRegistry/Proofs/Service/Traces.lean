import PersonRegistry.Proofs.Service.Requests

/-! The calls that a program makes, with their answers, and what holds of a program once it is over. -/

namespace PersonRegistry.Service

/-- A call and the answer to it. -/
structure Answered where
  call : Call
  answer : call.Answer

namespace Program

variable {α β : Type}

/-- However its calls are answered, as long as it is as promised, a program is over after such calls and
with such a result. Calls are listed latest first; `earlier` were made before.
-/
def EndsAs (promised : (c : Call) → c.Answer → Prop) (ending : List Answered → α → Prop)
    : (earlier : List Answered) → Program α → Prop
  | earlier, .done a => ending earlier a
  | earlier, .ask c next =>
      ∀ answer, promised c answer → (next answer).EndsAs promised ending (⟨c, answer⟩ :: earlier)

variable {promised : (c : Call) → c.Answer → Prop} {program : Program α} {earlier : List Answered}

theorem EndsAs.imp {ending weaker : List Answered → α → Prop}
    (ends : program.EndsAs promised ending earlier)
    (implies : ∀ calls a, ending calls a → weaker calls a)
    : program.EndsAs promised weaker earlier := by
  induction program generalizing earlier with
  | done a => exact implies _ a ends
  | ask c next ih => exact fun answer kept => ih answer (ends answer kept)

/-- A program whose result is passed on is over after the same calls, by induction on it. -/
theorem EndsAs.map {ending : List Answered → β → Prop} (f : α → β)
    (ends : program.EndsAs promised (fun calls a => ending calls (f a)) earlier)
    : (f <$> program).EndsAs promised ending earlier := by
  induction program generalizing earlier with
  | done a => exact ends
  | ask c next ih => exact fun answer kept => ih answer (ends answer kept)

section Trace

variable {σ : Type} {perform : (c : Call) → σ → c.Answer × σ} {s : σ}

/-- The calls of a run, earliest first. -/
def trace (perform : (c : Call) → σ → c.Answer × σ) : Program α → σ → List Answered
  | .done _, _ => []
  | .ask c next, s =>
      let (answer, s) := perform c s
      ⟨c, answer⟩ :: (next answer).trace perform s

theorem trace_bind (program : Program α) (f : α → Program β) (s : σ)
    : (program.bind f).trace perform s
      = program.trace perform s
        ++ (f (program.run perform s).1).trace perform (program.run perform s).2 := by
  induction program generalizing s with
  | done a => rfl
  | ask c next ih => exact congrArg (List.cons _) (ih _ _)

/-- What each call keeps, a run keeps, by induction on the program. -/
theorem run_induction {motive : σ → Prop} (program : Program α)
    (call : ∀ c s, motive s → motive (perform c s).2) (start : motive s)
    : motive (program.run perform s).2 := by
  induction program generalizing s with
  | done a => exact start
  | ask c next ih => exact ih _ (call c s start)

end Trace

/-- A program is over. -/
def IsOver (program : Program α) : Prop := ∃ a, program = .done a

/-- A program is over and did not fail. -/
def Succeeded (program : Program (Except Error α)) : Prop := ∃ a, program = .done (.ok a)

instance : DecidablePred (IsOver (α := α))
  | .done a => .isTrue ⟨a, rfl⟩
  | .ask _ _ => .isFalse fun ⟨_, same⟩ => by cases same

instance : DecidablePred (Succeeded (α := α))
  | .done (.ok a) => .isTrue ⟨a, rfl⟩
  | .done (.error _) => .isFalse fun ⟨_, same⟩ => by cases same
  | .ask _ _ => .isFalse fun ⟨_, same⟩ => by cases same

end Program
end PersonRegistry.Service

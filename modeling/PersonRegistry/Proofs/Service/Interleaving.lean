import Mathlib.Logic.Relation
import PersonRegistry.Proofs.Service.Requests

/-! Requests that overlap: each is advanced by one call of its surroundings at a time, in any order, and
may be given up between two calls.
-/

namespace PersonRegistry.Service

open Time (Span)

/-- The surroundings, and what is left to do of the requests that were begun. -/
structure Underway where
  backend : Backend
  programs : List (Program (Except Error Outcome)) := []

/-- A step of the whole. In between the surroundings may drift by themselves. -/
inductive Step (drifts : Backend → Backend → Prop) : Underway → Underway → Prop
  | begin (request : Request) (span : Span) (s : Underway)
    : Step drifts s { s with programs := programOf span request :: s.programs }
  | call {s : Underway} {before after : List (Program (Except Error Outcome))} {c : Call}
      {next : c.Answer → Program (Except Error Outcome)}
      (underway : s.programs = before ++ .ask c next :: after)
    : Step drifts s
        { backend := (s.backend.perform c).2
          programs := before ++ next (s.backend.perform c).1 :: after }
  /-- A program is over, or is given up. -/
  | leave {s : Underway} {before after : List (Program (Except Error Outcome))}
      {program : Program (Except Error Outcome)}
      (underway : s.programs = before ++ program :: after)
    : Step drifts s { s with programs := before ++ after }
  | drift {s : Underway} {b : Backend} (drifted : drifts s.backend b)
    : Step drifts s { s with backend := b }

abbrev Steps (drifts : Backend → Backend → Prop) : Underway → Underway → Prop :=
  Relation.ReflTransGen (Step drifts)

variable {drifts : Backend → Backend → Prop} {s s' : Underway}

/-- A program that nobody interrupts takes the steps of its run, by induction on it. -/
theorem Steps.of_run (program : Program (Except Error Outcome)) (b : Backend)
    (others : List (Program (Except Error Outcome)))
    : Steps drifts ⟨b, program :: others⟩
        ⟨(program.run Backend.perform b).2,
          .done (program.run Backend.perform b).1 :: others⟩ := by
  induction program generalizing b with
  | done a => exact .refl
  | ask c next ih =>
      have underway : (Underway.mk b (.ask c next :: others)).programs
          = [] ++ .ask c next :: others := rfl
      exact .head (.call underway) (ih _ _)

/-- The whole once a request was served that nobody interrupts. -/
def Underway.served (s : Underway) (request : Request) (span : Span := 0) : Underway where
  backend := ((programOf span request).run Backend.perform s.backend).2
  programs := .done ((programOf span request).run Backend.perform s.backend).1 :: s.programs

theorem Steps.served (s : Underway) (request : Request) : Steps drifts s (s.served request) :=
  .head (.begin request 0 s) (Steps.of_run _ s.backend s.programs)

/-- What every program underway keeps to, each of its steps keeps to. -/
theorem Step.keeps {allowed : Call → Prop} {promised : (c : Call) → c.Answer → Prop}
    (requests : ∀ span request, (programOf span request).Keeps allowed promised)
    (answers : ∀ c, promised c (s.backend.perform c).1)
    (keeps : ∀ program ∈ s.programs, program.Keeps allowed promised) (step : Step drifts s s')
    : ∀ program ∈ s'.programs, program.Keeps allowed promised := by
  cases step with
  | begin request span =>
      intro program member
      rcases List.mem_cons.mp member with rfl | old
      · exact requests span request
      · exact keeps program old
  | @call _ before after c next underway =>
      intro program member
      rw [underway] at keeps
      have own := keeps (.ask c next) (by simp)
      rcases List.mem_append.mp member with old | later
      · exact keeps program (List.mem_append_left _ old)
      · rcases List.mem_cons.mp later with rfl | old
        · exact own.2 _ (answers c)
        · exact keeps program (by simp [old])
  | leave underway =>
      intro program member
      rw [underway] at keeps
      refine keeps program ?_
      rcases List.mem_append.mp member with old | old <;> simp [old]
  | drift _ => exact keeps

end PersonRegistry.Service

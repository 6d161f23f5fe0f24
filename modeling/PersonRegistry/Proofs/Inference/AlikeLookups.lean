import PersonRegistry.Proofs.Inference.Enrichment

/-! Lookups of replies that are taken for the same, up to what exactly is wrong with a payload that is of no
use. They ask the same services at the same times, and come to the same result.
-/

namespace PersonRegistry.Inference

open Time (Span)

variable {t : Trait}

/-- Why a lookup stopped, whatever is wrong with a payload that is of no use. -/
def Stop.blurred : Stop → Stop
  | .unusable t _ => .unusable t .absent
  | stop => stop

/-- Replies that take the same time and are taken for the same, up to what is wrong with a payload. -/
structure Reply.Alike (t : Trait) (left right : Reply) : Prop where
  delay : left.delay = right.delay
  taken : (left.taken t).mapError Stop.blurred = (right.taken t).mapError Stop.blurred

namespace Race

/-- Two lookups stand alike, up to what is wrong with a payload. -/
inductive Alike (race : Race) : Race → Prop
  | stopped (stop : Option Stop) (same : race.stop.map Stop.blurred = stop.map Stop.blurred)
      : race.Alike { race with stop }

variable {race other : Race} {left right : Reply} {deadline : Span} {replies others : Trait → Reply}

theorem Alike.refl (race : Race) : race.Alike race := .stopped race.stop rfl

theorem isSome_of_blurred {stop otherStop : Option Stop}
    (same : stop.map Stop.blurred = otherStop.map Stop.blurred)
    : stop.isSome = otherStop.isSome := by
  have some := congrArg Option.isSome same
  rwa [Option.isSome_map, Option.isSome_map] at some

theorem Alike.cancel (alike : race.Alike other) {stop otherStop : Stop}
    (same : stop.blurred = otherStop.blurred)
    : (race.cancel stop).Alike (other.cancel otherStop) := by
  obtain ⟨earlier, stops⟩ := alike
  refine .stopped (earlier <|> some otherStop) ?_
  rw [Race.cancel]
  generalize race.stop = first at stops
  cases first <;> cases earlier <;> simp_all

theorem Alike.take (alike : race.Alike other) (same : left.Alike t right)
    : (race.take t left).Alike (other.take t right) := by
  have taken := same.taken
  rw [Race.take, Race.take]
  cases first : left.taken t with
  | ok found =>
      cases second : right.taken t with
      | ok others =>
          rw [first, second] at taken
          obtain rfl := Except.ok.inj taken
          obtain ⟨earlier, stops⟩ := alike
          exact .stopped earlier stops
      | error stop => rw [first, second] at taken; cases taken
  | error stop =>
      cases second : right.taken t with
      | ok others => rw [first, second] at taken; cases taken
      | error otherStop =>
          rw [first, second] at taken
          obtain ⟨earlier, stops⟩ := alike
          have completed : ({ race with completed := race.completed ++ [t] } : Race).Alike
              { race with stop := earlier, completed := race.completed ++ [t] } := .stopped earlier stops
          exact completed.cancel (Except.error.inj taken)

theorem Alike.start (alike : race.Alike other) (same : left.Alike t right)
    : (race.start t left).Alike (other.start t right) := by
  obtain ⟨earlier, stops⟩ := alike
  rw [Race.start, Race.start, isSome_of_blurred stops, same.delay]
  simp only
  split
  next => exact .stopped earlier stops
  next =>
    split
    next => exact Alike.take (.stopped earlier stops) same
    next => exact .stopped earlier stops

theorem Alike.resume (alike : race.Alike other) (same : left.Alike t right)
    : (race.resume t left).Alike (other.resume t right) := by
  obtain ⟨earlier, stops⟩ := alike
  rw [Race.resume, Race.resume, isSome_of_blurred stops]
  simp only
  split
  next => exact .stopped earlier stops
  next => exact Alike.take (.stopped earlier stops) same

theorem Alike.sleep (alike : race.Alike other) (same : ∀ t, (replies t).Alike t (others t))
    : (race.sleep deadline replies).Alike (other.sleep deadline others) := by
  obtain ⟨earlier, stops⟩ := alike
  rw [Race.sleep, Race.sleep]
  simp only [fun t => (same t).delay]
  split
  next => exact .stopped earlier stops
  next =>
    split
    next => exact .stopped earlier stops
    next =>
      have late : ({ race with time := deadline } : Race).Alike
          { race with time := deadline, stop := earlier } := .stopped earlier stops
      exact late.cancel rfl

theorem Alike.queues (alike : race.Alike other)
    : other.unpolled = race.unpolled ∧ other.woken = race.woken := by
  cases alike
  exact ⟨rfl, rfl⟩

/-- Every step leaves two lookups alike, by cases on the task that is polled. -/
theorem Alike.step (alike : race.Alike other) (same : ∀ t, (replies t).Alike t (others t))
    : (race.step deadline replies).Alike (other.step deadline others) := by
  obtain ⟨sameUnpolled, sameWoken⟩ := alike.queues
  cases unpolled : race.unpolled with
  | cons t rest =>
      simp only [Race.step, sameUnpolled, unpolled]
      obtain ⟨earlier, stops⟩ := alike
      exact Alike.start (.stopped earlier stops) (same t)
  | nil =>
      cases woken : race.woken with
      | cons t rest =>
          simp only [Race.step, sameUnpolled, sameWoken, unpolled, woken]
          obtain ⟨earlier, stops⟩ := alike
          exact Alike.resume (.stopped earlier stops) (same t)
      | nil =>
          simp only [Race.step, sameUnpolled, sameWoken, unpolled, woken]
          exact alike.sleep same

/-- So does any number of steps, by induction on it. -/
theorem Alike.run (alike : race.Alike other) (same : ∀ t, (replies t).Alike t (others t)) (steps : Nat)
    : (race.run deadline replies steps).Alike (other.run deadline others steps) := by
  induction steps generalizing race other with
  | zero => exact alike
  | succ steps ih => exact ih (alike.step same)

end Race

/-- A lookup, whatever is wrong with a payload that is of no use. -/
def Lookup.blurred (found : Lookup) : Lookup :=
  { found with result := found.result.mapError fun e => { e with stop := e.stop.blurred } }

/-- Lookups of alike replies take the same course and come to the same result. -/
theorem lookUp_blurred_congr {replies others : Trait → Reply} (same : ∀ t, (replies t).Alike t (others t))
    (deadline : Span) (name : String)
    : (lookUp deadline replies name).blurred = (lookUp deadline others name).blurred := by
  have alike : (({} : Race).run deadline replies ({} : Race).stepsLeft).Alike
      (({} : Race).run deadline others ({} : Race).stepsLeft) := (Race.Alike.refl {}).run same _
  simp only [lookUp, Lookup.blurred]
  generalize ({} : Race).run deadline replies ({} : Race).stepsLeft = left at alike ⊢
  generalize ({} : Race).run deadline others ({} : Race).stepsLeft = right at alike ⊢
  obtain ⟨stop, stops⟩ := alike
  generalize left.stop = first at stops
  cases first with
  | none =>
      cases stop with
      | none => rfl
      | some other => cases stops
  | some ended =>
      cases stop with
      | none => cases stops
      | some other =>
          have blurred : ended.blurred = other.blurred := Option.some.inj stops
          let found (stop : Stop) : Lookup :=
            ⟨.error ⟨name, stop, left.collected⟩, left.time, left.started, left.completed⟩
          exact congrArg found blurred

end PersonRegistry.Inference

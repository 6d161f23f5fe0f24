import PersonRegistry.Proofs.Inference.Race

/-! What a lookup of all traits comes to, in terms of the replies alone: whether all are good and in time,
which failure comes first, and what came before it.
-/

namespace PersonRegistry.Inference

open Time (Span)

variable {deadline : Span} {replies : Trait → Reply} {name : String} {t : Trait}

/-- The payload of a service can be read, and carries the trait of the service. -/
def Succeeds (replies : Trait → Reply) (t : Trait) : Prop := ∃ found, (replies t).Brings t found

/-- A lookup fails by the deadline, and every other that does so fails later. -/
structure FirstFailure (deadline : Span) (replies : Trait → Reply) (t : Trait) : Prop where
  timely : (replies t).delay ≤ deadline
  fails : ¬Succeeds replies t
  first : ∀ u, (replies u).delay ≤ deadline → ¬Succeeds replies u → u = t ∨ Before replies t u

inductive Ending (deadline : Span) (replies : Trait → Reply) (name : String) (found : Lookup) : Prop
  | complete (e : Enrichment)
      (result : found.result = .ok e)
      (all : ∀ t, (replies t).delay ≤ deadline ∧ (replies t).Brings t (e.only t))
  | failed (t : Trait) (stop : Stop) (collected : Enrichment)
      (result : found.result = .error ⟨name, stop, collected⟩)
      (first : FirstFailure deadline replies t)
      (fails : (replies t).taken t = .error stop)
      (consists : collected.ConsistsOf replies (Before replies · t))
      (completed : ∀ u, u ∈ found.completed ↔ u = t ∨ Before replies u t)
  | timeout (collected : Enrichment)
      (result : found.result = .error ⟨name, .timeout deadline, collected⟩)
      (late : ∃ t, deadline < (replies t).delay)
      (consists : collected.ConsistsOf replies fun t => (replies t).delay ≤ deadline)
      (completed : ∀ t, t ∈ found.completed ↔ (replies t).delay ≤ deadline)

/-- The traits collected are those whose replies were taken, so they succeed. -/
theorem Enrichment.ConsistsOf.succeeds {e : Enrichment} {holds : Trait → Prop}
    (consists : e.ConsistsOf replies holds) (held : holds t)
    : Succeeds replies t :=
  ⟨e.only t, (consists t).1 held⟩

/-- A failure that stopped the lookup is the first one, since everything before it was collected. -/
theorem firstFailure_of_consists {e : Enrichment} {stop : Stop}
    (timely : (replies t).delay ≤ deadline) (fails : (replies t).taken t = .error stop)
    (consists : e.ConsistsOf replies (Before replies · t))
    : FirstFailure deadline replies t := by
  refine ⟨timely, ?_, fun u _ failsToo => ?_⟩
  · rintro ⟨found, brings⟩
    rw [Reply.taken_eq_ok.mpr brings] at fails
    cases fails
  · by_cases same : u = t
    · exact .inl same
    · rcases Before.total replies same with earlier | later
      · exact absurd (consists.succeeds earlier) failsToo
      · exact .inr later

namespace Race

/-- The loop comes to its end with all replies collected, or stopped. -/
theorem finished (deadline : Span) (replies : Trait → Reply)
    : let race := ({} : Race).run deadline replies ({} : Race).stepsLeft
      race.Stopped deadline replies
        ∨ race.Running deadline replies ∧ ∀ t, t ∈ race.completed := by
  intro race
  have consistent : race.Consistent deadline replies := (consistent_start deadline replies).run _
  have ended : race.stepsLeft = 0 := stepsLeft_run (Nat.le_refl _)
  rcases consistent with running | ⟨stopped, -⟩
  · refine .inr ⟨running, fun t => ?_⟩
    have none : race.pending = [] := by
      rw [← List.length_eq_zero_iff, pending, List.length_append, List.length_append]
      rw [stepsLeft] at ended
      omega
    have somewhere := running.progress.parts.symm.mem_iff.mp (Trait.mem_all t)
    rw [none] at somewhere
    exact somewhere
  · exact .inl stopped

end Race

/-- A lookup ends in one of the three ways, within the deadline, and asks each service once at most. -/
theorem lookUp_ending (deadline : Span) (replies : Trait → Reply) (name : String)
    : let found := lookUp deadline replies name
      Ending deadline replies name found ∧ found.elapsed ≤ deadline ∧ found.started.Nodup := by
  intro found
  rcases Race.finished deadline replies with stopped | ⟨running, all⟩
  · cases stopped with
    | failed t stop fails stopped timely arrived completed collected asked =>
        refine ⟨.failed t stop _ ?_ ?_ fails collected completed, timely, asked⟩
        · simp only [found, lookUp, stopped]
        · exact firstFailure_of_consists (Nat.le_trans arrived timely) fails collected
    | timeout stopped time late completed collected asked =>
        refine ⟨.timeout _ ?_ late collected completed, Nat.le_of_eq time, asked⟩
        simp only [found, lookUp, stopped]
  · have result : found.result = .ok (({} : Race).run deadline replies ({} : Race).stepsLeft).collected := by
      simp only [found, lookUp, running.progress.goesOn]
    refine ⟨.complete _ result fun t => ⟨?_, ?_⟩, running.progress.timely, running.nodup_started⟩
    · exact Nat.le_trans (running.progress.arrived t (all t)) running.progress.timely
    · exact (running.progress.collected t).1 (all t)

/-- A lookup succeeds exactly if all three replies are good and in time, and brings the own trait of each
payload. Otherwise it stops at the first failure with what came before it, or at the deadline with what
came by then; what comes later is not taken. It never goes beyond the deadline, and asks each service
once at most. What is missing from an error is what was not collected.
-/
theorem lookUp_outcome (deadline : Span) (replies : Trait → Reply) (name : String)
    : let found := lookUp deadline replies name
      ((∃ e, found.result = .ok e)
          ↔ ∀ t, (replies t).delay ≤ deadline ∧ Succeeds replies t)
        ∧ (∀ e, found.result = .ok e →
            ∀ t, e.has t = true ∧ (replies t).Brings t (e.only t))
        ∧ ((∃ t, (replies t).delay ≤ deadline ∧ ¬Succeeds replies t) →
            ∃ t stop collected, FirstFailure deadline replies t
              ∧ (replies t).taken t = .error stop
              ∧ found.result = .error ⟨name, stop, collected⟩
              ∧ collected.ConsistsOf replies (Before replies · t)
              ∧ t ∈ collected.missing
              ∧ ∀ u, u ∈ found.completed ↔ u = t ∨ Before replies u t)
        ∧ ((∀ t, (replies t).delay ≤ deadline → Succeeds replies t) →
            (∃ t, deadline < (replies t).delay) →
            ∃ collected, found.result = .error ⟨name, .timeout deadline, collected⟩
              ∧ (collected.ConsistsOf replies fun t => (replies t).delay ≤ deadline)
              ∧ ∀ t, t ∈ found.completed ↔ (replies t).delay ≤ deadline)
        ∧ found.elapsed ≤ deadline
        ∧ found.started.Nodup
        ∧ ∀ e, found.result = .error e → ∀ t, t ∈ e.missing ↔ e.collected.has t = false := by
  intro found
  obtain ⟨ending, inTime, asked⟩ := lookUp_ending deadline replies name
  have complement (e : LookupError) (_ : found.result = .error e) (t : Trait)
      : t ∈ e.missing ↔ e.collected.has t = false := Enrichment.mem_missing
  have apart {e : Enrichment} {other : LookupError} (ok : found.result = .ok e)
      (error : found.result = .error other) : False := by
    rw [ok] at error
    cases error
  cases ending with
  | complete e result all =>
      have succeeds (t : Trait) : Succeeds replies t := ⟨_, (all t).2⟩
      refine ⟨⟨fun _ t => ⟨(all t).1, succeeds t⟩, fun _ => ⟨e, result⟩⟩, fun other same t => ?_, ?_,
        ?_, inTime, asked, complement⟩
      · obtain rfl := Except.ok.inj (result.symm.trans same)
        have own := (all t).2.own.1
        rw [Enrichment.has_only] at own
        exact ⟨own, (all t).2⟩
      · rintro ⟨t, -, fails⟩
        exact absurd (succeeds t) fails
      · rintro - ⟨t, late⟩
        exact absurd (all t).1 (Nat.not_le.mpr late)
  | failed t stop collected result first fails consists completed =>
      refine ⟨⟨?_, fun all => absurd (all t).2 first.fails⟩, fun e ok => (apart ok result).elim,
        fun _ => ?_, fun succeed => absurd (succeed t first.timely) first.fails, inTime, asked,
        complement⟩
      · rintro ⟨e, ok⟩
        exact (apart ok result).elim
      · have missing : t ∈ collected.missing :=
          Enrichment.mem_missing.mpr (Enrichment.not_has_blank ((consists t).2 Before.irrefl))
        exact ⟨t, stop, collected, first, fails, result, consists, missing, completed⟩
  | timeout collected result late consists completed =>
      refine ⟨⟨?_, fun all => ?_⟩, fun e ok => (apart ok result).elim, ?_,
        fun _ _ => ⟨collected, result, consists, completed⟩, inTime, asked, complement⟩
      · rintro ⟨e, ok⟩
        exact (apart ok result).elim
      · obtain ⟨t, later⟩ := late
        exact absurd (all t).1 (Nat.not_le.mpr later)
      · rintro ⟨t, timely, fails⟩
        exact absurd (consists.succeeds timely) fails

end PersonRegistry.Inference

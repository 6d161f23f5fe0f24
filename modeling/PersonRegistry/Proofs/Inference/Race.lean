import PersonRegistry.Proofs.Inference.Enrichment

/-! The loop of a lookup, step by step: what was collected at any time are the replies that came before all
others, and once the lookup is stopped nothing is added.
-/

namespace PersonRegistry.Inference

open Time (Span)

-----------------------------------------------------------------------------------------
-- The order of replies
-----------------------------------------------------------------------------------------

/-- The place of a trait in the order of asking. -/
def Trait.place (t : Trait) : Nat := Trait.all.idxOf t

/-- A reply comes before another: it takes less time, or as much, and was asked for first. -/
def Before (replies : Trait → Reply) (t u : Trait) : Prop :=
  (replies t).delay < (replies u).delay
    ∨ (replies t).delay = (replies u).delay ∧ t.place < u.place

variable {deadline : Span} {replies : Trait → Reply} {race : Race} {t u : Trait}

theorem Before.irrefl : ¬Before replies t t := by
  simp only [Before, Span]
  omega

theorem Before.asymm (before : Before replies t u) : ¬Before replies u t := by
  simp only [Before, Span] at before ⊢
  omega

/-- Places tell traits apart, so of two replies one comes first. -/
theorem Before.total (replies : Trait → Reply) (unlike : t ≠ u)
    : Before replies t u ∨ Before replies u t := by
  have apart : t.place ≠ u.place := by
    revert unlike
    cases t <;> cases u <;> decide
  simp only [Before, Span]
  omega

-----------------------------------------------------------------------------------------
-- While the lookup goes on
-----------------------------------------------------------------------------------------

/-- What was done so far while some tasks are pending: the replies taken are all good, came in time, and
come before those of the pending tasks.
-/
structure Progress (deadline : Span) (replies : Trait → Reply) (race : Race)
    (pending : List Trait) : Prop where
  goesOn : race.stop = none
  parts : (pending ++ race.completed).Perm Trait.all
  timely : race.time ≤ deadline
  arrived : ∀ c ∈ race.completed, (replies c).delay ≤ race.time
  before : ∀ c ∈ race.completed, ∀ u ∈ pending, Before replies c u
  collected : race.collected.ConsistsOf replies (· ∈ race.completed)

/-- How the tasks are queued: those polled first come in the order of asking, before any time passes, and
a task is woken when its reply is there.
-/
structure Queued (replies : Trait → Reply) (race : Race) : Prop where
  first : race.unpolled ≠ [] → race.time = 0 ∧ race.woken = []
  asking : (race.waiting ++ race.unpolled).Pairwise fun t u => t.place < u.place
  waking : race.woken.Pairwise fun t u => t.place < u.place
  due : ∀ t ∈ race.woken, (replies t).delay = race.time
  later : ∀ t ∈ race.waiting, race.time < (replies t).delay

def Race.pending (race : Race) : List Trait := race.unpolled ++ race.woken ++ race.waiting

structure Race.Running (deadline : Span) (replies : Trait → Reply) (race : Race) : Prop where
  progress : Progress deadline replies race race.pending
  queued : Queued replies race
  asked : race.started.Perm (race.woken ++ race.waiting ++ race.completed)

/-- Why and when a lookup was stopped, and what it had collected by then. -/
inductive Race.Stopped (deadline : Span) (replies : Trait → Reply) (race : Race) : Prop
  | failed (t : Trait) (stop : Stop)
      (fails : (replies t).taken t = .error stop)
      (stopped : race.stop = some stop)
      (timely : race.time ≤ deadline)
      (arrived : (replies t).delay ≤ race.time)
      (completed : ∀ u, u ∈ race.completed ↔ u = t ∨ Before replies u t)
      (collected : race.collected.ConsistsOf replies (Before replies · t))
      (asked : race.started.Nodup)
  | timeout
      (stopped : race.stop = some (.timeout deadline))
      (time : race.time = deadline)
      (late : ∃ t, deadline < (replies t).delay)
      (completed : ∀ u, u ∈ race.completed ↔ (replies u).delay ≤ deadline)
      (collected : race.collected.ConsistsOf replies fun u => (replies u).delay ≤ deadline)
      (asked : race.started.Nodup)

namespace Progress

variable {pending others : List Trait}

theorem perm (progress : Progress deadline replies race pending) (same : pending.Perm others)
    : Progress deadline replies race others where
  goesOn := progress.goesOn
  parts := (same.symm.append_right _).trans progress.parts
  timely := progress.timely
  arrived := progress.arrived
  before c member u pending := progress.before c member u (same.mem_iff.mpr pending)
  collected := progress.collected

/-- How tasks are queued makes no difference to what was done. -/
theorem requeue (progress : Progress deadline replies race pending)
    (unpolled woken waiting started : List Trait)
    : Progress deadline replies { race with unpolled, woken, waiting, started } pending :=
  ⟨progress.goesOn, progress.parts, progress.timely, progress.arrived, progress.before,
    progress.collected⟩

theorem nodup (progress : Progress deadline replies race pending)
    : (pending ++ race.completed).Nodup :=
  progress.parts.symm.nodup (by decide)

/-- A good reply that comes before all pending ones is collected. -/
theorem take_ok {found : Enrichment} (progress : Progress deadline replies race (t :: pending))
    (arrived : (replies t).delay ≤ race.time) (next : ∀ u ∈ pending, Before replies t u)
    (taken : (replies t).taken t = .ok found)
    : Progress deadline replies (race.take t (replies t)) pending := by
  have fresh : t ∉ race.completed := by
    have distinct := progress.nodup
    rw [List.cons_append, List.nodup_cons, List.mem_append, not_or] at distinct
    exact distinct.1.2
  have after : race.take t (replies t)
      = { race with
          completed := race.completed ++ [t]
          collected := race.collected.merge found } := by
    simp only [Race.take, taken]
  rw [after]
  refine ⟨progress.goesOn, ?_, progress.timely, fun c member => ?_, fun c member u waits => ?_, ?_⟩
  · refine List.Perm.trans ?_ progress.parts
    rw [List.cons_append, ← List.append_assoc]
    exact List.perm_append_singleton t _
  · rcases List.mem_append.mp member with old | new
    · exact progress.arrived c old
    · exact List.mem_singleton.mp new ▸ arrived
  · rcases List.mem_append.mp member with old | new
    · exact progress.before c old u (List.mem_cons_of_mem t waits)
    · exact List.mem_singleton.mp new ▸ next u waits
  · refine (progress.collected.merge fresh (Reply.taken_eq_ok.mp taken)).congr fun u => ?_
    simp [List.mem_append]

/-- A failure that comes before all pending replies stops the lookup with what came before it. -/
theorem take_error {stop : Stop} (progress : Progress deadline replies race (t :: pending))
    (arrived : (replies t).delay ≤ race.time) (next : ∀ u ∈ pending, Before replies t u)
    (asked : race.started.Nodup) (taken : (replies t).taken t = .error stop)
    : (race.take t (replies t)).Stopped deadline replies
      ∧ (race.take t (replies t)).waiting = [] := by
  have after : race.take t (replies t)
      = { race with
          completed := race.completed ++ [t]
          stop := some stop
          woken := race.woken ++ race.waiting
          waiting := [] } := by
    simp only [Race.take, taken, Race.cancel, progress.goesOn]
    rfl
  -- what is pending comes later than t, so that all that comes earlier was taken
  have earlier (u : Trait) : u ∈ race.completed ↔ Before replies u t := by
    constructor
    · exact fun member => progress.before u member t (by simp)
    · intro before
      have somewhere := progress.parts.symm.mem_iff.mp (Trait.mem_all u)
      rcases List.mem_append.mp somewhere with waits | done
      · rcases List.mem_cons.mp waits with rfl | waits
        · exact absurd before Before.irrefl
        · exact absurd before (next u waits).asymm
      · exact done
  rw [after]
  refine ⟨.failed t stop taken rfl progress.timely arrived (fun u => ?_) ?_ asked, rfl⟩
  · rw [List.mem_append, List.mem_singleton, earlier u]
    exact Or.comm
  · exact progress.collected.congr earlier

end Progress

-----------------------------------------------------------------------------------------
-- Steps
-----------------------------------------------------------------------------------------

namespace Race

theorem sleep_of_none (none : (race.waiting.map fun t => (replies t).delay).min? = none)
    : race.sleep deadline replies = race := by
  simp only [Race.sleep, none]

theorem sleep_of_timely {next : Span}
    (shortest : (race.waiting.map fun t => (replies t).delay).min? = some next)
    (inTime : next ≤ deadline)
    : race.sleep deadline replies
      = { race with
          time := next
          woken := race.waiting.filter fun u => (replies u).delay ≤ next
          waiting := race.waiting.filter fun u => next < (replies u).delay } := by
  simp only [Race.sleep, shortest, inTime, if_true]

theorem sleep_of_late {next : Span}
    (shortest : (race.waiting.map fun t => (replies t).delay).min? = some next)
    (late : ¬next ≤ deadline)
    : race.sleep deadline replies
      = ({ race with time := deadline } : Race).cancel (.timeout deadline) := by
  simp only [Race.sleep, shortest, late, if_false]

/-- What a step keeps: the lookup goes on, or it was stopped and no task waits any more. -/
def Consistent (deadline : Span) (replies : Trait → Reply) (race : Race) : Prop :=
  race.Running deadline replies ∨ race.Stopped deadline replies ∧ race.waiting = []

/-- How tasks are queued makes no difference once the lookup was stopped. -/
theorem Stopped.requeue (stopped : race.Stopped deadline replies)
    (unpolled woken waiting : List Trait)
    : ({ race with unpolled, woken, waiting } : Race).Stopped deadline replies := by
  cases stopped with
  | failed t stop fails stopped timely arrived completed collected asked =>
      exact .failed t stop fails stopped timely arrived completed collected asked
  | timeout stopped time late completed collected asked =>
      exact .timeout stopped time late completed collected asked

theorem Stopped.isSome (stopped : race.Stopped deadline replies) : race.stop.isSome = true := by
  cases stopped with
  | failed t stop _ stopped => rw [stopped]; rfl
  | timeout stopped => rw [stopped]; rfl

/-- Once the lookup was stopped, tasks come to their end without a result. -/
theorem Stopped.step (stopped : race.Stopped deadline replies) (none : race.waiting = [])
    : (race.step deadline replies).Stopped deadline replies
      ∧ (race.step deadline replies).waiting = [] := by
  have cancelled := stopped.isSome
  cases polled : race.unpolled with
  | cons t rest =>
      simp only [Race.step, polled, start, cancelled, if_true]
      exact ⟨stopped.requeue rest _ _, none⟩
  | nil =>
      cases awake : race.woken with
      | cons t rest =>
          simp only [Race.step, polled, awake, resume, cancelled, if_true]
          exact ⟨stopped.requeue _ rest _, none⟩
      | nil =>
          have asleep : race.sleep deadline replies = race := sleep_of_none (by simp [none])
          simp only [Race.step, polled, awake, asleep]
          exact ⟨stopped, none⟩

/-- The tasks that were polled are among all tasks. -/
theorem polled_sublist (race : Race)
    : (race.woken ++ race.waiting ++ race.completed).Sublist (race.pending ++ race.completed) := by
  simp only [Race.pending, List.append_assoc]
  exact List.sublist_append_right race.unpolled _

theorem Running.nodup_started (running : race.Running deadline replies) : race.started.Nodup :=
  running.asked.symm.nodup (running.progress.nodup.sublist race.polled_sublist)

/-- The next reply is collected, or it stops the lookup. -/
theorem consistent_take (progress : Progress deadline replies race (t :: race.pending))
    (queued : Queued replies race)
    (asked : race.started.Perm (t :: (race.woken ++ race.waiting ++ race.completed)))
    (arrived : (replies t).delay ≤ race.time) (next : ∀ u ∈ race.pending, Before replies t u)
    : (race.take t (replies t)).Consistent deadline replies := by
  cases taken : (replies t).taken t with
  | ok found =>
      have progress := progress.take_ok arrived next taken
      have after : race.take t (replies t)
          = { race with
              completed := race.completed ++ [t]
              collected := race.collected.merge found } := by
        simp only [Race.take, taken]
      rw [after] at progress ⊢
      refine .inl ⟨progress, ⟨queued.first, queued.asking, queued.waking, queued.due, queued.later⟩, ?_⟩
      refine asked.trans ?_
      rw [← List.append_assoc]
      exact (List.perm_append_singleton t _).symm
  | error stop =>
      have distinct : race.started.Nodup :=
        asked.symm.nodup (progress.nodup.sublist (race.polled_sublist.cons_cons t))
      exact .inr (progress.take_error arrived next distinct taken)

theorem start_due (race : Race) {reply : Reply} (goesOn : race.stop = none) (arrived : reply.delay ≤ race.time)
    : race.start t reply
      = ({ race with started := race.started ++ [t] } : Race).take t reply := by
  simp only [start, goesOn, Option.isSome_none, Bool.false_eq_true, if_false, arrived, if_true]

theorem start_waits (race : Race) {reply : Reply} (goesOn : race.stop = none)
    (waits : ¬reply.delay ≤ race.time)
    : race.start t reply
      = { race with started := race.started ++ [t], waiting := race.waiting ++ [t] } := by
  simp only [start, goesOn, Option.isSome_none, Bool.false_eq_true, if_false, waits]

/-- The tasks that are pending once the first one was polled, before any task was woken. -/
theorem Running.pending_cons {rest : List Trait} (running : race.Running deadline replies)
    (unpolled : race.unpolled = t :: rest)
    : race.pending = t :: (rest ++ race.waiting) := by
  have woken : race.woken = [] := (running.queued.first (by simp [unpolled])).2
  rw [Race.pending, unpolled, woken, List.append_nil, List.cons_append]

/-- A task that is polled first and finds its reply there is the next: no time has passed, so that the others
take longer, or were asked later.
-/
theorem Running.start_arrived {rest : List Trait} (running : race.Running deadline replies)
    (unpolled : race.unpolled = t :: rest) (arrived : (replies t).delay ≤ race.time)
    : (({ race with unpolled := rest } : Race).start t (replies t)).Consistent deadline replies := by
  have pending := running.pending_cons unpolled
  obtain ⟨progress, queued, asked⟩ := running
  obtain ⟨time, woken⟩ := queued.first (by simp [unpolled])
  have order := queued.asking
  rw [unpolled, List.pairwise_append, List.pairwise_cons] at order
  obtain ⟨waitingOrder, ⟨behind, restOrder⟩, across⟩ := order
  have own : Race.pending { race with unpolled := rest, started := race.started ++ [t] }
      = rest ++ race.waiting := by
    simp only [Race.pending, woken, List.append_nil]
  rw [pending] at progress
  rw [start_due { race with unpolled := rest } progress.goesOn arrived]
  refine consistent_take ?_ ⟨fun _ => ⟨time, woken⟩, ?_, queued.waking, queued.due, queued.later⟩ ?_
    arrived ?_
  · rw [own]
    exact progress.requeue rest race.woken race.waiting (race.started ++ [t])
  · exact List.pairwise_append.mpr
      ⟨waitingOrder, restOrder, fun u waits v unpolled => across u waits v (by simp [unpolled])⟩
  · exact (List.perm_append_singleton t _).trans (asked.cons t)
  · intro u pending
    rw [own] at pending
    have shortest : (replies t).delay = 0 := Nat.le_zero.mp (time ▸ arrived)
    rcases List.mem_append.mp pending with unpolled | waits
    · rcases Nat.eq_zero_or_pos (replies u).delay with same | longer
      -- both replies are there at once, so the order of asking decides
      · exact .inr ⟨shortest.trans same.symm, behind u unpolled⟩
      · exact .inl (shortest ▸ longer)
    · exact .inl (shortest ▸ time ▸ queued.later u waits)

/-- A task that is polled first and does not find its reply waits behind the tasks polled before it. -/
theorem Running.start_waiting {rest : List Trait} (running : race.Running deadline replies)
    (unpolled : race.unpolled = t :: rest) (waits : ¬(replies t).delay ≤ race.time)
    : (({ race with unpolled := rest } : Race).start t (replies t)).Consistent deadline replies := by
  have pending := running.pending_cons unpolled
  obtain ⟨progress, queued, asked⟩ := running
  obtain ⟨time, woken⟩ := queued.first (by simp [unpolled])
  have own : Race.pending { race with
        unpolled := rest
        started := race.started ++ [t]
        waiting := race.waiting ++ [t] } = rest ++ (race.waiting ++ [t]) := by
    simp only [Race.pending, woken, List.append_nil]
  have later : (t :: (rest ++ race.waiting)).Perm (rest ++ (race.waiting ++ [t])) := by
    rw [← List.append_assoc]
    exact (List.perm_append_singleton t _).symm
  rw [pending] at progress
  rw [start_waits { race with unpolled := rest } progress.goesOn waits]
  refine .inl ⟨?_, ⟨fun _ => ⟨time, woken⟩, ?_, queued.waking, queued.due, ?_⟩, ?_⟩
  · rw [own]
    exact (progress.perm later).requeue rest race.woken (race.waiting ++ [t]) (race.started ++ [t])
  · have order := queued.asking
    rw [unpolled] at order
    simpa only [List.append_assoc, List.singleton_append] using order
  · intro u member
    rcases List.mem_append.mp member with old | new
    · exact queued.later u old
    · obtain rfl := List.mem_singleton.mp new
      exact Nat.lt_of_not_le waits
  · simp only [woken, List.nil_append] at asked ⊢
    refine (List.perm_append_singleton t _).trans ((asked.cons t).trans ?_)
    rw [List.append_assoc]
    exact List.perm_middle.symm

/-- A task that is polled first asks its service. -/
theorem Running.start {rest : List Trait} (running : race.Running deadline replies)
    (unpolled : race.unpolled = t :: rest)
    : (({ race with unpolled := rest } : Race).start t (replies t)).Consistent deadline replies := by
  by_cases arrived : (replies t).delay ≤ race.time
  · exact running.start_arrived unpolled arrived
  · exact running.start_waiting unpolled arrived

/-- A task that was woken has its reply, and was woken before the others. -/
theorem Running.resume {rest : List Trait} (running : race.Running deadline replies)
    (unpolled : race.unpolled = []) (woken : race.woken = t :: rest)
    : (({ race with woken := rest } : Race).resume t (replies t)).Consistent deadline replies := by
  obtain ⟨progress, queued, asked⟩ := running
  have goesOn := progress.goesOn
  have awake : ({ race with woken := rest } : Race).resume t (replies t)
      = ({ race with woken := rest } : Race).take t (replies t) := by
    simp only [Race.resume, goesOn, Option.isSome_none, Bool.false_eq_true, if_false]
  have due := queued.due
  have waking := queued.waking
  have pending : race.pending = t :: (rest ++ race.waiting) := by
    rw [Race.pending, unpolled, woken, List.nil_append, List.cons_append]
  rw [woken, List.pairwise_cons] at waking
  rw [woken] at due asked
  rw [pending] at progress
  have arrived : (replies t).delay = race.time := due t (by simp)
  have own : Race.pending { race with woken := rest } = rest ++ race.waiting := by
    simp only [Race.pending, unpolled, List.nil_append]
  rw [awake]
  refine consistent_take ?_ ⟨?_, queued.asking, waking.2, fun u member => due u (by simp [member]),
    queued.later⟩ asked (Nat.le_of_eq arrived) ?_
  · rw [own]
    exact progress.requeue race.unpolled rest race.waiting race.started
  · exact fun polled => absurd unpolled polled
  · intro u pending
    rw [own] at pending
    rcases List.mem_append.mp pending with awake | waits
    · exact .inr ⟨arrived.trans (due u (by simp [awake])).symm, waking.1 u awake⟩
    · exact .inl (arrived ▸ queued.later u waits)

/-- The shortest delay of the tasks that wait, or that none does. -/
theorem min?_waiting (race : Race) (replies : Trait → Reply)
    : (race.waiting.map fun t => (replies t).delay).min? = none ∧ race.waiting = []
      ∨ ∃ t ∈ race.waiting,
          (race.waiting.map fun t => (replies t).delay).min? = some (replies t).delay
            ∧ ∀ u ∈ race.waiting, (replies t).delay ≤ (replies u).delay := by
  cases shortest : (race.waiting.map fun t => (replies t).delay).min? with
  | none => exact .inl ⟨rfl, List.map_eq_nil_iff.mp (List.min?_eq_none_iff.mp shortest)⟩
  | some next =>
      obtain ⟨attained, least⟩ := List.min?_eq_some_iff.mp shortest
      obtain ⟨t, waits, rfl⟩ := List.mem_map.mp attained
      exact .inr ⟨t, waits, rfl, fun u member => least _ (List.mem_map.mpr ⟨u, member, rfl⟩)⟩

/-- The tasks that wait are those whose replies are there by a time, and those whose replies are not. -/
theorem waiting_split (race : Race) (replies : Trait → Reply) (time : Span)
    : ((race.waiting.filter fun u => (replies u).delay ≤ time)
        ++ race.waiting.filter fun u => time < (replies u).delay).Perm race.waiting := by
  have others : (fun u => decide (time < (replies u).delay))
      = fun u => !decide ((replies u).delay ≤ time) := by
    funext u
    rw [← decide_not]
    exact decide_eq_decide.mpr Nat.not_le.symm
  rw [others]
  exact List.filter_append_perm _ _

/-- Time passes until the shortest delay is over, which wakes the tasks whose replies are there then. -/
theorem Running.wake (running : race.Running deadline replies) (unpolled : race.unpolled = [])
    (woken : race.woken = []) (waits : t ∈ race.waiting) (inTime : (replies t).delay ≤ deadline)
    (least : ∀ u ∈ race.waiting, (replies t).delay ≤ (replies u).delay)
    : ({ race with
          time := (replies t).delay
          woken := race.waiting.filter fun u => (replies u).delay ≤ (replies t).delay
          waiting := race.waiting.filter fun u => (replies t).delay < (replies u).delay }
        : Race).Running deadline replies := by
  obtain ⟨progress, queued, asked⟩ := running
  have passed : race.time ≤ (replies t).delay := Nat.le_of_lt (queued.later t waits)
  have order : race.waiting.Pairwise fun u v => u.place < v.place :=
    (List.pairwise_append.mp queued.asking).1
  have split := race.waiting_split replies (replies t).delay
  rw [Race.pending, unpolled, woken, List.nil_append, List.nil_append] at progress
  rw [woken, List.nil_append] at asked
  have progress := progress.perm split.symm
  constructor
  · rw [Race.pending, unpolled, List.nil_append]
    exact ⟨progress.goesOn, progress.parts, inTime,
      fun c member => Nat.le_trans (progress.arrived c member) passed, progress.before,
      progress.collected⟩
  · refine ⟨fun polled => absurd unpolled polled, ?_, order.filter _, fun u awake => ?_,
      fun u waits => of_decide_eq_true (List.mem_filter.mp waits).2⟩
    · rw [unpolled, List.append_nil]
      exact order.filter _
    · obtain ⟨waited, due⟩ := List.mem_filter.mp awake
      exact Nat.le_antisymm (of_decide_eq_true due) (least u waited)
  · exact asked.trans (split.symm.append_right _)

/-- If even the shortest delay goes beyond the deadline, the lookup stops with what came in time. -/
theorem Running.expire (running : race.Running deadline replies) (unpolled : race.unpolled = [])
    (woken : race.woken = []) (late : deadline < (replies t).delay)
    (least : ∀ u ∈ race.waiting, (replies t).delay ≤ (replies u).delay)
    : ({ race with time := deadline, stop := some (.timeout deadline) } : Race).Stopped deadline
        replies := by
  obtain ⟨progress, queued, asked⟩ := running
  rw [Race.pending, unpolled, woken, List.nil_append, List.nil_append] at progress
  rw [woken, List.nil_append] at asked
  -- no pending reply is there by the deadline, since not even the first of them is
  have inTime (u : Trait) : u ∈ race.completed ↔ (replies u).delay ≤ deadline := by
    constructor
    · exact fun member => Nat.le_trans (progress.arrived u member) progress.timely
    · intro timely
      have somewhere := progress.parts.symm.mem_iff.mp (Trait.mem_all u)
      rcases List.mem_append.mp somewhere with pending | done
      · have longer := Nat.lt_of_lt_of_le late (least u pending)
        exact absurd timely (Nat.not_le.mpr longer)
      · exact done
  exact .timeout rfl rfl ⟨t, late⟩ inTime (progress.collected.congr inTime)
    (asked.symm.nodup progress.nodup)

/-- While all tasks wait, the loop sleeps until the next reply is there or the deadline has come. -/
theorem Running.sleep (running : race.Running deadline replies) (unpolled : race.unpolled = [])
    (woken : race.woken = [])
    : (race.sleep deadline replies).Consistent deadline replies := by
  rcases race.min?_waiting replies with ⟨none, -⟩ | ⟨t, waits, shortest, least⟩
  · rw [sleep_of_none none]
    exact .inl running
  · by_cases inTime : (replies t).delay ≤ deadline
    · rw [sleep_of_timely shortest inTime]
      exact .inl (running.wake unpolled woken waits inTime least)
    · have stopped := running.expire unpolled woken (Nat.lt_of_not_le inTime) least
      rw [sleep_of_late shortest inTime]
      simp only [cancel, running.progress.goesOn]
      exact .inr ⟨stopped.requeue _ _ _, rfl⟩

/-- Every step keeps the lookup consistent, by cases on the task that is polled. -/
theorem Consistent.step (consistent : race.Consistent deadline replies)
    : (race.step deadline replies).Consistent deadline replies := by
  rcases consistent with running | ⟨stopped, none⟩
  · cases unpolled : race.unpolled with
    | cons t rest =>
        simp only [Race.step, unpolled]
        exact running.start unpolled
    | nil =>
        cases woken : race.woken with
        | cons t rest =>
            simp only [Race.step, unpolled, woken]
            simpa only [unpolled] using running.resume unpolled woken
        | nil =>
            simp only [Race.step, unpolled, woken]
            exact running.sleep unpolled woken
  · exact .inr (stopped.step none)

/-- So does any number of steps, by induction on it. -/
theorem Consistent.run (consistent : race.Consistent deadline replies) (steps : Nat)
    : (race.run deadline replies steps).Consistent deadline replies := by
  induction steps generalizing race with
  | zero => exact consistent
  | succ steps ih => exact ih consistent.step

/-- A lookup that was not begun yet has done nothing wrong. -/
theorem consistent_start (deadline : Span) (replies : Trait → Reply)
    : ({} : Race).Consistent deadline replies := by
  refine .inl ⟨⟨rfl, ?_, Nat.zero_le _, ?_, ?_, ?_⟩, ⟨fun _ => ⟨rfl, rfl⟩, ?_, ?_, ?_, ?_⟩, ?_⟩
  · exact .refl _
  · simp
  · simp
  · exact .blank (by simp)
  · decide
  · exact .nil
  · simp
  · simp
  · exact .refl _

-----------------------------------------------------------------------------------------
-- The number of steps
-----------------------------------------------------------------------------------------

theorem stepsLeft_take (race : Race) (t : Trait) (reply : Reply)
    : (race.take t reply).stepsLeft ≤ race.stepsLeft := by
  rw [Race.take]
  cases reply.taken t with
  | ok found => exact Nat.le_refl _
  | error stop =>
      simp only [cancel, stepsLeft, List.length_append, List.length_nil]
      omega

/-- Sleeping wakes a task at least, if one waits. -/
theorem stepsLeft_sleep (race : Race) (deadline : Span) (replies : Trait → Reply)
    (woken : race.woken = []) (unpolled : race.unpolled = [])
    : (race.sleep deadline replies).stepsLeft ≤ race.stepsLeft - 1 := by
  rcases race.min?_waiting replies with ⟨none, empty⟩ | ⟨t, waits, shortest, -⟩
  · rw [sleep_of_none none]
    simp only [stepsLeft, unpolled, woken, empty, List.length_nil]
    omega
  · by_cases inTime : (replies t).delay ≤ deadline
    · have split := (race.waiting_split replies (replies t).delay).length_eq
      have awake : 0 < (race.waiting.filter fun u =>
          decide ((replies u).delay ≤ (replies t).delay)).length :=
        List.length_pos_of_mem (List.mem_filter.mpr ⟨waits, decide_eq_true (Nat.le_refl _)⟩)
      rw [List.length_append] at split
      rw [sleep_of_timely shortest inTime]
      simp only [stepsLeft, woken, List.length_nil]
      omega
    · have awake := List.length_pos_of_mem waits
      rw [sleep_of_late shortest inTime]
      simp only [cancel, stepsLeft, List.length_append, List.length_nil]
      omega

/-- Every step brings the lookup closer to its end, by cases on the task that is polled. -/
theorem stepsLeft_step (race : Race) (deadline : Span) (replies : Trait → Reply)
    : (race.step deadline replies).stepsLeft ≤ race.stepsLeft - 1 := by
  cases unpolled : race.unpolled with
  | cons t rest =>
      have polled : 3 + ({ race with unpolled := rest } : Race).stepsLeft = race.stepsLeft := by
        simp only [stepsLeft, unpolled, List.length_cons]
        omega
      simp only [Race.step, unpolled, Race.start]
      split
      next => omega
      next =>
        split
        next =>
          have taken := stepsLeft_take
            { race with unpolled := rest, started := race.started ++ [t] } t (replies t)
          have same : ({ race with unpolled := rest, started := race.started ++ [t] }
              : Race).stepsLeft = ({ race with unpolled := rest } : Race).stepsLeft := rfl
          omega
        next =>
          simp only [stepsLeft, List.length_append, List.length_singleton] at polled ⊢
          omega
  | nil =>
      cases woken : race.woken with
      | cons t rest =>
          have polled : 1 + ({ race with woken := rest } : Race).stepsLeft = race.stepsLeft := by
            simp only [stepsLeft, woken, List.length_cons]
            omega
          simp only [Race.step, unpolled, woken, Race.resume]
          rw [← unpolled]
          split
          next => omega
          next =>
            have taken := stepsLeft_take { race with woken := rest } t (replies t)
            omega
      | nil =>
          simp only [Race.step, unpolled, woken]
          exact race.stepsLeft_sleep deadline replies woken unpolled

/-- As many steps as are left lead to the end, by induction on them. -/
theorem stepsLeft_run {steps : Nat} (enough : race.stepsLeft ≤ steps)
    : (race.run deadline replies steps).stepsLeft = 0 := by
  induction steps generalizing race with
  | zero => exact Nat.le_zero.mp enough
  | succ steps ih =>
      have closer := race.stepsLeft_step deadline replies
      exact ih (by omega)

end Race

end PersonRegistry.Inference

import PersonRegistry.Proofs.Service.CacheCoherence

/-! Requests that are given up after any number of calls, and what the cache may give afterwards: the
persons on record, unless it was a change that was given up, after the person was written and before it
was cleared from the cache.
-/

namespace PersonRegistry

open Text (Octets)
open Time (Span)

/-- A value that is held once another was put is the one that was put, or was held before. -/
theorem Cache.get_of_set {cache : Cache} {put now : Nat} {key other : String} {value octets : Octets}
    {span : Span} (held : (cache.set put key value span).get now other = some octets)
    : key = other ∧ value = octets ∨ cache.get now other = some octets := by
  rw [get_set] at held
  split at held
  next same =>
    split at held
    next => exact .inl ⟨same, Option.some.inj held⟩
    next => cases held
  next => exact .inr held

namespace Service

open Store (Table)

-----------------------------------------------------------------------------------------
-- Programs that are given up
-----------------------------------------------------------------------------------------

namespace Program

variable {α β σ : Type} {perform : (c : Call) → σ → c.Answer × σ}

@[simp] theorem advance_zero (program : Program α) (s : σ)
    : program.advance perform 0 s = (program, s) := by
  cases program <;> rfl

@[simp] theorem advance_done (calls : Nat) (a : α) (s : σ)
    : (done a).advance perform calls s = (done a, s) := by
  cases calls <;> rfl

@[simp] theorem advance_ask (calls : Nat) (c : Call) (next : c.Answer → Program α) (s : σ)
    : (ask c next).advance perform (calls + 1) s
      = (next (perform c s).1).advance perform calls (perform c s).2 :=
  rfl

/-- What is done with the result makes no calls. By induction on the program. -/
theorem advance_bind_done (program : Program α) (f : α → β) (calls : Nat) (s : σ)
    : ((program.bind fun a => done (f a)).advance perform calls s).2
      = (program.advance perform calls s).2 := by
  induction program generalizing calls s with
  | done a => simp [Program.bind]
  | ask c next ih =>
      cases calls with
      | zero => simp
      | succ calls => exact ih _ calls _

variable (perform)

/-- A run that is not given up has made a number of calls, and any greater number. -/
theorem exists_advance (program : Program α) (s : σ) (least : Nat)
    : ∃ calls, least ≤ calls ∧ program.advance perform calls s
      = (done (program.run perform s).1, (program.run perform s).2) := by
  induction program generalizing s least with
  | done a => exact ⟨least, Nat.le_refl _, by simp⟩
  | ask c next ih =>
      obtain ⟨calls, enough, ends⟩ := ih (perform c s).1 (perform c s).2 least
      exact ⟨calls + 1, Nat.le_succ_of_le enough, ends⟩

/-- A run that stops when its time is over was given up after some calls. -/
theorem runWhile_cases (allows : σ → Bool) (program : Program α) (s : σ)
    : program.runWhile perform allows s
        = (some (program.run perform s).1, (program.run perform s).2)
      ∨ ∃ calls, program.runWhile perform allows s = (none, (program.advance perform calls s).2) := by
  induction program generalizing s with
  | done a => exact .inl rfl
  | ask c next ih =>
      rw [runWhile]
      simp only
      split
      next =>
        rcases ih (perform c s).1 (perform c s).2 with ends | ⟨calls, stops⟩
        · exact .inl ends
        · exact .inr ⟨calls + 1, stops⟩
      next => exact .inr ⟨1, by simp⟩

end Program

-----------------------------------------------------------------------------------------
-- What the cache may give
-----------------------------------------------------------------------------------------

namespace Backend

/-- The cache gives a person at some time from then on. -/
def Caches (b : Backend) (since : Nat) (id : Uuid) (p : Person) : Prop :=
  ∃ now octets, since ≤ now ∧ b.cache.get now (cacheKey id) = some octets
    ∧ Person.decode octets = .ok p

/-- What the cache may give is on record, or known to be stale. -/
def Current (since : Nat) (stale : Uuid → Person → Prop) (b : Backend) : Prop :=
  ∀ id p, b.Caches since id p → b.table.get id = .ok (some p) ∨ stale id p

variable {b after : Backend} {since : Nat} {stale : Uuid → Person → Prop} {id other : Uuid} {p : Person}

theorem Caches.of_same (cache : after.cache = b.cache) (caches : after.Caches since id p)
    : b.Caches since id p := by
  rw [Caches, cache] at caches
  exact caches

/-- What is given once a person was cleared is another person, and was given before. -/
theorem Caches.of_cleared (cache : after.cache = b.cache.delete (cacheKey id))
    (caches : after.Caches since other p)
    : other ≠ id ∧ b.Caches since other p := by
  obtain ⟨now, octets, later, held, decoded⟩ := caches
  rw [cache, Cache.get_delete] at held
  split at held
  next => cases held
  next unlike => exact ⟨fun same => unlike (by rw [same]), now, octets, later, held, decoded⟩

/-- The cache is left alone, and persons on record stay there. -/
theorem Current.of_same (current : b.Current since stale) (cache : after.cache = b.cache)
    (kept : ∀ id p, b.table.get id = .ok (some p) → after.table.get id = .ok (some p))
    : after.Current since stale := fun id p caches =>
  (current id p (caches.of_same cache)).imp_left (kept id p)

/-- What a call of the cache puts there is on record. -/
theorem Current.perform_set (current : b.Current since stale) (live : b.table.get id = .ok (some p))
    (span : Span)
    : (b.perform (.cacheSet (cacheKey id) p.encode span)).2.Current since stale := by
  refine cacheCall_cases (motive := fun r => r.2.Current since stale) current ?_
  rintro other q ⟨now, octets, later, held, decoded⟩
  rcases Cache.get_of_set held with ⟨same, rfl⟩ | held
  · obtain rfl := Uuid.text_injective same
    rw [Person.decode_encode] at decoded
    obtain rfl := Except.ok.inj decoded
    exact .inl live
  · exact current other q ⟨now, octets, later, held, decoded⟩

theorem Current.perform_adds {c : Call} (current : b.Current since stale) (adds : c.Adds)
    : (b.perform c).2.Current since stale := by
  have same : b.SameCache (b.perform c).2 :=
    perform_sameCache (by rintro _ _ _ rfl; exact adds) (by rintro _ rfl; exact adds)
  exact current.of_same same.1 fun id p live => get_perform_of_adds adds live

end Backend

variable {b : Backend} {since : Nat} {stale : Uuid → Person → Prop}

/-- Programs that add persons at most leave the cache current, however far they get. By induction on the
program.
-/
theorem current_of_adds {α : Type} {program : Program α}
    (keeps : program.Keeps Call.Adds fun _ _ => True) (current : b.Current since stale) (calls : Nat)
    : (program.advance Backend.perform calls b).2.Current since stale := by
  induction program generalizing b calls with
  | done a =>
      rw [Program.advance_done]
      exact current
  | ask c next ih =>
      cases calls with
      | zero =>
          rw [Program.advance_zero]
          exact current
      | succ calls => exact ih _ (keeps.2 _ trivial) (current.perform_adds keeps.1) calls

theorem current_getStored (current : b.Current since stale) (span : Span) (id : Uuid) (calls : Nat)
    : ((getStored span id).advance Backend.perform calls b).2.Current since stale := by
  cases calls with
  | zero => exact current
  | succ calls =>
      have counted : (b.perform (.get id)).2.Current since stale := current.perform_adds trivial
      rw [getStored, Program.advance_ask]
      cases down : b.isDown .storeGet with
      | true =>
          rw [show b.perform (.get id) = _ from Backend.storeCall_down down] at counted ⊢
          simpa using counted
      | false =>
          rw [Backend.perform_get down] at counted ⊢
          cases live : b.table.get id with
          | error e => simpa using counted
          | ok found =>
              cases found with
              | none => simpa using counted
              | some p =>
                  cases calls with
                  | zero => exact counted
                  | succ calls =>
                      rw [Program.advance_ask, Program.advance_done]
                      exact counted.perform_set live span

/-- What is put into the cache while a person is read is on record. -/
theorem current_get (current : b.Current since stale) (span : Span) (id : Uuid) (calls : Nat)
    : ((get span id).advance Backend.perform calls b).2.Current since stale := by
  cases calls with
  | zero => exact current
  | succ calls =>
      have looked : (b.perform (.cacheGet (cacheKey id))).2.Current since stale :=
        Backend.cacheCall_cases (motive := fun r => r.2.Current since stale) current current
      have missed := current_getStored looked span id calls
      rw [get, Program.advance_ask]
      rcases (b.perform (.cacheGet (cacheKey id))).1 with e | none | octets
      · exact missed
      · exact missed
      · simp only
        split
        next =>
          rw [Program.advance_done]
          exact looked
        next => exact missed

-----------------------------------------------------------------------------------------
-- What a change leaves behind
-----------------------------------------------------------------------------------------

/-- What a change of a person has left once it has made some calls, whether or not it is over then. What
was written may not be cleared from the cache if the change is unfinished, if the cache cannot be cleared,
or if the person was deleted by someone else meanwhile.
-/
inductive LeftBehind (b : Backend) (id : Uuid) (unfinished : Prop) : Backend → Prop
  | untouched {after : Backend} (table : after.table = b.table) (cache : after.cache = b.cache)
      : LeftBehind b id unfinished after
  | written {after : Backend}
      (uncleared : unfinished ∨ b.isDown .cacheDelete = true ∨ b.isDown .storeVanish = true)
      (others : ∀ other, other ≠ id → after.table.get other = b.table.get other)
      (cache : after.cache = b.cache) : LeftBehind b id unfinished after
  | cleared {after : Backend}
      (others : ∀ other, other ≠ id → after.table.get other = b.table.get other)
      (cache : after.cache = b.cache.delete (cacheKey id)) : LeftBehind b id unfinished after

section Changes

variable {after : Backend} {id other : Uuid} {p : Person} {unfinished : Prop}

theorem LeftBehind.imp {weaker : Prop} (left : LeftBehind b id unfinished after)
    (implies : unfinished → weaker)
    : LeftBehind b id weaker after := by
  cases left with
  | untouched table cache => exact .untouched table cache
  | written uncleared others cache => exact .written (uncleared.imp_left implies) others cache
  | cleared others cache => exact .cleared others cache

/-- A call of the store more makes no difference to what is left behind. -/
theorem LeftBehind.of_counted (left : LeftBehind b.counted id unfinished after)
    : LeftBehind b id unfinished after := by
  cases left with
  | untouched table cache => exact .untouched table cache
  | written uncleared others cache => exact .written uncleared others cache
  | cleared others cache => exact .cleared others cache

/-- Whoever the cache gives after a change, it gave before; and only the changed person is another one on
record, if it was not cleared.
-/
theorem LeftBehind.caches (left : LeftBehind b id unfinished after)
    (caches : after.Caches since other p)
    : b.Caches since other p
      ∧ (after.table.get other = b.table.get other
        ∨ other = id ∧ after.cache = b.cache
          ∧ (unfinished ∨ b.isDown .cacheDelete = true ∨ b.isDown .storeVanish = true)) := by
  cases left with
  | untouched table cache => exact ⟨caches.of_same cache, .inl (by rw [table])⟩
  | written uncleared others cache =>
      refine ⟨caches.of_same cache, ?_⟩
      by_cases own : other = id
      · exact .inr ⟨own, cache, uncleared⟩
      · exact .inl (others other own)
  | cleared others cache =>
      obtain ⟨unlike, before⟩ := caches.of_cleared cache
      exact ⟨before, .inl (others other unlike)⟩

/-- A change that is finished leaves the cache current, if it can be cleared and nobody else deletes persons
meanwhile.
-/
theorem LeftBehind.current (left : LeftBehind b id unfinished after) (finished : ¬unfinished)
    (clears : b.isDown .cacheDelete = false) (calm : b.isDown .storeVanish = false)
    (current : b.Current since stale)
    : after.Current since stale := by
  intro other p caches
  obtain ⟨before, same | ⟨-, -, uncleared⟩⟩ := left.caches caches
  · rw [same]
    exact current other p before
  · rcases uncleared with unfinished | down | vanishes
    · exact absurd unfinished finished
    · cases clears.symm.trans down
    · cases calm.symm.trans vanishes

theorem get_update_other (own : p.id = some id) (unlike : other ≠ id)
    : (Backend.update p b).2.table.get other = b.table.get other := by
  have updated (table : Table) : (table.update b.now p).2.get other = table.get other := by
    cases found : (table.update b.now p).1 with
    | none => rw [Table.update_of_none found]
    | some written =>
        rw [Table.get_update own found (Table.get_eq table other), if_neg unlike, Table.get_eq]
  simp only [Backend.update, own]
  rw [updated]
  split
  next => rw [Table.get_delete (Table.get_eq b.table other), if_neg unlike, Table.get_eq]
  next => rfl

/-- What is left once a person was written, until it is cleared from the cache. -/
theorem leftBehind_clearing {α : Type} {table : Table}
    (others : ∀ other, other ≠ id → table.get other = b.table.get other) (a : α) (calls : Nat)
    : LeftBehind b id (calls < 1)
        ((clearing id a).advance Backend.perform calls { b.counted with table := table }).2 := by
  cases calls with
  | zero => exact .written (.inl Nat.zero_lt_one) others rfl
  | succ calls =>
      rw [clearing, Program.advance_ask]
      cases down : b.isDown .cacheDelete with
      | true =>
          have call : Backend.perform (.cacheDelete (cacheKey id)) { b.counted with table := table }
              = (.error ⟨Outage.cacheDelete.text⟩, { b.counted with table := table }) := if_pos down
          rw [call]
          simp only [Program.advance_done]
          exact .written (.inr (.inl down)) others rfl
      | false =>
          have call : Backend.perform (.cacheDelete (cacheKey id)) { b.counted with table := table }
              = (.ok (), { b.counted with table := table, cache := b.cache.delete (cacheKey id) }) :=
            if_neg (ne_true_of_eq_false down)
          rw [call]
          simp only [Program.advance_done]
          exact .cleared others rfl

theorem leftBehind_writeBack (own : p.id = some id) (calls : Nat)
    : LeftBehind b id (calls < 2) ((writeBack id p).advance Backend.perform calls b).2 := by
  cases calls with
  | zero => exact .untouched rfl rfl
  | succ calls =>
      rw [writeBack, Program.advance_ask]
      cases down : b.isDown .storeUpdate with
      | true =>
          rw [show b.perform (.update p) = _ from Backend.storeCall_down down]
          simp only [Program.advance_done]
          exact .untouched rfl rfl
      | false =>
          obtain ⟨found, table, call⟩ : ∃ found table, b.perform (.update p)
              = (.ok found, { b.counted with table := table }) := ⟨_, _, Backend.storeCall_up down⟩
          have others : ∀ other, other ≠ id → table.get other = b.table.get other := by
            intro other unlike
            have same := get_update_other (b := b.counted) own unlike
            rwa [show Backend.update p b.counted = _ from (Backend.storeCall_up down).symm.trans call]
              at same
          rw [call]
          cases found with
          | some written =>
              exact (leftBehind_clearing others written calls).imp fun early => by omega
          | none =>
              simp only [Program.advance_done]
              cases vanishes : b.isDown .storeVanish with
              | true => exact .written (.inr (.inr vanishes)) others rfl
              | false =>
                  have both := (Backend.perform_update down vanishes).symm.trans call
                  obtain ⟨missing, same⟩ := Prod.mk.inj both
                  have kept := Table.update_of_none (Except.ok.inj missing)
                  exact .untouched ((congrArg Backend.table same).symm.trans kept) rfl

/-- A person that cannot be read, is not there or would be faulty is left alone. -/
theorem leftBehind_update (b : Backend) (id : Uuid) (patch : Patch) (calls : Nat)
    : LeftBehind b id (calls < 3) ((update id patch).advance Backend.perform calls b).2 := by
  cases calls with
  | zero => exact .untouched rfl rfl
  | succ calls =>
      rw [update, Program.advance_ask]
      cases down : b.isDown .storeGet with
      | true =>
          rw [show b.perform (.get id) = _ from Backend.storeCall_down down]
          simp only [Program.advance_done]
          exact .untouched rfl rfl
      | false =>
          rw [Backend.perform_get down]
          cases live : b.table.get id with
          | error e =>
              simp only [Program.advance_done]
              exact .untouched rfl rfl
          | ok found =>
              cases found with
              | none =>
                  simp only [Program.advance_done]
                  exact .untouched rfl rfl
              | some held =>
                  have kept : (patch.apply held).id = held.id := rfl
                  have own := kept.trans (Table.id_of_get live)
                  simp only
                  split
                  next =>
                    rw [Program.advance_done]
                    exact .untouched rfl rfl
                  next => exact (leftBehind_writeBack own calls).of_counted.imp fun early => by omega

theorem leftBehind_delete (b : Backend) (id : Uuid) (calls : Nat)
    : LeftBehind b id (calls < 3) ((delete id).advance Backend.perform calls b).2 := by
  cases calls with
  | zero => exact .untouched rfl rfl
  | succ calls =>
      rw [delete, Program.advance_ask]
      cases down : b.isDown .storeDelete with
      | true =>
          rw [show b.perform (.delete id) = _ from Backend.storeCall_down down]
          simp only [Program.advance_done]
          exact .untouched rfl rfl
      | false =>
          rw [Backend.perform_delete down]
          cases found : (b.table.delete b.now id).1 with
          | false =>
              rw [Table.delete_of_false found]
              simp only [Program.advance_done]
              exact .untouched rfl rfl
          | true =>
              have others : ∀ other, other ≠ id →
                  (b.table.delete b.now id).2.get other = b.table.get other := by
                intro other unlike
                rw [Table.get_delete (Table.get_eq b.table other), if_neg unlike, Table.get_eq]
              exact (leftBehind_clearing others () calls).imp fun early => by omega

end Changes
end Service
end PersonRegistry

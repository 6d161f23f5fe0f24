import PersonRegistry.Service.Backend
import PersonRegistry.Service.Operations

/-! The requests that the service takes, as programs of one type, and what holds of every run of a
program because it holds of each call.
-/

namespace PersonRegistry.Service

open Time (Span)

-----------------------------------------------------------------------------------------
-- Programs
-----------------------------------------------------------------------------------------

namespace Program

variable {α β σ : Type} {perform : (c : Call) → σ → c.Answer × σ}

@[simp] theorem run_done (a : α) (s : σ) : (done a).run perform s = (a, s) := rfl

@[simp] theorem run_ask (c : Call) (next : c.Answer → Program α) (s : σ)
    : (ask c next).run perform s
      = (next (perform c s).1).run perform (perform c s).2 :=
  rfl

/-- A program is run before the one that takes its result, by induction on it. -/
theorem run_bind (program : Program α) (f : α → Program β) (s : σ)
    : (program.bind f).run perform s
      = (f (program.run perform s).1).run perform (program.run perform s).2 := by
  induction program generalizing s with
  | done a => rfl
  | ask c next ih => exact ih _ _

@[simp] theorem run_map (program : Program α) (f : α → β) (s : σ)
    : (f <$> program).run perform s
      = (f (program.run perform s).1, (program.run perform s).2) :=
  run_bind program (fun a => done (f a)) s

/-- A program makes none but the allowed calls, as long as its calls are answered as promised. -/
def Keeps (allowed : Call → Prop) (promised : (c : Call) → c.Answer → Prop) : Program α → Prop
  | .done _ => True
  | .ask c next => allowed c ∧ ∀ answer, promised c answer → (next answer).Keeps allowed promised

section Keeps

variable {allowed : Call → Prop} {promised : (c : Call) → c.Answer → Prop} {program : Program α}

theorem Keeps.bind {f : α → Program β} (first : program.Keeps allowed promised)
    (then_ : ∀ a, (f a).Keeps allowed promised)
    : (program.bind f).Keeps allowed promised := by
  induction program with
  | done a => exact then_ a
  | ask c next ih =>
      exact ⟨first.1, fun answer kept => ih answer (first.2 answer kept)⟩

theorem Keeps.map (f : α → β) (keeps : program.Keeps allowed promised)
    : (f <$> program).Keeps allowed promised :=
  keeps.bind fun _ => True.intro

end Keeps
end Program

section Keeps

variable {allowed : Call → Prop} {promised : (c : Call) → c.Answer → Prop}

/-- A person is read by calls of the cache and one of the store. -/
theorem get_keeps {id : Uuid} {span : Span} (fetches : allowed (.get id))
    (looks : allowed (.cacheGet (cacheKey id)))
    (caches : ∀ value, allowed (.cacheSet (cacheKey id) value span))
    : (get span id).Keeps allowed promised := by
  have stored : (getStored span id).Keeps allowed promised := by
    refine ⟨fetches, fun answer _ => ?_⟩
    rcases answer with e | none | p
    · trivial
    · trivial
    · exact ⟨caches _, fun _ _ => trivial⟩
  refine ⟨looks, fun answer _ => ?_⟩
  rcases answer with e | none | octets
  · exact stored
  · exact stored
  · cases read : Person.decode octets with
    | error e =>
        simp only [read]
        exact stored
    | ok p =>
        simp only [read]
        trivial

theorem list_keeps {filter : Filter} (lists : allowed (.list filter))
    : (list filter).Keeps allowed promised := by
  rw [list]
  split
  next => trivial
  next =>
    refine ⟨lists, fun answer _ => ?_⟩
    cases answer <;> trivial

end Keeps

-----------------------------------------------------------------------------------------
-- Calls of the store
-----------------------------------------------------------------------------------------

def Call.Reads : Call → Prop
  | .create _ | .update _ | .delete _ => False
  | _ => True

namespace Backend

variable {α : Type} {b : Backend} {part : Outage}
  {act : Backend → Except Store.Error α × Backend}

/-- A call of the store that is down changes nothing. -/
theorem storeCall_down (down : b.isDown part = true)
    : b.storeCall part act = (.error (.down part.text), b.counted) :=
  if_pos down

theorem storeCall_up (up : b.isDown part = false) : b.storeCall part act = act b.counted :=
  if_neg (by rw [counted, isDown]; exact ne_true_of_eq_false up)

/-- A call of the store is down, or does what it does. -/
theorem storeCall_cases {motive : Except Store.Error α × Backend → Prop}
    (down : motive (.error (.down part.text), b.counted)) (up : motive (act b.counted))
    : motive (b.storeCall part act) := by
  cases fails : b.isDown part with
  | true => exact storeCall_down fails ▸ down
  | false => exact storeCall_up fails ▸ up

/-- A call of the cache is down, or does what it does. -/
theorem cacheCall_cases {act : Backend → α × Backend} {motive : Except CacheError α × Backend → Prop}
    (down : motive (.error ⟨part.text⟩, b)) (up : motive (.ok (act b).1, (act b).2))
    : motive (b.cacheCall part act) := by
  rw [cacheCall]
  split
  next => exact down
  next => exact up

theorem perform_get (up : b.isDown .storeGet = false) (id : Uuid)
    : b.perform (.get id) = (b.table.get id, b.counted) :=
  storeCall_up up

/-- What is done besides calls of the store leaves the table as it is, by cases on the call. -/
theorem table_perform {c : Call} (reads : c.Reads) : (b.perform c).2.table = b.table := by
  cases c with
  | get _ | list _ => exact storeCall_cases (motive := fun r => r.2.table = b.table) rfl rfl
  | lookUp _ => rfl
  | publish message =>
      simp only [perform, publish]
      split <;> rfl
  | report message =>
      simp only [perform, report]
      split
      next => rfl
      next => split <;> rfl
  | cacheGet _ | cacheSet _ _ _ | cacheDelete _ =>
      exact cacheCall_cases (motive := fun r => r.2.table = b.table) rfl rfl
  | _ => exact reads.elim

end Backend

-----------------------------------------------------------------------------------------
-- Requests
-----------------------------------------------------------------------------------------

inductive Request
  | create (draft : Draft)
  | get (id : Uuid)
  | list (filter : Filter)
  | update (id : Uuid) (patch : Patch)
  | delete (id : Uuid)

/-- What a request is answered with when it does not fail. -/
inductive Outcome
  | person (p : Person)
  | persons (found : List Person)
  | nothing
  deriving DecidableEq, Repr

def programOf (span : Span) : Request → Program (Except Error Outcome)
  | .create draft => Except.map .person <$> create draft
  | .get id => Except.map .person <$> get span id
  | .list filter => Except.map .persons <$> list filter
  | .update id patch => Except.map .person <$> update id patch
  | .delete id => Except.map (fun _ => .nothing) <$> delete id

/-- Surroundings in which every lookup brings the same traits, and every new person gets the same
identifier.
-/
def Backend.answering (id : Uuid) : Backend where
  replies _ t := ⟨10, .ok (Text.Utf8.encode (payload t).toList)⟩
  ids _ := id
where
  payload : Inference.Trait → String
    | .age => "\x7b\"age\":36\x7d"
    | .gender => "\x7b\"gender\":\"female\"\x7d"
    | .nationality => "\x7b\"nationality\":\"GB\"\x7d"

end PersonRegistry.Service

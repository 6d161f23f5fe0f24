import Mathlib.Data.List.AList
import Mathlib.Data.List.Infix
import PersonRegistry.Proofs.Service.CacheCoherence

/-! How long a cache gives a value: until the span of the last call that put it there is over, whatever
else it was asked in between. This is shown for a cache that keeps each value with its span in a map
whose entries expire by a rule, whenever the map removes those that are over, and for the cache in memory.
-/

namespace PersonRegistry.Service

open Text (Octets)
open Time (Span)

-----------------------------------------------------------------------------------------
-- Maps whose entries expire
-----------------------------------------------------------------------------------------

/-- How long an entry of a map lives: from when it is put under a key that holds none, from when it takes
the place of another one, and from when it is read. The last two are told how long the entry that was there
had left, and `none` stands for no end.
-/
structure ExpiryRule (α : Type) where
  created : (key : String) → α → (now : Nat) → Option Span
  updated : (key : String) → α → (now : Nat) → (left : Option Span) → Option Span
  read : (key : String) → α → (now : Nat) → (left : Option Span) → Option Span := fun _ _ _ left => left

/-- An entry that a map holds, and the time at which its life is over. -/
structure Held (α : Type) where
  entry : α
  ends : Option Nat

section Maps

variable {α : Type}

namespace Held

def left (held : Held α) (now : Nat) : Option Span := held.ends.map (· - now)

def Over (held : Held α) (now : Nat) : Prop := ∃ ends ∈ held.ends, ends ≤ now

instance (held : Held α) (now : Nat) : Decidable (held.Over now) :=
  inferInstanceAs (Decidable (∃ ends ∈ held.ends, ends ≤ now))

end Held

namespace ExpiryRule

variable (rule : ExpiryRule α) (key : String) (entry : α) (now : Nat)

/-- When the life of an entry is over that is put where another one is held, or none. -/
def ends : (before : Option (Held α)) → Option Nat
  | none => (rule.created key entry now).map (now + ·)
  | some held => (rule.updated key entry now (held.left now)).map (now + ·)

/-- An entry that has just been read. -/
def renewed (held : Held α) : Held α :=
  ⟨held.entry, (rule.read key held.entry now (held.left now)).map (now + ·)⟩

end ExpiryRule

/-- A map whose entries expire. It may hold an entry for longer than it lives. -/
structure ExpiringMap (α : Type) where
  State : Type
  empty : State
  held : State → (key : String) → Option (Held α)
  get : (now : Nat) → (key : String) → State → Option α × State
  insert : (now : Nat) → (key : String) → α → State → State
  invalidate : (now : Nat) → (key : String) → State → State

/-- An entry stays as it is, or is removed because its life is over. -/
inductive Swept (now : Nat) : (before after : Option (Held α)) → Prop
  | kept (held : Option (Held α)) : Swept now held held
  | removed {held : Held α} (ended : held.Over now) : Swept now (some held) none

/-- What is read where an entry is held, or none, and what is held there afterwards. At the very moment
when its life is over, an entry may be found or not.
-/
inductive ReadAs (rule : ExpiryRule α) (key : String) (now : Nat)
    : (before : Option (Held α)) → (found : Option α) → (after : Option (Held α)) → Prop
  | nothing : ReadAs rule key now none none none
  | found {held : Held α} {after : Option (Held α)} (lives : ∀ ends ∈ held.ends, now ≤ ends)
      (swept : Swept now (some (rule.renewed key now held)) after)
      : ReadAs rule key now (some held) (some held.entry) after
  | missed {held : Held α} {after : Option (Held α)} (ended : held.Over now)
      (swept : Swept now (some held) after)
      : ReadAs rule key now (some held) none after

namespace ExpiringMap

/-- The map holds fewer entries than it may. -/
def HasRoom (map : ExpiringMap α) (capacity : Nat) (s : map.State) : Prop :=
  ∃ keys : List String, keys.length < capacity ∧ ∀ key, map.held s key ≠ none → key ∈ keys

/-- The map lets its entries live as the rule has it, and drops no other one as long as it has room. An
entry that is over may be removed at any call, also right before it would be replaced.
-/
structure Follows (map : ExpiringMap α) (rule : ExpiryRule α) (capacity : Nat) : Prop where
  empty : ∀ key, map.held map.empty key = none
  get : ∀ s now key, map.HasRoom capacity s →
    ReadAs rule key now (map.held s key) (map.get now key s).1 (map.held (map.get now key s).2 key)
  get_other : ∀ s now key other, map.HasRoom capacity s → key ≠ other →
    Swept now (map.held s other) (map.held (map.get now key s).2 other)
  insert : ∀ s now key entry, map.HasRoom capacity s →
    ∃ before, Swept now (map.held s key) before
      ∧ Swept now (some ⟨entry, rule.ends key entry now before⟩)
          (map.held (map.insert now key entry s) key)
  insert_other : ∀ s now key entry other, map.HasRoom capacity s → key ≠ other →
    Swept now (map.held s other) (map.held (map.insert now key entry s) other)
  invalidate : ∀ s now key, map.held (map.invalidate now key s) key = none
  invalidate_other : ∀ s now key other, map.HasRoom capacity s → key ≠ other →
    Swept now (map.held s other) (map.held (map.invalidate now key s) other)

end ExpiringMap

namespace Swept

variable {first second third : Option (Held α)} {now later : Nat}

theorem trans (left : Swept now first second) (right : Swept now second third)
    : Swept now first third := by
  cases left with
  | kept => exact right
  | removed ended =>
      cases right
      exact .removed ended

theorem mono (swept : Swept now first second) (after : now ≤ later)
    : Swept later first second := by
  cases swept with
  | kept => exact .kept first
  | removed ended =>
      obtain ⟨ends, own, reached⟩ := ended
      exact .removed ⟨ends, own, Nat.le_trans reached after⟩

end Swept

namespace ReadAs

variable {rule : ExpiryRule α} {key : String} {now ends : Nat} {held : Held α} {found : Option α}
  {before after : Option (Held α)}

theorem eq_none (read : ReadAs rule key now none found after) : found = none := by
  cases read
  rfl

theorem nowhere (read : ReadAs rule key now before found after) (swept : Swept now none before)
    : found = none := by
  cases swept
  exact read.eq_none

/-- An entry is found as long as it lives, and not later, whether it was removed by then or not. -/
theorem within (read : ReadAs rule key now before found after) (swept : Swept now (some held) before)
    (own : held.ends = some ends)
    : (now < ends → found = some held.entry) ∧ (ends < now → found = none) := by
  have missed (ended : held.Over now) : now < ends → none = some held.entry := by
    obtain ⟨reached, same, ended⟩ := ended
    obtain rfl : ends = reached := Option.some.inj (own.symm.trans same)
    intro lives
    exact absurd ended (Nat.not_le.mpr lives)
  cases swept with
  | removed ended =>
      obtain rfl := read.eq_none
      exact ⟨missed ended, fun _ => rfl⟩
  | kept =>
      cases read with
      | found lives => exact ⟨fun _ => rfl, fun past => absurd (lives ends own) (Nat.not_le.mpr past)⟩
      | missed ended => exact ⟨missed ended, fun _ => rfl⟩

end ReadAs

-----------------------------------------------------------------------------------------
-- A map that removes nothing by itself
-----------------------------------------------------------------------------------------

/-- Entries by key, some of which may be over. -/
abbrev Shelf (α : Type) := AList fun _ : String => Held α

namespace Shelf

variable (rule : ExpiryRule α) (now : Nat) (key : String)

def get (s : Shelf α) : Option α × Shelf α :=
  match s.lookup key with
  | none => (none, s)
  | some held =>
      if held.Over now then (none, s) else (some held.entry, s.insert key (rule.renewed key now held))

def insert (entry : α) (s : Shelf α) : Shelf α :=
  AList.insert key ⟨entry, rule.ends key entry now (s.lookup key)⟩ s

/-- Entries are held until they are replaced or cleared, and those that are over are not found. -/
def map : ExpiringMap α where
  State := Shelf α
  empty := ∅
  held s key := s.lookup key
  get := get rule
  insert := insert rule
  invalidate _ key s := s.erase key

theorem map_hasRoom {capacity : Nat} {s : Shelf α} (room : s.keys.length < capacity)
    : (map rule).HasRoom capacity s := by
  refine ⟨s.keys, room, fun key held => ?_⟩
  by_contra absent
  exact held (AList.lookup_eq_none.mpr absent)

theorem readAs_get (s : Shelf α)
    : ReadAs rule key now (s.lookup key) (get rule now key s).1
        ((get rule now key s).2.lookup key) := by
  rw [get]
  split
  next absent =>
    rw [absent]
    exact .nothing
  next held present =>
    split
    next ended =>
      rw [present]
      exact .missed ended (.kept _)
    next lives =>
      rw [present, AList.lookup_insert]
      refine .found (fun ends own => ?_) (.kept _)
      by_contra reached
      exact lives ⟨ends, own, Nat.le_of_not_le reached⟩

theorem lookup_get {other : String} (apart : key ≠ other) (s : Shelf α)
    : (get rule now key s).2.lookup other = s.lookup other := by
  rw [get]
  split
  next => rfl
  next =>
    split
    next => rfl
    next => exact AList.lookup_insert_ne apart.symm

theorem swept_of_eq {before after : Option (Held α)} (same : after = before)
    : Swept now before after := by
  rw [same]
  exact .kept before

theorem map_follows (capacity : Nat) : (map rule).Follows rule capacity where
  empty key := AList.lookup_eq_none.mpr (AList.notMem_empty key)
  get s now key _ := readAs_get rule now key s
  get_other s now key _ _ apart := swept_of_eq now (lookup_get rule now key apart s)
  insert s now key _ _ := ⟨AList.lookup key s, .kept _, swept_of_eq now (AList.lookup_insert s)⟩
  insert_other _ now _ _ _ _ apart := swept_of_eq now (AList.lookup_insert_ne apart.symm)
  invalidate s _ key := AList.lookup_erase key s
  invalidate_other _ now _ _ _ apart := swept_of_eq now (AList.lookup_erase_ne apart.symm)

end Shelf

end Maps

-----------------------------------------------------------------------------------------
-- Caches that keep values with their spans
-----------------------------------------------------------------------------------------

/-- A value and the span for which it is to be kept. -/
structure Lasting where
  value : Octets
  span : Span

/-- Every entry lives for its own span, no matter what was there before. Reading it changes nothing. -/
def ExpiryRule.ownSpan : ExpiryRule Lasting where
  created _ entry _ := some entry.span
  updated _ entry _ _ := some entry.span

section OwnSpan

variable {now : Nat}

/-- An entry is given its own span, whatever it replaces. -/
theorem ExpiryRule.ends_ownSpan (key : String) (entry : Lasting) (now : Nat)
    (before : Option (Held Lasting))
    : ownSpan.ends key entry now before = some (now + entry.span) := by
  cases before <;> rfl

/-- What is read and still lives is to live as long as before. -/
theorem ExpiryRule.renewed_ownSpan {held : Held Lasting} (lives : ∀ ends ∈ held.ends, now ≤ ends)
    (key : String)
    : ownSpan.renewed key now held = held := by
  obtain ⟨entry, ends⟩ := held
  cases ends with
  | none => rfl
  | some ends =>
      have reached : now ≤ ends := lives ends rfl
      simp [renewed, ownSpan, Held.left, Nat.add_sub_cancel' reached]

/-- Reading an entry removes it at most. -/
theorem ReadAs.swept {key : String} {before after : Option (Held Lasting)} {found : Option Lasting}
    (read : ReadAs .ownSpan key now before found after)
    : Swept now before after := by
  cases read with
  | nothing => exact .kept none
  | found lives swept => exact ExpiryRule.renewed_ownSpan lives key ▸ swept
  | missed _ swept => exact swept

end OwnSpan

/-- A call of a cache, and when it is made. -/
structure TimedCall where
  time : Nat
  call : CacheCall

/-- The call puts a value under the key, or clears it. -/
def TimedCall.writes (key : String) : TimedCall → Bool
  | ⟨_, .get _⟩ => false
  | ⟨_, .set other ..⟩ => other = key
  | ⟨_, .delete other⟩ => other = key

namespace ExpiringMap

variable (map : ExpiringMap Lasting)

/-- Answers a call of the cache. Only calls to get a value find one. -/
def perform (s : map.State) : TimedCall → Option Octets × map.State
  | ⟨now, .get key⟩ => ((map.get now key s).1.map (·.value), (map.get now key s).2)
  | ⟨now, .set key value span⟩ => (none, map.insert now key ⟨value, span⟩ s)
  | ⟨now, .delete key⟩ => (none, map.invalidate now key s)

/-- What is held after calls, latest first. -/
def after : (calls : List TimedCall) → map.State
  | [] => map.empty
  | c :: earlier => (map.perform (after earlier) c).2

/-- The value found under a key after calls. -/
def getAfter (calls : List TimedCall) (now : Nat) (key : String) : Option Octets :=
  (map.perform (map.after calls) ⟨now, .get key⟩).1

/-- After none of the calls were as many entries held as there may be. -/
def NeverFull (capacity : Nat) (calls : List TimedCall) : Prop :=
  ∀ earlier, earlier <:+ calls → map.HasRoom capacity (map.after earlier)

end ExpiringMap

/-- The values that the cache in memory holds after calls, latest first. -/
def heldAfter : (calls : List TimedCall) → Cache
  | [] => {}
  | ⟨_, .get _⟩ :: earlier => heldAfter earlier
  | ⟨now, .set key value span⟩ :: earlier => (heldAfter earlier).set now key value span
  | ⟨_, .delete key⟩ :: earlier => (heldAfter earlier).delete key

/-- A value that was put under a key, when, and for how long. -/
structure Put where
  start : Nat
  value : Octets
  span : Span
  deriving DecidableEq

def Put.held (put : Put) : Held Lasting := ⟨⟨put.value, put.span⟩, some (put.start + put.span)⟩

/-- What was put under a key by the latest of the calls that wrote it, unless that one cleared it. -/
def lastPut? (key : String) (calls : List TimedCall) : Option Put :=
  match calls.find? (·.writes key) with
  | some ⟨start, .set _ value span⟩ => some ⟨start, value, span⟩
  | _ => none

section LastPut

variable {key other : String} {now : Nat} {value : Octets} {span : Span} {earlier : List TimedCall}

theorem lastPut?_get : lastPut? key (⟨now, .get other⟩ :: earlier) = lastPut? key earlier := rfl

theorem lastPut?_set
    : lastPut? key (⟨now, .set other value span⟩ :: earlier)
      = if other = key then some ⟨now, value, span⟩ else lastPut? key earlier := by
  by_cases same : other = key <;> simp [lastPut?, TimedCall.writes, same]

theorem lastPut?_delete
    : lastPut? key (⟨now, .delete other⟩ :: earlier)
      = if other = key then none else lastPut? key earlier := by
  by_cases same : other = key <;> simp [lastPut?, TimedCall.writes, same]

/-- Only calls that write a key matter to what was put there last. -/
theorem lastPut?_congr {calls others : List TimedCall}
    (alike : others.filter (·.writes key) = calls.filter (·.writes key))
    : lastPut? key others = lastPut? key calls := by
  rw [lastPut?, lastPut?, ← List.head?_filter, ← List.head?_filter, alike]

end LastPut

/-- The cache in memory gives what was put last, until its span is over, by induction on the calls. -/
theorem get_heldAfter (key : String) (now : Nat) (calls : List TimedCall)
    : (heldAfter calls).get now key
      = (lastPut? key calls).bind fun put =>
          if now < put.start + put.span then some put.value else none := by
  induction calls with
  | nil => rfl
  | cons c earlier ih =>
      obtain ⟨time, call⟩ := c
      cases call with
      | get other => exact ih
      | set other value span =>
          rw [heldAfter, Cache.get_set, lastPut?_set, ih]
          split <;> rfl
      | delete other =>
          rw [heldAfter, Cache.get_delete, lastPut?_delete, ih]
          split <;> rfl

namespace ExpiringMap

variable {map : ExpiringMap Lasting} {capacity : Nat}

/-- One call: what is held under a key is what was put there last, or was removed as its span is over. -/
theorem Follows.swept_perform (follows : map.Follows .ownSpan capacity) {s : map.State}
    (room : map.HasRoom capacity s) {key : String} {c : TimedCall} {earlier : List TimedCall}
    (before : Swept c.time ((lastPut? key earlier).map Put.held) (map.held s key))
    : Swept c.time ((lastPut? key (c :: earlier)).map Put.held)
        (map.held (map.perform s c).2 key) := by
  obtain ⟨now, call⟩ := c
  cases call with
  | get other =>
      refine before.trans ?_
      by_cases same : other = key
      · subst same
        exact (follows.get s now other room).swept
      · exact follows.get_other s now other key room same
  | set other value span =>
      rw [lastPut?_set]
      by_cases same : other = key
      · subst same
        obtain ⟨_, _, swept⟩ := follows.insert s now other ⟨value, span⟩ room
        rw [ExpiryRule.ends_ownSpan] at swept
        rw [if_pos rfl]
        exact swept
      · rw [if_neg same]
        exact before.trans (follows.insert_other s now other ⟨value, span⟩ key room same)
  | delete other =>
      rw [lastPut?_delete]
      by_cases same : other = key
      · subst same
        rw [if_pos rfl, perform, follows.invalidate]
        exact .kept none
      · rw [if_neg same]
        exact before.trans (follows.invalidate_other s now other key room same)

/-- Calls at times in order: what is held under a key is what was put there last, or was removed. By induction
on the calls.
-/
theorem Follows.swept_after (follows : map.Follows .ownSpan capacity) (key : String)
    {calls : List TimedCall} (room : map.NeverFull capacity calls) {now : Nat}
    (ordered : (now :: calls.map (·.time)).Pairwise (· ≥ ·))
    : Swept now ((lastPut? key calls).map Put.held) (map.held (map.after calls) key) := by
  induction calls generalizing now with
  | nil =>
      rw [after, follows.empty]
      exact .kept none
  | cons c earlier ih =>
      obtain ⟨late, ordered⟩ := List.pairwise_cons.mp ordered
      have roomThen : map.NeverFull capacity earlier :=
        fun calls sub => room calls (sub.trans (List.suffix_cons c earlier))
      have before := ih roomThen ordered
      have step := follows.swept_perform (room earlier (List.suffix_cons c earlier)) before
      exact step.mono (late c.time List.mem_cons_self)

section

variable {calls others : List TimedCall} {now : Nat} {key : String}
  (follows : map.Follows .ownSpan capacity) (room : map.NeverFull capacity calls)
  (ordered : (now :: calls.map (·.time)).Pairwise (· ≥ ·))
include follows room ordered

/-- A value is found until its span is over, and not afterwards. -/
theorem getAfter_of_put {put : Put} (last : lastPut? key calls = some put)
    : (now < put.start + put.span → map.getAfter calls now key = some put.value)
      ∧ (put.start + put.span < now → map.getAfter calls now key = none) := by
  have swept := follows.swept_after key room ordered
  rw [last] at swept
  have read := follows.get (map.after calls) now key (room calls List.suffix_rfl)
  obtain ⟨alive, past⟩ := read.within swept rfl
  exact ⟨fun lives => congrArg (Option.map _) (alive lives),
    fun ended => congrArg (Option.map _) (past ended)⟩

/-- Nothing is found where nothing was put, or was cleared since. -/
theorem getAfter_of_no_put (last : lastPut? key calls = none) : map.getAfter calls now key = none := by
  have swept := follows.swept_after key room ordered
  rw [last] at swept
  have read := follows.get (map.after calls) now key (room calls List.suffix_rfl)
  exact congrArg (Option.map _) (read.nowhere swept)

/-- Calls that wrote a key alike leave the same to be found under it, whatever else was called. At the very
moment when a span is over, either may find the value.
-/
theorem getAfter_congr (roomToo : map.NeverFull capacity others)
    (orderedToo : (now :: others.map (·.time)).Pairwise (· ≥ ·))
    (alike : others.filter (·.writes key) = calls.filter (·.writes key))
    (apart : ∀ put, lastPut? key calls = some put → now ≠ put.start + put.span)
    : map.getAfter others now key = map.getAfter calls now key := by
  have same : lastPut? key others = lastPut? key calls := lastPut?_congr alike
  cases last : lastPut? key calls with
  | none =>
      rw [getAfter_of_no_put follows room ordered last,
        getAfter_of_no_put follows roomToo orderedToo (same.trans last)]
  | some put =>
      obtain ⟨alive, past⟩ := getAfter_of_put follows room ordered last
      obtain ⟨aliveToo, pastToo⟩ := getAfter_of_put follows roomToo orderedToo (same.trans last)
      rcases Nat.lt_or_gt_of_ne (apart put last) with lives | ended
      · rw [alive lives, aliveToo lives]
      · rw [past ended, pastToo ended]

end

end ExpiringMap

-----------------------------------------------------------------------------------------
-- What is found
-----------------------------------------------------------------------------------------

/-- A cache whose values live for their own spans gives what the latest call to write a key put there,
until its span is over, and nothing if that call cleared the key or there was none. Reads, earlier values
and calls for other keys make no difference. The cache in memory gives the same.
-/
theorem getAfter_lastPut {map : ExpiringMap Lasting} {capacity : Nat}
    (follows : map.Follows .ownSpan capacity) {calls : List TimedCall} {now : Nat}
    (ordered : (now :: calls.map (·.time)).Pairwise (· ≥ ·)) (room : map.NeverFull capacity calls)
    (key : String)
    : (∀ put, lastPut? key calls = some put →
        (now < put.start + put.span → map.getAfter calls now key = some put.value)
        ∧ (put.start + put.span < now → map.getAfter calls now key = none))
      ∧ (lastPut? key calls = none → map.getAfter calls now key = none)
      ∧ (∀ others : List TimedCall, (now :: others.map (·.time)).Pairwise (· ≥ ·) →
          map.NeverFull capacity others →
          others.filter (·.writes key) = calls.filter (·.writes key) →
          (∀ put, lastPut? key calls = some put → now ≠ put.start + put.span) →
          map.getAfter others now key = map.getAfter calls now key)
      ∧ (heldAfter calls).get now key
        = (lastPut? key calls).bind fun put =>
            if now < put.start + put.span then some put.value else none := by
  refine ⟨?_, ?_, ?_, get_heldAfter key now calls⟩
  · intro put last
    exact ExpiringMap.getAfter_of_put follows room ordered last
  · intro last
    exact ExpiringMap.getAfter_of_no_put follows room ordered last
  · intro others orderedToo roomToo alike apart
    exact ExpiringMap.getAfter_congr follows room ordered roomToo orderedToo alike apart

/-- A value takes the place of one whose span is over, and is found for its own span although it was read
in between.
-/
theorem getAfter_lastPut_replaced
    : let map := Shelf.map .ownSpan
      let calls : List TimedCall :=
        [⟨100, .get "ada"⟩, ⟨60, .set "ada" [2] 60⟩, ⟨20, .get "ada"⟩, ⟨10, .set "bob" [3] 5⟩,
          ⟨0, .set "ada" [1] 50⟩]
      map.Follows .ownSpan 3 ∧ (110 :: calls.map (·.time)).Pairwise (· ≥ ·) ∧ map.NeverFull 3 calls
        ∧ lastPut? "ada" calls = some ⟨60, [2], 60⟩ ∧ map.getAfter calls 110 "ada" = some [2]
        ∧ (heldAfter calls).get 110 "ada" = some [2] := by
  intro map calls
  have follows : map.Follows .ownSpan 3 := Shelf.map_follows .ownSpan 3
  have ordered : (110 :: calls.map (·.time)).Pairwise (· ≥ ·) := by decide
  have few : ∀ earlier ∈ calls.tails, (AList.keys (map.after earlier)).length < 3 := by
    decide +kernel
  have room : map.NeverFull 3 calls := by
    intro earlier sub
    exact Shelf.map_hasRoom .ownSpan (few earlier ((List.mem_tails earlier calls).mpr sub))
  have last : lastPut? "ada" calls = some ⟨60, [2], 60⟩ := by decide +kernel
  obtain ⟨found, -, -, held⟩ := getAfter_lastPut follows ordered room "ada"
  rw [last] at held
  exact ⟨follows, ordered, room, last, (found _ last).1 (by decide), held⟩

end PersonRegistry.Service

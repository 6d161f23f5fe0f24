import PersonRegistry.Proofs.Json.ReadingBack

/-! A decoded value is well formed, whatever the text: its integers have 64 bits, and the members of its
objects are in order. So reading back what is printed of it loses nothing but digits of floating-point
numbers.
-/

namespace PersonRegistry.Json

open Text (Octets)

-----------------------------------------------------------------------------------------
-- What readers give
-----------------------------------------------------------------------------------------

/-- Whatever a reader gives has a property. -/
def Yields {α : Type} (property : α → Prop) (read : Reader α) : Prop :=
  ∀ octets a rest, read octets = .ok (a, rest) → property a

namespace Yields

variable {α β : Type} {property : α → Prop} {later : β → Prop} {read : Reader α}

theorem pure {a : α} (holds : property a) : Yields property (pure a) := by
  intro octets b rest gives
  obtain ⟨rfl, -⟩ := Prod.mk.inj (Except.ok.inj gives)
  exact holds

theorem fail (cause : Cause) : Yields property (fail cause) := fun _ _ _ gives => nomatch gives

theorem failNext (cause : Cause) : Yields property (failNext cause) := fun _ _ _ gives => nomatch gives

theorem mono {weaker : α → Prop} (first : Yields property read) (weakens : ∀ a, property a → weaker a)
    : Yields weaker read :=
  fun octets a rest gives => weakens a (first octets a rest gives)

theorem bind_of {next : α → Reader β} (first : Yields property read)
    (others : ∀ a, property a → Yields later (next a))
    : Yields later (read >>= next) := by
  intro octets b rest gives
  rw [Reader.run_bind] at gives
  split at gives
  next a middle reads => exact others a (first octets a middle reads) middle b rest gives
  next => cases gives

theorem anything (read : Reader α) : Yields (fun _ => True) read := fun _ _ _ _ => trivial

/-- What a first reader gives may not matter for what the next one gives. -/
theorem bind {next : α → Reader β} (others : ∀ a, Yields later (next a)) : Yields later (read >>= next) :=
  bind_of (anything read) fun a _ => others a

theorem map {f : α → β} (first : Yields property read) (maps : ∀ a, property a → later (f a))
    : Yields later (f <$> read) :=
  bind_of first fun a holds => .pure (maps a holds)

end Yields

-----------------------------------------------------------------------------------------
-- Numbers
-----------------------------------------------------------------------------------------

/-- A whole number has 64 bits, with a sign or without one. -/
def Numeral.Fits : Numeral → Prop
  | .whole n => -0x8000000000000000 ≤ n ∧ n < 0x10000000000000000
  | .float _ => True

def Numeral.IsFloat : Numeral → Prop
  | .whole _ => False
  | .float _ => True

theorem Numeral.IsFloat.fits : (n : Numeral) → n.IsFloat → n.Fits
  | .float _, _ => trivial

theorem digit?_lt {b : UInt8} {d : Nat} (value : digit? b = some d) : d < 10 := by
  rw [digit?] at value
  split at value
  next digit =>
    obtain rfl := Option.some.inj value
    simp only [Bool.and_eq_true, decide_eq_true_eq, UInt8.le_iff_toNat_le] at digit
    have most : (0x39 : UInt8).toNat = 57 := rfl
    omega
  next => cases value

/-- A significand stays within 64 bits, by induction on the octets. -/
theorem takeDigits_lt {significand taken : Nat} {octets : Octets} (fits : significand < 0x10000000000000000)
    : (takeDigits significand taken octets).1 < 0x10000000000000000 := by
  induction octets generalizing significand taken with
  | nil => exact fits
  | cons b rest ih =>
      rw [takeDigits]
      split
      next => exact fits
      next =>
        split
        next => exact fits
        next below => exact ih (Nat.not_le.mp below)

section

variable (positive : Bool) (significand : Nat) (start : Int)

theorem isFloat_scaledNumeral : Yields Numeral.IsFloat (scaledNumeral positive significand start) := by
  rw [scaledNumeral]
  split
  next => exact .pure trivial
  next => exact .fail _

theorem isFloat_exponentDigits (upwards : Bool) (size : Nat)
    : Yields Numeral.IsFloat (exponentDigits positive significand start upwards size) := by
  intro octets n rest gives
  induction octets generalizing size with
  | nil => exact isFloat_scaledNumeral _ _ _ _ n rest gives
  | cons b more ih =>
      rw [exponentDigits] at gives
      split at gives
      next => exact isFloat_scaledNumeral _ _ _ _ n rest gives
      next =>
        split at gives
        next =>
          split at gives
          next => cases gives
          next =>
            obtain ⟨rfl, -⟩ := Prod.mk.inj (Except.ok.inj gives)
            trivial
        next => exact ih _ gives

theorem isFloat_exponentPart : Yields Numeral.IsFloat (exponentPart positive significand start) := by
  refine .bind fun _ => .bind fun upwards => .bind fun next => ?_
  split
  next => exact .fail _
  next =>
    refine .bind fun _ => ?_
    split
    next => exact .fail _
    next d _ => exact isFloat_exponentDigits positive significand start upwards d

theorem isFloat_afterDigits : Yields Numeral.IsFloat (afterDigits positive significand start) := by
  refine .bind fun next => ?_
  split
  next => exact isFloat_exponentPart positive significand start
  next => exact isFloat_exponentPart positive significand start
  next => exact isFloat_scaledNumeral positive significand start

theorem isFloat_fractionPart : Yields Numeral.IsFloat (fractionPart positive significand start) := by
  refine .bind fun _ => .bind fun octets => .bind fun _ => ?_
  split
  next =>
    refine .bind fun next => ?_
    split
    next => exact .fail _
    next => exact .failNext _
  next => exact .bind fun _ => isFloat_afterDigits _ _ _

theorem fits_afterWhole (fits : significand < 0x10000000000000000)
    : Yields Numeral.Fits (afterWhole positive significand) := by
  refine .bind fun next => ?_
  split
  next => exact (isFloat_fractionPart positive significand 0).mono Numeral.IsFloat.fits
  next => exact (isFloat_exponentPart positive significand 0).mono Numeral.IsFloat.fits
  next => exact (isFloat_exponentPart positive significand 0).mono Numeral.IsFloat.fits
  next =>
    split
    next => exact .pure ⟨by omega, by omega⟩
    next =>
      split
      next below =>
        simp only [Bool.and_eq_true, decide_eq_true_eq] at below
        exact .pure ⟨by omega, by omega⟩
      next => exact (isFloat_scaledNumeral false significand 0).mono Numeral.IsFloat.fits

/-- A number is read as one of 64 bits, or as a floating-point number. -/
theorem fits_unsignedNumeral : Yields Numeral.Fits (unsignedNumeral positive) := by
  refine .bind fun next => ?_
  split
  next => exact .fail _
  next b =>
    refine .bind fun _ => ?_
    split
    next => exact .fail _
    next =>
      refine .bind fun octets => ?_
      split
      next => exact .failNext _
      next => exact fits_afterWhole positive 0 (by decide)
    next d value =>
      refine .bind fun octets => .bind fun _ => ?_
      split
      next =>
        have below := digit?_lt value
        exact fits_afterWhole positive _ (takeDigits_lt (by omega))
      next =>
        refine .bind fun next => ?_
        split
        next => exact (isFloat_fractionPart _ _ _).mono Numeral.IsFloat.fits
        next => exact (isFloat_afterDigits _ _ _).mono Numeral.IsFloat.fits

theorem fits_numeral (b : UInt8) : Yields Numeral.Fits (numeral b) := by
  rw [numeral]
  split
  next => exact .bind fun _ => fits_unsignedNumeral false
  next => exact fits_unsignedNumeral true

end

-----------------------------------------------------------------------------------------
-- Objects
-----------------------------------------------------------------------------------------

namespace Value

variable {name : String} {value : Value} {members : List (String × Value)}

theorem mem_put {m : String × Value} (member : m ∈ put name value members)
    : m = (name, value) ∨ m ∈ members := by
  induction members with
  | nil => exact .inl (List.mem_singleton.mp member)
  | cons held rest ih =>
      rw [put] at member
      split at member
      next => exact (List.mem_cons.mp member).imp id (List.mem_cons_of_mem _)
      next =>
        split at member
        next => exact List.mem_cons.mp member
        next =>
          rcases List.mem_cons.mp member with same | later
          · exact .inr (same ▸ List.mem_cons_self)
          · exact (ih later).imp id (List.mem_cons_of_mem _)

/-- A member is put where its name belongs, by induction on the members held. -/
theorem ascending_put (ascending : Ascending members) : Ascending (put name value members) := by
  induction members with
  | nil => exact List.pairwise_singleton _ _
  | cons held rest ih =>
      obtain ⟨behind, others⟩ := List.pairwise_cons.mp ascending
      rw [put]
      split
      next same => exact List.pairwise_cons.mpr ⟨same ▸ behind, others⟩
      next other =>
        split
        next before =>
          refine List.pairwise_cons.mpr ⟨fun m member => ?_, ascending⟩
          rcases List.mem_cons.mp member with rfl | later
          · exact before
          · exact String.lt_trans before (behind m later)
        next notBefore =>
          have after : held.1 < name := by
            refine Decidable.by_contra fun notAfter => other ?_
            exact String.le_antisymm (String.not_lt.mp notAfter) (String.not_lt.mp notBefore)
          refine List.pairwise_cons.mpr ⟨fun m member => ?_, ih others⟩
          rcases mem_put member with rfl | later
          · exact after
          · exact behind m later

theorem membersWellFormed_iff : MembersWellFormed members ↔ ∀ m ∈ members, m.2.WellFormed := by
  induction members with
  | nil => exact ⟨fun _ => List.forall_mem_nil _, fun _ => trivial⟩
  | cons m rest ih => rw [List.forall_mem_cons, ← ih, MembersWellFormed]

/-- An object is well formed if its values are, in whatever order the members are given. -/
theorem wellFormed_ofMembers (wellFormed : MembersWellFormed members) : (ofMembers members).WellFormed := by
  rw [membersWellFormed_iff] at wellFormed
  have from_ (held rest : List (String × Value)) (ascending : Ascending held)
      (before : ∀ m ∈ held, m.2.WellFormed) (behind : ∀ m ∈ rest, m.2.WellFormed)
      : (Value.object (rest.foldl (fun held member => put member.1 member.2 held) held)).WellFormed := by
    induction rest generalizing held with
    | nil => exact ⟨ascending, membersWellFormed_iff.mpr before⟩
    | cons m rest ih =>
        obtain ⟨here, others⟩ := List.forall_mem_cons.mp behind
        refine ih _ (ascending_put ascending) (fun other member => ?_) others
        rcases mem_put member with rfl | held
        · exact here
        · exact before other held
  exact from_ [] members List.Pairwise.nil (List.forall_mem_nil _) wellFormed

end Value

-----------------------------------------------------------------------------------------
-- Values
-----------------------------------------------------------------------------------------

theorem wellFormed_plainValue (b : UInt8) : Yields Value.WellFormed (plainValue b) := by
  unfold plainValue
  split
  next => exact .bind fun _ => .bind fun _ => .pure trivial
  next => exact .bind fun _ => .bind fun _ => .pure trivial
  next => exact .bind fun _ => .bind fun _ => .pure trivial
  next => exact .bind fun _ => .map (.anything textBody) fun _ _ => trivial
  next =>
    split
    next =>
      refine .map (fits_numeral b) fun n fits => ?_
      cases n with
      | whole n => exact fits
      | float x => trivial
    next => exact .failNext _

mutual

/-- What is read is well formed, by induction on the rounds. -/
theorem wellFormed_valueWith : (rounds depth : Nat) → Yields Value.WellFormed (valueWith rounds depth)
  | 0, _ => .fail _
  | rounds + 1, depth => by
      refine .bind fun b => ?_
      split
      next => exact .failNext _
      next => exact .failNext _
      next depth =>
        exact .bind fun _ => .bind_of (wellFormed_elementValues rounds depth true) fun values wellFormed =>
          .bind fun _ => .pure wellFormed
      next depth =>
        exact .bind fun _ => .bind_of (wellFormed_memberValues rounds depth true) fun members wellFormed =>
          .bind fun _ => .pure (Value.wellFormed_ofMembers wellFormed)
      next => exact wellFormed_plainValue b

theorem wellFormed_elementValues : (rounds depth : Nat) → (first : Bool) →
    Yields Value.EachWellFormed (elementValues rounds depth first)
  | 0, _, _ => .pure trivial
  | rounds + 1, depth, first => by
      refine .bind fun more => ?_
      split
      next =>
        exact .bind_of (wellFormed_valueWith rounds depth) fun value here =>
          .bind_of (wellFormed_elementValues rounds depth false) fun values behind => .pure ⟨here, behind⟩
      next => exact .pure trivial

theorem wellFormed_memberValues : (rounds depth : Nat) → (first : Bool) →
    Yields Value.MembersWellFormed (memberValues rounds depth first)
  | 0, _, _ => .pure trivial
  | rounds + 1, depth, first => by
      refine .bind fun more => ?_
      split
      next =>
        exact .bind fun _ => .bind fun name => .bind fun _ =>
          .bind_of (wellFormed_valueWith rounds depth) fun value here =>
            .bind_of (wellFormed_memberValues rounds depth false) fun members behind => .pure ⟨here, behind⟩
      next => exact .pure trivial

end

/-- Every decoded value is well formed. -/
theorem wellFormed_of_decode {message : Octets} {held : Value} (decodes : decode value message = .ok held)
    : held.WellFormed := by
  have whole : Yields Value.WellFormed (value >>= fun held => finish >>= fun _ => pure held) :=
    .bind_of (.bind fun octets => wellFormed_valueWith _ _) fun held wellFormed =>
      .bind fun _ => .pure wellFormed
  simp only [decode] at decodes
  split at decodes
  next a rest reads =>
    obtain rfl := Except.ok.inj decodes
    exact whole message a rest reads
  next => cases decodes

end PersonRegistry.Json

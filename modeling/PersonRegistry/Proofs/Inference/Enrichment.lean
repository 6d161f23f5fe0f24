import PersonRegistry.Inference.Lookup

/-! What an enrichment holds after it was put together from the payloads of single traits. -/

namespace PersonRegistry.Inference

theorem Trait.mem_all (t : Trait) : t ∈ Trait.all := by
  cases t <;> decide

namespace Enrichment

variable {e found : Enrichment} {t u : Trait}

@[simp] theorem only_blank (t : Trait) : ({} : Enrichment).only t = {} := by
  cases t <;> rfl

theorem only_only (e : Enrichment) (t : Trait) : (e.only t).only t = e.only t := by
  cases t <;> rfl

theorem only_other (e : Enrichment) (unlike : u ≠ t) : (e.only t).only u = {} := by
  cases t <;> cases u <;> first | rfl | exact absurd rfl unlike

theorem has_only (e : Enrichment) (t : Trait) : (e.only t).has t = e.has t := by
  cases t <;> rfl

theorem not_has_blank (blank : e.only t = {}) : e.has t = false := by
  rw [← has_only, blank]
  cases t <;> rfl

/-- A trait that is still missing is taken from the other enrichment. -/
theorem only_merge_missing (missing : e.only t = {}) : (e.merge found).only t = found.only t := by
  cases t <;> simp_all [only, merge]

/-- A trait that the other enrichment does not bring stays as it is. -/
theorem only_merge_kept (missing : found.only t = {}) : (e.merge found).only t = e.only t := by
  cases t <;> simp_all [only, merge]

theorem mem_missing : t ∈ e.missing ↔ e.has t = false := by
  simp [missing, Trait.mem_all]

end Enrichment

/-- The payload of a reply can be read and carries the trait of the service, which is all that is found. -/
def Reply.Brings (reply : Reply) (t : Trait) (found : Enrichment) : Prop :=
  ∃ payload e, reply.outcome = .ok payload ∧ Enrichment.decode payload = .ok e ∧ e.has t = true
    ∧ found = e.only t

theorem Reply.taken_eq_ok {reply : Reply} {t : Trait} {found : Enrichment}
    : reply.taken t = .ok found ↔ reply.Brings t found := by
  constructor
  · intro taken
    rw [Reply.taken] at taken
    split at taken
    next => cases taken
    next payload outcome =>
      rw [traitOf] at taken
      split at taken
      next => cases taken
      next e decoded =>
        split at taken
        next has =>
          exact ⟨payload, e, outcome, decoded, (e.has_only t).symm.trans has,
            (Except.ok.inj taken).symm⟩
        next => cases taken
  · rintro ⟨payload, e, outcome, decoded, has, rfl⟩
    have own : (e.only t).has t = true := (e.has_only t).trans has
    simp only [Reply.taken, outcome, traitOf, decoded, own, if_true]
    rfl

/-- What a reply brings is the own trait of its service, and nothing else. -/
theorem Reply.Brings.own {reply : Reply} {t : Trait} {found : Enrichment}
    (brings : reply.Brings t found)
    : found.has t = true ∧ found.only t = found ∧ ∀ u, u ≠ t → found.only u = {} := by
  obtain ⟨payload, e, -, -, has, rfl⟩ := brings
  exact ⟨(e.has_only t).trans has, e.only_only t, fun u unlike => e.only_other unlike⟩

/-- An enrichment holds what the replies of some traits brought, and nothing of the others. -/
def Enrichment.ConsistsOf (e : Enrichment) (replies : Trait → Reply) (holds : Trait → Prop) : Prop :=
  ∀ t, (holds t → (replies t).Brings t (e.only t)) ∧ (¬holds t → e.only t = {})

namespace Enrichment.ConsistsOf

variable {e found : Enrichment} {replies : Trait → Reply} {holds : Trait → Prop} {t : Trait}

theorem blank (none : ∀ t, ¬holds t) : ConsistsOf {} replies holds :=
  fun t => ⟨fun held => absurd held (none t), fun _ => only_blank t⟩

theorem congr {others : Trait → Prop} (consists : e.ConsistsOf replies holds)
    (same : ∀ t, holds t ↔ others t)
    : e.ConsistsOf replies others := by
  intro t
  rw [← same t]
  exact consists t

/-- The reply of one more trait adds what it brings. -/
theorem merge (consists : e.ConsistsOf replies holds) (fresh : ¬holds t)
    (brings : (replies t).Brings t found)
    : (e.merge found).ConsistsOf replies fun u => holds u ∨ u = t := by
  obtain ⟨-, own, others⟩ := brings.own
  intro u
  by_cases same : u = t
  · subst same
    refine ⟨fun _ => ?_, fun without => absurd (Or.inr rfl) without⟩
    rw [only_merge_missing ((consists u).2 fresh), own]
    exact brings
  · rw [only_merge_kept (others u same)]
    constructor
    · rintro (held | rfl)
      · exact (consists u).1 held
      · exact absurd rfl same
    · exact fun without => (consists u).2 fun held => without (Or.inl held)

end Enrichment.ConsistsOf
end PersonRegistry.Inference

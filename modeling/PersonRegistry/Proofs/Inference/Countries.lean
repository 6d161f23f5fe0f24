import Mathlib.Data.List.Induction
import Mathlib.Data.List.Nodup
import PersonRegistry.Proofs.Inference.Normalisation
import PersonRegistry.Proofs.Number.Rounding

/-! The country that an answer about a name is taken to name: the most probable one, and of several that are
equally probable the last.
-/

namespace PersonRegistry

open Text (Octets)

-----------------------------------------------------------------------------------------
-- The total order of numbers
-----------------------------------------------------------------------------------------

namespace Binary64

/-- How many times 2 to the power -1074 a number is. -/
def signedUnits (x : Binary64) : Int := if x.negative then -(x.units : Int) else x.units

/-- The total order of numbers is that of their values, and puts -0 before 0. -/
def Precedes (x y : Binary64) : Prop :=
  x.signedUnits < y.signedUnits ∨ x.signedUnits = y.signedUnits ∧ x.negative = true ∧ y.negative = false

variable {x y : Binary64}

theorem unitsAt_lt_iff {left right : Nat} : unitsAt left < unitsAt right ↔ left < right := by
  refine ⟨fun below => Nat.lt_of_not_le fun above => ?_, unitsAt_lt⟩
  exact Nat.not_le.mpr below (unitsAt_mono above)

/-- Numbers have ranks in the total order, by cases on their signs. -/
theorem precedes_iff_rank : x.Precedes y ↔ x.rank < y.rank := by
  have values := @unitsAt_lt_iff x.magnitude y.magnitude
  have valuesToo := @unitsAt_lt_iff y.magnitude x.magnitude
  rw [Precedes, signedUnits, signedUnits, units, units, rank, rank]
  cases x.negative <;> cases y.negative <;> simp <;> omega

theorem eq_of_rank (same : x.rank = y.rank) : x = y := by
  obtain ⟨negative, magnitude, finite⟩ := x
  obtain ⟨negativeToo, magnitudeToo, finiteToo⟩ := y
  rw [rank, rank] at same
  cases negative <;> cases negativeToo <;> simp at same ⊢ <;> omega

theorem eq_of_not_precedes (notBefore : ¬x.Precedes y) (notAfter : ¬y.Precedes x) : x = y := by
  rw [precedes_iff_rank] at notBefore notAfter
  apply eq_of_rank
  omega

end Binary64

namespace Inference

-----------------------------------------------------------------------------------------
-- The likeliest country
-----------------------------------------------------------------------------------------

/-- A country of a list, with those in front of it and those behind it: none of the list is more probable, and
none of those behind it is as probable.
-/
structure Country.Likeliest (countries : List Country) (best : Country) (earlier later : List Country) :
    Prop where
  place : countries = earlier ++ best :: later
  greatest : ∀ c ∈ countries, ¬best.probability.Precedes c.probability
  last : ∀ c ∈ later, c.probability ≠ best.probability

namespace Country

variable {countries others : List Country} {best other : Country} {earlier later : List Country}

/-- Whichever countries a choice begins with, it keeps the last of the most probable ones. By induction on the
countries from the last one, which is preferred unless it is less probable.
-/
theorem likeliest_foldl (first : Country) (rest : List Country)
    : ∃ earlier later, Likeliest (first :: rest) (rest.foldl likelier first) earlier later := by
  induction rest using List.reverseRecOn with
  | nil =>
      refine ⟨[], [], rfl, ?_, List.forall_mem_nil _⟩
      intro c member
      rw [List.mem_singleton.mp member, Binary64.precedes_iff_rank]
      exact Int.lt_irrefl _
  | append_singleton rest last ih =>
      obtain ⟨earlier, later, likeliest⟩ := ih
      rw [List.foldl_append, List.foldl_cons, List.foldl_nil, ← List.cons_append]
      generalize rest.foldl likelier first = best at likeliest ⊢
      have ranks : ∀ c ∈ first :: rest, c.probability.rank ≤ best.probability.rank := by
        intro c member
        exact Int.not_lt.mp fun above => likeliest.greatest c member (Binary64.precedes_iff_rank.mpr above)
      rw [likelier]
      split
      next below =>
        refine ⟨earlier, later ++ [last], ?_, ?_, ?_⟩
        · rw [likeliest.place, List.append_assoc, List.cons_append]
        · intro c member
          rw [Binary64.precedes_iff_rank, Int.not_lt]
          rcases List.mem_append.mp member with old | new
          · exact ranks c old
          · exact List.mem_singleton.mp new ▸ Int.le_of_lt below
        · intro c member
          rcases List.mem_append.mp member with old | new
          · exact likeliest.last c old
          · intro same
            rw [List.mem_singleton.mp new] at same
            exact Int.ne_of_lt below (congrArg Binary64.rank same)
      next above =>
        refine ⟨first :: rest, [], rfl, ?_, List.forall_mem_nil _⟩
        intro c member
        rw [Binary64.precedes_iff_rank, Int.not_lt]
        rcases List.mem_append.mp member with old | new
        · exact Int.le_trans (ranks c old) (Int.not_lt.mp above)
        · exact List.mem_singleton.mp new ▸ Int.le_refl _

theorem likeliest?_eq_none : likeliest? countries = none ↔ countries = [] := by
  cases countries <;> simp [likeliest?]

theorem likeliest_of_some (chosen : likeliest? countries = some best)
    : ∃ earlier later, Likeliest countries best earlier later := by
  cases countries with
  | nil => cases chosen
  | cons first rest =>
      obtain rfl := Option.some.inj chosen
      exact likeliest_foldl first rest

theorem Likeliest.mem (likeliest : Likeliest countries best earlier later) : best ∈ countries := by
  rw [likeliest.place]
  exact List.mem_append_right _ List.mem_cons_self

/-- If no other country is as probable, the same one is chosen in whatever order they come. -/
theorem Likeliest.eq_of_perm {earlierToo laterToo : List Country}
    (likeliest : Likeliest countries best earlier later)
    (likeliestToo : Likeliest others other earlierToo laterToo) (reordered : others.Perm countries)
    (sole : ∀ c ∈ countries, c.probability = best.probability → c = best)
    : other = best := by
  have known : other ∈ countries := reordered.mem_iff.mp likeliestToo.mem
  have knownToo : best ∈ others := reordered.mem_iff.mpr likeliest.mem
  apply sole other known
  exact Binary64.eq_of_not_precedes (likeliestToo.greatest best knownToo) (likeliest.greatest other known)

end Country

-----------------------------------------------------------------------------------------
-- Answers that list countries
-----------------------------------------------------------------------------------------

/-- What an answer that lists countries is brought into, once one of them is chosen. -/
def NationalityAnswer.named (answer : NationalityAnswer) (name : String) (best : Country) : Json.Value :=
  .object
    [("count", .ofInteger? (answer.count.map Int.ofNat)), ("name", .text (answer.name.getD name)),
      ("nationality", .text best.code), ("probability", .float best.probability)]

theorem normalise_nationality {body : Octets} {answer : NationalityAnswer}
    (reads : Json.decode (Json.record NationalityAnswer.layout) body = .ok answer) (name : String)
    : normalise .nationality name body
      = match Country.likeliest? answer.countries with
        | none => .error ⟨.nationality, .unknownName name⟩
        | some best => .ok (Text.Utf8.encode (answer.named name best).print) := by
  simp only [normalise, payload, reads]
  cases Country.likeliest? answer.countries with
  | none => rfl
  | some best =>
      simp only
      rw [Payload.toValue_nationality]
      rfl

/-- An answer about nationality whose countries are none, or are missing, says nothing about the name. From any
other the code and the probability of one country are taken, the last of the most probable ones, with the count
of the answer and its name, or the name asked for if it gives none. If no other country is as probable, the
payload does not depend on the order in which they are listed.
-/
theorem normalise_likeliest (name : String) {body : Octets} {answer : NationalityAnswer}
    (reads : Json.decode (Json.record NationalityAnswer.layout) body = .ok answer)
    : (normalise .nationality name body = .error ⟨.nationality, .unknownName name⟩
          ↔ answer.countries = [])
      ∧ (answer.countries ≠ [] →
          ∃ best earlier later, Country.Likeliest answer.countries best earlier later
            ∧ normalise .nationality name body
              = .ok (Text.Utf8.encode (answer.named name best).print)
            ∧ ((∀ c ∈ answer.countries, c.probability = best.probability → c = best) →
                ∀ other countries, countries.Perm answer.countries →
                  Json.decode (Json.record NationalityAnswer.layout) other
                    = .ok { answer with countries } →
                  normalise .nationality name other = normalise .nationality name body)) := by
  have normalised := normalise_nationality reads name
  constructor
  · rw [normalised, ← Country.likeliest?_eq_none]
    cases Country.likeliest? answer.countries <;> simp
  · intro some_
    obtain ⟨best, chosen⟩ := Option.ne_none_iff_exists'.mp (mt Country.likeliest?_eq_none.mp some_)
    obtain ⟨earlier, later, likeliest⟩ := Country.likeliest_of_some chosen
    rw [chosen] at normalised
    refine ⟨best, earlier, later, likeliest, normalised, ?_⟩
    intro sole other countries reordered readsToo
    have someToo : countries ≠ [] := fun none_ => some_ (List.nil_perm.mp (none_ ▸ reordered))
    obtain ⟨bestToo, chosenToo⟩ := Option.ne_none_iff_exists'.mp (mt Country.likeliest?_eq_none.mp someToo)
    obtain ⟨earlierToo, laterToo, likeliestToo⟩ := Country.likeliest_of_some chosenToo
    have same : bestToo = best := likeliest.eq_of_perm likeliestToo reordered sole
    rw [normalise_nationality readsToo name, chosenToo, normalised, same]
    rfl

/-- Zero is more probable than -0 and than the greatest number below that, wherever it stands. -/
theorem normalise_likeliest_zero
    : let body := Text.Utf8.encode ("\x7b\"country\":[\x7b\"country_id\":\"UA\",\"probability\":-5e-324\x7d,"
        ++ "[\"PL\",0],[\"DE\",-0.0]]\x7d").toList
      let other := Text.Utf8.encode "[null,null,[[\"DE\",-0.0],[\"UA\",-5e-324],[\"PL\",0]]]".toList
      let least : Binary64 := ⟨true, 1, by decide⟩
      let countries : List Country := [⟨"UA", least⟩, ⟨"PL", .zero⟩, ⟨"DE", .withSign true .zero⟩]
      let reordered : List Country := [⟨"DE", .withSign true .zero⟩, ⟨"UA", least⟩, ⟨"PL", .zero⟩]
      Json.decode (Json.record NationalityAnswer.layout) body = .ok { countries }
        ∧ Json.decode (Json.record NationalityAnswer.layout) other = .ok { countries := reordered }
        ∧ (∃ best earlier later, Country.Likeliest countries best earlier later
          ∧ normalise .nationality "Ann" body
            = .ok (Text.Utf8.encode (NationalityAnswer.named { countries } "Ann" best).print))
        ∧ normalise .nationality "Ann" other = normalise .nationality "Ann" body := by
  intro body other least countries reordered
  have reads : Json.decode (Json.record NationalityAnswer.layout) body = .ok { countries } := by
    decide +kernel
  have readsToo : Json.decode (Json.record NationalityAnswer.layout) other
      = .ok { countries := reordered } := by
    decide +kernel
  obtain ⟨-, chosen⟩ := normalise_likeliest "Ann" reads
  obtain ⟨best, earlier, later, likeliest, normalised, anyOrder⟩ := chosen (List.cons_ne_nil _ _)
  have distinct : (countries.map Country.probability).Nodup := by decide +kernel
  have sole : ∀ c ∈ countries, c.probability = best.probability → c = best :=
    fun c member => List.inj_on_of_nodup_map distinct member likeliest.mem
  have perm : reordered.Perm countries := by decide +kernel
  exact ⟨reads, readsToo, ⟨best, earlier, later, likeliest, normalised⟩,
    anyOrder sole other reordered perm readsToo⟩

end Inference
end PersonRegistry

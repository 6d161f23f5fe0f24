import PersonRegistry.Json.Record
import PersonRegistry.Proofs.Json.Skipping

/-! The JSON texts that there are, with every way to spell a value: space where it may stand, escapes and
fractions, and values nested as deep as one likes. Whatever value a text spells is passed over when nobody
asks for it.
-/

namespace PersonRegistry.Json

open Text (Octets)

-----------------------------------------------------------------------------------------
-- Space
-----------------------------------------------------------------------------------------

/-- Space that may stand around values, or none. -/
def Gap := { octets : Octets // ∀ b ∈ octets, isSpace b = true }

namespace Gap

def octets (gap : Gap) : Octets := gap.val

def none : Gap := ⟨[], List.forall_mem_nil _⟩

def one : Gap := ⟨[0x20], List.forall_mem_singleton.mpr rfl⟩

variable (gap : Gap) (rest : Octets)

theorem token_append : token (gap.octets ++ rest) = token rest := by
  have dropped : (gap.octets ++ rest).dropWhile isSpace = rest.dropWhile isSpace :=
    List.dropWhile_append_of_pos gap.property
  rw [token, Reader.run_bind, Reader.run_bind, skipSpace, skipSpace, dropped]

theorem valueStart_append : valueStart (gap.octets ++ rest) = valueStart rest := by
  rw [valueStart, Reader.run_bind, Reader.run_bind, gap.token_append]

/-- Space does not go on with a number. -/
theorem ends_append {rest : Octets} (ends : EndsNumeral rest) : EndsNumeral (gap.octets ++ rest) := by
  rcases gap with ⟨_ | ⟨first, more⟩, solid⟩
  · exact ends
  · intro b later same
    obtain ⟨rfl, -⟩ := List.cons.inj same
    have space : isSpace first = true := solid first List.mem_cons_self
    simp only [isSpace, Bool.or_eq_true, decide_eq_true_eq] at space
    rcases space with ((rfl | rfl) | rfl) | rfl <;> decide

end Gap

theorem ends_cons {b : UInt8} (noNumeral : isDigit b = false ∧ b ≠ Octet.point ∧ b ≠ Octet.letterE
      ∧ b ≠ Octet.capitalE) (rest : Octets)
    : EndsNumeral (b :: rest) := by
  intro first more same
  obtain ⟨rfl, -⟩ := List.cons.inj same
  exact noNumeral

-----------------------------------------------------------------------------------------
-- Single values
-----------------------------------------------------------------------------------------

/-- What stands for one character between quotes, or for half of a pair that stands for one. -/
inductive Glyph
  | plain (c : Char) (proper : c ≠ '"' ∧ c ≠ '\\' ∧ ¬c.toNat < 0x20)
  | short (letter : UInt8) (c : Char) (known : shortEscape? letter = some c)
  | code (first second third fourth : UInt8) (n : Nat)
      (hex : hexFour? first second third fourth = some n)

def Glyph.octets : Glyph → Octets
  | .plain c _ => String.utf8EncodeChar c
  | .short letter _ _ => [Octet.backslash, letter]
  | .code first second third fourth _ _ =>
      [Octet.backslash, Octet.letterU, first, second, third, fourth]

/-- Glyphs with the quote behind them. -/
def quoted (glyphs : List Glyph) : Octets := glyphs.flatMap Glyph.octets ++ [Octet.quote]

theorem hexEscape_of_hexFour {first second third fourth : UInt8} {n : Nat}
    (hex : hexFour? first second third fourth = some n) (rest : Octets)
    : hexEscape (first :: second :: third :: fourth :: rest) = .ok (n, rest) := by
  rw [hexEscape, hex]

theorem skipContents_glyph (glyph : Glyph) (rest : Octets)
    : skipContents 0 (glyph.octets ++ rest) = skipContents 0 rest := by
  cases glyph with
  | plain c proper =>
      obtain ⟨noQuote, noBackslash, noControl⟩ := proper
      exact skipContents_plain
        (fun b member => isPlain_of_mem_encodeChar noQuote noBackslash noControl member) rest
  | short letter c known =>
      have noCode : letter ≠ Octet.letterU := by
        rintro rfl
        cases known
      have spelled : skipEscape ([letter] ++ rest) = .ok rest := by
        rw [List.singleton_append, skipEscape, known]
        · rfl
        · exact noCode
      exact skipContents_escape spelled
  | code first second third fourth n hex =>
      have spelled : skipEscape ([Octet.letterU, first, second, third, fourth] ++ rest) = .ok rest := by
        have behind (octets : Octets)
            : skipEscape (Octet.letterU :: octets) = (hexEscape octets).map (·.2) := rfl
        simp only [List.cons_append, List.nil_append]
        rw [behind, hexEscape_of_hexFour hex]
        rfl
      exact skipContents_escape spelled

/-- Any glyphs are passed over, by induction on them. -/
theorem skipText_quoted (glyphs : List Glyph) (rest : Octets)
    : skipText (quoted glyphs ++ rest) = .ok ((), rest) := by
  induction glyphs with
  | nil => rfl
  | cons glyph more ih =>
      rw [quoted, List.append_assoc] at ih ⊢
      rw [List.flatMap_cons, List.append_assoc, skipText, skipContents_glyph]
      exact ih

/-- A number: its parts are as the syntax has them. -/
structure Number where
  negative : Bool
  whole : List Char
  fraction : List Char
  exponent : List Char
  isWhole : IsWhole whole
  isFraction : IsFraction fraction
  isExponent : IsExponent exponent

namespace Number

def sign (n : Number) : Octets := if n.negative then [Octet.minus] else []

def unsigned (n : Number) : List Char := n.whole ++ (n.fraction ++ n.exponent)

def octets (n : Number) : Octets := n.sign ++ Text.Utf8.encode n.unsigned

theorem isUnsigned (n : Number) : IsUnsigned n.unsigned := .parts n.isWhole n.isFraction n.isExponent

end Number

inductive Word
  | null
  | true_
  | false_

def Word.octets : Word → Octets
  | .null => Octet.letterN :: restOfNull
  | .true_ => Octet.letterT :: restOfTrue
  | .false_ => Octet.letterF :: restOfFalse

-----------------------------------------------------------------------------------------
-- Containers
-----------------------------------------------------------------------------------------

def Bracket.opening : Bracket → UInt8
  | .list => Octet.openList
  | .object => Octet.openObject

/-- What stands before an element of a container: in an object a key, with space around it. -/
inductive Label : Bracket → Type
  | element : Label .list
  | key (before : Gap) (name : List Glyph) (after : Gap) : Label .object

def Label.octets : {bracket : Bracket} → Label bracket → Octets
  | _, .element => []
  | _, .key before name after =>
      before.octets ++ (Octet.quote :: quoted name ++ (after.octets ++ [Octet.colon]))

mutual

/-- A value as it is spelled. A container has space in it, or elements with space around them. -/
inductive Tree
  | word (w : Word)
  | text (glyphs : List Glyph)
  | number (n : Number)
  | empty (bracket : Bracket) (inside : Gap)
  | filled (bracket : Bracket) (label : Label bracket) (before : Gap) (first : Tree) (after : Gap)
      (others : Items bracket)

/-- The elements of a container behind the first one. -/
inductive Items : Bracket → Type
  | nil {bracket : Bracket} : Items bracket
  | cons {bracket : Bracket} (label : Label bracket) (before : Gap) (value : Tree) (after : Gap)
      (others : Items bracket) : Items bracket

end

mutual

def Tree.octets : Tree → Octets
  | .word w => w.octets
  | .text glyphs => Octet.quote :: quoted glyphs
  | .number n => n.octets
  | .empty bracket inside => bracket.opening :: (inside.octets ++ [bracket.closing])
  | .filled bracket label before first after others =>
      bracket.opening :: (label.octets ++ (before.octets ++ (first.octets ++ (after.octets
        ++ (others.octets ++ [bracket.closing])))))

/-- Each of the elements with a comma in front. -/
def Items.octets : {bracket : Bracket} → Items bracket → Octets
  | _, .nil => []
  | _, .cons label before value after others =>
      Octet.comma :: (label.octets ++ (before.octets ++ (value.octets ++ (after.octets
        ++ others.octets))))

end

mutual

/-- How many steps it takes to pass over a value. -/
def Tree.steps : Tree → Nat
  | .word _ | .text _ | .number _ => 1
  | .empty _ _ => 2
  | .filled _ _ _ first _ others => first.steps + others.steps + 3

def Items.steps : {bracket : Bracket} → Items bracket → Nat
  | _, .nil => 0
  | _, .cons _ _ value _ others => value.steps + others.steps + 1

end

-----------------------------------------------------------------------------------------
-- How values start and go on
-----------------------------------------------------------------------------------------

/-- The first octet of a value: it is no space and ends no container, and it tells texts, numbers and null
from other values.
-/
structure Tree.Starts (tree : Tree) (b : UInt8) : Prop where
  solid : isSpace b = false
  opens : ∀ bracket : Bracket, b ≠ bracket.closing
  text : b = Octet.quote → ∃ glyphs, tree = .text glyphs
  number : startsNumeral b = true → ∃ n, tree = .number n
  null : b = Octet.letterN → tree = .word .null

theorem opens_of_ne {b : UInt8} (noEnd : b ≠ Octet.closeList ∧ b ≠ Octet.closeObject) (bracket : Bracket)
    : b ≠ bracket.closing := by
  cases bracket
  · exact noEnd.1
  · exact noEnd.2

theorem Tree.starts_other (tree : Tree) {b : UInt8}
    (other : isSpace b = false ∧ b ≠ Octet.closeList ∧ b ≠ Octet.closeObject ∧ b ≠ Octet.quote
      ∧ startsNumeral b = false ∧ b ≠ Octet.letterN)
    : tree.Starts b := by
  obtain ⟨solid, noList, noObject, noQuote, noNumeral, noNull⟩ := other
  refine ⟨solid, opens_of_ne ⟨noList, noObject⟩, fun same => absurd same noQuote, fun starts => ?_,
    fun same => absurd same noNull⟩
  rw [noNumeral] at starts
  cases starts

/-- A number starts with its minus or its first digit, and is read from there without the minus. -/
theorem Number.octets_eq_cons (n : Number)
    : ∃ b more, n.octets = b :: more ∧ startsNumeral b = true
      ∧ ∀ rest, numeral b (n.octets ++ rest)
          = unsignedNumeral (!n.negative) (Text.Utf8.encode n.unsigned ++ rest) := by
  obtain ⟨b, more, octets, isDigit⟩ := encode_unsigned_eq_cons n.isUnsigned
  by_cases negative : n.negative
  · have signed : n.octets = Octet.minus :: Text.Utf8.encode n.unsigned := by
      simp only [Number.octets, Number.sign, negative, if_true]
      rfl
    refine ⟨Octet.minus, Text.Utf8.encode n.unsigned, signed, rfl, fun rest => ?_⟩
    rw [signed, negative]
    rfl
  · have plain : n.octets = Text.Utf8.encode n.unsigned := by
      simp only [Number.octets, Number.sign, negative, Bool.false_eq_true, if_false, List.nil_append]
    have noMinus : b ≠ Octet.minus := by
      rintro rfl
      cases isDigit
    refine ⟨b, more, plain.trans octets, by simp [startsNumeral, isDigit], fun rest => ?_⟩
    rw [numeral, if_neg noMinus, plain, Bool.eq_false_iff.mpr negative]
    rfl

theorem Tree.octets_eq_cons (tree : Tree) : ∃ b more, tree.octets = b :: more ∧ tree.Starts b := by
  cases tree with
  | word w =>
      cases w with
      | null =>
          exact ⟨_, _, rfl, rfl, opens_of_ne (by decide), fun same => absurd same (by decide),
            fun starts => absurd starts (by decide), fun _ => rfl⟩
      | true_ | false_ => exact ⟨_, _, rfl, starts_other _ (by decide)⟩
  | text glyphs =>
      exact ⟨_, _, rfl, rfl, opens_of_ne (by decide), fun _ => ⟨glyphs, rfl⟩,
        fun starts => absurd starts (by decide), fun same => absurd same (by decide)⟩
  | number n =>
      obtain ⟨b, more, octets, starts, -⟩ := n.octets_eq_cons
      obtain ⟨solid, noNull⟩ := solid_of_startsNumeral starts
      have other {special : UInt8} (noNumeral : startsNumeral special = false) : b ≠ special := by
        rintro rfl
        rw [starts] at noNumeral
        cases noNumeral
      exact ⟨b, more, octets, solid, opens_of_ne ⟨other rfl, other rfl⟩, fun same => absurd same (other rfl),
        fun _ => ⟨n, rfl⟩, fun same => absurd same noNull⟩
  | empty bracket inside => cases bracket <;> exact ⟨_, _, rfl, starts_other _ (by decide)⟩
  | filled bracket label before first after others =>
      cases bracket <;> exact ⟨_, _, rfl, starts_other _ (by decide)⟩

/-- Behind a value in a container a comma or the end comes, which no number goes on with. -/
theorem Items.ends {bracket : Bracket} (items : Items bracket) (rest : Octets)
    : EndsNumeral (items.octets ++ bracket.closing :: rest) := by
  cases items with
  | nil => cases bracket <;> exact ends_cons (by decide) _
  | cons label before value after others => exact ends_cons (by decide) _

-----------------------------------------------------------------------------------------
-- Passing over values
-----------------------------------------------------------------------------------------

theorem skipLabel_octets {bracket : Bracket} (label : Label bracket) (rest : Octets)
    : skipLabel bracket (label.octets ++ rest) = .ok ((), rest) := by
  cases label with
  | element => rfl
  | key before name after =>
      have quote (octets : Octets) : skipKey (Octet.quote :: octets) = (skipText >>= fun _ => colon) octets :=
        rfl
      have spaced (octets : Octets) : skipKey (before.octets ++ octets) = skipKey octets := by
        rw [skipKey, Reader.run_bind, Reader.run_bind, before.token_append]
      have passed : colon (after.octets ++ Octet.colon :: rest) = .ok ((), rest) := by
        rw [colon, Reader.run_bind, after.token_append]
        rfl
      simp only [Label.octets, List.append_assoc, List.cons_append, List.nil_append, skipLabel]
      rw [spaced, quote, Reader.run_bind, skipText_quoted]
      exact passed

section

variable {bracket : Bracket} (containers : List Bracket)

/-- The closing octet ends the innermost container. -/
theorem skipStep_closing {state : SkipState} (inside : state ≠ .value) (gap : Gap) (rest : Octets)
    : skipStep state (bracket :: containers) (gap.octets ++ bracket.closing :: rest)
      = .ok ((.ended, containers), rest) := by
  have solid : isSpace bracket.closing = false := by cases bracket <;> rfl
  have closes {octets : Octets} (next : token octets = .ok (some bracket.closing, bracket.closing :: rest))
      (state : SkipState) (inside : state ≠ .value)
      : skipStep state (bracket :: containers) octets = .ok ((.ended, containers), rest) := by
    rw [skipStep, Reader.run_bind, next]
    · simp
    · exact inside
  exact closes ((gap.token_append _).trans (token_cons solid rest)) state inside

/-- Behind a comma, what stands before the next element is passed over. -/
theorem skipStep_comma (gap : Gap) (label : Label bracket) (rest : Octets)
    : skipStep .ended (bracket :: containers) (gap.octets ++ Octet.comma :: (label.octets ++ rest))
      = .ok ((.value, bracket :: containers), rest) := by
  have solid : isSpace Octet.comma = false := rfl
  have goesOn : Octet.comma ≠ bracket.closing := by cases bracket <;> decide
  have other : SkipState.ended ≠ .opened := by decide
  have next := (gap.token_append (Octet.comma :: (label.octets ++ rest))).trans (token_cons solid _)
  rw [skipStep, Reader.run_bind, next]
  · simp [goesOn, other, skipLabel_octets]
  · intro same
    cases same

/-- What stands before the first element is passed over, in a list the space before it as well. -/
theorem skipStep_first (label : Label bracket) (before : Gap) (tree : Tree) (rest : Octets)
    : ∃ gap : Gap,
        skipStep .opened (bracket :: containers) (label.octets ++ (before.octets ++ (tree.octets ++ rest)))
          = .ok ((.value, bracket :: containers), gap.octets ++ (tree.octets ++ rest)) := by
  have first {octets left : Octets} {b : UInt8} {more : Octets}
      (next : token octets = .ok (some b, b :: more)) (goesOn : b ≠ bracket.closing)
      (passed : skipLabel bracket (b :: more) = .ok ((), left))
      : skipStep .opened (bracket :: containers) octets = .ok ((.value, bracket :: containers), left) := by
    rw [skipStep, Reader.run_bind, next]
    · simp [goesOn, passed]
    · intro same
      cases same
  cases label with
  | element =>
      obtain ⟨b, more, octets, starts⟩ := tree.octets_eq_cons
      refine ⟨.none, ?_⟩
      rw [octets]
      exact first ((before.token_append _).trans (token_cons starts.solid _)) (starts.opens .list) rfl
  | key space name after =>
      refine ⟨before, ?_⟩
      have passed := skipLabel_octets (.key .none name after) (before.octets ++ (tree.octets ++ rest))
      simp only [Label.octets, List.append_assoc, List.cons_append] at passed ⊢
      exact first ((space.token_append _).trans (token_cons rfl _)) (by decide) passed

end

theorem skipStart_word (w : Word) (rest : Octets) : skipStart (w.octets ++ rest) = .ok (none, rest) := by
  cases w <;> rfl

theorem skipStart_text (glyphs : List Glyph) (rest : Octets)
    : skipStart (Octet.quote :: quoted glyphs ++ rest) = .ok (none, rest) := by
  have quote (octets : Octets) : skipStart (Octet.quote :: octets)
      = (skipText >>= fun _ => pure none) octets := rfl
  rw [List.cons_append, quote, Reader.run_bind, skipText_quoted]
  rfl

theorem skipStart_number (n : Number) {rest : Octets} (ends : EndsNumeral rest)
    : skipStart (n.octets ++ rest) = .ok (none, rest) := by
  have passed := skipUnsigned_encode ends n.isUnsigned
  by_cases negative : n.negative
  · have minus (octets : Octets) : skipStart (Octet.minus :: octets)
        = (skipUnsigned >>= fun _ => pure none) octets := rfl
    simp only [Number.octets, Number.sign, negative, if_true, List.cons_append, List.nil_append]
    rw [minus, Reader.run_bind, passed]
    rfl
  · obtain ⟨b, more, octets, isDigit⟩ := encode_unsigned_eq_cons n.isUnsigned
    simp only [Number.octets, Number.sign, negative, Bool.false_eq_true, if_false, List.nil_append]
    rw [octets, List.cons_append] at passed ⊢
    rw [skipStart_digit isDigit, Reader.run_bind, passed]
    rfl

theorem skipStart_gap (gap : Gap) (rest : Octets) : skipStart (gap.octets ++ rest) = skipStart rest := by
  rw [skipStart, Reader.run_bind, Reader.run_bind, gap.valueStart_append]

/-- A value that opens no container takes one step, whatever containers are open. -/
theorem skipWith_single {octets rest : Octets} (passed : skipStart octets = .ok (none, rest)) (steps : Nat)
    (containers : List Bracket)
    : skipWith (steps + 1) .value containers octets = skipWith steps .ended containers rest := by
  have step : skipStep .value containers octets = .ok ((.ended, containers), rest) := by
    rw [skipStep, Reader.run_bind, passed]
    rfl
  rw [skipWith, Reader.run_bind, step]
  cases containers with
  | nil => cases steps <;> rfl
  | cons bracket outer => rfl

theorem skipWith_opening (bracket : Bracket) (steps : Nat) (containers : List Bracket) (gap : Gap)
    (rest : Octets)
    : skipWith (steps + 1) .value containers (gap.octets ++ bracket.opening :: rest)
      = skipWith steps .opened (bracket :: containers) rest := by
  have opens : skipStart (bracket.opening :: rest) = .ok (some bracket, rest) := by cases bracket <;> rfl
  have step : skipStep .value containers (gap.octets ++ bracket.opening :: rest)
      = .ok ((.opened, bracket :: containers), rest) := by
    rw [skipStep, Reader.run_bind, skipStart_gap, opens]
    rfl
  rw [skipWith, Reader.run_bind, step]

/-- A container takes one step to end. -/
theorem skipWith_closing {bracket : Bracket} {state : SkipState} (inside : state ≠ .value) (steps : Nat)
    (containers : List Bracket) (gap : Gap) (rest : Octets)
    : skipWith (steps + 1) state (bracket :: containers) (gap.octets ++ bracket.closing :: rest)
      = skipWith steps .ended containers rest := by
  rw [skipWith, Reader.run_bind, skipStep_closing containers inside]
  cases containers with
  | nil => cases steps <;> rfl
  | cons outer others => rfl

mutual

/-- A value is passed over in its steps, whatever containers are open. By induction on the value: what
stands inside it is passed over with its container open.
-/
theorem Tree.skipWith_octets : (tree : Tree) → (steps : Nat) → (containers : List Bracket) → (gap : Gap) →
    (rest : Octets) → EndsNumeral rest →
    skipWith (tree.steps + steps) .value containers (gap.octets ++ (tree.octets ++ rest))
      = skipWith steps .ended containers rest
  | .word w, steps, containers, gap, rest, _ => by
      rw [Tree.steps, Nat.add_comm]
      exact skipWith_single ((skipStart_gap gap _).trans (skipStart_word w rest)) steps containers
  | .text glyphs, steps, containers, gap, rest, _ => by
      rw [Tree.steps, Nat.add_comm]
      exact skipWith_single ((skipStart_gap gap _).trans (skipStart_text glyphs rest)) steps containers
  | .number n, steps, containers, gap, rest, ends => by
      rw [Tree.steps, Nat.add_comm]
      exact skipWith_single ((skipStart_gap gap _).trans (skipStart_number n ends)) steps containers
  | .empty bracket inside, steps, containers, gap, rest, _ => by
      have count : (Tree.empty bracket inside).steps + steps = (steps + 1) + 1 := by
        rw [Tree.steps]
        omega
      rw [count, Tree.octets, List.cons_append, skipWith_opening, List.append_assoc,
        List.singleton_append, skipWith_closing (by decide)]
  | .filled bracket label before first after others, steps, containers, gap, rest, _ => by
      have count : (Tree.filled bracket label before first after others).steps + steps
          = (first.steps + (others.steps + (steps + 1))) + 1 + 1 := by
        rw [Tree.steps]
        omega
      obtain ⟨space, labelled⟩ := skipStep_first containers label before first
        (after.octets ++ (others.octets ++ bracket.closing :: rest))
      rw [count, Tree.octets, List.cons_append, skipWith_opening]
      simp only [List.append_assoc, List.singleton_append]
      rw [skipWith, Reader.run_bind, labelled]
      exact (first.skipWith_octets _ _ space _ (after.ends_append (others.ends rest))).trans
        (others.skipWith_octets steps containers after rest)

/-- So are the elements behind the first one, up to the end of their container. -/
theorem Items.skipWith_octets : {bracket : Bracket} → (items : Items bracket) → (steps : Nat) →
    (containers : List Bracket) → (gap : Gap) → (rest : Octets) →
    skipWith (items.steps + (steps + 1)) .ended (bracket :: containers)
        (gap.octets ++ (items.octets ++ bracket.closing :: rest))
      = skipWith steps .ended containers rest
  | bracket, .nil, steps, containers, gap, rest => by
      rw [Items.steps, Nat.zero_add]
      exact skipWith_closing (by decide) steps containers gap rest
  | bracket, .cons label before value after others, steps, containers, gap, rest => by
      have count : (Items.cons label before value after others).steps + (steps + 1)
          = (value.steps + (others.steps + (steps + 1))) + 1 := by
        rw [Items.steps]
        omega
      rw [count, Items.octets, List.cons_append]
      simp only [List.append_assoc]
      rw [skipWith, Reader.run_bind, skipStep_comma]
      exact (value.skipWith_octets _ _ before _ (after.ends_append (others.ends rest))).trans
        (others.skipWith_octets steps containers after rest)

end

mutual

/-- Every octet of a value accounts for three steps at most. -/
theorem Tree.steps_le : (tree : Tree) → tree.steps ≤ 3 * tree.octets.length
  | .word w => by cases w <;> decide
  | .text glyphs => by
      simp only [Tree.steps, Tree.octets, List.length_cons]
      omega
  | .number n => by
      obtain ⟨b, more, octets, -⟩ := (Tree.number n).octets_eq_cons
      rw [octets, Tree.steps, List.length_cons]
      omega
  | .empty bracket inside => by
      simp only [Tree.steps, Tree.octets, List.length_cons]
      omega
  | .filled bracket label before first after others => by
      have few := first.steps_le
      have fewOthers := others.steps_le
      simp only [Tree.steps, Tree.octets, List.length_cons, List.length_append]
      omega

theorem Items.steps_le : {bracket : Bracket} → (items : Items bracket) → items.steps ≤ 3 * items.octets.length
  | _, .nil => Nat.zero_le _
  | _, .cons label before value after others => by
      have few := value.steps_le
      have fewOthers := others.steps_le
      simp only [Items.steps, Items.octets, List.length_cons, List.length_append]
      omega

end

/-- Whatever value a text spells, it is passed over when nobody asks for it. -/
theorem skipValue_tree (gap : Gap) (tree : Tree) {rest : Octets} (ends : EndsNumeral rest)
    : skipValue (gap.octets ++ (tree.octets ++ rest)) = .ok ((), rest) := by
  have done (steps : Nat) : skipWith steps .ended [] rest = .ok ((), rest) := by cases steps <;> rfl
  have few := tree.steps_le
  obtain ⟨steps, enough⟩ : ∃ steps, 3 * (gap.octets ++ (tree.octets ++ rest)).length + 3
      = tree.steps + steps := by
    refine Nat.exists_eq_add_of_le ?_
    simp only [List.length_append]
    omega
  rw [skipValue, Reader.run_bind, Reader.run_get]
  simp only
  rw [enough, tree.skipWith_octets _ _ _ _ ends, done]

end PersonRegistry.Json

import SemanticMarkup.Fuzz.CommandLine
import SemanticMarkup.Proofs.Fuzz.Documents
import SemanticMarkup.Proofs.Fuzz.Verdict
import SemanticMarkup.Proofs.Text.Numerals

namespace SemanticMarkup.Fuzz
open Decimal (Binary64)

structure Spells (word : String) (n : Int) : Prop where
  value : Word.read word = .ok (.plain word)
  number : Text.readInt word.toList = .ok n

theorem not_letter_of_digit {c : Char} (digit : c.isDigit = true) : Switch.ofLetter? c = none := by
  obtain ⟨least, most⟩ := Text.digit_bounds digit
  have none_of : ∀ k ∈ List.range' 48 10, Switch.ofLetter? (Char.ofNat k) = none := by decide
  have member : c.toNat ∈ List.range' 48 10 := List.mem_range'_1.mpr ⟨least, by omega⟩
  have single := none_of _ member
  rwa [Char.ofNat_toNat] at single

theorem negativeNumber_of_digits {cs : List Char} (digits : ∀ c ∈ cs, c.isDigit = true)
    (filled : cs ≠ []) : Word.isNegativeNumber ('-' :: cs) = true := by
  have ended : cs.getLast? ≠ some '\n' := fun last => by
    cases digits _ (List.mem_of_getLast? last)
  have all : cs.all (fun c => (Text.digitValue? c).isSome) = true := by
    refine List.all_eq_true.mpr fun c member => ?_
    rw [Text.digitValue_of_digit (digits c member)]
    rfl
  simp [Word.isNegativeNumber, ended, all, filled]

theorem read_numeral {word : String} {cs : List Char} (digits : ∀ c ∈ cs, c.isDigit = true)
    (filled : cs ≠ []) (shape : word.toList = cs ∨ word.toList = '-' :: cs) :
    Word.read word = .ok (.plain word) := by
  obtain ⟨c, rest, rfl⟩ := List.exists_cons_of_ne_nil filled
  have digit := digits c List.mem_cons_self
  have minus : c ≠ '-' := by
    rintro rfl
    cases digit
  rcases shape with plain | negative
  · simp [Word.read, plain, minus]
  · have number := negativeNumber_of_digits digits filled
    simp [Word.read, negative, minus, not_letter_of_digit digit, Word.orPlain, number]

theorem spells_toString {n : Int} (short : Text.Short n) : Spells (toString n) n := by
  refine ⟨?_, Text.readInt_toString short⟩
  have digits : ∀ c ∈ Nat.toDigits 10 n.natAbs, c.isDigit = true := fun c member =>
    Nat.isDigit_of_mem_toDigits (by decide) (by decide) member
  refine read_numeral digits Nat.toDigits_ne_nil ?_
  rw [Text.toList_toString]
  split
  · exact .inr rfl
  · exact .inl rfl

theorem Spells.ne_mark {word : String} {n : Int} (spells : Spells word n) : word ≠ "--" := by
  rintro rfl
  cases spells.value

theorem Spells.short {word : String} {n : Int} (spells : Spells word n) : Text.Short n :=
  Text.short_of_readInt spells.number

theorem Spells.number_eq {word : String} {n : Int} (spells : Spells word n) (which : Switch) :
    Request.number which word = .ok (.whole n spells.short) := by
  rw [Request.number, if_neg spells.ne_mark]
  split
  · rename_i m read
    cases read.symm.trans spells.number
    rfl
  · rename_i error read
    cases read.symm.trans spells.number

theorem ofWords_two {first second w v : String} {one other : Switch} {r q : Request}
    (begins : Word.read first = .ok (.long one none)) (value : Word.read w = .ok (.plain w))
    (goes : Word.read second = .ok (.long other none)) (last : Word.read v = .ok (.plain v))
    (takes : one.takesValue = true) (also : other.takesValue = true)
    (got : ({} : Request).withValue one w = .ok r) (busy : r.help = false)
    (later : r.withValue other v = .ok q) : Request.ofWords [first, w, second, v] = .ok q := by
  have words : Word.readAll [first, w, second, v] =
      .ok [.long one none, .plain w, .long other none, .plain v] := by
    simp only [Word.readAll, begins, goes, value, last]
    rfl
  have read : Request.read {} [] [.long one none, .plain w, .long other none, .plain v] =
      .ok (q, []) := by
    simp [Request.read, Cluster.ofLong, Request.withFlags, takes, also, got, busy, later]
  rw [Request.ofWords, words]
  change (Request.read {} [] _ >>= _) = _
  rw [read]
  rfl

section Words
variable {countWord seedWord : String} {n s : Int}

theorem Spells.asSeed (seed : Spells seedWord s) (r : Request) :
    r.withValue .seed seedWord = .ok { r with seed := .whole s seed.short } := by
  rw [Request.withValue, seed.number_eq]
  rfl

theorem ofWords_sample (count : Spells countWord n) (seed : Spells seedWord s) :
    Request.ofWords ["--sample", countWord, "--seed", seedWord] =
      .ok { sample := .whole n count.short, seed := .whole s seed.short } := by
  have got : ({} : Request).withValue .sample countWord = .ok { sample := .whole n count.short } := by
    rw [Request.withValue, count.number_eq]
    rfl
  exact ofWords_two rfl count.value rfl seed.value rfl rfl got rfl (seed.asSeed _)

theorem ofWords_tests (count : Spells countWord n) (seed : Spells seedWord s) :
    Request.ofWords ["--num-tests", countWord, "--seed", seedWord] =
      .ok { tests := .whole n count.short, seed := .whole s seed.short } := by
  have got : ({} : Request).withValue .tests countWord = .ok { tests := .whole n count.short } := by
    rw [Request.withValue, count.number_eq]
    rfl
  exact ofWords_two rfl count.value rfl seed.value rfl rfl got rfl (seed.asSeed _)

end Words

variable {S : Type} [RandomSource S]

def samplePage (entry : String × Nat) : List String :=
  ["=== Sample " ++ toString (entry.2 + 1) ++ " ===", entry.1, ""]

theorem samplePages_injective (k : Nat) {first second : List String}
    (same : (first.zipIdx k).flatMap samplePage = (second.zipIdx k).flatMap samplePage) :
    first = second := by
  induction first generalizing k second with
  | nil =>
    cases second with
    | nil => rfl
    | cons document rest => cases same
  | cons document rest ih =>
    cases second with
    | nil => cases same
    | cons other more =>
      simp only [samplePage, List.zipIdx_cons, List.flatMap_cons, List.cons_append, List.nil_append,
        List.cons.injEq, true_and] at same
      rw [same.1, ih (k + 1) same.2]

theorem sampleLines_injective {first second : List String}
    (same : sampleLines first = sampleLines second) : first = second :=
  samplePages_injective 0 same

theorem Plan.run_documents {p : Plan} {o : Options (HandlerName Empty) Unit} {n : Nat}
    (known : p.options = .ok o) (asked : p.count = .ok (n : Int)) (clock : Nat → Binary64)
    (test : Nat → String → Outcome) (source : S) :
    (p.run clock test source).trials.map Trial.document =
      (documents n (seeded p.seed source)).1 := by
  obtain ⟨drawn, after, made, _, ran⟩ := run_drawn known asked clock test source
  rw [ran, made]
  exact map_document_trialsOf test drawn

theorem samples_seeded {r : Request} {s : Int} {short : Text.Short s} (seed : r.seed = .whole s short)
    (nonzero : s ≠ 0) (n : Int) (source : S) :
    r.samples n source = documents n (RandomSource.seed (.whole s short) source) := by
  have kept : (Value.whole s short).orElse .null = .whole s short := if_pos (decide_eq_true nonzero)
  rw [Request.samples, seed, kept]
  rfl

theorem Request.trials_unsampled {r : Request} (unsampled : r.sampleCount? = none)
    (clock : Nat → Binary64) (test : Nat → String → Outcome) (source : S) :
    (r.run clock test source).trials = (r.plan.run clock test source).trials := by
  rw [Request.run, unsampled]

theorem take_documents {n m : Nat} (le : n ≤ m) (source : S) :
    (documents m source).1.take n = (documents n source).1 :=
  Gen.take_times le document source

theorem documents_alike (n : Nat) {source other : S} (alike : Alike source other) :
    (documents n source).1 = (documents n other).1 :=
  (Gen.steady_times n steady_document source other alike).1

section Runs
variable {countWord testsWord seedWord : String} {n m : Nat} {s : Int}

theorem trials_of_tests (many : Spells testsWord m) (seeds : Spells seedWord s)
    (clock : Nat → Binary64) (test : Request → Nat → String → Outcome) (source : S) :
    (runWords ["--num-tests", testsWord, "--seed", seedWord] clock test source).trials.map
        Trial.document =
      (documents m (RandomSource.seed (.whole s seeds.short) source)).1 := by
  let r : Request := { tests := .whole m many.short, seed := .whole s seeds.short }
  obtain ⟨o, known⟩ : ∃ o, r.plan.options = .ok o := ⟨_, rfl⟩
  have unsampled : r.sampleCount? = none := rfl
  have ran : (runWords ["--num-tests", testsWord, "--seed", seedWord] clock test source).trials =
      (r.plan.run clock (test r) source).trials := by
    unfold runWords
    rw [ofWords_tests many seeds]
    exact Request.trials_unsampled unsampled clock (test r) source
  rw [ran, Plan.run_documents known rfl]
  rfl

theorem printed_of_sample (few : Spells countWord n) (seeds : Spells seedWord s) (asked : 1 ≤ n)
    (clock : Nat → Binary64) (test : Request → Nat → String → Outcome) (source : S) :
    (runWords ["--sample", countWord, "--seed", seedWord] clock test source).printed =
      sampleLines
        (Request.samples { sample := .whole n few.short, seed := .whole s seeds.short } n source).1 := by
  have counted : Request.sampleCount? { sample := .whole n few.short, seed := .whole s seeds.short } =
      some (n : Int) :=
    if_neg (by omega)
  unfold runWords
  rw [ofWords_sample few seeds]
  simp only [Request.run, counted]

-- Samples are the first documents of any longer campaign with the same seed, whatever the source was
-- before, if the seed is not zero. A zero does not seed the samples, which are then drawn from the
-- source as it was.
theorem samples_reproduce (settles : SeedSettles S) (few : Spells countWord n)
    (many : Spells testsWord m) (seeds : Spells seedWord s) (asked : 1 ≤ n) (le : n ≤ m)
    (clock other : Nat → Binary64) (test : Request → Nat → String → Outcome) (source elsewhere : S) :
    ∃ fed, (runWords ["--num-tests", testsWord, "--seed", seedWord] clock test elsewhere).trials.map
        Trial.document = fed ∧ fed.length = m ∧
      (s ≠ 0 →
        (runWords ["--sample", countWord, "--seed", seedWord] other test source).printed =
          sampleLines (fed.take n)) ∧
      (s = 0 →
        (runWords ["--sample", countWord, "--seed", seedWord] other test source).printed =
          sampleLines (documents n source).1 ∧
        ((runWords ["--sample", countWord, "--seed", seedWord] other test source).printed =
            sampleLines (fed.take n) ↔
          (documents n source).1 = (documents n (RandomSource.seed (.whole 0) source)).1)) := by
  have first : (documents m (RandomSource.seed (.whole s seeds.short) elsewhere)).1.take n =
      (documents n (RandomSource.seed (.whole s seeds.short) source)).1 :=
    (take_documents le _).trans (documents_alike n (settles s seeds.short elsewhere source))
  have printed := printed_of_sample few seeds asked other test source
  refine ⟨_, trials_of_tests many seeds clock test elsewhere, Gen.length_times m document _, ?_, ?_⟩
  · intro nonzero
    rw [printed, samples_seeded rfl nonzero, first]
  · rintro rfl
    have unseeded : (Request.samples { sample := .whole n few.short, seed := .whole 0 } n source).1 =
        (documents n source).1 := rfl
    rw [printed, unseeded, first]
    exact ⟨rfl, fun same => sampleLines_injective same, fun same => congrArg sampleLines same⟩

end Runs

theorem congruential_settles : SeedSettles Congruential := fun _ _ _ _ => Alike.refl _

def usedSource : Congruential := ⟨144⟩
def otherSource : Congruential := ⟨342⟩

theorem seven_reproduces :
    (runWords ["--sample", "1", "--seed", "7"] standing (fun _ => raising) usedSource).printed =
      sampleLines (((runWords ["--num-tests", "2", "--seed", "7"] ticking (fun _ => raising)
        otherSource).trials.map Trial.document).take 1) := by
  have few : Spells "1" (1 : Nat) := ⟨rfl, rfl⟩
  have many : Spells "2" (2 : Nat) := ⟨rfl, rfl⟩
  have seeds : Spells "7" 7 := ⟨rfl, rfl⟩
  obtain ⟨fed, same, _, reproduced, _⟩ := samples_reproduce congruential_settles few many seeds
    (Nat.le_refl 1) (by decide) ticking standing (fun _ => raising) usedSource otherSource
  rw [same]
  exact reproduced (by decide)

theorem zero_differs :
    (runWords ["--sample", "1", "--seed", "0"] standing (fun _ => raising) usedSource).printed ≠
      sampleLines (((runWords ["--num-tests", "1", "--seed", "0"] standing (fun _ => raising)
        usedSource).trials.map Trial.document).take 1) := by
  have one : Spells "1" (1 : Nat) := ⟨rfl, rfl⟩
  have zero : Spells "0" 0 := ⟨rfl, rfl⟩
  have drawn : (Request.samples { sample := .whole 1, seed := .whole 0 } 1 usedSource).1 = [" "] := by
    decide +kernel
  have fed : (documents 1 (RandomSource.seed (.whole 0) usedSource)).1 = ["<br>"] := by decide +kernel
  intro same
  rw [printed_of_sample one zero (Nat.le_refl 1), trials_of_tests one zero] at same
  have equal := drawn.symm.trans ((sampleLines_injective same).trans (congrArg (List.take 1) fed))
  simp at equal

end SemanticMarkup.Fuzz

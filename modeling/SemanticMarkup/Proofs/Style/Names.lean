import SemanticMarkup.Proofs.Style.Writing
import SemanticMarkup.Proofs.Text.Lowering

namespace SemanticMarkup

namespace Style

def closes (c : Char) : Bool := isSmallLetter c || c.isDigit

-- A character of a name that its lower case leaves alone, such as a small letter or a digit.
def isSettled (c : Char) : Bool := c != '-' && Text.lowerOf c == [c]

-- A name in lower case behind its first letter: each dash begins a word, which a small letter begins.
inductive NameTail : List Char → Prop where
  | nil : NameTail []
  | letter {c : Char} {rest : List Char} (settled : isSettled c = true) (later : NameTail rest) :
    NameTail (c :: rest)
  | word {c : Char} {rest : List Char} (small : isSmallLetter c = true) (later : NameTail rest) :
    NameTail ('-' :: c :: rest)

theorem NameTail.of_settled {cs : List Char} (settled : cs.all isSettled = true) : NameTail cs := by
  induction cs with
  | nil => exact .nil
  | cons c rest ih =>
    obtain ⟨first, others⟩ := Bool.and_eq_true_iff.mp settled
    exact .letter first (ih others)

-- Names of properties in lower case. One dash may come before all words.
inductive LowerName : List Char → Prop where
  | plain {c : Char} {rest : List Char} (small : isSmallLetter c = true) (tail : NameTail rest) :
    LowerName (c :: rest)
  | prefixed {c : Char} {rest : List Char} (small : isSmallLetter c = true) (tail : NameTail rest) :
    LowerName ('-' :: c :: rest)

-- No letter stands alone between two dashes, and before a dash stands a small letter or a digit.
structure Clear (name : List Char) : Prop where
  apart : ∀ c, ¬['-', c, '-'] <:+: name
  closed : ∀ c, [c, '-'] <:+: name → closes c = true

structure Small (c : Char) : Prop where
  other : c ≠ '-'
  lowered : Text.lowerOf c = [c]
  low : Text.isUpper c = false
  capital : isCapitalLetter c.toUpper = true
  ajar : closes c.toUpper = false
  back : Text.lowerOf c.toUpper = [c]
  upper : Text.isUpper c.toUpper = true
  plain : c.toUpper.toNat ≠ 0x3A3

theorem small_cases {c : Char} (small : isSmallLetter c = true) : Small c := by
  obtain ⟨other, lowered, low, capital, ajar, back, upper, plain⟩ :=
    Text.ascii_cases (P := fun c => isSmallLetter c = true →
      c ≠ '-' ∧ Text.lowerOf c = [c] ∧ Text.isUpper c = false ∧ isCapitalLetter c.toUpper = true ∧
        closes c.toUpper = false ∧ Text.lowerOf c.toUpper = [c] ∧ Text.isUpper c.toUpper = true ∧
        c.toUpper.toNat ≠ 0x3A3)
      (by decide +kernel) (ascii_of_alphanumeric (by simp [isAlphanumeric, isLetter, small])) small
  exact ⟨other, lowered, low, capital, ajar, back, upper, plain⟩

structure Settled (c : Char) : Prop where
  other : c ≠ '-'
  lowered : Text.lowerOf c = [c]
  common : isCapitalLetter c = false
  plain : c.toNat ≠ 0x3A3

theorem settled_cases {c : Char} (settled : isSettled c = true) : Settled c := by
  simp only [isSettled, Bool.and_eq_true, bne_iff_ne, beq_iff_eq] at settled
  obtain ⟨other, lowered⟩ := settled
  refine ⟨other, lowered, ?_, fun sigma => Text.lowerOf_sigma sigma lowered⟩
  apply Bool.eq_false_iff.mpr
  intro capital
  have ascii := ascii_of_alphanumeric (c := c) (by simp [isAlphanumeric, isLetter, capital])
  rw [Text.lowerOf_ascii ascii, List.singleton_inj] at lowered
  obtain ⟨small, _, upper⟩ := capital_cases capital
  rw [lowered] at small
  rw [(small_cases small).low] at upper
  cases upper

-- What stands before a capital of a key, if its dash is to be put back.
def Joint (c d : Char) : Prop := isCapitalLetter d = true → closes c = true

theorem joint_of_other {d : Char} (other : isCapitalLetter d = false) (c : Char) : Joint c d := by
  intro capital
  rw [other] at capital
  cases capital

theorem joinWords_word {c : Char} (small : isSmallLetter c = true) (rest : List Char) :
    joinWords ('-' :: c :: rest) = c.toUpper :: joinWords rest := by
  rw [joinWords, if_pos small]

theorem lowerOf_dash : Text.lowerOf '-' = ['-'] := by decide +kernel

theorem splitWords_begins (c : Char) (rest : List Char) : ∃ more, splitWords (c :: rest) = c :: more := by
  cases rest with
  | nil => exact ⟨[], rfl⟩
  | cons d rest =>
    rw [splitWords]
    split
    · exact ⟨_, rfl⟩
    · exact ⟨_, rfl⟩

theorem lower_splitWords_iff {rest : List Char} (tail : NameTail rest) (k : Char) :
    (splitWords (k :: joinWords rest)).flatMap Text.lowerOf = Text.lowerOf k ++ rest ↔
      (k :: joinWords rest).IsChain Joint := by
  induction tail generalizing k with
  | nil => simp [joinWords, splitWords]
  | @letter c rest settled later ih =>
    have still := settled_cases settled
    have here : Joint k c := joint_of_other still.common k
    rw [joinWords_cons still.other, splitWords, still.common, Bool.and_false, if_neg Bool.false_ne_true,
      List.flatMap_cons, List.append_cancel_left_eq, List.isChain_cons_cons, ← ih c, still.lowered]
    simp [here]
  | @word c rest small later ih =>
    have letter := small_cases small
    rw [joinWords_word small, splitWords, letter.capital, Bool.and_true, List.isChain_cons_cons,
      ← ih c.toUpper, letter.back]
    cases closing : (isSmallLetter k || k.isDigit) with
    | true =>
      have here : Joint k c.toUpper := fun _ => closing
      rw [if_pos rfl, List.flatMap_cons, List.flatMap_cons, List.append_cancel_left_eq,
        lowerOf_dash]
      simp [here]
    | false =>
      have apart : ¬Joint k c.toUpper := fun here => by
        have closed : (isSmallLetter k || k.isDigit) = true := here letter.capital
        rw [closing] at closed
        cases closed
      obtain ⟨more, whole⟩ := splitWords_begins c.toUpper (joinWords rest)
      rw [if_neg Bool.false_ne_true, List.flatMap_cons, List.append_cancel_left_eq, whole,
        List.flatMap_cons, letter.back]
      apply iff_of_false
      · exact fun same => letter.other (List.cons.inj same).1
      · exact fun both => apart both.1

theorem clear_cons (c d : Char) (rest : List Char) :
    Clear (c :: d :: rest) ↔
      (c = '-' → rest.head? ≠ some '-') ∧ (d = '-' → closes c = true) ∧ Clear (d :: rest) := by
  have lone : ∀ e, ['-', e, '-'] <+: c :: d :: rest ↔ c = '-' ∧ e = d ∧ rest.head? = some '-' := by
    intro e
    cases rest with
    | nil => simp [List.cons_prefix_cons]
    | cons f more => simp [List.cons_prefix_cons, eq_comm]
  have behind : ∀ e, [e, '-'] <+: c :: d :: rest ↔ e = c ∧ d = '-' := by
    intro e
    simp [List.cons_prefix_cons, eq_comm]
  constructor
  · intro clear
    refine ⟨fun dash second => ?_, fun dash => ?_, fun e inside => ?_, fun e inside => ?_⟩
    · exact clear.apart d (List.infix_cons_iff.mpr (.inl ((lone d).mpr ⟨dash, rfl, second⟩)))
    · exact clear.closed c (List.infix_cons_iff.mpr (.inl ((behind c).mpr ⟨rfl, dash⟩)))
    · exact clear.apart e (List.infix_cons_iff.mpr (.inr inside))
    · exact clear.closed e (List.infix_cons_iff.mpr (.inr inside))
  · rintro ⟨apart, closed, later⟩
    refine ⟨fun e inside => ?_, fun e inside => ?_⟩
    · rcases List.infix_cons_iff.mp inside with here | further
      · obtain ⟨dash, _, second⟩ := (lone e).mp here
        exact apart dash second
      · exact later.apart e further
    · rcases List.infix_cons_iff.mp inside with here | further
      · obtain ⟨rfl, dash⟩ := (behind e).mp here
        exact closed dash
      · exact later.closed e further

theorem clear_single (c : Char) : Clear [c] where
  apart e inside := absurd inside.length_le (by simp)
  closed e inside := absurd inside.length_le (by simp)

theorem isChain_joinWords_iff {rest : List Char} (tail : NameTail rest) :
    (∀ c, c ≠ '-' → ((c :: joinWords rest).IsChain Joint ↔ Clear (c :: rest))) ∧
      ∀ c, isSmallLetter c = true →
        ((c.toUpper :: joinWords rest).IsChain Joint ↔ Clear ('-' :: c :: rest)) := by
  induction tail with
  | nil =>
    refine ⟨fun c _ => ?_, fun c small => ?_⟩
    · simp [joinWords, clear_single]
    · simp [joinWords, clear_cons, clear_single, (small_cases small).other]
  | @letter d rest settled later ih =>
    have other := (settled_cases settled).other
    have free : ∀ k, Joint k d := joint_of_other (settled_cases settled).common
    refine ⟨fun c ne => ?_, fun c small => ?_⟩
    · rw [joinWords_cons other, List.isChain_cons_cons, ih.1 d other, clear_cons]
      simp [free, ne, other]
    · have ne := (small_cases small).other
      rw [joinWords_cons other, List.isChain_cons_cons, ih.1 d other, clear_cons, clear_cons]
      simp [free, ne, other]
  | @word d rest small later ih =>
    have joint : ∀ k, Joint k d.toUpper ↔ closes k = true :=
      fun k => ⟨fun here => here (small_cases small).capital, fun closed _ => closed⟩
    refine ⟨fun c ne => ?_, fun c first => ?_⟩
    · rw [joinWords_word small, List.isChain_cons_cons, joint, ih.2 d small, clear_cons c]
      simp [ne]
    · rw [joinWords_word small, List.isChain_cons_cons, joint, (small_cases first).ajar, clear_cons]
      simp

theorem joinWords_plain {rest : List Char} (tail : NameTail rest) :
    ∀ c ∈ joinWords rest, c.toNat ≠ 0x3A3 := by
  induction tail with
  | nil => simp [joinWords]
  | letter settled later ih =>
    rw [joinWords_cons (settled_cases settled).other]
    exact List.forall_mem_cons.mpr ⟨(settled_cases settled).plain, ih⟩
  | word small later ih =>
    rw [joinWords_word small]
    exact List.forall_mem_cons.mpr ⟨(small_cases small).plain, ih⟩

theorem lower_key {k : Char} {rest : List Char} (plain : k.toNat ≠ 0x3A3) (tail : NameTail rest) :
    Text.lower (splitWords (k :: joinWords rest)) =
      (splitWords (k :: joinWords rest)).flatMap Text.lowerOf := by
  refine Text.lowerFrom_flatMap [] fun c member => ?_
  rcases mem_splitWords member with inside | rfl
  · rcases List.mem_cons.mp inside with rfl | later
    · exact plain
    · exact joinWords_plain tail c later
  · decide

theorem settled_of_small {c : Char} (small : isSmallLetter c = true) : isSettled c = true := by
  simp [isSettled, (small_cases small).other, (small_cases small).lowered]

theorem LowerName.tail {name : List Char} (lower : LowerName name) : NameTail name := by
  cases lower with
  | plain small tail => exact .letter (settled_of_small small) tail
  | prefixed small tail => exact .word small tail

theorem NameTail.lowered {name : List Char} (tail : NameTail name) : Text.lower name = name := by
  have each : (∀ c ∈ name, c.toNat ≠ 0x3A3) ∧ name.flatMap Text.lowerOf = name := by
    induction tail with
    | nil => exact ⟨by simp, rfl⟩
    | letter settled later ih =>
      have still := settled_cases settled
      refine ⟨List.forall_mem_cons.mpr ⟨still.plain, ih.1⟩, ?_⟩
      rw [List.flatMap_cons, still.lowered, ih.2, List.singleton_append]
    | word small later ih =>
      have still := settled_cases (settled_of_small small)
      have dash : ('-').toNat ≠ 0x3A3 := by decide
      refine ⟨List.forall_mem_cons.mpr ⟨dash, List.forall_mem_cons.mpr ⟨still.plain, ih.1⟩⟩, ?_⟩
      rw [List.flatMap_cons, List.flatMap_cons, still.lowered, ih.2, lowerOf_dash]
      rfl
  rw [Text.lower, Text.lowerFrom_flatMap [] each.1, each.2]

theorem LowerName.not_custom {name : List Char} (lower : LowerName name) : isCustom name = false := by
  cases lower with
  | plain small _ => exact Style.not_custom (small_cases small).other _
  | @prefixed c rest small _ =>
    unfold isCustom
    split
    · rename_i shape
      exact absurd (List.cons.inj (List.cons.inj shape).2).1 (small_cases small).other
    · rfl

theorem LowerName.toName_toKey {name : List Char} (lower : LowerName name) :
    toName (toKey name) = name ↔ Clear name := by
  rw [toKey, lower.not_custom, if_neg Bool.false_ne_true]
  cases lower with
  | @plain c rest small tail =>
    have letter := small_cases small
    have plain := (settled_cases (settled_of_small small)).plain
    rw [joinWords_cons letter.other, toName, Style.not_custom letter.other, if_neg Bool.false_ne_true]
    dsimp only
    rw [letter.low, if_neg Bool.false_ne_true, lower_key plain tail,
      ← (isChain_joinWords_iff tail).1 c letter.other, ← lower_splitWords_iff tail c, letter.lowered,
      List.singleton_append]
  | @prefixed c rest small tail =>
    have letter := small_cases small
    have first : c.toUpper ≠ '-' := by
      intro dash
      have upper := letter.upper
      rw [dash] at upper
      exact absurd upper (by decide +kernel)
    rw [joinWords_word small, toName, Style.not_custom first, if_neg Bool.false_ne_true]
    dsimp only
    rw [letter.upper, if_pos rfl, lower_key letter.plain tail, ← (isChain_joinWords_iff tail).2 c small,
      ← lower_splitWords_iff tail c.toUpper, letter.back, List.singleton_append, List.cons_inj_right]

def declaredName (cs : List Char) : List Char := Text.trim (cs.takeWhile (· ≠ ':'))

def ParsedFrom (style key : String) (name : List Char) : Prop :=
  ∃ piece ∈ Text.pieces (· = ';') style.toList, declaredName piece = name ∧
    ∃ value, readDeclaration? piece = some (key, value)

theorem key_of_declaration {cs : List Char} {key value : String}
    (read : readDeclaration? cs = some (key, value)) : key = .ofList (keyOf (declaredName cs)) := by
  unfold readDeclaration? at read
  split at read
  · cases read
  · dsimp only at read
    split at read
    · cases read
    · cases read
      rfl

theorem ParsedFrom.mem_keys {style key : String} {name : List Char} (parsed : ParsedFrom style key name) :
    key ∈ Table.keys (parse style) := by
  obtain ⟨piece, member, _, value, read⟩ := parsed
  have among : (key, value) ∈ (Text.pieces (· = ';') style.toList).filterMap readDeclaration? :=
    List.mem_filterMap.mpr ⟨piece, member, read⟩
  exact Table.mem_keys_update.mpr (.inr (List.mem_map_of_mem among))

-- A name in lower case comes back from its key just when it is clear, and a custom name always does.
-- Keys that were parsed from such a name are written under that name again.
theorem toName_toKey_iff {name : List Char} (known : isCustom name = true ∨ LowerName name) :
    (toName (toKey name) = name ↔ isCustom name = true ∨ Clear name) ∧
      (isCustom name = true ∨ Clear name → ∀ style key, ParsedFrom style key name →
        key ∈ Table.keys (parse style) ∧ ∀ indent value,
          Stylesheet.declarationText indent key value =
            indent ++ .ofList name ++ ": " ++ Stylesheet.valueText key value ++ ";") := by
  have back : toName (toKey name) = name ↔ isCustom name = true ∨ Clear name := by
    cases custom : isCustom name with
    | true => simp [toKey, toName, custom]
    | false =>
      rcases known with wrong | lower
      · rw [custom] at wrong
        cases wrong
      · simpa using lower.toName_toKey
  have same : keyOf name = toKey name := by
    rcases known with custom | lower
    · rw [keyOf, if_pos custom]
    · rw [keyOf, lower.not_custom, if_neg Bool.false_ne_true, lower.tail.lowered]
  refine ⟨back, fun told style key parsed => ⟨parsed.mem_keys, fun indent value => ?_⟩⟩
  obtain ⟨piece, _, declared, _, read⟩ := parsed
  have whole : key.toList = toKey name := by
    rw [key_of_declaration read, declared, String.toList_ofList, same]
  rw [Stylesheet.declarationText, whole, back.mpr told]

theorem vendorFlex_written :
    LowerName "-ms-flex".toList ∧ Clear "-ms-flex".toList ∧
      ParsedFrom "color: red; -ms-flex : 1" "MsFlex" "-ms-flex".toList ∧
      toName (toKey "-ms-flex".toList) = "-ms-flex".toList ∧
      Stylesheet.declarationText "  " "MsFlex" (.text "1") = "  -ms-flex: 1;" := by
  have lower : LowerName "-ms-flex".toList :=
    .prefixed rfl (.letter rfl (.word rfl (.of_settled (by decide +kernel))))
  have clear : Clear "-ms-flex".toList := lower.toName_toKey.mp (by decide +kernel)
  have parsed : ParsedFrom "color: red; -ms-flex : 1" "MsFlex" "-ms-flex".toList :=
    ⟨" -ms-flex : 1".toList, by decide +kernel, by decide +kernel, "1", by decide +kernel⟩
  obtain ⟨back, written⟩ := toName_toKey_iff (.inr lower)
  refine ⟨lower, clear, parsed, back.mpr (.inr clear), ?_⟩
  rw [((written (.inr clear)) _ _ parsed).2]
  decide +kernel

theorem operaTransform_blurred :
    LowerName "-o-transform".toList ∧ toKey "-o-transform".toList = "OTransform".toList ∧
      toName "OTransform".toList = "-otransform".toList ∧
      toName (toKey "-o-transform".toList) ≠ "-o-transform".toList := by
  have lower : LowerName "-o-transform".toList := .prefixed rfl (.word rfl (.of_settled (by decide +kernel)))
  exact ⟨lower, by decide +kernel, by decide +kernel, by decide +kernel⟩

end Style
end SemanticMarkup

import Knitting.Needle.Syntax
import Mathlib

set_option autoImplicit false

/-! # The spelling of needles

A needle is spelled by the letters of its bed and a whole number in ASCII digits, with a minus sign
or without one (`Needle.Spells`). Reading takes these texts and no others, and a needle that is
written is read back as itself (`Needle.parse_iff_spells`). That a slider's letters begin with those
of its bed does no harm, since no number begins with a letter (`Needle.form?_eq_some_iff`). -/

namespace Knitting

/-! ## Whole numbers -/

namespace Text

theorem digitValue?_eq_some_iff {c : Char} {d : Nat} :
    digitValue? c = some d ↔ c.isDigit = true ∧ d = c.toNat - '0'.toNat := by
  have hdigit : c.isDigit = true ↔ '0' ≤ c ∧ c ≤ '9' := by
    rw [Char.isDigit, Bool.and_eq_true, decide_eq_true_iff, decide_eq_true_iff]
    rfl
  unfold digitValue?
  rw [hdigit, Option.ite_none_right_eq_some, Option.some.injEq, eq_comm (a := d)]

theorem readDigits?_eq_some_iff {n m : Nat} {cs : List Char} :
    readDigits? n cs = some m ↔
      (∀ c ∈ cs, c.isDigit = true) ∧ m = Nat.ofDigitChars 10 cs n := by
  induction cs generalizing n with
  | nil =>
    rw [readDigits?, Option.some.injEq, Nat.ofDigitChars_nil]
    exact ⟨fun h => ⟨nofun, h.symm⟩, fun h => h.2.symm⟩
  | cons c cs ih =>
    simp only [readDigits?, Option.bind_eq_bind, Option.bind_eq_some_iff, digitValue?_eq_some_iff,
      ih, List.forall_mem_cons, Nat.ofDigitChars_cons]
    constructor
    · rintro ⟨d, ⟨hc, rfl⟩, hcs, hm⟩
      exact ⟨⟨hc, hcs⟩, hm⟩
    · rintro ⟨⟨hc, hcs⟩, hm⟩
      exact ⟨_, ⟨hc, rfl⟩, hcs, hm⟩

/-- A text of one or more ASCII digits, with their value. -/
structure SpellsNat (digits : List Char) (n : Nat) : Prop where
  ne_nil : digits ≠ []
  isDigit : ∀ c ∈ digits, c.isDigit = true
  value : n = Nat.ofDigitChars 10 digits 0

theorem readNat?_eq_some_iff {cs : List Char} {n : Nat} :
    readNat? cs = some n ↔ SpellsNat cs n := by
  cases cs with
  | nil => exact ⟨nofun, fun h => absurd rfl h.ne_nil⟩
  | cons c cs =>
    rw [readNat?, readDigits?_eq_some_iff]
    exact ⟨fun h => ⟨List.cons_ne_nil c cs, h.1, h.2⟩, fun h => ⟨h.isDigit, h.value⟩⟩

/-- A text of ASCII digits, or of a minus sign and ASCII digits, with its value. Zeros may stand in
front, and zero may have a minus sign. -/
inductive SpellsInt : List Char → Int → Prop where
  | plain {digits : List Char} {n : Nat} (h : SpellsNat digits n) : SpellsInt digits n
  | minus {digits : List Char} {n : Nat} (h : SpellsNat digits n) : SpellsInt ('-' :: digits) (-n)

/-- Every character of a number is a minus sign or a digit. -/
theorem SpellsInt.mem {cs : List Char} {i : Int} (h : SpellsInt cs i) {c : Char} (hc : c ∈ cs) :
    c = '-' ∨ c.isDigit = true := by
  cases h with
  | plain h => exact .inr (h.isDigit c hc)
  | minus h => exact (List.mem_cons.1 hc).imp_right (h.isDigit c)

theorem readInt?_eq_some_iff {cs : List Char} {i : Int} :
    readInt? cs = some i ↔ SpellsInt cs i := by
  constructor
  · intro h
    unfold readInt? at h
    split at h
    · simp only [Option.map_eq_some_iff, Option.bind_eq_bind, Option.bind_eq_some_iff,
        Option.pure_def, Option.some.injEq] at h
      obtain ⟨_, ⟨n, hn, rfl⟩, rfl⟩ := h
      exact .minus (readNat?_eq_some_iff.1 hn)
    · obtain ⟨n, hn, rfl⟩ := Option.map_eq_some_iff.1 h
      exact .plain (readNat?_eq_some_iff.1 hn)
  · intro h
    cases h with
    | minus h =>
      rw [readInt?, readNat?_eq_some_iff.2 h]
      rfl
    | plain h =>
      unfold readInt?
      split
      · -- A minus sign is no digit.
        exact absurd (h.isDigit '-' List.mem_cons_self) (by decide)
      · rw [readNat?_eq_some_iff.2 h]
        rfl

/-! ### The form of a number -/

/-- Decimal digits of any script, with a minus sign in front or without one. -/
def NumeralForm (cs : List Char) : Prop :=
  ∃ digits, (cs = digits ∨ cs = '-' :: digits) ∧ digits ≠ [] ∧
    ∀ c ∈ digits, isDecimalDigit c = true

theorem isNumeral_iff {cs : List Char} : isNumeral cs = true ↔ NumeralForm cs := by
  have hminus : isDecimalDigit '-' = false := by decide +kernel
  have hdigits : ∀ digits : List Char, (!digits.isEmpty && digits.all isDecimalDigit) = true ↔
      digits ≠ [] ∧ ∀ c ∈ digits, isDecimalDigit c = true := by
    intro digits
    rw [Bool.and_eq_true, List.all_eq_true, Bool.not_eq_true', List.isEmpty_eq_false_iff]
  unfold isNumeral
  dsimp only
  rw [hdigits]
  constructor
  · intro h
    cases hsign : ['-'].isPrefixOf? cs with
    | none =>
      rw [hsign] at h
      exact ⟨cs, .inl rfl, h⟩
    | some digits =>
      rw [hsign] at h
      exact ⟨digits, .inr (List.isPrefixOf?_eq_some_iff_append_eq.1 hsign).symm, h⟩
  · rintro ⟨digits, rfl | rfl, h⟩
    · cases hsign : ['-'].isPrefixOf? cs with
      | none => exact h
      | some rest =>
        -- A minus sign is no digit.
        obtain rfl := List.isPrefixOf?_eq_some_iff_append_eq.1 hsign
        exact absurd (h.2 '-' List.mem_cons_self) (by rw [hminus]; exact Bool.false_ne_true)
    · exact h

/-- The ASCII digits are the first decimal digits. -/
theorem isDecimalDigit_of_isDigit {c : Char} (h : c.isDigit = true) : isDecimalDigit c = true := by
  refine List.any_eq_true.2 ⟨(0x30, 10), List.mem_cons_self, ?_⟩
  have hrange : 0x30 ≤ c.toNat ∧ c.toNat ≤ 0x39 := Char.isDigit_iff_toNat.1 h
  simp only [Bool.and_eq_true, decide_eq_true_eq]
  omega

/-- What spells a number has the form of one. -/
theorem SpellsInt.isNumeral {cs : List Char} {i : Int} (h : SpellsInt cs i) :
    isNumeral cs = true := by
  have hdecimal : ∀ {digits : List Char} {n : Nat}, SpellsNat digits n →
      ∀ c ∈ digits, isDecimalDigit c = true := fun h c hc =>
    isDecimalDigit_of_isDigit (h.isDigit c hc)
  rw [isNumeral_iff]
  cases h with
  | plain h => exact ⟨cs, .inl rfl, h.ne_nil, hdecimal h⟩
  | minus h => exact ⟨_, .inr rfl, h.ne_nil, hdecimal h⟩

/-! ### Writing -/

theorem spellsNat_repr (n : Nat) : SpellsNat n.repr.toList n := by
  rw [Nat.toList_repr]
  refine ⟨Nat.toDigits_ne_nil, ?_, Nat.ofDigitChars_ten_toDigits.symm⟩
  intro c hc
  exact Nat.isDigit_of_mem_toDigits (by decide) (by decide) hc

/-- A number is spelled by its digits, after a minus sign if it is negative. -/
theorem spellsInt_toString (i : Int) : SpellsInt (toString i).toList i := by
  rw [Int.toString_eq_repr, Int.repr_eq_if]
  split
  · next hi =>
    have hspells := SpellsInt.plain (spellsNat_repr i.toNat)
    rwa [Int.toNat_of_nonneg hi] at hspells
  · next hi =>
    have hspells := SpellsInt.minus (spellsNat_repr (-i).toNat)
    rw [Int.toNat_of_nonneg (by omega), Int.neg_neg] at hspells
    rwa [String.toList_append]

end Text

/-! ## Needles -/

theorem isIndex_iff {n : Int} : isIndex n = true ↔ -2 ^ 31 ≤ n ∧ n ≤ 2 ^ 31 - 1 := by
  unfold isIndex
  rw [Bool.and_eq_true, decide_eq_true_iff, decide_eq_true_iff]
  rfl

namespace Needle

/-- A text spells a needle: the letters of its bed come first, and behind them a number in the range
of a machine's indices. -/
def Spells (token : String) (n : Needle) : Prop :=
  ∃ number, token.toList = n.bed.letters.toList ++ number ∧ Text.SpellsInt number n.index ∧
    -2 ^ 31 ≤ n.index ∧ n.index ≤ 2 ^ 31 - 1

theorem readIndex?_eq_some_iff {cs : List Char} {i : Int} :
    readIndex? cs = some i ↔ Text.SpellsInt cs i ∧ -2 ^ 31 ≤ i ∧ i ≤ 2 ^ 31 - 1 := by
  rw [readIndex?, Option.filter_eq_some_iff, Text.readInt?_eq_some_iff, isIndex_iff]

/-- The form of a needle is there just if its letters are followed by the form of a number. -/
theorem form?_eq_some_iff {cs number : List Char} {bed : Bed} :
    form? cs = some (bed, number) ↔
      cs = bed.letters.toList ++ number ∧ Text.isNumeral number = true := by
  constructor
  · intro h
    obtain ⟨bed', -, hfound⟩ := List.exists_of_findSome?_eq_some h
    obtain ⟨number', hnumber, hsame⟩ := Option.map_eq_some_iff.1 hfound
    obtain ⟨rfl, rfl⟩ := Prod.mk.inj hsame
    obtain ⟨hletters, hnumeral⟩ := Option.filter_eq_some_iff.1 hnumber
    exact ⟨(List.isPrefixOf?_eq_some_iff_append_eq.1 hletters).symm, hnumeral⟩
  · rintro ⟨rfl, hnumeral⟩
    -- The letters of a bed do not take the text of its slider, since no number begins with an s.
    have hslider : Text.isNumeral ('s' :: number) = false := by
      have hletter : Text.isDecimalDigit 's' = false := by decide +kernel
      simp [Text.isNumeral, List.isPrefixOf?, hletter]
    cases bed <;> simp [form?, Bed.letters, List.isPrefixOf?, hnumeral, hslider]

theorem spells_text {n : Needle} (hn : isIndex n.index = true) : Spells n.text n :=
  ⟨(toString n.index).toList, String.toList_append, Text.spellsInt_toString n.index,
    isIndex_iff.1 hn⟩

/-- Reading comes to a needle if the text has the form of one and its number is in range, and else
to one error. -/
theorem parse_eq_ok_iff {token : String} {n : Needle} :
    parse token = .ok n ↔ Spells token n := by
  constructor
  · intro h
    unfold parse at h
    split at h
    · simp at h
    · next bed number hform =>
      split at h
      · simp at h
      · next index hindex =>
        obtain rfl := Except.ok.inj h
        exact ⟨number, (form?_eq_some_iff.1 hform).1, readIndex?_eq_some_iff.1 hindex⟩
  · rintro ⟨number, htoken, hspells, hrange⟩
    have hform := form?_eq_some_iff.2 ⟨htoken, hspells.isNumeral⟩
    have hindex := readIndex?_eq_some_iff.2 ⟨hspells, hrange⟩
    simp only [parse, hform, hindex]

theorem parse_eq_error_iff {token : String} {e : Error} :
    parse token = .error e ↔ e = .invalidNeedle token ∧ ∀ n, ¬Spells token n := by
  have hone : ∀ e', parse token = .error e' → e' = .invalidNeedle token := by
    intro e' h
    unfold parse at h
    split at h
    · exact (Except.error.inj h).symm
    · split at h
      · exact (Except.error.inj h).symm
      · simp at h
  simp only [← parse_eq_ok_iff]
  cases h : parse token with
  | ok n => simp
  | error e' => simp [hone e' h, eq_comm]

/-- A needle that is read is one of the machine's. -/
theorem isIndex_of_parse {token : String} {n : Needle} (h : parse token = .ok n) :
    isIndex n.index = true := by
  obtain ⟨number, -, -, hrange⟩ := parse_eq_ok_iff.1 h
  exact isIndex_iff.2 hrange

/-- A text that spells a needle has letters of beds, minus signs and ASCII digits only. -/
theorem Spells.mem {token : String} {n : Needle} (h : Spells token n) {c : Char}
    (hc : c ∈ token.toList) : c ∈ ['f', 'b', 's', '-'] ∨ c.isDigit = true := by
  obtain ⟨number, htoken, hnumber, -⟩ := h
  rw [htoken, List.mem_append] at hc
  rcases hc with hletter | hnumeral
  · have hletters : n.bed.letters.toList ⊆ ['f', 'b', 's', '-'] := by
      cases n.bed <;> decide
    exact .inl (hletters hletter)
  · exact (hnumber.mem hnumeral).imp_left (by rintro rfl; decide)

/-- A decimal digit of another script is in no text that spells a needle. -/
theorem not_spells_of_decimalDigit {token : String} {c : Char} (hc : c ∈ token.toList)
    (hdecimal : Text.isDecimalDigit c = true) (hdigit : c.isDigit = false) (n : Needle) :
    ¬Spells token n := by
  intro hn
  rcases hn.mem hc with hmem | hascii
  · have hnone : (['f', 'b', 's', '-'].all fun d => !Text.isDecimalDigit d) = true := by
      decide +kernel
    have hother := List.all_eq_true.1 hnone c hmem
    rw [hdecimal] at hother
    exact absurd hother (by decide)
  · rw [hdigit] at hascii
    exact absurd hascii (by decide)

/-- What is read is what is spelled, be it by digits with zeros in front, and every other text is
refused by its own name. A text has the form of a needle also if its digits are decimal digits of
another script, but then no number is read from it. So a needle that is written is read back as
itself, and so is one that was read from a text in another form. -/
theorem parse_iff_spells (token : String) :
    (∀ n, parse token = .ok n ↔ Spells token n) ∧
      (∀ e, parse token = .error e ↔ e = .invalidNeedle token ∧ ∀ n, ¬Spells token n) ∧
      (∀ bed number, form? token.toList = some (bed, number) ↔
        token.toList = bed.letters.toList ++ number ∧ Text.NumeralForm number) ∧
      (∀ c ∈ token.toList, Text.isDecimalDigit c = true → c.isDigit = false →
        (∀ bed number, form? token.toList = some (bed, number) → readIndex? number = none) ∧
          parse token = .error (.invalidNeedle token)) ∧
      (∀ n : Needle, isIndex n.index = true → parse n.text = .ok n) ∧
      ∀ n, parse token = .ok n → parse n.text = .ok n := by
  have hback : ∀ n : Needle, isIndex n.index = true → parse n.text = .ok n := fun n hn =>
    parse_eq_ok_iff.2 (spells_text hn)
  refine ⟨fun n => parse_eq_ok_iff, fun e => parse_eq_error_iff, ?_, ?_, hback, ?_⟩
  · intro bed number
    rw [form?_eq_some_iff, Text.isNumeral_iff]
  · intro c hc hdecimal hdigit
    have hnot := not_spells_of_decimalDigit hc hdecimal hdigit
    refine ⟨?_, parse_eq_error_iff.2 ⟨rfl, hnot⟩⟩
    intro bed number hform
    refine Option.eq_none_iff_forall_ne_some.2 ?_
    intro index hindex
    exact hnot ⟨bed, index⟩ ⟨number, (form?_eq_some_iff.1 hform).1, readIndex?_eq_some_iff.1 hindex⟩
  · intro n hn
    exact hback n (isIndex_of_parse hn)

/-- The lowest slider is read back from its text, zeros in front of a number change nothing, and a
digit of another script, which has the form of a number, spells none. -/
theorem lowest_slider_spelled :
    isIndex (-2147483648) = true ∧
      (⟨.backSlider, -2147483648⟩ : Needle).text = "bs-2147483648" ∧
      parse "bs-2147483648" = .ok ⟨.backSlider, -2147483648⟩ ∧
      parse "f-007" = .ok ⟨.front, -7⟩ ∧
      Text.isDecimalDigit '٣' = true ∧ form? "f٣".toList = some (.front, ['٣']) ∧
      readIndex? ['٣'] = none ∧ parse "f٣" = .error (.invalidNeedle "f٣") := by
  have hindex : isIndex (-2147483648) = true := by decide
  have htext : (⟨.backSlider, -2147483648⟩ : Needle).text = "bs-2147483648" := by decide
  have hback := (parse_iff_spells "").2.2.2.2.1 ⟨.backSlider, -2147483648⟩ hindex
  rw [htext] at hback
  have hseven : Text.SpellsNat "007".toList 7 := ⟨by decide, by simp, by decide⟩
  have hspells : Spells "f-007" ⟨.front, -7⟩ :=
    ⟨"-007".toList, by decide, .minus hseven, by decide, by decide⟩
  have hdecimal : Text.isDecimalDigit '٣' = true := by decide +kernel
  have hthree : Text.NumeralForm ['٣'] :=
    ⟨['٣'], .inl rfl, List.cons_ne_nil _ _, by simpa using hdecimal⟩
  have hform := ((parse_iff_spells "f٣").2.2.1 .front ['٣']).2 ⟨by decide, hthree⟩
  obtain ⟨hnumber, hrefused⟩ :=
    (parse_iff_spells "f٣").2.2.2.1 '٣' (by decide) hdecimal (by decide)
  exact ⟨hindex, htext, hback, ((parse_iff_spells "f-007").1 _).2 hspells, hdecimal, hform,
    hnumber _ _ hform, hrefused⟩

end Needle

end Knitting

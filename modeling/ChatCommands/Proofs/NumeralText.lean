import Mathlib
import ChatCommands.Number.Decimal
import ChatCommands.Proofs.DigitTexts

set_option autoImplicit false

/-!
# The texts of decimal numerals

A numeral is a sign, digits with a point among or around them, and a power of
ten. The sign, the point and the power may be missing, but not all digits. What is
read is exactly such a text, and it denotes a rational number.
-/
namespace ChatCommands.Decimal
open Text
variable {cs ds rest whole fraction mantissa tail sign : List Char} {negative : Bool} {e : Int}

/-- Digits with an optional point: the text, the digits before the point and those after it. -/
inductive MantissaText : List Char → List Char → List Char → Prop where
  | whole {ws : List Char} (digits : IsDigits ws) : MantissaText ws ws []
  | pointed {ws fs : List Char} (digits : IsDigits ws) (more : ∀ c ∈ fs, isDigit c = true) :
      MantissaText (ws ++ '.' :: fs) ws fs
  | fraction {fs : List Char} (digits : IsDigits fs) : MantissaText ('.' :: fs) [] fs

inductive SignedText : List Char → Int → Prop where
  | mk {negative : Bool} {sign ds : List Char} (signed : SignText negative sign) (digits : IsDigits ds) :
      SignedText (sign ++ ds) (if negative then -(digitsValue ds : Int) else digitsValue ds)

inductive PowerText : List Char → Int → Prop where
  | none : PowerText [] 0
  | power {mark : Char} {cs : List Char} {e : Int} (marked : mark = 'e' ∨ mark = 'E')
      (exponent : SignedText cs e) : PowerText (mark :: cs) e

theorem all_isDigit_iff : ds ≠ [] ∧ ds.all isDigit = true ↔ IsDigits ds := by
  rw [IsDigits, List.all_eq_true]

theorem readSigned?_eq_some_iff : readSigned? cs = some e ↔ SignedText cs e := by
  unfold readSigned?
  constructor
  · intro h
    obtain ⟨sign, signed, split⟩ := exists_sign cs
    obtain ⟨⟨negative, ds⟩, read⟩ : ∃ p, readSign cs = p := ⟨_, rfl⟩
    rw [read] at h signed split
    simp only [Option.ite_none_right_eq_some, all_isDigit_iff, Option.some.injEq] at h
    obtain ⟨digits, rfl⟩ := h
    rw [split]
    exact .mk signed digits
  · rintro ⟨signed, digits⟩
    rw [readSign_append_digits signed digits]
    simp only [all_isDigit_iff, digits, if_true]

theorem readExponent?_eq_some_iff : readExponent? cs = some e ↔ PowerText cs e := by
  constructor
  · intro h
    cases cs with
    | nil =>
      cases h
      exact .none
    | cons c cs =>
      simp only [readExponent?, Option.ite_none_right_eq_some] at h
      exact .power h.1 (readSigned?_eq_some_iff.1 h.2)
  · intro h
    cases h with
    | none => rfl
    | power marked exponent => rw [readExponent?, if_pos marked, readSigned?_eq_some_iff.2 exponent]

theorem spanDigits_append (digits : ∀ c ∈ ds, isDigit c = true)
    (stop : ∀ c ∈ rest.head?, isDigit c = false) : spanDigits (ds ++ rest) = (ds, rest) := by
  unfold spanDigits
  rw [List.takeWhile_append_of_pos digits, List.dropWhile_append_of_pos digits]
  cases rest with
  | nil => simp
  | cons c rest => simp [stop c rfl]

theorem spanDigits_eq (h : spanDigits cs = (ds, rest)) : cs = ds ++ rest ∧ ∀ c ∈ ds, isDigit c = true := by
  obtain ⟨rfl, rfl⟩ := Prod.mk.inj h
  exact ⟨List.takeWhile_append_dropWhile.symm, fun c hc => List.mem_takeWhile_imp hc⟩

theorem spanMantissa_append (text : MantissaText mantissa whole fraction)
    (stop : ∀ c ∈ rest.head?, isDigit c = false ∧ c ≠ '.') :
    spanMantissa (mantissa ++ rest) = (whole, fraction, rest) := by
  have point : ∀ cs : List Char, ∀ c ∈ ('.' :: cs).head?, isDigit c = false := by
    rintro cs c ⟨⟩
    simp [isDigit_eq]
  have quiet : ∀ c ∈ rest.head?, isDigit c = false := fun c hc => (stop c hc).1
  unfold spanMantissa
  cases text with
  | whole digits =>
    rw [spanDigits_append digits.2 quiet]
    split
    · rename_i after _ same
      obtain ⟨-, rfl⟩ := Prod.mk.inj same
      exact absurd rfl (stop '.' rfl).2
    · rename_i same
      obtain ⟨rfl, rfl⟩ := Prod.mk.inj same
      rfl
  | pointed digits more =>
    rw [List.append_assoc, List.cons_append, spanDigits_append digits.2 (point _)]
    exact congrArg (Prod.mk _) (spanDigits_append more quiet)
  | fraction digits =>
    have first : spanDigits ([] ++ '.' :: (fraction ++ rest)) = _ := spanDigits_append (by simp) (point _)
    rw [List.nil_append] at first
    rw [List.cons_append, first]
    exact congrArg (Prod.mk _) (spanDigits_append digits.2 quiet)

theorem exists_mantissa (h : spanMantissa cs = (whole, fraction, rest))
    (some : ¬ (whole = [] ∧ fraction = [])) :
    ∃ mantissa, MantissaText mantissa whole fraction ∧ cs = mantissa ++ rest := by
  unfold spanMantissa at h
  split at h
  · rename_i first after spanned
    obtain ⟨rfl, digits⟩ := spanDigits_eq spanned
    obtain ⟨rfl, spanned'⟩ := Prod.mk.inj h
    obtain ⟨rfl, more⟩ := spanDigits_eq spanned'
    by_cases none : first = []
    · subst none
      exact ⟨_, .fraction ⟨fun empty => some ⟨rfl, empty⟩, more⟩, by simp⟩
    · exact ⟨_, .pointed ⟨none, digits⟩ more, by simp⟩
  · rename_i first after _ spanned
    obtain ⟨rfl, digits⟩ := spanDigits_eq spanned
    obtain ⟨rfl, same⟩ := Prod.mk.inj h
    obtain ⟨rfl, rfl⟩ := Prod.mk.inj same
    exact ⟨_, .whole ⟨fun empty => some ⟨empty, rfl⟩, digits⟩, rfl⟩

/-- The text of a numeral, with the decimal that it stands for. -/
inductive NumeralText : List Char → Decimal → Prop where
  | mk {negative : Bool} {sign mantissa whole fraction tail : List Char} {e : Int}
      (signed : SignText negative sign) (digits : MantissaText mantissa whole fraction)
      (power : PowerText tail e) : NumeralText (sign ++ (mantissa ++ tail))
        ⟨negative, digitsValue (whole ++ fraction), e - fraction.length⟩

theorem PowerText.stop (h : PowerText tail e) : ∀ c ∈ tail.head?, isDigit c = false ∧ c ≠ '.' := by
  cases h with
  | none => simp
  | power marked =>
    rintro c ⟨⟩
    obtain rfl | rfl := marked <;> simp [isDigit_eq]

theorem MantissaText.unsigned (h : MantissaText mantissa whole fraction) (rest : List Char) :
    ∀ c ∈ (mantissa ++ rest).head?, c ≠ '-' ∧ c ≠ '+' := by
  cases h with
  | whole digits => exact fun c hc => ne_sign_of_isDigit (digits.head_isDigit rest c hc)
  | pointed digits =>
    rw [List.append_assoc]
    exact fun c hc => ne_sign_of_isDigit (digits.head_isDigit _ c hc)
  | fraction =>
    rintro c ⟨⟩
    decide

theorem MantissaText.some_digit (h : MantissaText mantissa whole fraction) :
    ¬ (whole = [] ∧ fraction = []) := by
  cases h with
  | whole digits | pointed digits => exact fun h => digits.1 h.1
  | fraction digits => exact fun h => digits.1 h.2

theorem readChars?_eq_some_iff {d : Decimal} : readChars? cs = some d ↔ NumeralText cs d := by
  unfold readChars?
  constructor
  · intro h
    obtain ⟨sign, signed, split⟩ := exists_sign cs
    obtain ⟨⟨negative, body⟩, read⟩ : ∃ p, readSign cs = p := ⟨_, rfl⟩
    obtain ⟨⟨whole, fraction, rest⟩, spanned⟩ : ∃ p, spanMantissa body = p := ⟨_, rfl⟩
    rw [read] at h signed split
    simp only [spanned, Option.ite_none_left_eq_some, Option.map_eq_some_iff] at h
    obtain ⟨some, e, power, rfl⟩ := h
    obtain ⟨mantissa, digits, rfl⟩ := exists_mantissa spanned some
    rw [split]
    exact .mk signed digits (readExponent?_eq_some_iff.1 power)
  · rintro ⟨signed, digits, power⟩
    rw [readSign_append signed (digits.unsigned _)]
    simp only [spanMantissa_append digits power.stop, digits.some_digit, if_false,
      readExponent?_eq_some_iff.2 power, Option.map_some]

/-- The text of a numeral, with the rational number that it denotes. -/
inductive Denotes : List Char → ℚ → Prop where
  | mk {negative : Bool} {sign mantissa whole fraction tail : List Char} {e : Int}
      (signed : SignText negative sign) (digits : MantissaText mantissa whole fraction)
      (power : PowerText tail e) : Denotes (sign ++ (mantissa ++ tail))
        ((if negative then -1 else 1) *
          (digitsValue whole + digitsValue fraction / 10 ^ fraction.length) * 10 ^ e)

def toRat (d : Decimal) : ℚ := (if d.negative then -1 else 1) * (d.digits * 10 ^ d.exponent)

theorem toRat_eq : toRat ⟨negative, digitsValue (whole ++ fraction), e - fraction.length⟩ =
    (if negative then -1 else 1) *
      (digitsValue whole + digitsValue fraction / 10 ^ fraction.length) * 10 ^ e := by
  have ten : (10 : ℚ) ≠ 0 := by norm_num
  rw [toRat, digitsValue_append, zpow_sub₀ ten, zpow_natCast]
  push_cast
  field_simp

theorem denotes_iff {q : ℚ} : Denotes cs q ↔ ∃ d, readChars? cs = some d ∧ d.toRat = q := by
  simp only [readChars?_eq_some_iff]
  constructor
  · rintro ⟨signed, digits, power⟩
    exact ⟨_, .mk signed digits power, toRat_eq⟩
  · rintro ⟨_, ⟨signed, digits, power⟩, rfl⟩
    rw [toRat_eq]
    exact .mk signed digits power

theorem isBlank_of_isMargin {c : Char} (h : isMargin c = true) : isBlank c = true := by
  simp only [isMargin, Bool.or_eq_true, beq_iff_eq, Bool.and_eq_true, decide_eq_true_eq] at h
  obtain (rfl | controls) | ⟨-, blank⟩ := h
  · decide
  · exact List.any_eq_true.2 ⟨(0x9, 0xD), by decide, by simpa using controls⟩
  · exact blank

theorem read?_of_blankless {text : String} (blankless : ∀ c ∈ text.toList, isBlank c = false) :
    read? text = readChars? text.toList := by
  have kept {cs : List Char} (h : ∀ c ∈ cs, isBlank c = false) : cs.dropWhile isMargin = cs := by
    cases cs with
    | nil => rfl
    | cons c cs =>
      have first : ¬ isMargin c = true := fun margin =>
        Bool.false_ne_true ((h c List.mem_cons_self).symm.trans (isBlank_of_isMargin margin))
      rw [List.dropWhile_cons_of_neg first]
  rw [read?, kept blankless, kept (by simpa using blankless), List.reverse_reverse]

end ChatCommands.Decimal

import Mathlib
import ChatCommands.Argument.Binding
import ChatCommands.Proofs.DigitTexts

set_option autoImplicit false

/-!
# The order of date patterns

No text fits two of the standard patterns. What stands between the numbers of a
text tells them apart: dashes, slashes, points and colons are never part of a
number, and a literal of a pattern that is one of them stands for itself alone.
So the patterns can be tried in any order.
-/
namespace ChatCommands

namespace Text

theorem smallForm_low {c : Char} (h : smallForm c < 0x61) : smallForm c = c.toNat := by
  have high : ∀ r ∈ smallRuns, 0x61 ≤ (r.first : Int) + r.distance := by decide +kernel
  unfold smallForm shifted? at *
  cases found : smallRuns.find? (·.contains c.toNat) with
  | none => rfl
  | some r =>
    have contains := List.find?_some found
    have far := high r (List.mem_of_find?_eq_some found)
    simp only [ShiftedRun.contains, Bool.and_eq_true, decide_eq_true_eq] at contains
    simp only [found, Option.map_some, Option.getD_some] at h
    omega

theorem eq_of_sameLetter {a c : Char} (low : c.toNat < 0x41) (h : sameLetter a c = true) : a = c := by
  -- neither the letters that become small nor those that count as the same come so early
  have letters : ∀ r ∈ smallRuns, 0x41 ≤ r.first := by decide +kernel
  have kindred : ∀ forms ∈ kindredForms, ∀ n ∈ forms, 0x61 ≤ n := by decide +kernel
  have own : smallForm c = c.toNat := by
    unfold smallForm shifted?
    have outside : smallRuns.find? (·.contains c.toNat) = none := by
      refine List.find?_eq_none.2 fun r hr => ?_
      have := letters r hr
      simp only [ShiftedRun.contains, Bool.and_eq_true, decide_eq_true_eq]
      omega
    rw [outside]
    rfl
  have same : smallForm a = smallForm c := by
    simp only [sameLetter, Bool.or_eq_true, beq_iff_eq, List.any_eq_true, Bool.and_eq_true,
      List.contains_iff_mem] at h
    obtain same | ⟨forms, listed, -, mem⟩ := h
    · exact same
    · have := kindred forms listed _ mem
      omega
  have alike := smallForm_low (c := a) (by omega)
  exact Char.toNat_inj.1 (by omega)

/-- The characters that stand between the numbers of a date. -/
def isMark (c : Char) : Bool := ['-', '/', '.', ':'].contains c

theorem isMark_low {c : Char} (h : isMark c = true) : c.toNat < 0x30 ∨ c.toNat = 0x3A := by
  simp only [isMark, List.contains_iff_mem, List.mem_cons, List.not_mem_nil, or_false] at h
  obtain rfl | rfl | rfl | rfl := h <;> decide

theorem sameLetter_comm (a c : Char) : sameLetter a c = sameLetter c a := by
  unfold sameLetter
  congr 1
  · exact BEq.comm
  · exact congrArg kindredForms.any (funext fun _ => Bool.and_comm ..)

theorem eq_of_sameLetter_of_isMark {a c : Char} (h : sameLetter a c = true)
    (either : isMark a = true ∨ isMark c = true) : a = c := by
  rcases either with mark | mark
  · have := isMark_low mark
    exact (eq_of_sameLetter (by omega) (by rwa [sameLetter_comm])).symm
  · have := isMark_low mark
    exact eq_of_sameLetter (by omega) h

end Text

namespace DateField
open Text
variable {s : Shape} {ss : List Shape} {c : Char} {cs rest : List Char} {v n : Nat} {f : DateField}

/-- Digits or a space, and nothing else. -/
def Shape.isNumeric : Shape → Bool
  | .anyDigit | .space => true
  | .range lo hi => '0' ≤ lo && hi ≤ '9'

/-- The field is written with digits, and spaces before them. -/
def isNumeric (f : DateField) : Bool :=
  match f.form with
  | .digits shapes => shapes.all (·.all Shape.isNumeric)
  | _ => false

/-- Of the characters of ASCII, only digits and the space fit. -/
theorem Shape.digit_or_space_of_fits (numeric : s.isNumeric = true) (fits : s.fits c = true)
    (ascii : c.toNat < 0x80) : c.isDigit = true ∨ c = ' ' := by
  cases s with
  | anyDigit => exact .inl ((isDigit_eq (by omega)).symm.trans fits)
  | range lo hi =>
    simp only [Shape.isNumeric, Shape.fits, Bool.and_eq_true, decide_eq_true_eq, Char.le_def,
      UInt32.le_iff_toNat_le] at numeric fits
    have first : '0'.val.toNat = 0x30 := rfl
    have last : '9'.val.toNat = 0x39 := rfl
    have point : c.toNat = c.val.toNat := rfl
    exact .inl (isDigit_ascii_iff.2 (by omega))
  | space => exact .inr (by simpa [Shape.fits] using fits)

theorem Shape.isMark_of_fits (numeric : s.isNumeric = true) (fits : s.fits c = true) : isMark c = false := by
  by_contra mark
  have low := isMark_low (by simpa using mark)
  obtain digit | rfl := Shape.digit_or_space_of_fits numeric fits (by omega)
  · have := isDigit_ascii_iff.1 digit
    omega
  · exact mark (by decide)

theorem readShapes_eq_some (h : readShapes v ss cs = some (n, rest)) : ∃ ds, cs = ds ++ rest ∧
    List.Forall₂ (fun s c => Shape.fits s c = true) ss ds ∧
      n = ds.foldl (fun n c => 10 * n + digitValue c) v := by
  induction ss generalizing v cs with
  | nil =>
    cases h
    exact ⟨[], rfl, .nil, rfl⟩
  | cons s ss ih =>
    cases cs with
    | nil => cases h
    | cons c cs =>
      simp only [readShapes, Option.ite_none_right_eq_some] at h
      obtain ⟨fits, h⟩ := h
      obtain ⟨ds, rfl, all, rfl⟩ := ih h
      exact ⟨c :: ds, rfl, .cons fits all, rfl⟩

theorem mem_readings {shapes : List (List Shape)} {r : FieldReading} (form : f.form = .digits shapes) :
    (r, rest) ∈ f.readings cs ↔ ∃ ss ∈ shapes, ∃ n, readShapes 0 ss cs = some (n, rest) ∧ r = .number n := by
  simp only [readings, form, Form.readings, List.mem_filterMap, Option.map_eq_some_iff, Prod.exists,
    Prod.mk.injEq]
  grind

theorem exists_shapes (numeric : f.isNumeric = true) : ∃ shapes, f.form = .digits shapes ∧
    ∀ ss ∈ shapes, ∀ s ∈ ss, Shape.isNumeric s = true := by
  unfold isNumeric at numeric
  split at numeric
  · rename_i shapes form
    exact ⟨shapes, form, by simpa using numeric⟩
  · cases numeric

theorem Shape.forall_mem_of_forall₂ {P : Char → Prop} {ds : List Char}
    (implies : ∀ s ∈ ss, ∀ c, Shape.fits s c = true → P c)
    (fits : List.Forall₂ (fun s c => Shape.fits s c = true) ss ds) : ∀ c ∈ ds, P c := by
  induction fits with
  | nil => simp
  | cons fit _ ih =>
    obtain ⟨first, others⟩ := List.forall_mem_cons.1 implies
    exact List.forall_mem_cons.2 ⟨first _ fit, ih others⟩

theorem unmarked_of_mem_readings {r : FieldReading} (numeric : f.isNumeric = true) (h : (r, rest) ∈ f.readings cs) :
    cs.filter isMark = rest.filter isMark := by
  obtain ⟨shapes, form, all⟩ := exists_shapes numeric
  obtain ⟨ss, mem, n, read, -⟩ := (mem_readings form).1 h
  obtain ⟨ds, rfl, fits, -⟩ := readShapes_eq_some read
  have unmarked : ∀ c ∈ ds, ¬ isMark c = true := Shape.forall_mem_of_forall₂ (fun s hs c fit =>
    Bool.eq_false_iff.1 (Shape.isMark_of_fits (all ss mem s hs) fit)) fits
  rw [List.filter_append, List.filter_eq_nil_iff.2 unmarked, List.nil_append]

end DateField

namespace DatePattern
open Text
variable {p q : DatePattern} {d d' : DateParts} {cs rest : List Char} {token : String}

/-- The marks among the literals of a pattern. -/
def marks (p : DatePattern) : List Char :=
  p.filterMap fun
    | .literal c => if isMark c then some c else none
    | _ => none

/-- The fields of the pattern are written with digits, and there is no room for blanks. -/
def isNumeric (p : DatePattern) : Bool :=
  p.all fun
    | .literal _ => true
    | .blanks => false
    | .field f => f.isNumeric

theorem filter_isMark_of_scan? (numeric : p.isNumeric = true) (h : scan? d p cs = some (d', rest)) :
    cs.filter isMark = p.marks ++ rest.filter isMark := by
  induction p generalizing d cs with
  | nil =>
    cases h
    rfl
  | cons piece p ih =>
    obtain ⟨first, others⟩ := Bool.and_eq_true_iff.1 (List.all_cons.symm.trans numeric)
    cases piece with
    | literal a =>
      cases cs with
      | nil => cases h
      | cons c cs =>
        simp only [scan?, Option.ite_none_right_eq_some] at h
        obtain ⟨same, h⟩ := h
        have tail := ih others h
        -- a mark fits a literal only if it is the same mark
        by_cases mark : isMark a = true ∨ isMark c = true
        · obtain rfl := eq_of_sameLetter_of_isMark same mark
          have marked : isMark a = true := or_self_iff.1 mark
          simp [marks, marked, tail]
        · obtain ⟨first, second⟩ := not_or.1 mark
          simp [marks, first, second, tail]
    | blanks => cases first
    | field f =>
      simp only [scan?] at h
      obtain ⟨⟨r, after⟩, mem, h⟩ := List.exists_of_findSome?_eq_some h
      rw [DateField.unmarked_of_mem_readings first mem, ih others h]
      rfl

theorem filter_isMark_of_read? {date : DateTime} (numeric : p.isNumeric = true) (h : read? p token = some date) :
    token.toList.filter isMark = p.marks := by
  unfold read? at h
  split at h
  · rename_i d scanned
    simpa using filter_isMark_of_scan? numeric scanned
  · cases h

theorem isNumeric_of_mem_standard (h : p ∈ standard) : p.isNumeric = true := by
  have all : ∀ p ∈ standard, p.isNumeric = true := by decide +kernel
  exact all p h

theorem marks_injective (hp : p ∈ standard) (hq : q ∈ standard) (same : p.marks = q.marks) : p = q := by
  have all : ∀ p ∈ standard, ∀ q ∈ standard, p.marks = q.marks → p = q := by decide +kernel
  exact all p hp q hq same

/-- No text is read with two of the standard patterns. -/
theorem eq_of_read? (hp : p ∈ standard) (hq : q ∈ standard) (h : (read? p token).isSome)
    (h' : (read? q token).isSome) : p = q := by
  obtain ⟨date, h⟩ := Option.isSome_iff_exists.1 h
  obtain ⟨date', h'⟩ := Option.isSome_iff_exists.1 h'
  refine marks_injective hp hq ?_
  exact (filter_isMark_of_read? (isNumeric_of_mem_standard hp) h).symm.trans
    (filter_isMark_of_read? (isNumeric_of_mem_standard hq) h')

/-- Whichever order the standard patterns are in, the one that fits decides. -/
theorem readFirst?_eq_some_iff {ps : List DatePattern} (perm : ps.Perm standard) {date : DateTime} :
    readFirst? ps token = some date ↔ ∃ p ∈ standard, read? p token = some date := by
  constructor
  · intro h
    obtain ⟨p, mem, read⟩ := List.exists_of_findSome?_eq_some h
    exact ⟨p, perm.mem_iff.1 mem, read⟩
  · rintro ⟨p, mem, read⟩
    have found : (readFirst? ps token).isSome :=
      List.findSome?_isSome_iff.2 ⟨p, perm.mem_iff.2 mem, by simp [read]⟩
    obtain ⟨date', first⟩ := Option.isSome_iff_exists.1 found
    obtain ⟨q, mem', read'⟩ := List.exists_of_findSome?_eq_some first
    obtain rfl := eq_of_read? mem (perm.mem_iff.1 mem') (Option.isSome_of_eq_some read)
      (Option.isSome_of_eq_some read')
    rw [first, ← read', read]

theorem readFirst?_perm {ps : List DatePattern} (perm : ps.Perm standard) (token : String) :
    readFirst? ps token = readFirst? standard token := by
  refine Option.ext fun date => ?_
  rw [readFirst?_eq_some_iff perm, readFirst?_eq_some_iff (.refl _)]

end DatePattern

namespace Argument
variable {ps : List DatePattern}

/-- No standard pattern has a field twice, so that a token is a date or is none. -/
theorem readDate_of_perm (perm : ps.Perm DatePattern.standard) (token : String) : readDate ps token =
    (DatePattern.readFirst? ps token).elim (.error (.unreadable token .date)) .ok := by
  have standard : ∀ p ∈ DatePattern.standard, p.repetition?.isNone = true := by decide
  have sound : ∀ p ∈ ps, p.repetition?.isNone = true := fun p hp => standard p (perm.mem_iff.1 hp)
  have split : ps.span (·.repetition?.isNone) = (ps, []) := by
    rw [List.span_eq_takeWhile_dropWhile, List.takeWhile_eq_self_iff.2 sound, List.dropWhile_eq_nil_iff.2 sound]
  rw [readDate, split]
  dsimp only [List.head?_nil, Option.bind_none]
  cases DatePattern.readFirst? ps token <;> simp

theorem readDate_perm (perm : ps.Perm DatePattern.standard) (token : String) :
    readDate ps token = readDate DatePattern.standard token := by
  rw [readDate_of_perm perm, readDate_of_perm (.refl _), DatePattern.readFirst?_perm perm]

end Argument
end ChatCommands

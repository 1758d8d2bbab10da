import Mathlib
import ChatCommands.Proofs.DateOrder

set_option autoImplicit false

/-!
# How dates are written

A date and time is written in a pattern with a number for each field: the year
with four digits, and every other number with two digits or without the zero
before it. A text of ASCII without blanks is read as a date exactly if it is that
date written in one of the standard patterns, and the parts for which the pattern
has no field are zero.
-/
namespace ChatCommands
open Text

namespace DateTime

/-- The number that is written for a field. -/
def part (date : DateTime) : DateField → Nat
  | .year => date.year
  | .month => date.month
  | .day => date.day
  | .hour => date.hour
  | .minute => date.minute
  | .second => date.second
  | _ => 0

section padded
variable {width n : Nat}

theorem toList_padded : (padded width n).toList =
    List.replicate (width - (Nat.toDigits 10 n).length) '0' ++ Nat.toDigits 10 n := by
  simp [padded]

theorem isDigit_of_mem_padded {c : Char} (h : c ∈ (padded width n).toList) : c.isDigit = true := by
  rw [toList_padded, List.mem_append] at h
  obtain h | h := h
  · rw [List.eq_of_mem_replicate h]
    decide
  · exact isDigit_of_mem_toDigits h

theorem length_padded (positive : 0 < width) (h : n < 10 ^ width) :
    (padded width n).toList.length = width := by
  have short := (Nat.length_toDigits_le_iff (by decide) positive).2 h
  rw [toList_padded, List.length_append, List.length_replicate]
  omega

theorem toList_padded_one : (padded 1 n).toList = Nat.toDigits 10 n := by
  have positive : 0 < (Nat.toDigits 10 n).length := Nat.length_toDigits_pos
  have none : 1 - (Nat.toDigits 10 n).length = 0 := by omega
  rw [toList_padded, none, List.replicate_zero, List.nil_append]

theorem digitsValue_padded : digitsValue (padded width n).toList = n := by
  have leading (count : Nat) (ds : List Char) :
      digitsValue (List.replicate count '0' ++ ds) = digitsValue ds := by
    induction count with
    | zero => rfl
    | succ count ih => exact ih
  rw [toList_padded, leading, digitsValue_toDigits]

end padded

end DateTime

namespace DateField
variable {f : DateField} {ds cs rest : List Char} {n v : Nat} {ss : List Shape} {r : FieldReading}

def isStandard (f : DateField) : Bool := [.year, .month, .day, .hour, .minute, .second].contains f

/-- The numbers that can be read for a field. -/
def inRange (n : Nat) : DateField → Bool
  | .year => n < 10000
  | .month => 1 ≤ n && n ≤ 12
  | .day => 1 ≤ n && n ≤ 31
  | .hour => n < 24
  | .minute | .second => n < 60
  | _ => false

/-- The ways to write a number for a field. -/
def spellings (n : Nat) : DateField → List (List Char)
  | .year => [(DateTime.padded 4 n).toList]
  | _ => [(DateTime.padded 2 n).toList, Nat.toDigits 10 n]

theorem readShapes_append (quiet : ∀ s ∈ ss, ∀ c ∈ rest.head?, Shape.fits s c = false) :
    readShapes v ss (ds ++ rest) = (readShapes v ss ds).map fun r => (r.1, r.2 ++ rest) := by
  induction ss generalizing v ds with
  | nil => rfl
  | cons s ss ih =>
    obtain ⟨first, others⟩ := List.forall_mem_cons.1 quiet
    cases ds with
    | nil =>
      cases rest with
      | nil => rfl
      | cons c rest => simp [readShapes, first c rfl]
    | cons d ds =>
      simp only [List.cons_append, readShapes]
      split
      · exact ih others
      · rfl

theorem readings_append (numeric : f.isNumeric = true)
    (quiet : ∀ c ∈ rest.head?, c.toNat < 0x80 ∧ c.isDigit = false ∧ c ≠ ' ') :
    f.readings (ds ++ rest) = (f.readings ds).map fun r => (r.1, r.2 ++ rest) := by
  obtain ⟨shapes, form, all⟩ := exists_shapes numeric
  have unfit : ∀ ss ∈ shapes, ∀ s ∈ ss, ∀ c ∈ rest.head?, Shape.fits s c = false := by
    intro ss hss s hs c hc
    obtain ⟨ascii, digit, space⟩ := quiet c hc
    by_contra fits
    have := Shape.digit_or_space_of_fits (all ss hss s hs) (by simpa using fits) ascii
    simp [digit, space] at this
  simp only [readings, form, Form.readings, List.map_filterMap, Option.map_map]
  refine List.filterMap_congr fun ss hss => ?_
  rw [readShapes_append (unfit ss hss), Option.map_map]
  rfl

theorem isNumeric_of_isStandard (standard : f.isStandard = true) : f.isNumeric = true := by
  cases f <;> first | rfl | cases standard

theorem readShapes_anyDigit (digits : ∀ c ∈ ds, isDigit c = true) :
    readShapes v (List.replicate ds.length .anyDigit) ds =
      some (ds.foldl (fun n c => 10 * n + digitValue c) v, []) := by
  induction ds generalizing v with
  | nil => rfl
  | cons c ds ih =>
    obtain ⟨first, others⟩ := List.forall_mem_cons.1 digits
    simp [List.replicate_succ, readShapes, Shape.fits, first, ih others]

theorem readings_padded_year (short : n < 10000) :
    readings .year (DateTime.padded 4 n).toList = [(.number n, [])] := by
  have value : (DateTime.padded 4 n).toList.foldl (fun n c => 10 * n + digitValue c) 0 = n :=
    DateTime.digitsValue_padded
  have read : readShapes 0 [.anyDigit, .anyDigit, .anyDigit, .anyDigit] (DateTime.padded 4 n).toList =
      some (n, []) := by
    have digits : ∀ c ∈ (DateTime.padded 4 n).toList, isDigit c = true := fun c hc =>
      isDigit_of_ascii (DateTime.isDigit_of_mem_padded hc)
    have all := readShapes_anyDigit (v := 0) digits
    rwa [DateTime.length_padded (by decide) short, value] at all
  simp only [readings, form, yearForm, Form.readings, List.filterMap_cons, List.filterMap_nil, read,
    Option.map_some]

theorem lt_of_inRange (inside : f.inRange n = true) (other : f ≠ .year) : n < 60 := by
  cases f with
  | year => exact absurd rfl other
  | month | day =>
    simp only [inRange, Bool.and_eq_true, decide_eq_true_eq] at inside
    omega
  | hour | minute | second =>
    simp only [inRange, decide_eq_true_eq] at inside
    omega
  | _ => cases inside

-- the years are too many to be tried, all other numbers are not
theorem head?_readings_short : ∀ f ∈ [month, day, hour, minute, second], ∀ n < 60, f.inRange n = true →
    ∀ ds ∈ f.spellings n, (f.readings ds).head? = some (.number n, []) := by decide +kernel

theorem head?_readings (standard : f.isStandard = true) (inside : f.inRange n = true)
    (spelled : ds ∈ f.spellings n) : (f.readings ds).head? = some (.number n, []) := by
  by_cases year : f = .year
  · subst year
    obtain rfl : ds = (DateTime.padded 4 n).toList := by simpa [spellings] using spelled
    rw [readings_padded_year (by simpa [inRange] using inside), List.head?_cons]
  · have other : f ∈ [month, day, hour, minute, second] := by
      have listed : f ∈ [.year, month, day, hour, minute, second] := by simpa [isStandard] using standard
      exact (List.mem_cons.1 listed).resolve_left year
    exact head?_readings_short f other n (lt_of_inRange inside year) inside ds spelled

theorem spellings_of_ne_year (other : f ≠ .year) :
    f.spellings n = [(DateTime.padded 2 n).toList, Nat.toDigits 10 n] := by
  unfold spellings
  split
  · exact absurd rfl other
  · rfl

theorem length_shapes {shapes : List (List Shape)} (standard : f.isStandard = true)
    (form : f.form = .digits shapes) (mem : ss ∈ shapes) :
    (f = .year ∧ ss.length = 4) ∨ (f ≠ .year ∧ (ss.length = 1 ∨ ss.length = 2)) := by
  cases f with
  | year | month | day | hour | minute | second =>
    obtain rfl := Form.digits.inj form
    revert ss
    decide
  | _ => cases standard

theorem padded_digitsValue (digits : ∀ c ∈ ds, c.isDigit = true) (positive : 0 < ds.length) :
    (DateTime.padded ds.length (digitsValue ds)).toList = ds :=
  eq_of_digitsValue_eq (fun _ => DateTime.isDigit_of_mem_padded) digits
    (DateTime.length_padded positive (digitsValue_lt ds)) DateTime.digitsValue_padded

theorem spelled_of_mem_readings (standard : f.isStandard = true)
    (plain : ∀ c ∈ cs, c.toNat < 0x80 ∧ isBlank c = false) (h : (r, rest) ∈ f.readings cs) :
    ∃ n ds, cs = ds ++ rest ∧ r = .number n ∧ ds ∈ f.spellings n := by
  obtain ⟨shapes, form, numeric⟩ := exists_shapes (isNumeric_of_isStandard standard)
  obtain ⟨ss, mem, n, read, rfl⟩ := (mem_readings form).1 h
  obtain ⟨ds, rfl, fits, value⟩ := readShapes_eq_some read
  obtain rfl : n = digitsValue ds := value
  have digits : ∀ c ∈ ds, c.isDigit = true := by
    have digit_or_space : ∀ c ∈ ds, c.toNat < 0x80 → c.isDigit = true ∨ c = ' ' :=
      Shape.forall_mem_of_forall₂ (fun s hs c fit =>
        Shape.digit_or_space_of_fits (numeric ss mem s hs) fit) fits
    intro c hc
    obtain ⟨ascii, blankless⟩ := plain c (List.mem_append_left rest hc)
    obtain digit | rfl := digit_or_space c hc ascii
    · exact digit
    · exact absurd blankless (by decide)
  refine ⟨_, ds, rfl, rfl, ?_⟩
  have lengths := length_shapes standard form mem
  rw [fits.length_eq] at lengths
  -- so many digits spell a number in one way only
  have padded := padded_digitsValue digits (by omega)
  obtain ⟨rfl, four⟩ | ⟨other, one | two⟩ := lengths
  · rw [four] at padded
    simp [spellings, padded]
  · rw [one, DateTime.toList_padded_one] at padded
    simp [spellings_of_ne_year other, padded]
  · rw [two] at padded
    simp [spellings_of_ne_year other, padded]

end DateField
namespace DatePattern
variable {v v' : DateField → Nat} {p : DatePattern} {d d' : DateParts} {cs rest : List Char} {a c : Char}

/-- The text is written in the pattern with the numbers `v`. A letter of the pattern may be small. -/
inductive Renders (v : DateField → Nat) : DatePattern → List Char → Prop where
  | nil : Renders v [] []
  | literal {a c : Char} {p : DatePattern} {cs : List Char} (alike : c = a ∨ c = a.toLower)
      (rest : Renders v p cs) : Renders v (.literal a :: p) (c :: cs)
  | field {f : DateField} {ds : List Char} {p : DatePattern} {cs : List Char}
      (spelled : ds ∈ f.spellings (v f)) (rest : Renders v p cs) : Renders v (.field f :: p) (ds ++ cs)

def setFields (v : DateField → Nat) (d : DateParts) : DatePattern → DateParts
  | [] => d
  | .field f :: p => setFields v (f.assign d (.number (v f))) p
  | _ :: p => setFields v d p

theorem Renders.congr (same : ∀ f, .field f ∈ p → v f = v' f) (h : Renders v p cs) : Renders v' p cs := by
  induction h with
  | nil => exact .nil
  | literal alike _ ih => exact .literal alike (ih fun f hf => same f (List.mem_cons_of_mem _ hf))
  | field spelled _ ih =>
    rw [same _ List.mem_cons_self] at spelled
    exact .field spelled (ih fun f hf => same f (List.mem_cons_of_mem _ hf))

theorem setFields_congr (same : ∀ f, .field f ∈ p → v f = v' f) : setFields v d p = setFields v' d p := by
  induction p generalizing d with
  | nil => rfl
  | cons piece p ih =>
    have tail := fun d => ih (d := d) fun f hf => same f (List.mem_cons_of_mem _ hf)
    cases piece with
    | field f => rw [setFields, setFields, same f List.mem_cons_self, tail]
    | literal a => exact tail d
    | blanks => exact tail d

def separators : List Char := ['-', '/', '.', ':', 'T']

theorem separator_read (ha : a ∈ separators) (alike : c = a ∨ c = a.toLower) :
    sameLetter a c = true ∧ c.toNat < 0x80 ∧ c.isDigit = false ∧ c ≠ ' ' := by
  simp only [separators, List.mem_cons, List.not_mem_nil, or_false] at ha
  obtain rfl | rfl | rfl | rfl | rfl := ha <;> obtain rfl | rfl := alike <;> decide +kernel

theorem separator_of_sameLetter (ha : a ∈ separators) (ascii : c.toNat < 0x80) (h : sameLetter a c = true) :
    c = a ∨ c = a.toLower := by
  by_cases mark : isMark a = true
  · exact .inl (eq_of_sameLetter_of_isMark h (.inl mark)).symm
  · have letter : a = 'T' := by
      simp only [separators, List.mem_cons, List.not_mem_nil, or_false] at ha
      obtain rfl | rfl | rfl | rfl | rfl := ha <;> first | rfl | exact absurd rfl mark
    subst letter
    have all : ∀ n < 0x80, sameLetter 'T' (Char.ofNat n) = true → Char.ofNat n = 'T' ∨ Char.ofNat n = 't' := by
      decide +kernel
    simpa using all c.toNat ascii (by simpa using h)

/-- Fields and literals come in turn, fields come first and last, and none comes again. -/
inductive Alternates : DatePattern → Prop where
  | last {f : DateField} (standard : f.isStandard = true) : Alternates [.field f]
  | next {f : DateField} {a : Char} {p : DatePattern} (standard : f.isStandard = true)
      (separator : a ∈ separators) (fresh : .field f ∉ p) (rest : Alternates p) :
      Alternates (.field f :: .literal a :: p)

theorem scan?_field {f : DateField} {ds after : List Char} {r : DateParts × List Char}
    (standard : f.isStandard = true) (inside : f.inRange (v f) = true) (spelled : ds ∈ f.spellings (v f))
    (quiet : ∀ c ∈ after.head?, c.toNat < 0x80 ∧ c.isDigit = false ∧ c ≠ ' ')
    (rest : scan? (f.assign d (.number (v f))) p after = some r) :
    scan? d (.field f :: p) (ds ++ after) = some r := by
  have first := DateField.head?_readings standard inside spelled
  rw [scan?, DateField.readings_append (DateField.isNumeric_of_isStandard standard) quiet]
  -- other readings of the field are tried only if nothing follows from the first one
  cases readings : f.readings ds with
  | nil => simp [readings] at first
  | cons reading others =>
    obtain rfl : reading = (.number (v f), []) := by simpa [readings] using first
    simp [rest]

theorem scan?_of_renders (turns : Alternates p) (inside : ∀ f, .field f ∈ p → f.inRange (v f) = true)
    (h : Renders v p cs) : scan? d p cs = some (setFields v d p, []) := by
  induction turns generalizing d cs with
  | last standard =>
    cases h with
    | field spelled rest =>
      cases rest
      exact scan?_field standard (inside _ List.mem_cons_self) spelled (by simp) rfl
  | next standard separator _ _ ih =>
    cases h with
    | field spelled rest =>
      cases rest with
      | literal alike rest =>
        obtain ⟨same, quiet⟩ := separator_read separator alike
        refine scan?_field standard (inside _ List.mem_cons_self) spelled (by simpa using quiet) ?_
        rw [scan?, if_pos same]
        exact ih (fun g hg => inside g (by simp [hg])) rest

theorem renders_of_scan? (turns : Alternates p)
    (plain : ∀ c ∈ cs, c.toNat < 0x80 ∧ isBlank c = false) (h : scan? d p cs = some (d', rest)) :
    ∃ v w, cs = w ++ rest ∧ Renders v p w ∧ d' = setFields v d p := by
  induction turns generalizing d cs with
  | @last f standard =>
    rw [scan?] at h
    obtain ⟨⟨r, after⟩, mem, h⟩ := List.exists_of_findSome?_eq_some h
    obtain ⟨n, ds, rfl, rfl, spelled⟩ := DateField.spelled_of_mem_readings standard plain mem
    obtain ⟨rfl, rfl⟩ := Prod.mk.inj (Option.some.inj h)
    have written : Renders (fun _ => n) [.field f] (ds ++ []) := .field spelled .nil
    rw [List.append_nil] at written
    exact ⟨fun _ => n, ds, rfl, written, rfl⟩
  | @next f a p standard separator fresh _ ih =>
    rw [scan?] at h
    obtain ⟨⟨r, after⟩, mem, h⟩ := List.exists_of_findSome?_eq_some h
    obtain ⟨n, ds, rfl, rfl, spelled⟩ := DateField.spelled_of_mem_readings standard plain mem
    cases after with
    | nil => cases h
    | cons c after =>
      simp only [scan?, Option.ite_none_right_eq_some] at h
      obtain ⟨same, h⟩ := h
      have others : ∀ c ∈ after, c.toNat < 0x80 ∧ isBlank c = false := fun c hc => plain c (by simp [hc])
      have alike := separator_of_sameLetter separator (plain c (by simp)).1 same
      obtain ⟨v, w, rfl, written, rfl⟩ := ih others h
      -- the field does not come again, so that its number can be put in
      have kept : ∀ g, .field g ∈ p → v g = Function.update v f n g := by
        intro g hg
        have other : g ≠ f := fun same => fresh (same ▸ hg)
        rw [Function.update_of_ne other]
      refine ⟨Function.update v f n, ds ++ c :: w, by simp, ?_, ?_⟩
      · exact .field (by simpa using spelled) (.literal alike (written.congr kept))
      · simp only [setFields, Function.update_self, setFields_congr kept]

theorem alternates_of_mem_standard (hp : p ∈ standard) : Alternates p := by
  simp only [standard, List.mem_cons, List.not_mem_nil, or_false] at hp
  obtain rfl | rfl | rfl | rfl | rfl := hp <;>
    repeat first | exact .last rfl | refine .next rfl (by decide) (by decide) ?_

/-- What the pattern has no field for is zero. -/
def Carries (p : DatePattern) (date : DateTime) : Prop :=
  (∀ f ∈ [DateField.hour, .minute, .second], .field f ∉ p → date.part f = 0) ∧
    date.microsecond = 0 ∧ date.offset = none

/-- The date with the numbers of the fields of a pattern. -/
def dateOf (v : DateField → Nat) (p : DatePattern) : DateTime where
  year := v .year
  month := v .month
  day := v .day
  hour := if .field .hour ∈ p then v .hour else 0
  minute := if .field .minute ∈ p then v .minute else 0
  second := if .field .second ∈ p then v .second else 0

theorem dateTime?_setFields (hp : p ∈ standard) : (setFields v {} p).dateTime? =
    if (dateOf v p).Exists then some (dateOf v p) else none := by
  simp only [standard, List.mem_cons, List.not_mem_nil, or_false] at hp
  obtain rfl | rfl | rfl | rfl | rfl := hp <;> rfl

theorem inRange_part {date : DateTime} (exist : date.Exists) {f : DateField} (standard : f.isStandard = true) :
    f.inRange (date.part f) = true := by
  obtain ⟨-, year, month₁, month₂, day₁, day₂, hour, minute, second, -⟩ := exist
  have days : DateTime.daysIn date.year date.month ≤ 31 := by
    unfold DateTime.daysIn
    split_ifs <;> decide
  cases f with
  | year | month | day | hour | minute | second =>
    simp only [DateField.inRange, Bool.and_eq_true, decide_eq_true_eq]
    simp only [DateTime.part]
    omega
  | _ => cases standard

theorem isStandard_of_mem {f : DateField} (turns : Alternates p) (hf : .field f ∈ p) : f.isStandard = true := by
  induction turns with
  | last standard =>
    obtain rfl : f = _ := by simpa using hf
    exact standard
  | next standard _ _ _ ih =>
    rw [List.mem_cons, List.mem_cons, DatePiece.field.injEq] at hf
    obtain rfl | ⟨⟨⟩⟩ | hf := hf
    · exact standard
    · exact ih hf

theorem dateOf_part {date : DateTime} (carried : Carries p date) : dateOf date.part p = date := by
  have filled {n : Nat} {f : DateField} (absent : DatePiece.field f ∉ p → n = 0) :
      (if DatePiece.field f ∈ p then n else 0) = n :=
    ite_eq_left_iff.2 fun missing => (absent missing).symm
  cases date with
  | mk year month day hour minute second microsecond offset =>
    obtain ⟨absent, rfl, rfl⟩ := carried
    simp only [List.forall_mem_cons, List.not_mem_nil, false_implies, implies_true, and_true] at absent
    obtain ⟨noHour, noMinute, noSecond⟩ := absent
    simp only [dateOf, DateTime.mk.injEq, and_true]
    exact ⟨rfl, rfl, rfl, filled noHour, filled noMinute, filled noSecond⟩

theorem part_dateOf (turns : Alternates p) {f : DateField} (hf : .field f ∈ p) : (dateOf v p).part f = v f := by
  have standard := isStandard_of_mem turns hf
  cases f with
  | year | month | day => rfl
  | hour | minute | second => exact if_pos hf
  | _ => cases standard

theorem carries_dateOf : Carries p (dateOf v p) := by
  refine ⟨?_, rfl, rfl⟩
  simp only [List.forall_mem_cons, List.not_mem_nil, false_implies, implies_true, and_true]
  exact ⟨fun absent => if_neg absent, fun absent => if_neg absent, fun absent => if_neg absent⟩

variable {token : String} {date : DateTime}

theorem read?_of_renders (hp : p ∈ standard) (exist : date.Exists) (carried : Carries p date)
    (h : Renders date.part p token.toList) : read? p token = some date := by
  have turns := alternates_of_mem_standard hp
  have scanned := scan?_of_renders (d := {}) turns
    (fun f hf => inRange_part exist (isStandard_of_mem turns hf)) h
  rw [read?, scanned]
  dsimp only
  rw [dateTime?_setFields hp, dateOf_part carried, if_pos exist]

theorem renders_of_read? (hp : p ∈ standard) (plain : ∀ c ∈ token.toList, c.toNat < 0x80 ∧ isBlank c = false)
    (h : read? p token = some date) : date.Exists ∧ Carries p date ∧ Renders date.part p token.toList := by
  have turns := alternates_of_mem_standard hp
  unfold read? at h
  split at h
  · rename_i d scanned
    obtain ⟨v, w, split, written, rfl⟩ := renders_of_scan? turns plain scanned
    rw [dateTime?_setFields hp, Option.ite_none_right_eq_some] at h
    obtain ⟨exist, ⟨⟩⟩ := h
    rw [split, List.append_nil]
    exact ⟨exist, carries_dateOf, written.congr fun f hf => (part_dateOf turns hf).symm⟩
  · cases h

/-- The text of a date in a pattern, with all leading zeros. -/
def written (date : DateTime) : DatePattern → List Char
  | [] => []
  | .literal a :: p => a :: written date p
  | .blanks :: p => written date p
  | .field f :: p => (DateTime.padded (if f = .year then 4 else 2) (date.part f)).toList ++ written date p

theorem padded_mem_spellings (f : DateField) (n : Nat) :
    (DateTime.padded (if f = .year then 4 else 2) n).toList ∈ f.spellings n := by
  split
  case isTrue year => simp [year, DateField.spellings]
  case isFalse other => simp [DateField.spellings_of_ne_year other]

theorem Alternates.renders_written (turns : Alternates p) : Renders date.part p (written date p) := by
  induction turns with
  | last => exact .field (padded_mem_spellings _ _) .nil
  | next _ _ _ _ ih => exact .field (padded_mem_spellings _ _) (.literal (.inl rfl) ih)

end DatePattern

namespace Argument
variable {σ : Type} (host : Host σ) (message : Option Message) (slot : Slot)

theorem run_date_iff {ps : List DatePattern} {token : String} {date : DateTime} :
    (ArgumentParser.date true ps).run host message slot token = .done (.ok (.date date)) ↔
      readDate ps token = .ok date := by
  rw [ArgumentParser.run]
  cases readDate ps token <;> simp

/-- No token is read with two of the standard patterns, so that their order makes no difference. A token of
ASCII without blanks is a date exactly if it is that date written in one of them, and every date is read
back from how it is written in a pattern that carries it. -/
theorem dates_exact (token : String) :
    (∀ p ∈ DatePattern.standard, ∀ q ∈ DatePattern.standard, (DatePattern.read? p token).isSome →
      (DatePattern.read? q token).isSome → p = q) ∧
    (∀ ps : List DatePattern, ps.Perm DatePattern.standard → ∀ strict,
      (ArgumentParser.date strict ps).run host message slot token =
        (ArgumentParser.date strict DatePattern.standard).run host message slot token) ∧
    ((∀ c ∈ token.toList, c.toNat < 0x80 ∧ isBlank c = false) → ∀ date,
      (ArgumentParser.date true DatePattern.standard).run host message slot token =
          .done (.ok (.date date)) ↔
        ∃ p ∈ DatePattern.standard, date.Exists ∧ DatePattern.Carries p date ∧
          DatePattern.Renders date.part p token.toList) ∧
    ∀ p ∈ DatePattern.standard, ∀ date : DateTime, date.Exists → DatePattern.Carries p date →
      (ArgumentParser.date true DatePattern.standard).run host message slot
        (String.ofList (DatePattern.written date p)) = .done (.ok (.date date)) := by
  have read (token : String) (date : DateTime) :
      (ArgumentParser.date true DatePattern.standard).run host message slot token =
        .done (.ok (.date date)) ↔ ∃ p ∈ DatePattern.standard, DatePattern.read? p token = some date := by
    rw [run_date_iff, readDate_of_perm (.refl _), ← DatePattern.readFirst?_eq_some_iff (.refl _)]
    cases DatePattern.readFirst? DatePattern.standard token <;> simp
  refine ⟨fun p hp q hq => DatePattern.eq_of_read? hp hq, fun ps perm strict => ?_, fun plain date => ?_,
    fun p hp date exist carried => ?_⟩
  · rw [ArgumentParser.run, ArgumentParser.run, readDate_perm perm]
  · rw [read]
    constructor
    · rintro ⟨p, hp, h⟩
      exact ⟨p, hp, DatePattern.renders_of_read? hp plain h⟩
    · rintro ⟨p, hp, exist, carried, h⟩
      exact ⟨p, hp, DatePattern.read?_of_renders hp exist carried h⟩
  · have written : DatePattern.Renders date.part p (DatePattern.written date p) :=
      (DatePattern.alternates_of_mem_standard hp).renders_written
    exact (read _ date).2 ⟨p, hp, DatePattern.read?_of_renders hp exist carried (by simpa using written)⟩

def leapMorning : DateTime := { year := 2024, month := 2, day := 29, hour := 7, minute := 5 }

/-- Without some of the zeros and with a small letter it is still read, and whatever the order of the
patterns it is read back from how it is written with seconds. -/
theorem leapMorning_read :
    (∃ p ∈ DatePattern.standard, leapMorning.Exists ∧ DatePattern.Carries p leapMorning ∧
      DatePattern.Renders leapMorning.part p "2024-2-29t07:5".toList) ∧
    (ArgumentParser.date true DatePattern.standard.reverse).run (Host.silent : Host Unit) none default
      "2024-02-29T07:05:00" = .done (.ok (.date leapMorning)) := by
  obtain ⟨-, -, exact, -⟩ := dates_exact (Host.silent : Host Unit) none default "2024-2-29t07:5"
  have plain : ("2024-2-29t07:5".toList.all fun c => decide (c.toNat < 0x80) && !isBlank c) = true := by
    decide +kernel
  have read : readDate DatePattern.standard "2024-2-29t07:5" = .ok leapMorning := by decide +kernel
  obtain ⟨-, ordered, -, written⟩ :=
    dates_exact (Host.silent : Host Unit) none default "2024-02-29T07:05:00"
  refine ⟨(exact (by simpa using plain) leapMorning).1 ((run_date_iff _ _ _).2 read), ?_⟩
  rw [ordered _ (List.reverse_perm _)]
  exact written DatePattern.dashedSeconds (by decide) leapMorning (by decide) ⟨by decide, rfl, rfl⟩

end Argument
end ChatCommands

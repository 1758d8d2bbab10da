import Mathlib
import ChatCommands.Proofs.DigitTexts
import ChatCommands.Proofs.ReachedSlots
import ChatCommands.Proofs.Routing

set_option autoImplicit false

/-!
# Which tokens are integers

A token is an integer if it is a sign and digits of any script, where the sign
may be missing and one line feed may follow. With more digits than the limit
allows it is refused in another way than a token of another form. The tokens of a
message are words, so that none of them comes with a line feed.
-/
namespace ChatCommands
open Text

namespace Argument
variable {cs ds : List Char} {negative : Bool} {token : String}

/-- A sign, digits and a line feed, of which only the digits have to be there. -/
def IntegerText (cs : List Char) (negative : Bool) (ds : List Char) : Prop :=
  IsDigits ds ∧ ∃ sign tail, Decimal.SignText negative sign ∧ LineFeed tail ∧ cs = sign ++ ds ++ tail

def signed (negative : Bool) (n : Nat) : Int := if negative then -n else n

theorem isNumber_iff : isNumber ds = true ↔ IsDigits ds := by
  simp [isNumber, IsDigits]

theorem integerText_iff : IntegerText cs negative ds ↔
    Decimal.readSign (chopLineFeed cs) = (negative, ds) ∧ IsDigits ds := by
  constructor
  · rintro ⟨digits, sign, tail, signed, feed, rfl⟩
    -- a line feed is no digit, so that only the one after the digits is taken off
    have last : (sign ++ ds).getLast? ≠ some '\n' := by
      intro h
      have := digits.getLast_isDigit sign '\n' h
      simp [isDigit_eq] at this
    exact ⟨by rw [chopLineFeed_append feed last, Decimal.readSign_append_digits signed digits], digits⟩
  · rintro ⟨read, digits⟩
    obtain ⟨tail, feed, chopped⟩ := exists_lineFeed cs
    obtain ⟨sign, signed, split⟩ := Decimal.exists_sign (chopLineFeed cs)
    rw [read] at signed split
    exact ⟨digits, sign, tail, signed, feed, by rw [← split, ← chopped]⟩

theorem readInteger_of_text (h : IntegerText token.toList negative ds) : readInteger token =
    if ds.length > Fault.digitLimit then .error (.tooManyDigits ds.length)
    else .ok (signed negative (digitsValue ds)) := by
  obtain ⟨read, digits⟩ := integerText_iff.1 h
  simp only [readInteger, read, isNumber_iff.2 digits, Bool.not_true, Bool.false_eq_true, if_false,
    signed]

theorem readInteger_of_no_text (h : ∀ negative ds, ¬ IntegerText token.toList negative ds) :
    readInteger token = .error (.unreadable token .integer) := by
  obtain ⟨⟨negative, ds⟩, read⟩ : ∃ p, Decimal.readSign (chopLineFeed token.toList) = p := ⟨_, rfl⟩
  have other : isNumber ds = false :=
    Bool.eq_false_iff.2 fun digits => h negative ds (integerText_iff.2 ⟨read, isNumber_iff.1 digits⟩)
  simp only [readInteger, read, other, Bool.not_false, if_true]

/-- A text has the form of an integer in one way at most. -/
theorem IntegerText.exists_iff (h : IntegerText cs negative ds) (P : Bool → List Char → Prop) :
    (∃ negative ds, IntegerText cs negative ds ∧ P negative ds) ↔ P negative ds := by
  constructor
  · rintro ⟨negative', ds', h', holds⟩
    cases (integerText_iff.1 h).1.symm.trans (integerText_iff.1 h').1
    exact holds
  · exact fun holds => ⟨negative, ds, h, holds⟩

theorem readInteger_eq_ok_iff {n : Int} : readInteger token = .ok n ↔ ∃ negative ds,
    IntegerText token.toList negative ds ∧ ds.length ≤ Fault.digitLimit ∧
      n = signed negative (digitsValue ds) := by
  by_cases h : ∃ negative ds, IntegerText token.toList negative ds
  · obtain ⟨negative, ds, text⟩ := h
    rw [text.exists_iff fun negative ds => ds.length ≤ Fault.digitLimit ∧ n = signed negative (digitsValue ds),
      readInteger_of_text text, ← Nat.not_lt]
    split <;> simp_all [eq_comm]
  · rw [readInteger_of_no_text fun negative ds text => h ⟨negative, ds, text⟩]
    simp only [reduceCtorEq, false_iff]
    exact fun ⟨negative, ds, text, _⟩ => h ⟨negative, ds, text⟩

/-- A token is refused in one of two ways. -/
theorem readInteger_eq_error_iff {f : Fault} : readInteger token = .error f ↔
    (∃ negative ds, IntegerText token.toList negative ds ∧ Fault.digitLimit < ds.length ∧
      f = .tooManyDigits ds.length) ∨
    (¬ ∃ negative ds, IntegerText token.toList negative ds) ∧ f = .unreadable token .integer := by
  by_cases h : ∃ negative ds, IntegerText token.toList negative ds
  · obtain ⟨negative, ds, text⟩ := h
    have formed : ∃ negative ds, IntegerText token.toList negative ds := ⟨negative, ds, text⟩
    rw [text.exists_iff fun _ ds => Fault.digitLimit < ds.length ∧ f = .tooManyDigits ds.length,
      readInteger_of_text text]
    simp only [formed, not_true, false_and, or_false]
    split <;> simp_all [eq_comm]
  · rw [readInteger_of_no_text fun negative ds text => h ⟨negative, ds, text⟩]
    simp only [h, not_false_eq_true, true_and, Except.error.injEq, eq_comm (a := f)]
    refine (or_iff_right ?_).symm
    exact fun ⟨negative, ds, text, _⟩ => h ⟨negative, ds, text⟩

theorem label_readInteger_eq_iff (token label : String) :
    (readInteger token).mapError Fault.label = .error label ↔
      (label = "ValueError" ∧
        ∃ negative ds, IntegerText token.toList negative ds ∧ Fault.digitLimit < ds.length) ∨
      (label = "ArgumentConversionError" ∧ ¬ ∃ negative ds, IntegerText token.toList negative ds) := by
  have labelled : (readInteger token).mapError Fault.label = .error label ↔
      ∃ f, readInteger token = .error f ∧ f.label = label := by
    cases readInteger token <;> simp [Except.mapError]
  rw [labelled]
  constructor
  · rintro ⟨f, refused, rfl⟩
    obtain ⟨negative, ds, text, long, rfl⟩ | ⟨formless, rfl⟩ := readInteger_eq_error_iff.1 refused
    · exact .inl ⟨rfl, negative, ds, text, long⟩
    · exact .inr ⟨rfl, formless⟩
  · rintro (⟨rfl, negative, ds, text, long⟩ | ⟨rfl, formless⟩)
    · exact ⟨_, readInteger_eq_error_iff.2 (.inl ⟨negative, ds, text, long, rfl⟩), rfl⟩
    · exact ⟨_, readInteger_eq_error_iff.2 (.inr ⟨formless, rfl⟩), rfl⟩

theorem isOrdinary_of_readInteger {f : Fault} (h : readInteger token = .error f) : f.isOrdinary = true := by
  obtain ⟨_, _, _, _, rfl⟩ | ⟨-, rfl⟩ := readInteger_eq_error_iff.1 h <;> rfl

theorem integerText_integer (n : Int) :
    IntegerText (Number.integer n).toList (decide (n < 0)) (Nat.toDigits 10 n.natAbs) := by
  refine ⟨isDigits_toDigits _, ?_⟩
  unfold Number.integer Number.digitText
  split
  case isTrue below => exact ⟨['-'], [], by simpa [below] using .minus, .inl rfl, by simp⟩
  case isFalse above => exact ⟨[], [], by simpa [above] using .none, .inl rfl, by simp⟩

theorem signed_natAbs (n : Int) : signed (decide (n < 0)) n.natAbs = n := by
  unfold signed
  split
  case isTrue below => have := of_decide_eq_true below; omega
  case isFalse above => have := of_decide_eq_false (Bool.eq_false_iff.2 above); omega

theorem readInteger_integer {n : Int} (h : n.natAbs < 10 ^ Fault.digitLimit) :
    readInteger (Number.integer n) = .ok n := by
  have short : (Nat.toDigits 10 n.natAbs).length ≤ Fault.digitLimit :=
    (Nat.length_toDigits_le_iff (by decide) (by decide)).2 h
  rw [readInteger_of_text (integerText_integer n), if_neg (Nat.not_lt.2 short), digitsValue_toDigits,
    signed_natAbs]

end Argument

namespace Dispatcher

/-- A token is read as an integer exactly if it has the form of one with as many digits as the limit
allows, and each kind of refusal tells what is wrong with it. What is written for a number of so many
digits is read as that number. A slot for an integer that a dispatch comes to is bound to a number, or else
the dispatch fails and reports the token as it is. -/
theorem integers_exact :
    (∀ token : String,
      (∀ n, Argument.readInteger token = .ok n ↔ ∃ negative ds,
        Argument.IntegerText token.toList negative ds ∧ ds.length ≤ Fault.digitLimit ∧
          n = Argument.signed negative (Nat.ofDigits 10 (ds.reverse.map digitValue))) ∧
      ((Argument.readInteger token).mapError Fault.label = .error "ValueError" ↔ ∃ negative ds,
        Argument.IntegerText token.toList negative ds ∧ Fault.digitLimit < ds.length) ∧
      ((Argument.readInteger token).mapError Fault.label = .error "ArgumentConversionError" ↔
        ¬ ∃ negative ds, Argument.IntegerText token.toList negative ds)) ∧
    (∀ n : Int, n.natAbs < 10 ^ Fault.digitLimit → Argument.readInteger (Number.integer n) = .ok n) ∧
    ∀ {σ : Type} {host : Host σ} {d : Dispatcher} {m : Message} {table : ParserTable} {command : Command}
      {slot : Slot} {token : String} {later : List Slot} {t u : List (Exchange (engineInterface σ))}
      {r : Except Fault Outcome}, d.ComesTo host m table command slot token later t u →
      table.parser? slot.tag = some .integer → (d.process host m).Traces t r →
      '\n' ∉ token.toList ∧
      ((∃ n, Argument.readInteger token = .ok n ∧ ∀ arguments, d.Passes host m command t arguments →
          slot.name ∉ later.map (·.name) → arguments.find? slot.name = some (.int n)) ∨
        (∃ f, Argument.readInteger token = .error f) ∧
          Delivers (.failed command.definition (.invalid slot token)) t r) := by
  refine ⟨fun token => ⟨fun n => ?_, ?_, ?_⟩, fun n => Argument.readInteger_integer, ?_⟩
  · simp only [← digitsValue_eq_ofDigits]
    exact Argument.readInteger_eq_ok_iff
  · simpa using Argument.label_readInteger_eq_iff token "ValueError"
  · simpa using Argument.label_readInteger_eq_iff token "ArgumentConversionError"
  · intro σ host d m table command slot token later t u r comes found trace
    obtain ⟨word, a, b, x, -, read, settles⟩ := comes.settles found trace
    obtain ⟨-, rfl⟩ := Program.traces_done_iff.1 read
    refine ⟨fun feed => ?_, ?_⟩
    · exact absurd (word.2 _ feed) (by decide)
    · cases read : Argument.readInteger token with
      | ok n =>
        rw [read] at settles
        exact .inl ⟨n, rfl, settles⟩
      | error f =>
        rw [read] at settles
        simp only [Except.map, Settles, Argument.isOrdinary_of_readInteger read, if_true] at settles
        exact .inr ⟨⟨f, rfl⟩, settles⟩

def stakeSlot : Slot := { name := "stake", tag := some "Int" }

def wagerCommand : Command where
  definition := { name := "wager", slots := [stakeSlot] }
  execute := some (.fixed (.ok .none))

def wagerDispatcher : Dispatcher where
  parsers := ParserTable.standard true .none
  registry := ⟨[wagerCommand]⟩

def wagerThree : Message where
  content := some "wager 3x"
  reply := .closed

theorem wagerThree_read : Invocation.read? "" wagerThree.content = some ⟨"wager", ["3x"]⟩ := by
  decide +kernel

def wagerTrace : List (Exchange (engineInterface Unit)) :=
  [Guard.noted (.commandCalled "" "wager" "wager"),
    ⟨.claimRun wagerCommand.definition, true⟩,
    Guard.noted (.argumentRefused "stake" (.unreadable "3x" .integer)), ⟨.finish "wager", ()⟩,
    ⟨.effect (.emit finishedEvent [.outcome (.failed wagerCommand.definition (.invalid stakeSlot "3x"))] []),
      .ok ()⟩]

theorem wagerTrace_traces : (wagerDispatcher.process (Host.silent : Host Unit) wagerThree).Traces wagerTrace
    (.ok (.failed wagerCommand.definition (.invalid stakeSlot "3x"))) := by
  rw [process_of_read? wagerThree_read (show wagerDispatcher.registry.lookup? "wager" = some wagerCommand from rfl)]
  exact .ask (.ask (.ask (.ask (.ask (.done _)))))

theorem wagerTrace_comes : ComesTo wagerDispatcher (Host.silent : Host Unit) wagerThree
    (ParserTable.standard true .none) wagerCommand stakeSlot "3x" [] wagerTrace (wagerTrace.drop 2) :=
  ⟨rfl, _, [], [], wagerThree_read, rfl, rfl, .here rfl⟩

/-- Digits of another script are read, a number is read as it is written, and a token with a letter fails. -/
theorem wagerTrace_exact :
    Argument.readInteger "-٠٧\n" = .ok (-7) ∧ Argument.readInteger (Number.integer (-42)) = .ok (-42) ∧
    '\n' ∉ "3x".toList ∧
    Delivers (.failed wagerCommand.definition (.invalid stakeSlot "3x")) wagerTrace
      (.ok (.failed wagerCommand.definition (.invalid stakeSlot "3x"))) := by
  obtain ⟨exact, written, reached⟩ := integers_exact
  have sevens : Argument.IntegerText "-٠٧\n".toList true ['٠', '٧'] :=
    ⟨Argument.isNumber_iff.1 (by decide +kernel), ['-'], ['\n'], .minus, .inr rfl, by decide +kernel⟩
  obtain ⟨wordlike, ⟨n, read, -⟩ | ⟨-, delivers⟩⟩ := reached wagerTrace_comes rfl wagerTrace_traces
  · have unread : Argument.readInteger "3x" = .error (.unreadable "3x" .integer) := by decide +kernel
    exact absurd (read.symm.trans unread) nofun
  · refine ⟨((exact _).1 _).2 ⟨true, ['٠', '٧'], sevens, ?_, rfl⟩, written (-42) ?_, wordlike, delivers⟩
    · decide
    · exact lt_of_lt_of_le (b := 10 ^ 2) (by decide) (Nat.pow_le_pow_right (by decide) (by decide))

end Dispatcher
end ChatCommands

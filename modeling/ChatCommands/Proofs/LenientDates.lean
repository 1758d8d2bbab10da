import Mathlib
import ChatCommands.Proofs.BindingWalk
import ChatCommands.Proofs.DateOrder
import ChatCommands.Proofs.LoneDispatch

set_option autoImplicit false

/-!
# Strict and lenient dates

The two ways to treat a token that is no date are compared on the same slots, the
same tokens and with the same answers of the host. Until there is such a token
both bindings do the same. There the strict one ends, while the lenient one goes on
with a value that stands for no date, and may still end at another slot.
-/
namespace ChatCommands
open Text

namespace Argument
variable {σ : Type}

/-- The slot is for a date and the token fits none of the patterns. -/
def Unread (slot : Slot) (token : String) : Prop :=
  slot.tag = some "Date" ∧ ∀ p ∈ DatePattern.standard, p.read? token = none

/-- Tokens are read as before, but where one should be a date and is none, that is noted and the
slot is bound to the missing date. -/
def overlooking (reading : Reading σ) : Reading σ := fun slot token u x =>
  (Unread slot token ∧ u = [⟨.effect (.note (.dateUnread token)), ()⟩] ∧ x = .ok .noDate) ∨
  (¬ Unread slot token ∧ reading slot token u x)

/-- Two tables have parsers for all the slots. They read dates with the standard patterns, one
strictly and the other not, and everything else alike. -/
structure DifferInDates (host : Host σ) (message : Option Message) (strict lenient : ParserTable)
    (slots : List Slot) : Prop where
  strictly : strict.parser? (some "Date") = some (.date true DatePattern.standard)
  leniently : lenient.parser? (some "Date") = some (.date false DatePattern.standard)
  alike : ∀ slot ∈ slots, slot.tag ≠ some "Date" → ∃ p q, strict.parser? slot.tag = some p ∧
    lenient.parser? slot.tag = some q ∧
    ∀ token, p.run host message slot token = q.run host message slot token

theorem unread_iff {slot : Slot} {token : String} (tag : slot.tag = some "Date") :
    Unread slot token ↔ DatePattern.readFirst? DatePattern.standard token = none := by
  rw [Unread, and_iff_right tag, DatePattern.readFirst?, List.findSome?_eq_none_iff]

section readings
variable {host : Host σ} {t strict lenient : ParserTable} {message : Option Message} {slot : Slot}
  {slots : List Slot} {token : String} {u : List (Exchange (engineInterface σ))}
  {x : Except Fault Value}

/-- What is a date is read as the same date, strictly or not. -/
theorem read_date_iff {d : DateTime} (some : DatePattern.readFirst? DatePattern.standard token = some d)
    (strictly : Bool) :
    ((ArgumentParser.date strictly DatePattern.standard).run host message slot token).Traces u x ↔
      u = [] ∧ x = .ok (.date d) := by
  simp [ArgumentParser.run, readDate_of_perm (.refl _), some, eq_comm]

theorem read_strictly_iff (none : DatePattern.readFirst? DatePattern.standard token = none) :
    ((ArgumentParser.date true DatePattern.standard).run host message slot token).Traces u x ↔
      u = [] ∧ x = .error (.unreadable token .date) := by
  simp [ArgumentParser.run, readDate_of_perm (.refl _), none, eq_comm]

theorem read_leniently_iff (none : DatePattern.readFirst? DatePattern.standard token = none) :
    ((ArgumentParser.date false DatePattern.standard).run host message slot token).Traces u x ↔
      u = [⟨.effect (.note (.dateUnread token)), ()⟩] ∧ x = .ok .noDate := by
  have ran : (ArgumentParser.date false DatePattern.standard).run host message slot token =
      Program.bind (Engine.note (.dateUnread token)) fun _ => .done (.ok .noDate) := by
    rw [ArgumentParser.run, readDate_of_perm (.refl _), none]
    rfl
  rw [ran]
  constructor
  · intro runs
    obtain ⟨⟨⟩, v, rfl, ends⟩ := Program.traces_ask_iff.1 runs
    obtain ⟨rfl, rfl⟩ := Program.traces_done_iff.1 ends
    exact ⟨rfl, rfl⟩
  · rintro ⟨rfl, rfl⟩
    exact .ask (.done _)

namespace DifferInDates
variable (differ : DifferInDates host message strict lenient slots)
include differ

theorem byParsers_strict_iff (unread : Unread slot token) :
    byParsers host strict message slot token u x ↔
      u = [] ∧ x = .error (.unreadable token .date) := by
  rw [byParsers_iff (unread.1 ▸ differ.strictly), read_strictly_iff ((unread_iff unread.1).1 unread)]

/-- No token is refused for a date. -/
theorem dated (tag : slot.tag = some "Date")
    (read : overlooking (byParsers host strict message) slot token u x) : ∃ v, x = .ok v := by
  obtain ⟨-, -, rfl⟩ | ⟨unread, read⟩ := read
  · exact ⟨_, rfl⟩
  · rw [unread_iff tag] at unread
    obtain ⟨d, some⟩ := Option.ne_none_iff_exists'.1 unread
    rw [byParsers_iff (tag ▸ differ.strictly), read_date_iff some] at read
    exact ⟨_, read.2⟩

/-- The lenient parsers read as the strict ones do, except that they overlook what is no date. -/
theorem byParsers_lenient_iff (hs : slot ∈ slots) : byParsers host lenient message slot token u x ↔
    overlooking (byParsers host strict message) slot token u x := by
  unfold overlooking
  by_cases tag : slot.tag = some "Date"
  · have strictly : strict.parser? slot.tag = some (.date true DatePattern.standard) :=
      tag ▸ differ.strictly
    have leniently : lenient.parser? slot.tag = some (.date false DatePattern.standard) :=
      tag ▸ differ.leniently
    rw [byParsers_iff strictly, byParsers_iff leniently, unread_iff tag]
    cases read : DatePattern.readFirst? DatePattern.standard token with
    | none => simp [read_leniently_iff read]
    | some d => simp [read_date_iff read]
  · obtain ⟨p, q, found, found', same⟩ := differ.alike slot hs tag
    rw [byParsers_iff found, byParsers_iff found', same]
    simp [Unread, tag]

theorem knows : ∀ slot ∈ slots, strict.knows slot.tag = true ∧ lenient.knows slot.tag = true := by
  intro slot hs
  unfold ParserTable.knows
  by_cases tag : slot.tag = some "Date"
  · simp [tag, differ.strictly, differ.leniently]
  · obtain ⟨p, q, found, found', -⟩ := differ.alike slot hs tag
    simp [found, found']

/-- The lenient binding is the strict walk that overlooks what is no date. -/
theorem binds_lenient_iff {tokens : List String} {called : List (Slot × String)}
    {r : Except BindingError (Assoc Value)} :
    Binds (byParsers host lenient message) slots tokens called u r ↔
      Binds (overlooking (byParsers host strict message)) slots tokens called u r := by
  constructor
  · rintro ⟨o, walks, rfl⟩
    exact ⟨o, walks.mono fun pair hp v x => (differ.byParsers_lenient_iff (mem_paired hp)).1, rfl⟩
  · rintro ⟨o, walks, rfl⟩
    exact ⟨o, walks.mono fun pair hp v x => (differ.byParsers_lenient_iff (mem_paired hp)).2, rfl⟩

end DifferInDates

end readings

/-- How two bindings compare of which the second overlooks what is no date: it does what the first
does, unless that ends for such a token. -/
structure Widens (called : List (Slot × String)) (r : Except BindingError (Assoc Value))
    (called' : List (Slot × String)) (r' : Except BindingError (Assoc Value)) : Prop where
  bound : ∀ d, r = .ok d → r' = .ok d
  missing : ∀ slot, r = .error (.missing slot) → r' = .error (.missing slot)
  invalid : ∀ slot token f, r = .error (.invalid slot token f) → slot.tag ≠ some "Date" →
    r' = .error (.invalid slot token f)
  escaped : ∀ f, r = .error (.escaped f) → r' = .error (.escaped f)
  dated : ∀ slot token f, r' = .error (.invalid slot token f) → slot.tag ≠ some "Date"
  called : called <+: called'

section comparison
variable {host : Host σ} {strict lenient : ParserTable} {message : Option Message}
  {slots : List Slot} {pairs called called' : List (Slot × String)}
  {u u' : List (Exchange (engineInterface σ))} {o o' : Except BindingError (List Value)}
  {answer : List (Exchange (engineInterface σ)) → (r : EngineRequest σ) → r.Answer}

/-- Of two walks with the same answers, of which the second overlooks what is no date, the first is
the same or has ended for such a token. -/
theorem Walks.same_or_ended (differ : DifferInDates host message strict lenient slots)
    (first : Walks (byParsers host strict message) pairs called u o)
    (second : Walks (overlooking (byParsers host strict message)) pairs called' u' o')
    (hu : Program.Answered answer u) (hu' : Program.Answered answer u') :
    (called = called' ∧ u = u' ∧ o = o') ∨
    called <+: called' ∧ ∃ slot token f, o = .error (.invalid slot token f) ∧
      slot.tag = some "Date" := by
  induction first generalizing called' u' o' answer with
  | done =>
    obtain ⟨rfl, rfl, rfl⟩ := walks_nil_iff.1 second
    exact .inl ⟨rfl, rfl, rfl⟩
  | @failed slot token pairs v w f e read noted =>
    obtain ⟨v', w', x, rfl, ⟨unread, -, rfl⟩ | ⟨-, read'⟩, rest⟩ := walks_cons_iff.1 second
    · obtain ⟨called, o, rfl, -⟩ := rest
      obtain ⟨rfl, ⟨⟩⟩ := (differ.byParsers_strict_iff unread).1 read
      obtain ⟨-, rfl⟩ | ⟨⟨⟩, -⟩ := noted.error
      exact .inr ⟨by simp, slot, token, _, rfl, unread.1⟩
    · obtain ⟨rfl, rfl⟩ := byParsers_determined read read' hu.left hu'.left
      obtain ⟨e', rfl, rfl, noted'⟩ := rest
      obtain ⟨rfl, rfl⟩ := noted.unique noted'
      exact .inl ⟨rfl, rfl, rfl⟩
  | @next slot token pairs called v w value o read _ ih =>
    obtain ⟨v', w', x, rfl, ⟨unread, -⟩ | ⟨-, read'⟩, rest⟩ := walks_cons_iff.1 second
    · obtain ⟨-, ⟨⟩⟩ := (differ.byParsers_strict_iff unread).1 read
    · obtain ⟨rfl, rfl⟩ := byParsers_determined read read' hu.left hu'.left
      obtain ⟨called', o', rfl, rfl, rest⟩ := rest
      obtain ⟨rfl, rfl, rfl⟩ | ⟨before, slot', token', f, rfl, tag⟩ := ih rest hu.right hu'.right
      · exact .inl ⟨rfl, rfl, rfl⟩
      · exact .inr ⟨List.prefix_cons_inj _ |>.2 before, slot', token', f, rfl, tag⟩

/-- A walk that overlooks what is no date never ends for a token of a date. -/
theorem Walks.undated (differ : DifferInDates host message strict lenient slots)
    (walks : Walks (overlooking (byParsers host strict message)) pairs called u o)
    {slot : Slot} {token : String} {f : Fault} (h : o = .error (.invalid slot token f)) :
    slot.tag ≠ some "Date" := by
  induction walks with
  | done => cases h
  | @failed slot' token' _ _ _ g e read noted =>
    obtain rfl := Except.error.inj h
    obtain ⟨-, ⟨⟩⟩ | ⟨-, ⟨⟩⟩ := noted.error
    intro tag
    obtain ⟨v, ⟨⟩⟩ := differ.dated tag read
  | @next _ _ _ _ _ _ _ o _ _ ih =>
    cases o with
    | error e => exact ih h
    | ok values => cases h

theorem widens_of_binds (differ : DifferInDates host message strict lenient slots)
    {tokens : List String} {r r' : Except BindingError (Assoc Value)}
    (first : Binds (byParsers host strict message) slots tokens called u r)
    (second : Binds (overlooking (byParsers host strict message)) slots tokens called' u' r')
    (hu : Program.Answered answer u) (hu' : Program.Answered answer u') :
    Widens called r called' r' := by
  obtain ⟨o, first, rfl⟩ := first
  obtain ⟨o', second, rfl⟩ := second
  have dated : ∀ slot token f, (o'.bind (concluded slots tokens)).map Assoc.ofList =
      .error (.invalid slot token f) → slot.tag ≠ some "Date" :=
    fun _ _ _ h => second.undated differ (bind_concluded_eq_invalid h)
  rcases first.same_or_ended differ second hu hu' with ⟨rfl, rfl, rfl⟩ | ⟨before, slot, token, f, rfl, tag⟩
  · exact ⟨fun _ h => h, fun _ h => h, fun _ _ _ h _ => h, fun _ h => h, dated, List.prefix_rfl⟩
  · refine ⟨nofun, nofun, ?_, nofun, dated, before⟩
    rintro _ _ _ ⟨⟩ other
    exact absurd tag other

end comparison

/-- Where two tables differ in nothing but how strictly dates are read, the lenient binding is the
strict walk from left to right in which every token of a date that fits no pattern is overlooked. With
the same answers of the host it does the same, except that it goes on where the strict one ends
for such a token. -/
theorem lenient_dates_widen {host : Host σ} {message : Option Message} {strict lenient : ParserTable}
    {slots : List Slot} (differ : DifferInDates host message strict lenient slots)
    (tokens : List String) :
    (∀ u r, (bind host strict message slots tokens).Traces u r ↔
      ∃ called, Binds (byParsers host strict message) slots tokens called u r) ∧
    (∀ u r, (bind host lenient message slots tokens).Traces u r ↔
      ∃ called, Binds (byParsers host lenient message) slots tokens called u r) ∧
    (∀ called u r, Binds (byParsers host lenient message) slots tokens called u r ↔
      Binds (overlooking (byParsers host strict message)) slots tokens called u r) ∧
    ∀ answer : List (Exchange (engineInterface σ)) → (r : EngineRequest σ) → r.Answer,
      (∃ called u r, Binds (byParsers host strict message) slots tokens called u r ∧
        Program.Answered answer u) ∧
      (∃ called u r, Binds (byParsers host lenient message) slots tokens called u r ∧
        Program.Answered answer u) ∧
      ∀ called u r called' u' r', Binds (byParsers host strict message) slots tokens called u r →
        Binds (byParsers host lenient message) slots tokens called' u' r' →
        Program.Answered answer u → Program.Answered answer u' → Widens called r called' r' := by
  have known : ∀ slot ∈ slots, strict.knows slot.tag = true := fun slot hs => (differ.knows slot hs).1
  have known' : ∀ slot ∈ slots, lenient.knows slot.tag = true := fun slot hs => (differ.knows slot hs).2
  refine ⟨fun u r => bind_traces_iff_binds known, fun u r => bind_traces_iff_binds known',
    fun called u r => differ.binds_lenient_iff, fun answer => ⟨?_, ?_, ?_⟩⟩
  · obtain ⟨u, r, traces, answered⟩ := Program.exists_traces answer (bind host strict message slots tokens)
    obtain ⟨called, binds⟩ := (bind_traces_iff_binds known).1 traces
    exact ⟨called, u, r, binds, answered⟩
  · obtain ⟨u, r, traces, answered⟩ := Program.exists_traces answer (bind host lenient message slots tokens)
    obtain ⟨called, binds⟩ := (bind_traces_iff_binds known').1 traces
    exact ⟨called, u, r, binds, answered⟩
  · intro called u r called' u' r' first second hu hu'
    exact widens_of_binds differ first (differ.binds_lenient_iff.1 second) hu hu'

/-- Two tables that were made with the same resolver differ only in how strictly dates are read, also
after the same parsers were registered with both, if none of them is for dates. -/
theorem differInDates_registerAll (host : Host σ) (message : Option Message)
    (resolver : MemberResolver) {later : List (String × ArgumentParser)} {slots : List Slot}
    (kept : later.reverse.lookup "Date" = none)
    (known : ∀ slot ∈ slots,
      ((ParserTable.standard true resolver).registerAll later).knows slot.tag = true) :
    DifferInDates host message ((ParserTable.standard true resolver).registerAll later)
      ((ParserTable.standard false resolver).registerAll later) slots := by
  have found (strictly : Bool) (tag : String) :
      ((ParserTable.standard strictly resolver).registerAll later).find? tag =
        (later.reverse.lookup tag).or ((ParserTable.standard strictly resolver).find? tag) :=
    Assoc.find?_putAll _ _ tag
  refine ⟨?_, ?_, fun slot hs other => ?_⟩
  · rw [ParserTable.parser?, found, kept]
    rfl
  · rw [ParserTable.parser?, found, kept]
    rfl
  · obtain ⟨p, hp⟩ := Option.isSome_iff_exists.1 (known slot hs)
    refine ⟨p, p, hp, ?_, fun _ => rfl⟩
    rw [← hp]
    cases tag : slot.tag with
    | none => rfl
    | some name =>
      have undated : "Date" ≠ name := fun same => other (tag.trans (congrArg some same.symm))
      rw [ParserTable.parser?, ParserTable.parser?, found, found]
      simp only [ParserTable.standard, Assoc.find?, if_neg undated]

def daySlot : Slot := { name := "day", tag := some "Date" }

def diceSlot : Slot := { name := "dice", tag := some "Dice" }

def diceParsers (strictDates : Bool) : ParserTable :=
  (ParserTable.standard strictDates .none).registerAll [("Dice", .integer)]

theorem daySlot_overlooked :
    DifferInDates (Host.silent : Host Unit) none (diceParsers true) (diceParsers false)
      [daySlot, diceSlot] ∧
    (bind (Host.silent : Host Unit) (diceParsers true) none [daySlot, diceSlot] ["soon", "3"]).Traces
      [⟨.effect (.note (.argumentRefused "day" (.unreadable "soon" .date))), ()⟩]
      (.error (.invalid daySlot "soon" (.unreadable "soon" .date))) ∧
    (bind (Host.silent : Host Unit) (diceParsers false) none [daySlot, diceSlot] ["soon", "3"]).Traces
      [⟨.effect (.note (.dateUnread "soon")), ()⟩] (.ok [("day", .noDate), ("dice", .int 3)]) := by
  have differ : DifferInDates (Host.silent : Host Unit) none (diceParsers true) (diceParsers false)
      [daySlot, diceSlot] := differInDates_registerAll _ _ _ (by decide) (by decide)
  have unread : Unread daySlot "soon" := ⟨rfl, by decide +kernel⟩
  have refused : byParsers (Host.silent : Host Unit) (diceParsers true) none daySlot "soon" []
      (.error (.unreadable "soon" .date)) := (differ.byParsers_strict_iff unread).2 ⟨rfl, rfl⟩
  have overlooked : overlooking (byParsers (Host.silent : Host Unit) (diceParsers true) none) daySlot
      "soon" [⟨.effect (.note (.dateUnread "soon")), ()⟩] (.ok .noDate) := .inl ⟨unread, rfl, rfl⟩
  have three : overlooking (byParsers (Host.silent : Host Unit) (diceParsers true) none) diceSlot
      "3" [] (.ok (.int 3)) := .inr ⟨by simp [Unread, diceSlot], .integer, rfl, .done _⟩
  obtain ⟨strictly, leniently, overlooks, -⟩ := lenient_dates_widen differ ["soon", "3"]
  exact ⟨differ, (strictly _ _).2 ⟨_, _, .failed refused ⟨rfl, rfl⟩, rfl⟩,
    (leniently _ _).2 ⟨_, (overlooks _ _ _).2 ⟨_, .next overlooked (.next three .done), rfl⟩⟩⟩

end Argument
end ChatCommands

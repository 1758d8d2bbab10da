import Mathlib
import ChatCommands.Gateway
import ChatCommands.Proofs.IntegerReading
import ChatCommands.Proofs.ReachedSlots

set_option autoImplicit false

/-!
# How members are looked up

A mention names a member of the guild of its message by a number. The gateway is
asked for that member among those it knows, and asks for it elsewhere only if it
knows none. The calls that a dispatch makes for a mention, with what comes back
from them, decide whether the slot is bound and to which member.
-/
namespace ChatCommands
open Text

namespace Engine
variable {σ τ : Type}

theorem perform_bind (send : String → Engine σ (Except Fault Value)) (s : Script σ τ)
    (f : Except Fault Value → Script σ τ) (t : τ) :
    perform send (s.bind f) t = (perform send s t).bind fun p => perform send (f p.1) p.2 := by
  induction s generalizing t with
  | done r => rfl
  | ask r next ih =>
    cases r with
    | effect e => exact congrArg (Program.ask _) (funext fun x => ih x t)
    | update g => exact ih (g t) (g t)
    | reply text =>
      refine (congrArg _ (funext fun x => ih x t)).trans ?_
      exact (Program.bind_assoc _ _ _).symm

theorem runScript_bind (s : Script σ Unit) (f : Except Fault Value → Script σ Unit) :
    runScript (s.bind f) = (runScript s).bind fun x => runScript (f x) := by
  simp only [runScript, perform_bind, Program.bind_assoc, Program.done_bind]

end Engine

namespace Argument
variable {cs ds : List Char} {token : String}

/-- The mention of a member by digits, with or without an exclamation mark; a line feed may follow. -/
def MentionText (cs ds : List Char) : Prop :=
  IsDigits ds ∧ ∃ mark tail, (mark = [] ∨ mark = ['!']) ∧ LineFeed tail ∧
    cs = '<' :: '@' :: (mark ++ ds ++ '>' :: tail)

/-- What follows an exclamation mark that may be missing. -/
def unmarked : List Char → List Char
  | '!' :: rest => rest
  | rest => rest

theorem exists_mark (cs : List Char) :
    ∃ mark, (mark = [] ∨ mark = ['!']) ∧ cs = mark ++ unmarked cs := by
  unfold unmarked
  split
  · exact ⟨['!'], .inr rfl, rfl⟩
  · exact ⟨[], .inl rfl, rfl⟩

theorem unmarked_append {mark rest : List Char} (marked : mark = [] ∨ mark = ['!'])
    (h : ∀ c ∈ rest.head?, isDigit c = true) : unmarked (mark ++ rest) = rest := by
  rcases marked with rfl | rfl
  · cases rest with
    | nil => rfl
    | cons c rest =>
      -- a mention without a mark begins with a digit
      have other : c ≠ '!' := by
        rintro rfl
        simpa [isDigit_eq] using h '!' rfl
      simp [unmarked, other]
  · rfl

theorem mentionDigits?_eq_some_iff_unmarked : mentionDigits? cs = some ds ↔
    ∃ rest, chopLineFeed cs = '<' :: '@' :: rest ∧ unmarked rest = ds ++ ['>'] ∧ IsDigits ds := by
  have body (rest : List Char) : ((unmarked rest).getLast? = some '>' ∧
      isNumber (unmarked rest).dropLast = true) ∧ (unmarked rest).dropLast = ds ↔
      unmarked rest = ds ++ ['>'] ∧ IsDigits ds := by
    rw [isNumber_iff]
    constructor
    · rintro ⟨⟨last, digits⟩, rfl⟩
      exact ⟨(List.dropLast_append_getLast? _ last).symm, digits⟩
    · rintro ⟨same, digits⟩
      simp [same, digits]
  unfold mentionDigits?
  split
  · rename_i rest chopped
    rw [Option.ite_none_right_eq_some, Option.some.injEq]
    refine (body rest).trans ⟨fun h => ⟨rest, chopped, h⟩, ?_⟩
    rintro ⟨rest', chopped', h⟩
    cases chopped.symm.trans chopped'
    exact h
  · rename_i other
    simp only [reduceCtorEq, false_iff]
    exact fun ⟨rest, chopped, _⟩ => other rest chopped

theorem mentionDigits?_eq_some_iff : mentionDigits? cs = some ds ↔ MentionText cs ds := by
  rw [mentionDigits?_eq_some_iff_unmarked]
  constructor
  · rintro ⟨rest, chopped, same, digits⟩
    obtain ⟨tail, feed, split⟩ := exists_lineFeed cs
    obtain ⟨mark, marked, split'⟩ := exists_mark rest
    refine ⟨digits, mark, tail, marked, feed, ?_⟩
    rw [split, chopped, split', same]
    simp
  · rintro ⟨digits, mark, tail, marked, feed, rfl⟩
    refine ⟨mark ++ (ds ++ ['>']), ?_, unmarked_append marked (digits.head_isDigit _), digits⟩
    have last : ('<' :: '@' :: (mark ++ (ds ++ ['>']))).getLast? ≠ some '\n' := by
      simp [List.getLast?_cons, List.getLast?_append]
    rw [← chopLineFeed_append feed last]
    simp

theorem MentionText.unique {ds' : List Char} (h : MentionText cs ds) (h' : MentionText cs ds') :
    ds = ds' :=
  Option.some.inj ((mentionDigits?_eq_some_iff.2 h).symm.trans (mentionDigits?_eq_some_iff.2 h'))

theorem readMention_eq_ok_iff {id : String} :
    readMention token = .ok id ↔ MentionText token.toList id.toList := by
  rw [← mentionDigits?_eq_some_iff]
  unfold readMention
  cases mentionDigits? token.toList with
  | none => simp
  | some ds => simp [String.ext_iff]

theorem readMention_of_no_text (h : ∀ ds, ¬ MentionText token.toList ds) :
    readMention token = .error (.unreadable token .mention) := by
  have unread : mentionDigits? token.toList = none :=
    Option.eq_none_iff_forall_ne_some.2 fun ds => mt mentionDigits?_eq_some_iff.1 (h ds)
  rw [readMention, unread]

end Argument

namespace Gateway
variable {σ : Type} {g : Gateway σ} {guild : Value} {user : Nat} {token : String}
  {u v : List (Exchange (engineInterface σ))} {x : Except Fault Value}

/-- A call of the gateway, with what came back. -/
inductive Call where
  | known (guild : Value) (user : Nat) (result : Except Fault Value)
  | fetch (guild : Value) (user : Nat) (result : Except Fault Value)

namespace Call

def result : Call → Except Fault Value
  | .known _ _ r | .fetch _ _ r => r

def script (g : Gateway σ) : Call → Script σ Unit
  | .known guild user _ => g.known guild user
  | .fetch guild user _ => g.fetch guild user

end Call

/-- The trace consists of these calls, in this order, and of notes. -/
inductive Makes (g : Gateway σ) : List (Exchange (engineInterface σ)) → List Call → Prop where
  | none : Makes g [] []
  | call {c : Call} {u v : List (Exchange (engineInterface σ))} {calls : List Call}
      (called : (Engine.runScript (c.script g)).Traces u c.result) (rest : Makes g v calls) :
      Makes g (u ++ v) (c :: calls)
  | note {v : List (Exchange (engineInterface σ))} {calls : List Call} (n : Notice)
      (rest : Makes g v calls) : Makes g (Guard.noted n :: v) calls

theorem Makes.mem {calls : List Call} (made : Makes g v calls) {c : Call} (hc : c ∈ calls) :
    ∃ u, u <:+: v ∧ (Engine.runScript (c.script g)).Traces u c.result := by
  induction made with
  | none => cases hc
  | @call first u v calls called rest ih =>
    rcases List.mem_cons.1 hc with rfl | hc
    · exact ⟨u, (List.prefix_append u v).isInfix, called⟩
    · obtain ⟨t, part, called⟩ := ih hc
      exact ⟨t, part.trans (List.suffix_append u v).isInfix, called⟩
  | note n rest ih =>
    obtain ⟨t, part, called⟩ := ih hc
    exact ⟨t, part.trans (List.suffix_cons _ _).isInfix, called⟩

/-- What is returned for a member after the calls that are made for it. -/
inductive LooksUp (guild : Value) (user : Nat) : List Call → Except Fault Value → Prop where
  | broken (f : Fault) : LooksUp guild user [.known guild user (.error f)] (.error f)
  | known {member : Value} (truthy : member.isTruthy = true) :
      LooksUp guild user [.known guild user (.ok member)] (.ok member)
  | fetched {missed : Value} (untruthy : missed.isTruthy = false) (member : Value) :
      LooksUp guild user [.known guild user (.ok missed), .fetch guild user (.ok member)] (.ok member)
  | absent {missed : Value} {f : Fault} (untruthy : missed.isTruthy = false)
      (noEntry : f.severity = .noEntry) :
      LooksUp guild user [.known guild user (.ok missed), .fetch guild user (.error f)] (.ok .none)
  | refused {missed : Value} {f : Fault} (untruthy : missed.isTruthy = false)
      (other : f.severity ≠ .noEntry) :
      LooksUp guild user [.known guild user (.ok missed), .fetch guild user (.error f)] (.error f)

theorem looksUp_of_ask {missed : Value} (untruthy : missed.isTruthy = false)
    (first : (Engine.runScript (g.known guild user)).Traces u (.ok missed))
    (trace : (Engine.runScript (g.ask guild user)).Traces v x) :
    ∃ calls, Makes g (u ++ v) calls ∧ LooksUp guild user calls x := by
  rw [ask, Engine.runScript_bind] at trace
  obtain ⟨a, b, fetched, rfl, second, rest⟩ := Program.traces_bind_iff.1 trace
  have called : Makes g (u ++ (a ++ [])) [.known guild user (.ok missed), .fetch guild user fetched] :=
    .call (c := .known guild user (.ok missed)) first (.call (c := .fetch guild user fetched) second .none)
  cases fetched with
  | ok member =>
    obtain ⟨rfl, rfl⟩ := Program.traces_done_iff.1 rest
    exact ⟨_, called, .fetched untruthy member⟩
  | error f =>
    dsimp only at rest
    split at rest
    case isTrue noEntry =>
      obtain ⟨_, w, rfl, ended⟩ := Program.traces_ask_iff.1 rest
      obtain ⟨rfl, rfl⟩ := Program.traces_done_iff.1 ended
      refine ⟨_, ?_, .absent untruthy noEntry⟩
      exact .call (c := .known guild user (.ok missed)) first
        (.call (c := .fetch guild user (.error f)) second (.note _ .none))
    case isFalse other =>
      obtain ⟨rfl, rfl⟩ := Program.traces_done_iff.1 rest
      exact ⟨_, called, .refused untruthy other⟩

theorem looksUp_of_resolve {digits : String} {message : Option Message}
    (trace : (Engine.runScript (g.resolve digits message)).Traces u x) :
    let guild := (message.map (·.guild)).getD .none
    (guild.isTruthy = false ∧ u = [] ∧ x = .ok .none) ∨
    (guild.isTruthy = true ∧ Fault.digitLimit < digits.length ∧ u = [] ∧
      x = .error (.tooManyDigits digits.length)) ∨
    (guild.isTruthy = true ∧ digits.length ≤ Fault.digitLimit ∧
      ∃ calls, Makes g u calls ∧ LooksUp guild (digitsValue digits.toList) calls x) := by
  intro guild
  unfold resolve at trace
  extract_lets guild' user at trace
  split at trace
  case isTrue untruthy =>
    obtain ⟨rfl, rfl⟩ := Program.traces_done_iff.1 trace
    exact .inl ⟨by simpa using untruthy, rfl, rfl⟩
  case isFalse truthy =>
    replace truthy : guild.isTruthy = true := by simpa using truthy
    split at trace
    case isTrue long =>
      obtain ⟨rfl, rfl⟩ := Program.traces_done_iff.1 trace
      exact .inr (.inl ⟨truthy, long, rfl, rfl⟩)
    case isFalse short =>
      refine .inr (.inr ⟨truthy, Nat.not_lt.1 short, ?_⟩)
      rw [Engine.runScript_bind] at trace
      obtain ⟨a, b, found, rfl, first, rest⟩ := Program.traces_bind_iff.1 trace
      have called : Makes g (a ++ []) [.known guild user found] :=
        .call (c := .known guild user found) first .none
      cases found with
      | error f =>
        obtain ⟨rfl, rfl⟩ := Program.traces_done_iff.1 rest
        exact ⟨_, called, .broken f⟩
      | ok member =>
        dsimp only at rest
        split at rest
        case isTrue known =>
          obtain ⟨rfl, rfl⟩ := Program.traces_done_iff.1 rest
          exact ⟨_, called, .known known⟩
        case isFalse missed => exact looksUp_of_ask (by simpa using missed) first rest

/-- The token mentions this user, in a guild and with no more digits than the limit allows. -/
def Names (guild : Value) (token : String) (user : Nat) : Prop :=
  guild.isTruthy = true ∧ ∃ ds, Argument.MentionText token.toList ds ∧ ds.length ≤ Fault.digitLimit ∧
    user = Nat.ofDigits 10 (ds.reverse.map digitValue)

/-- The calls that may be made for a token. -/
inductive Asked (guild : Value) (token : String) : List Call → Prop where
  | nothing (nameless : ∀ user, ¬ Names guild token user) : Asked guild token []
  | once {user : Nat} {result : Except Fault Value} (names : Names guild token user)
      (truthy : ∀ member, result = .ok member → member.isTruthy = true) :
      Asked guild token [.known guild user result]
  | twice {user : Nat} {missed : Value} {result : Except Fault Value} (names : Names guild token user)
      (untruthy : missed.isTruthy = false) :
      Asked guild token [.known guild user (.ok missed), .fetch guild user result]

/-- The calls for a token find a member: one that is known and counts as true, or one that is fetched
after no such member was known. -/
def Finds (guild : Value) (token : String) (calls : List Call) (member : Value) : Prop :=
  ∃ user, Names guild token user ∧
    (calls = [.known guild user (.ok member)] ∧ member.isTruthy = true ∨
      ∃ missed, calls = [.known guild user (.ok missed), .fetch guild user (.ok member)] ∧
        missed.isTruthy = false ∧ member ≠ .none)

theorem LooksUp.asked {calls : List Call} (h : LooksUp guild user calls x)
    (names : Names guild token user) : Asked guild token calls := by
  cases h with
  | broken f => exact .once names nofun
  | known truthy => exact .once names fun _ same => Except.ok.inj same ▸ truthy
  | fetched untruthy | absent untruthy | refused untruthy => exact .twice names untruthy

theorem LooksUp.finds_iff {calls : List Call} {member : Value} (h : LooksUp guild user calls x)
    (names : Names guild token user) :
    Finds guild token calls member ↔ x = .ok member ∧ member ≠ .none := by
  have something {v : Value} (truthy : v.isTruthy = true) : v ≠ .none := by
    rintro rfl
    cases truthy
  constructor
  · rintro ⟨_, -, ⟨rfl, truthy⟩ | ⟨missed, rfl, untruthy, present⟩⟩
    · cases h
      exact ⟨rfl, something truthy⟩
    · cases h
      exact ⟨rfl, present⟩
  · rintro ⟨rfl, present⟩
    cases h with
    | known truthy => exact ⟨user, names, .inl ⟨rfl, truthy⟩⟩
    | fetched untruthy => exact ⟨user, names, .inr ⟨_, rfl, untruthy, present⟩⟩
    | absent => exact absurd rfl present

theorem not_finds_nil {member : Value} : ¬ Finds guild token [] member := by
  rintro ⟨_, -, ⟨⟨⟩, -⟩ | ⟨_, ⟨⟩, -⟩⟩

theorem LooksUp.ordinary {calls : List Call} {f : Fault} (h : LooksUp guild user calls (.error f))
    (only : ∀ c ∈ calls, ∀ f, c.result = .error f → f.isOrdinary = true) : f.isOrdinary = true := by
  cases h with
  | broken => exact only _ List.mem_cons_self f rfl
  | refused => exact only _ (List.mem_cons_of_mem _ List.mem_cons_self) f rfl

section reached
variable {host : Host σ} {h : Hook} {message : Option Message} {slot : Slot}

/-- What the parser of a slot for a member asks of the gateway, and what it makes of that. -/
structure Answers (g : Gateway σ) (guild : Value) (token : String)
    (u : List (Exchange (engineInterface σ))) (x : Except Fault Value) (calls : List Call) : Prop where
  made : Makes g u calls
  asked : Asked guild token calls
  found : ∀ member, Finds guild token calls member ↔ x = .ok member
  ordinary : ∀ f, x = .error f → (∀ c ∈ calls, ∀ f, c.result = .error f → f.isOrdinary = true) →
    f.isOrdinary = true

theorem Answers.uncalled {f : Fault} (nameless : ∀ user, ¬ Names guild token user)
    (ordinary : f.isOrdinary = true) : Answers g guild token [] (.error f) [] where
  made := .none
  asked := .nothing nameless
  found _ := iff_of_false not_finds_nil nofun
  ordinary _ same _ := Except.error.inj same ▸ ordinary

/-- What a lookup returns is handed on, but that there is no member is a refusal of the token. -/
def HandsOn (id : String) (y x : Except Fault Value) : Prop :=
  (y = .ok .none ∧ x = .error (.unknownMember id)) ∨ (y ≠ .ok .none ∧ x = y)

theorem LooksUp.answers {calls : List Call} {y : Except Fault Value} {id : String}
    (h : LooksUp guild user calls y) (names : Names guild token user) (made : Makes g u calls)
    (handed : HandsOn id y x) : Answers g guild token u x calls := by
  refine ⟨made, h.asked names, fun member => (h.finds_iff names).trans ?_, fun f failed only => ?_⟩
  · obtain ⟨rfl, rfl⟩ | ⟨present, rfl⟩ := handed
    · simp [eq_comm]
    · exact and_iff_left_of_imp fun same absent => present (absent ▸ same)
  · obtain ⟨rfl, rfl⟩ | ⟨present, rfl⟩ := handed
    · cases failed
      rfl
    · subst failed
      exact h.ordinary only

theorem traces_member (looks : host.resolve h = g.resolve) {ds : List Char}
    (text : Argument.MentionText token.toList ds)
    (trace : ((ArgumentParser.member (.hook h)).run host message slot token).Traces u x) :
    ∃ y, (Engine.runScript (g.resolve (String.ofList ds) message)).Traces u y ∧
      HandsOn (String.ofList ds) y x := by
  have read : Argument.readMention token = .ok (String.ofList ds) :=
    Argument.readMention_eq_ok_iff.2 (by simpa using text)
  simp only [ArgumentParser.run, read, looks] at trace
  obtain ⟨a, b, y, rfl, looked, rest⟩ := Program.traces_bind_iff.1 trace
  have ends : b = [] ∧ HandsOn (String.ofList ds) y x := by
    clear looked
    split at rest
    · obtain ⟨rfl, rfl⟩ := Program.traces_done_iff.1 rest
      exact ⟨rfl, .inl ⟨rfl, rfl⟩⟩
    · rename_i other
      obtain ⟨rfl, rfl⟩ := Program.traces_done_iff.1 rest
      exact ⟨rfl, .inr ⟨other, rfl⟩⟩
  obtain ⟨rfl, handed⟩ := ends
  exact ⟨y, by simpa using looked, handed⟩

theorem exists_answers (looks : host.resolve h = g.resolve)
    (trace : ((ArgumentParser.member (.hook h)).run host message slot token).Traces u x) :
    ∃ calls, Answers g ((message.map (·.guild)).getD .none) token u x calls := by
  -- nothing is asked before the token has been read, the guild is there and the limit is kept
  by_cases mentioned : ∃ ds, Argument.MentionText token.toList ds
  · obtain ⟨ds, text⟩ := mentioned
    obtain ⟨y, looked, handed⟩ := traces_member looks text trace
    rcases looksUp_of_resolve looked with ⟨untruthy, rfl, rfl⟩ | ⟨-, long, rfl, rfl⟩ |
      ⟨truthy, short, calls, made, up⟩
    · have nameless : ∀ user, ¬ Names ((message.map (·.guild)).getD .none) token user :=
        fun _ names => Bool.false_ne_true (untruthy.symm.trans names.1)
      obtain ⟨-, rfl⟩ | ⟨present, -⟩ := handed
      · exact ⟨[], .uncalled nameless rfl⟩
      · exact absurd rfl present
    · have nameless : ∀ user, ¬ Names ((message.map (·.guild)).getD .none) token user := by
        rintro _ ⟨_, ds', text', short, _⟩
        rw [String.length_ofList, text.unique text'] at long
        exact absurd long (Nat.not_lt.2 short)
      obtain ⟨⟨⟩, -⟩ | ⟨-, rfl⟩ := handed
      exact ⟨[], .uncalled nameless rfl⟩
    · rw [String.length_ofList] at short
      rw [String.toList_ofList, digitsValue_eq_ofDigits] at up
      exact ⟨calls, up.answers ⟨truthy, ds, text, short, rfl⟩ made handed⟩
  · have unread := Argument.readMention_of_no_text (not_exists.1 mentioned)
    simp only [ArgumentParser.run, unread] at trace
    obtain ⟨rfl, rfl⟩ := Program.traces_done_iff.1 trace
    refine ⟨[], .uncalled ?_ rfl⟩
    rintro _ ⟨-, ds, text, -⟩
    exact mentioned ⟨ds, text⟩

/-- A slot for a member that the binding comes to is bound to a member exactly if the token mentions a user
in the guild of the message and the calls for that user find the member. Only what was not known is
fetched, nothing is asked for more than once, and nothing for a token that mentions nobody there. If no call
ends with a fault that no handler stops, then in every other case the slot and the token are reported. -/
theorem mentions_exact {σ : Type} {host : Host σ} {g : Gateway σ} {h : Hook}
    (looks : host.resolve h = g.resolve) {table : ParserTable} {message : Option Message}
    {slots later : List Slot} {slot : Slot} {token : String} {tokens others : List String}
    {v w : List (Exchange (engineInterface σ))} {r : Except BindingError (Assoc Value)}
    (reached : Argument.Reaches host table message slots tokens v slot token later others)
    (found : table.parser? slot.tag = some (.member (.hook h)))
    (trace : (Argument.bind host table message slots tokens).Traces (v ++ w) r) :
    let guild := (message.map (·.guild)).getD .none
    ∃ a b calls, w = a ++ b ∧ Makes g a calls ∧ Asked guild token calls ∧
      (∀ member, Finds guild token calls member →
        (∀ d, r = .ok d → slot.name ∉ later.map (·.name) → d.find? slot.name = some member) ∧
          ∀ s token' f, r = .error (.invalid s token' f) → s ∈ later) ∧
      ((∀ c ∈ calls, ∀ f, c.result = .error f → f.isOrdinary = true) →
        (∃ member, Finds guild token calls member) ∨ ∃ f, r = .error (.invalid slot token f)) := by
  intro guild
  obtain ⟨a, b, x, split, -, parsed, decides⟩ :=
    reached.decided (y := []) (u := w) found trace (List.append_nil _)
  obtain ⟨calls, answers⟩ := exists_answers looks parsed
  refine ⟨a, b, calls, List.append_cancel_left split, answers.made, answers.asked, ?_, ?_⟩
  · intro member finds
    obtain rfl := (answers.found member).1 finds
    exact decides
  · intro only
    cases x with
    | ok member => exact .inl ⟨member, (answers.found member).2 rfl⟩
    | error f =>
      obtain ⟨e, rfl, refused⟩ := decides
      obtain ⟨-, rfl⟩ | ⟨fatal, -⟩ := refused.error
      · exact .inr ⟨f, rfl⟩
      · exact absurd (answers.ordinary f rfl only) (by simp [fatal])

end reached

def strangersGateway : Gateway Unit where
  known _ _ := .done (.ok .none)
  fetch _ _ := .ask (.effect .wait) .done

def strangersHost : Host Unit := { Host.silent with resolve := fun _ => strangersGateway.resolve }

def whoSlot : Slot := { name := "who", tag := some "GuildMember" }

def greetAnn : Message where
  content := some "greet <@!١2>"
  reply := .closed
  guild := .int 5

def annFetched : List (Exchange (engineInterface Unit)) := [⟨.effect .wait, .ok (.text "Ann")⟩]

theorem annFetched_traces : (Argument.bind strangersHost
    (ParserTable.standard true (.hook default)) (some greetAnn) [whoSlot] ["<@!١2>"]).Traces annFetched
      (.ok [("who", .text "Ann")]) :=
  .ask (.done _)

theorem annFetched_only {a : List (Exchange (engineInterface Unit))} {calls : List Call}
    (made : Makes strangersGateway a calls) (part : a <+: annFetched) {c : Call} (hc : c ∈ calls) {f : Fault}
    (failed : c.result = .error f) : f.isOrdinary = true := by
  obtain ⟨u, inside, called⟩ := made.mem hc
  rw [failed] at called
  cases c with
  | known guild user result => cases (Program.traces_done_iff.1 called).2
  | fetch guild user result =>
    obtain ⟨x, v, rfl, ended⟩ := Program.traces_ask_iff.1 called
    obtain ⟨rfl, rfl⟩ := Program.traces_done_iff.1 ended
    have mem := part.subset (inside.subset List.mem_cons_self)
    simp [annFetched] at mem

/-- The member that is fetched is bound. -/
theorem annFetched_found : ∃ a calls, a <+: annFetched ∧ Makes strangersGateway a calls ∧
    Finds (.int 5) "<@!١2>" calls (.text "Ann") := by
  obtain ⟨a, b, calls, split, made, -, bound, failed⟩ := mentions_exact (g := strangersGateway) rfl
    (.here rfl) rfl (v := []) annFetched_traces
  have part : a <+: annFetched := ⟨b, split.symm⟩
  obtain ⟨member, finds⟩ | ⟨f, ⟨⟩⟩ := failed fun c hc f => annFetched_only made part hc
  have same := (bound member finds).1 _ rfl List.not_mem_nil
  obtain rfl : Value.text "Ann" = member := Option.some.inj same
  exact ⟨a, calls, part, made, finds⟩

end Gateway
end ChatCommands

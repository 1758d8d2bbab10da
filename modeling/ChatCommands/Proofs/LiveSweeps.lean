import Mathlib
import ChatCommands.Proofs.MiddlewareEdits

set_option autoImplicit false

/-!
# Sweeps while middleware come and go

A sweep goes from index to index through a list that may change meanwhile. So it has
rounds, each from one fetch to the next, in which other threads do something too. A
middleware that is in the list just once all the while is called once, with two
exceptions: the sweep is over before it comes to it, or in the round just before its
own one is taken away that is not behind the index. Then it moves to the index that
has been dealt with, and is missed.
-/
namespace ChatCommands
variable {σ : Type} {env : Surroundings σ}

/-- The middleware that are there at the moment. -/
def Moment.middleware (d : Moment σ) : List Middleware := d.before.shared.subscribers.middleware

theorem split_of_own_cons {k : Nat} {seg u : List (Moment σ)} {a : Moment σ} (h : own k seg = a :: u) :
    ∃ others rest, seg = others ++ a :: rest ∧ own k others = [] ∧ a.thread = k ∧ own k rest = u := by
  obtain ⟨others, rest, rfl, none, mine, rfl⟩ := List.filter_eq_cons_iff.1 h
  exact ⟨others, rest, rfl, own_eq_nil fun d hd => by simpa using none d hd, by simpa using mine, rfl⟩

theorem split_of_own_append {k : Nat} {seg t u : List (Moment σ)} (h : own k seg = t ++ u) :
    ∃ before after, seg = before ++ after ∧ own k before = t ∧ own k after = u :=
  List.filter_eq_append_iff.1 h

theorem idxOf_of_getElem? {m : Middleware} {ms : List Middleware} {index : Nat} (once : ms.count m = 1)
    (found : ms[index]? = some m) : ms.idxOf m = index := by
  obtain ⟨inside, rfl⟩ := List.getElem?_eq_some_iff.1 found
  have split := List.take_append_drop index ms
  rw [List.drop_eq_getElem_cons inside] at split
  have first : ms[index] ∉ ms.take index := by
    have counts := congrArg (List.count ms[index]) split
    rw [List.count_append, List.count_cons_self, once] at counts
    exact List.count_eq_zero.1 (by omega)
  have place := congrArg (List.idxOf ms[index]) split
  rw [List.idxOf_append_of_notMem first, List.idxOf_cons_self, List.length_take] at place
  omega

namespace Event
variable {i index : Nat} {phase : Phase} {event : String} {m : Middleware} {ms : List Middleware}

/-- One round of a sweep: the middleware at the index is fetched and called, and then the sweep is over or asks
for what follows. Others may do something meanwhile. -/
structure Round (env : Surroundings σ) (i : Nat) (phase : Phase) (event : String) (index : Nat) (v : Visit)
    (round : List (Moment σ)) : Prop where
  deeds : ∃ b rest call closing, round = b :: rest ∧ b.thread = i ∧ b.deed = .asks (.middlewareAt index) ∧
    b.middleware[index]? = some v.middleware ∧ own i rest = call ++ closing ∧
    Plays env (v.middleware.call env.host phase v.given) call (some (v.result, v.left)) ∧
    ∀ d ∈ closing, (∃ n, d.deed = .asks (.effect (.note n))) ∨
      ∃ context, d.deed = .asks (.sweep phase event (index + 1) context)

/-- The rounds of a sweep from an index on. There is one for each call, and one more if the sweep has come to
the end of the list. -/
inductive Rounds (env : Surroundings σ) (i : Nat) (phase : Phase) (event : String) :
    Nat → List Visit → List (List (Moment σ)) → Prop where
  | ended {index : Nat} {b : Moment σ} {rest : List (Moment σ)} (mine : b.thread = i)
      (fetches : b.deed = .asks (.middlewareAt index)) (none : b.middleware[index]? = none)
      (nothing : own i rest = []) : Rounds env i phase event index [] [b :: rest]
  | last {index : Nat} {v : Visit} {round : List (Moment σ)}
      (here : Round env i phase event index v round) (ends : ∃ x, v.ending? phase = some x) :
      Rounds env i phase event index [v] [round]
  | next {index : Nat} {v : Visit} {vs : List Visit} {round : List (Moment σ)}
      {rounds : List (List (Moment σ))} (here : Round env i phase event index v round)
      (goesOn : v.ending? phase = none) (rest : Rounds env i phase event (index + 1) vs rounds) :
      Rounds env i phase event index (v :: vs) (round :: rounds)

/-- In the round of the index, while this middleware is the next one, one that is not behind the index is
taken away. -/
def Overtakes (m : Middleware) (index : Nat) (round : List (Moment σ)) : Prop :=
  ∃ d ∈ round, ∃ y, d.deed = .asks (.effect (.edit (.uninstall y))) ∧ d.middleware.idxOf y ≤ index ∧
    d.middleware.idxOf m = index + 1

/-- The sweep misses the middleware: it is overtaken in a round, or it is still behind when a call ends the
sweep. -/
inductive Missed (phase : Phase) (m : Middleware) : Nat → List Visit → List (List (Moment σ)) → Prop where
  | overtaken {index : Nat} {v : Visit} {vs : List Visit} {round : List (Moment σ)}
      {rounds : List (List (Moment σ))} (overtakes : Overtakes m index round) :
      Missed phase m index (v :: vs) (round :: rounds)
  | behind {index : Nat} {v : Visit} {vs : List Visit} {b : Moment σ} {rest : List (Moment σ)}
      {rounds : List (List (Moment σ))} (ends : ∃ x, v.ending? phase = some x)
      (behind : index < b.middleware.idxOf m) : Missed phase m index (v :: vs) ((b :: rest) :: rounds)
  | later {index : Nat} {v : Visit} {vs : List Visit} {round : List (Moment σ)}
      {rounds : List (List (Moment σ))} (rest : Missed phase m (index + 1) vs rounds) :
      Missed phase m index (v :: vs) (round :: rounds)

/-- How often the sweep has called the middleware. -/
def calls (m : Middleware) (vs : List Visit) : Nat := (vs.map (·.middleware)).count m

/-! ### Where a middleware stands -/

/-- A deed moves the middleware by one place if it takes one away in front of it, and else not at all. -/
theorem idxOf_edits {d : Deed σ} (once : ms.count m = 1) (still : (d.edits ms).count m = 1) :
    (d.edits ms).idxOf m = ms.idxOf m ∧
        (∀ y, d = .asks (.effect (.edit (.uninstall y))) → ¬ ms.idxOf y < ms.idxOf m) ∨
      ∃ y, d = .asks (.effect (.edit (.uninstall y))) ∧ ms.idxOf y < ms.idxOf m ∧
        (d.edits ms).idxOf m + 1 = ms.idxOf m := by
  have mem : m ∈ ms := List.count_pos_iff.1 (by omega)
  unfold Deed.edits at still ⊢
  split at still
  case h_1 y => exact .inl ⟨List.idxOf_append_of_mem mem, nofun⟩
  case h_2 y =>
    have other : m ≠ y := by
      rintro rfl
      rw [List.count_erase_self] at still
      omega
    rcases idxOf_erase other mem with ⟨stays, behind⟩ | ⟨front, moves⟩
    · refine .inl ⟨stays, ?_⟩
      rintro _ ⟨⟩ front
      have there : y ∈ ms := List.idxOf_lt_length_iff.1 (front.trans (List.idxOf_lt_length_of_mem mem))
      exact absurd (behind there) (by omega)
    · exact .inr ⟨y, rfl, front, moves⟩
  case h_3 none => exact .inl ⟨rfl, fun y same => absurd same (none y)⟩

/-- Along moments the middleware moves forward only, and it is overtaken in them if they move it from behind
the index to the index or in front of it. -/
theorem overtakes_iff (index : Nat) {s t : List (Moment σ)} {e : Moment σ} (evolves : Evolves ms (s ++ e :: t))
    (once : ∀ d ∈ s ++ e :: t, d.middleware.count m = 1) : e.middleware.idxOf m ≤ ms.idxOf m ∧
      (Overtakes m index s ↔ e.middleware.idxOf m ≤ index ∧ index < ms.idxOf m) := by
  induction s generalizing ms with
  | nil =>
    have same : e.middleware = ms := evolves.1
    rw [same]
    refine ⟨le_rfl, ?_, fun between => by omega⟩
    rintro ⟨_, ⟨⟩, -⟩
  | cons d s ih =>
    obtain ⟨same, evolves⟩ := evolves
    have here : ms.count m = 1 := same ▸ once d (by simp)
    have still : (d.deed.edits ms).count m = 1 := by
      cases s with
      | nil => exact evolves.1 ▸ once e (by simp)
      | cons d' s => exact evolves.1 ▸ once d' (by simp)
    obtain ⟨le, iff⟩ := ih evolves fun d hd => once d (List.mem_cons_of_mem _ hd)
    have split : Overtakes m index (d :: s) ↔ (∃ y, d.deed = .asks (.effect (.edit (.uninstall y))) ∧
        ms.idxOf y ≤ index ∧ ms.idxOf m = index + 1) ∨ Overtakes m index s := by
      have same : d.middleware = ms := same
      simp only [Overtakes, List.mem_cons, exists_eq_or_imp, same]
    rw [split, iff]
    -- a step of one place crosses the index either here or in the rest
    rcases idxOf_edits here still with ⟨stays, none⟩ | ⟨y, deed, front, moves⟩
    · refine ⟨by omega, ?_, fun between => .inr (by omega)⟩
      rintro (⟨y, deed, le, next⟩ | between)
      · exact absurd (by omega) (none y deed)
      · omega
    · refine ⟨by omega, ?_, fun between => ?_⟩
      · rintro (⟨-, -, -, next⟩ | between) <;> omega
      · by_cases next : ms.idxOf m = index + 1
        · exact .inl ⟨y, deed, by omega, next⟩
        · exact .inr (by omega)

theorem Overtakes.behind {s : List (Moment σ)} (h : Overtakes m index s) (evolves : Evolves ms s)
    (once : ∀ d ∈ s, d.middleware.count m = 1) : index < ms.idxOf m := by
  obtain ⟨d, mem, -, -, -, next⟩ := h
  obtain ⟨before, after, rfl⟩ := List.append_of_mem mem
  have moves := (overtakes_iff index evolves once).1
  omega

/-! ### What a sweep calls -/

theorem Round.called_iff {v : Visit} {b : Moment σ} {rest : List (Moment σ)}
    (h : Round env i phase event index v (b :: rest)) (once : b.middleware.count m = 1) :
    v.middleware = m ↔ b.middleware.idxOf m = index := by
  obtain ⟨_, _, _, _, split, -, -, fetched, -⟩ := h.deeds
  obtain ⟨rfl, rfl⟩ := List.cons.inj split
  constructor
  · rintro rfl
    exact idxOf_of_getElem? once fetched
  · rintro rfl
    have mem : m ∈ b.middleware := List.count_pos_iff.1 (by omega)
    exact Option.some.inj (fetched.symm.trans (List.getElem?_idxOf mem))

theorem Round.begins {v : Visit} {round : List (Moment σ)} (h : Round env i phase event index v round) :
    ∃ b rest, round = b :: rest := by
  obtain ⟨b, rest, _, _, rfl, -⟩ := h.deeds
  exact ⟨b, rest, rfl⟩

theorem Rounds.begins {vs : List Visit} {rounds : List (List (Moment σ))}
    (h : Rounds env i phase event index vs rounds) : ∃ b rest later, rounds = (b :: rest) :: later := by
  cases h with
  | ended => exact ⟨_, _, _, rfl⟩
  | last here | next here =>
    obtain ⟨b, rest, rfl⟩ := here.begins
    exact ⟨b, rest, _, rfl⟩

theorem calls_cons (m : Middleware) (v : Visit) (vs : List Visit) :
    calls m (v :: vs) = calls m vs + if v.middleware = m then 1 else 0 := by
  simp [calls, List.count_cons]

theorem missed_cons_iff {v : Visit} {vs : List Visit} {b : Moment σ} {rest : List (Moment σ)}
    {rounds : List (List (Moment σ))} : Missed phase m index (v :: vs) ((b :: rest) :: rounds) ↔
      Overtakes m index (b :: rest) ∨ (∃ x, v.ending? phase = some x) ∧ index < b.middleware.idxOf m ∨
        Missed phase m (index + 1) vs rounds := by
  constructor
  · rintro (overtakes | ⟨ends, behind⟩ | rest)
    · exact .inl overtakes
    · exact .inr (.inl ⟨ends, behind⟩)
    · exact .inr (.inr rest)
  · rintro (overtakes | ⟨ends, behind⟩ | rest)
    · exact .overtaken overtakes
    · exact .behind ends behind
    · exact .later rest

/-- A sweep does not come back to a middleware in front of its index. One that is not in front is called once,
or missed. -/
theorem Rounds.called {vs : List Visit} {rounds : List (List (Moment σ))}
    (h : Rounds env i phase event index vs rounds) (evolves : Evolves ms rounds.flatten)
    (once : ∀ d ∈ rounds.flatten, d.middleware.count m = 1) :
    (ms.idxOf m < index → calls m vs = 0 ∧ ¬ Missed phase m index vs rounds) ∧
    (index ≤ ms.idxOf m → calls m vs = 1 ∧ ¬ Missed phase m index vs rounds ∨
      calls m vs = 0 ∧ Missed phase m index vs rounds) := by
  induction h generalizing ms with
  | @ended index b rest _ _ none _ =>
    have same : b.middleware = ms := evolves.1
    have here : b.middleware.count m = 1 := once b (by simp)
    have mem : m ∈ ms := List.count_pos_iff.1 (by rw [← same, here]; exact Nat.one_pos)
    have inside := List.idxOf_lt_length_of_mem mem
    rw [same, List.getElem?_eq_none_iff] at none
    exact ⟨fun _ => ⟨rfl, nofun⟩, fun _ => by omega⟩
  | @last index v round here ends =>
    obtain ⟨b, rest, rfl⟩ := here.begins
    rw [List.flatten_singleton] at evolves once
    have same : b.middleware = ms := evolves.1
    have called := same ▸ here.called_iff (once b (by simp))
    have missed : Missed phase m index [v] [b :: rest] ↔ index < ms.idxOf m := by
      rw [missed_cons_iff, same]
      constructor
      · rintro (overtakes | ⟨-, behind⟩ | ⟨⟨⟩⟩)
        · exact overtakes.behind evolves once
        · exact behind
      · exact fun behind => .inr (.inl ⟨ends, behind⟩)
    have none : calls m [] = 0 := rfl
    rw [missed, calls_cons, none, if_congr called rfl rfl]
    split <;> omega
  | @next index v vs round rounds here goesOn later ih =>
    obtain ⟨b, rest, rfl⟩ := here.begins
    obtain ⟨e, t, others, rfl⟩ := later.begins
    rw [List.flatten_cons] at evolves once
    have same : b.middleware = ms := evolves.1
    have called := same ▸ here.called_iff (once b (by simp))
    obtain ⟨moves, overtakes⟩ := overtakes_iff index evolves once
    obtain ⟨-, evolves⟩ := evolves_append.1 evolves
    have next : e.middleware = editedBy (b :: rest) ms := evolves.1
    obtain ⟨passed, ahead⟩ := ih evolves fun d hd => once d (List.mem_append_right _ hd)
    rw [← next] at passed ahead
    have missed : Missed phase m index (v :: vs) ((b :: rest) :: (e :: t) :: others) ↔
        (e.middleware.idxOf m ≤ index ∧ index < ms.idxOf m) ∨
          Missed phase m (index + 1) vs ((e :: t) :: others) := by
      rw [missed_cons_iff, overtakes, goesOn]
      simp
    rw [missed, calls_cons, if_congr called rfl rfl]
    -- it moves forward only: once it is called it has been passed by the next round, and one that is ahead is
    -- passed there exactly if it was overtaken in this one
    rcases lt_trichotomy (ms.idxOf m) index with less | rfl | more
    · obtain ⟨uncalled, unmissed⟩ := passed (by omega)
      rw [if_neg less.ne]
      exact ⟨fun _ => ⟨uncalled, not_or.2 ⟨by omega, unmissed⟩⟩, fun le => absurd le (by omega)⟩
    · obtain ⟨uncalled, unmissed⟩ := passed (by omega)
      rw [if_pos rfl, uncalled]
      exact ⟨fun less => absurd less (by omega), fun _ => .inl ⟨rfl, not_or.2 ⟨by omega, unmissed⟩⟩⟩
    · rw [if_neg more.ne', Nat.add_zero]
      refine ⟨fun less => absurd less (by omega), fun _ => ?_⟩
      by_cases overtaken : e.middleware.idxOf m ≤ index
      · exact .inr ⟨(passed (by omega)).1, .inl ⟨overtaken, more⟩⟩
      · simpa [overtaken] using ahead (by omega)

/-! ### The rounds of a sweep in the record -/

theorem Fetches.split {context : EventContext} {a b : Moment σ} {seg u : List (Moment σ)}
    (h : Fetches phase event index context a b) (mine : own i seg = a :: b :: u) :
    ∃ front rest, seg = front ++ b :: rest ∧
      (∀ d ∈ own i front, d.deed = .asks (.sweep phase event index context)) ∧ b.thread = i ∧
      own i rest = u := by
  obtain ⟨before, rest, rfl, idle, thread, mine⟩ := split_of_own_cons mine
  obtain ⟨between, rest, rfl, idle', thread', mine⟩ := split_of_own_cons mine
  refine ⟨before ++ a :: between, rest, by simp, fun d hd => ?_, thread', mine⟩
  rw [own_append, own_cons, idle, idle', if_pos thread, List.nil_append, List.mem_singleton] at hd
  exact hd ▸ h.1

theorem Visits.Calls.round {a b : Moment σ} {t closing : List (Moment σ)} {v : Visit}
    (calls : Visits.Calls env phase event index a b t v) (thread : b.thread = i) (rest : List (Moment σ))
    (mine : own i rest = t ++ closing)
    (closes : ∀ d ∈ closing, (∃ n, d.deed = .asks (.effect (.note n))) ∨
      ∃ context, d.deed = .asks (.sweep phase event (index + 1) context)) :
    Round env i phase event index v (b :: rest) :=
  ⟨b, rest, t, closing, rfl, thread, calls.fetches.2, calls.fetched, mine, calls.plays, closes⟩

/-- Whatever others do meanwhile, a sweep has its rounds. -/
theorem Visits.rounds {context : EventContext} {t seg : List (Moment σ)} {vs : List Visit}
    {x : Except Fault Swept} (h : Visits env phase event index context t vs x) (mine : own i seg = t) :
    ∃ front rounds, seg = front ++ rounds.flatten ∧
      (∀ d ∈ own i front, d.deed = .asks (.sweep phase event index context)) ∧
      Rounds env i phase event index vs rounds := by
  induction h generalizing seg with
  | ended fetches none =>
    obtain ⟨front, rest, rfl, asks, thread, nothing⟩ := fetches.split mine
    exact ⟨front, [_ :: rest], by simp, asks, .ended thread fetches.2 none nothing⟩
  | passed calls returned passes _ ih =>
    obtain ⟨front, rest, rfl, asks, thread, mine⟩ := calls.fetches.split mine
    obtain ⟨t, u, rfl, called, later⟩ := split_of_own_append mine
    obtain ⟨again, rounds, rfl, asks', whole⟩ := ih later
    have here := calls.round thread (t ++ again) (by rw [own_append, called])
      fun d hd => .inr ⟨_, asks' d hd⟩
    exact ⟨front, _ :: rounds, by simp, asks, .next here (Visit.ending?_of_passes returned passes) whole⟩
  | stopped calls returned before stops noted =>
    obtain ⟨front, rest, rfl, asks, thread, mine⟩ := calls.fetches.split mine
    have here := calls.round thread rest mine (List.forall_mem_singleton.2 (.inl ⟨_, noted⟩))
    exact ⟨front, [_ :: rest], by simp, asks,
      .last here ⟨_, Visit.ending?_of_stops returned before stops⟩⟩
  | raised calls raised ordinary noted _ ih =>
    obtain ⟨front, rest, rfl, asks, thread, mine⟩ := calls.fetches.split mine
    obtain ⟨t, u, rfl, called, later⟩ := split_of_own_append mine
    obtain ⟨between, u, rfl, idle, thread', later⟩ := split_of_own_cons later
    obtain ⟨again, rounds, rfl, asks', whole⟩ := ih later
    have here := calls.round thread (t ++ (between ++ _ :: again))
      (by rw [own_append, own_append, own_cons, if_pos thread', idle, called, List.nil_append])
      (List.forall_mem_cons.2 ⟨.inl ⟨_, noted⟩, fun d hd => .inr ⟨_, asks' d hd⟩⟩)
    exact ⟨front, _ :: rounds, by simp, asks, .next here (Visit.ending?_of_ordinary raised ordinary) whole⟩
  | broken calls raised fatal =>
    obtain ⟨front, rest, rfl, asks, thread, mine⟩ := calls.fetches.split mine
    have here := calls.round thread rest (by rw [mine, List.append_nil]) (List.forall_mem_nil _)
    exact ⟨front, [_ :: rest], by simp, asks, .last here ⟨_, Visit.ending?_of_fatal raised fatal⟩⟩

/-- However the sweep lies in the record, it has its rounds there, and a middleware that is in the list just
once in all of them is called once, or missed. -/
structure Live (env : Surroundings σ) (log : List (Moment σ)) (i : Nat) (phase : Phase) (event : String)
    (t : List (Moment σ)) (vs : List Visit) : Prop where
  recorded : ∃ lead seg tail, log = lead ++ (seg ++ tail) ∧ own i seg = t
  called : ∀ lead seg tail, log = lead ++ (seg ++ tail) → own i seg = t →
    ∃ front rounds, seg = front ++ rounds.flatten ∧
      (∀ d ∈ own i front, ∃ context, d.deed = .asks (.sweep phase event 0 context)) ∧
      Rounds env i phase event 0 vs rounds ∧
      ∀ m, (∀ d ∈ rounds.flatten, d.middleware.count m = 1) →
        calls m vs = 1 ∧ ¬ Missed phase m 0 vs rounds ∨ calls m vs = 0 ∧ Missed phase m 0 vs rounds

theorem Visits.live {context : EventContext} {log t : List (Moment σ)} {vs : List Visit}
    {x : Except Fault Swept} (h : Visits env phase event 0 context t vs x) (evolves : Evolves ms log)
    (before after : List (Moment σ)) (mine : own i log = before ++ (t ++ after)) : Live env log i phase event t vs where
  recorded := by
    obtain ⟨lead, rest, rfl, -, mine⟩ := split_of_own_append mine
    obtain ⟨seg, tail, rfl, mine, -⟩ := split_of_own_append mine
    exact ⟨lead, seg, tail, rfl, mine⟩
  called := by
    rintro lead seg tail rfl mine
    obtain ⟨front, rounds, rfl, asks, whole⟩ := h.rounds mine
    refine ⟨front, rounds, rfl, fun d hd => ⟨_, asks d hd⟩, whole, fun m once => ?_⟩
    rw [evolves_append, evolves_append, evolves_append] at evolves
    exact (whole.called evolves.2.1.2 once).2 (Nat.zero_le _)

/-- What becomes of an event that has passed the middleware: it is not yet over, or it has failed before the
middleware were to be called again, or they were, and a law holds of that. -/
inductive Returns (env : Surroundings σ) (event : String) (law : List (Moment σ) → List Visit → Prop) :
    List (Moment σ) → Option (Except Fault Unit) → Prop where
  | underWay (t : List (Moment σ)) : Returns env event law t none
  | failed {t : List (Moment σ)} {f : Fault}
      (unswept : ∀ d ∈ t, ∀ context, d.deed ≠ .asks (.sweep .after event 0 context)) :
      Returns env event law t (some (.error f))
  | returned {t u : List (Moment σ)} {context : EventContext} {vs : List Visit} {x : Except Fault Swept}
      (visits : Visits env .after event 0 context u vs x) (holds : law u vs) :
      Returns env event law (t ++ u) (some (x.map fun _ => ()))

theorem gatherFaults_muted (host : Host σ) (event : String) (context : EventContext)
    (results : List (Hook × Except Fault Value)) :
    gatherFaults host.muted event context results = gatherFaults host event context results := by
  induction results generalizing context with
  | nil => rfl
  | cons e results ih =>
    simp only [gatherFaults, ih]
    rfl

theorem unswept_gatherFaults {context : EventContext} {results : List (Hook × Except Fault Value)}
    {t : List (Moment σ)} {o : Option (Except Fault EventContext)}
    (h : Plays env (gatherFaults env.host event context results) t o) :
    ∀ d ∈ t, ∀ context, d.deed ≠ .asks (.sweep .after event 0 context) := by
  have plain := effects_gatherFaults env.host.muted_within event context results
  rw [gatherFaults_muted] at plain
  intro d hd context asks
  exact h.uses (fun r q plain expands => by cases expands <;> exact plain.elim) plain d hd _ asks

theorem returns_of_plays {listeners : List Hook} {arguments : List Value} {options : Assoc Value}
    {context : EventContext} {later : List (Moment σ)} {o : Option (Except Fault Unit)}
    {law : List (Moment σ) → List Visit → Prop}
    (holds : ∀ t u c vs x, later = t ++ u → Visits env .after event 0 c u vs x → law u vs)
    (h : Plays env (deliver env.host event listeners arguments options context) later o) :
    Returns env event law later o := by
  have ended {f : Fault} {t : List (Moment σ)} (plays : Plays env (.done (.error f)) t o) :
      t = [] ∧ (o = none ∨ o = some (.error f)) := by
    cases plays with
    | pause => exact ⟨rfl, .inl rfl⟩
    | done => exact ⟨rfl, .inr rfl⟩
  unfold deliver notify at h
  split at h
  case isTrue =>
    obtain ⟨rfl, rfl | rfl⟩ := ended h
    · exact .underWay _
    · exact .failed (by simp)
  case isFalse =>
    rcases Plays.of_notify h with ⟨rfl, rfl⟩ | ⟨n, asks, ⟨rfl, rfl⟩ | ⟨n', xs, u, rfl, hears, plays⟩⟩
    · exact .underWay _
    · exact .underWay _
    have unswept : ∀ d ∈ [n, n'], ∀ context, d.deed ≠ .asks (.sweep .after event 0 context) := by
      simp [asks, hears]
    cases xs with
    | error f =>
      obtain ⟨rfl, rfl | rfl⟩ := ended plays
      · exact .underWay _
      · exact .failed unswept
    | ok results =>
      rcases plays.of_bind with ⟨rfl, -⟩ | ⟨t, u, gathered, rfl, gathers, plays⟩
      · exact .underWay _
      cases gathered with
      | error f =>
        obtain ⟨rfl, rfl | rfl⟩ := ended plays
        · exact .underWay _
        · exact .failed (t := [n, n'] ++ (t ++ [])) fun d hd => by
            rcases List.mem_append.1 hd with hd | hd
            · exact unswept d hd
            · exact unswept_gatherFaults gathers d (by simpa using hd)
      | ok c =>
        rcases plays.of_bind with ⟨rfl, -⟩ | ⟨u, v, x, rfl, sweep, plays⟩
        · exact .underWay _
        cases plays with
        | pause => exact .underWay _
        | done =>
          obtain ⟨vs, visits⟩ := visits_of_plays sweep
          have part : n :: n' :: (t ++ (u ++ [])) = (n :: n' :: t) ++ u := by simp
          rw [part]
          exact .returned visits (holds _ _ _ _ _ part visits)

/-- Both sweeps of an emission are live. -/
structure LivesThrough (env : Surroundings σ) (log : List (Moment σ)) (i : Nat) (event : String)
    (arguments : List Value) (options : Assoc Value) (t : List (Moment σ)) (_ : List Hook) (vs : List Visit)
    (x : Except Fault Swept) (later : List (Moment σ)) (o : Option (Except Fault Unit)) : Prop where
  before : ∃ a u, t = a :: (u ++ later) ∧ a.deed = .asks (.listeners event) ∧
    Visits env .before event 0 (context event arguments options) u vs x ∧ Live env log i .before event u vs
  after : ∀ context, x = .ok ⟨context, false⟩ →
    Returns env event (fun u vs => Live env log i .after event u vs) later o

end Event

namespace World
variable {permitted : Act σ → Prop} {first w : World σ} {log : List (Moment σ)}

/-- Whatever middleware come and go while an event is emitted, those that are there just once all the while are
called once before the listeners and once after them, unless they are missed. -/
theorem Records.live_sweeps (threads : first.threads = []) (run : Records env permitted [] first log w)
    (patient : ∀ a, permitted a → a.Patient) (keeps : ∀ a, permitted a → a.KeepsMiddleware) {i : Nat}
    {m : Moment σ} {before after : List (Moment σ)} (split : own i log = before ++ m :: after)
    {event : String} {arguments : List Value} {options : Assoc Value}
    (emits : m.deed = .asks (.effect (.emit event arguments options)))
    (outlet : env.dispatcher.events.check "emit" = .ok ()) :
    ∃ t rest o, after = t ++ rest ∧ (o = none → rest = [] ∧ ∀ r, w.state? i ≠ some (.finished r)) ∧
      Event.Course env event arguments options
        (Event.LivesThrough env log i event arguments options t) t o := by
  obtain ⟨t, rest, o, rfl, unfinished, course⟩ := run.emission_course threads patient split emits outlet
  have evolves := (run.evolves keeps outlet).1
  refine ⟨t, rest, o, rfl, unfinished, course.imp ?_⟩
  rintro pre listeners vs x later o rfl prepared goesOn
  obtain ⟨a, u, rfl, looks, -, visits⟩ := prepared.deeds
  refine ⟨⟨a, u, rfl, looks, visits, ?_⟩, ?_⟩
  · exact visits.live evolves (before ++ [m, a]) (later ++ rest) (by simp [split])
  · rintro context rfl
    refine Event.returns_of_plays ?_ goesOn
    rintro t' u' c vs' x' rfl visits'
    exact visits'.live evolves (before ++ m :: (a :: u ++ t')) rest (by simp [split])

/-- The first middleware takes itself away before the listeners. -/
def pealHost : Host Unit where
  __ := Host.silent
  middleware h phase :=
    if h = ⟨0⟩ ∧ phase = .before then
      .ask (.effect (.edit (.uninstall (.hook ⟨0⟩)))) fun _ => .done (.ok .none)
    else .done (.ok .none)

def pealEnv : Surroundings Unit := ⟨pealHost, { registry := ⟨[]⟩ }⟩

def pealWorld : World Unit where
  shared := { host := (), clock := default, subscribers := { middleware := [.hook ⟨0⟩, .hook ⟨1⟩] } }

def pealing : Script Unit Unit :=
  .ask (.effect (.emit "peal" [] [])) fun r => .done (r.map fun _ => .none)

def pealRun : List (Moment Unit) × World Unit :=
  World.follow pealEnv (some (.perform pealing) :: List.replicate 20 none) [] pealWorld

theorem pealRun_recorded :
    Records pealEnv (fun a => a.Patient ∧ a.KeepsMiddleware) [] pealWorld pealRun.1 pealRun.2 := by
  refine Records.start.follow fun a ha => ?_
  obtain rfl : a = .perform pealing := by simpa [List.mem_replicate] using ha
  exact ⟨trivial, trivial⟩

/-- Both sweeps come to their end. -/
theorem peal_lives : ∃ b m t rest o, own 0 pealRun.1 = [b] ++ m :: (t ++ rest) ∧
    m.deed = .asks (.effect (.emit "peal" [] [])) ∧ o ≠ none ∧
    Event.Course pealEnv "peal" [] [] (Event.LivesThrough pealEnv pealRun.1 0 "peal" [] [] t) t o := by
  obtain ⟨b, m, after, split, emits⟩ : ∃ b m after, own 0 pealRun.1 = [b] ++ m :: after ∧
      m.deed = .asks (.effect (.emit "peal" [] [])) := ⟨_, _, _, rfl, rfl⟩
  obtain ⟨t, rest, o, rfl, unfinished, course⟩ := Records.live_sweeps rfl pealRun_recorded
    (fun _ h => h.1) (fun _ h => h.2) split emits rfl
  exact ⟨b, m, t, rest, o, split, emits, fun none => (unfinished none).2 _ rfl, course⟩

/-- The second middleware is there all the while and is not called before the listeners, though nothing has
stopped the event. -/
theorem peal_missed : ∃ b m a u later vs context,
    own 0 pealRun.1 = [b] ++ m :: (a :: (u ++ later)) ∧ m.deed = .asks (.effect (.emit "peal" [] [])) ∧
    a.deed = .asks (.listeners "peal") ∧
    Event.Visits pealEnv .before "peal" 0 (Event.context "peal" [] []) u vs (.ok ⟨context, false⟩) ∧
    (∀ d ∈ pealRun.1, d.middleware.count (.hook ⟨1⟩) = 1) ∧ Event.calls (.hook ⟨1⟩) vs = 0 := by
  obtain ⟨b, m, a, s, g, e, s', g', later, split, emits, looks, sweeps, fetches, edits, sweeps', fetches',
      found⟩ :
      ∃ b m a s g e s' g' later, own 0 pealRun.1 = [b] ++ m :: (a :: ([s, g, e, s', g'] ++ later)) ∧
        m.deed = .asks (.effect (.emit "peal" [] [])) ∧ a.deed = .asks (.listeners "peal") ∧
        s.deed = .asks (.sweep .before "peal" 0 (Event.context "peal" [] [])) ∧
        g.deed = .asks (.middlewareAt 0) ∧
        e.deed = .asks (.effect (.edit (.uninstall (.hook ⟨0⟩)))) ∧
        s'.deed = .asks (.sweep .before "peal" 1 (Event.context "peal" [] [])) ∧
        g'.deed = .asks (.middlewareAt 1) ∧
        [g, g'].map (·.before.shared.subscribers.middleware) = [[.hook ⟨0⟩, .hook ⟨1⟩], [.hook ⟨1⟩]] :=
    ⟨_, _, _, _, _, _, _, _, _, rfl, rfl, rfl, rfl, rfl, rfl, rfl, rfl, rfl⟩
  simp only [List.map_cons, List.map_nil, List.cons.injEq, and_true] at found
  obtain ⟨found, gone⟩ := found
  let v : Event.Visit :=
    ⟨.hook ⟨0⟩, Event.context "peal" [] [], .ok .none, Event.context "peal" [] []⟩
  have calls : Event.Visits.Calls pealEnv .before "peal" 0 s g [e] v :=
    ⟨⟨sweeps, fetches⟩, by rw [found]; rfl, .answered edits (.edit _) (.done _)⟩
  have ended : Event.Visits pealEnv .before "peal" 1 v.left [s', g'] [] (.ok ⟨v.left, false⟩) :=
    .ended ⟨sweeps', fetches'⟩ (by rw [gone]; rfl)
  have once : ∀ ms ∈ pealRun.1.map Moment.middleware, ms.count (.hook ⟨1⟩) = 1 := by decide
  exact ⟨b, m, a, _, later, [v], _, split, emits, looks, .passed calls rfl (fun _ => rfl) ended,
    fun d hd => once _ (List.mem_map_of_mem hd), rfl⟩

end World
end ChatCommands

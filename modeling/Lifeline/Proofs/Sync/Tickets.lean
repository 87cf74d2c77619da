import Lifeline.Sync.Timer
import Mathlib.Data.List.Induction
import Mathlib.Data.List.Nodup

/-! The tickets of a timer, told from what has been done to it.

A history keeps every operation on a timer with its answer. Which ticket is current, what fires and what
is finished in time depends on the history alone: a ticket stands from its scheduling to the first entry
that ends it. -/

set_option autoImplicit false

namespace Lifeline.Timer

inductive Operation where
  | schedule (deadline : Nat)
  | cancel
  | takeDue (now : Nat)
  | finish (ticket : Ticket) (now : Nat)
  deriving DecidableEq, Repr

inductive Entry where
  | scheduled (ticket : Ticket) (deadline : Nat)
  | cancelled
  | looked (now : Nat) (fired : Option Ticket)
  | finished (ticket : Ticket) (now : Nat) (inTime : Bool)
  deriving DecidableEq, Repr

namespace Entry

def handed? : Entry → Option Ticket
  | scheduled ticket _ => some ticket
  | _ => none

def fired? : Entry → Option Ticket
  | looked _ fired => fired
  | _ => none

/-- Whether a ticket that was current before is not any more: it has been superseded or cancelled, or has
fired, or is settled. -/
def Ends (ticket : Ticket) : Entry → Prop
  | scheduled _ _ | cancelled => True
  | looked _ fired => fired.isSome = true
  | finished settled _ _ => settled = ticket

end Entry

def perform (timer : Timer) : Operation → Entry × Timer
  | .schedule deadline =>
    let (ticket, timer) := timer.schedule deadline
    (.scheduled ticket deadline, timer)
  | .cancel => (.cancelled, timer.cancel)
  | .takeDue now =>
    let (fired, timer) := timer.takeDue now
    (.looked now fired, timer)
  | .finish ticket now =>
    let (inTime, timer) := timer.finish ticket now
    (.finished ticket now inTime, timer)

def record (run : List Entry × Timer) (operation : Operation) : List Entry × Timer :=
  (run.1 ++ [(run.2.perform operation).1], (run.2.perform operation).2)

def run (operations : List Operation) : List Entry × Timer := operations.foldl record ([], empty)

def history (operations : List Operation) : List Entry := (run operations).1

def after (operations : List Operation) : Timer := (run operations).2

def tickets (past : List Entry) : List Ticket := past.filterMap Entry.handed?

def fired (past : List Entry) : List Ticket := past.filterMap Entry.fired?

/-- Whether a ticket was handed out for a deadline and nothing has ended it since. -/
def Stands (past : List Entry) (ticket : Ticket) (deadline : Nat) : Prop :=
  ∃ before since, past = before ++ .scheduled ticket deadline :: since ∧
    ∀ entry ∈ since, ¬entry.Ends ticket

variable {past before since : List Entry} {entry : Entry} {ticket other : Ticket}
  {deadline now : Nat} {timer : Timer}

/-! ## Histories -/

theorem tickets_append (before since : List Entry) :
    tickets (before ++ since) = tickets before ++ tickets since := List.filterMap_append

theorem fired_append (before since : List Entry) :
    fired (before ++ since) = fired before ++ fired since := List.filterMap_append

theorem tickets_scheduled (past : List Entry) (ticket : Ticket) (deadline : Nat) :
    tickets (past ++ [.scheduled ticket deadline]) = (tickets past).concat ticket := by
  rw [tickets_append, List.concat_eq_append]
  rfl

theorem fired_looked (past : List Entry) (now : Nat) (ticket : Ticket) :
    fired (past ++ [.looked now (some ticket)]) = (fired past).concat ticket := by
  rw [fired_append, List.concat_eq_append]
  rfl

theorem not_stands_nil : ¬Stands [] ticket deadline := by
  rintro ⟨before, since, same, -⟩
  exact absurd same.symm (by simp)

theorem concat_eq_append_cons {first : Entry} :
    past ++ [entry] = before ++ first :: since ↔
      (past = before ∧ entry = first ∧ since = []) ∨
        ∃ rest, past = before ++ first :: rest ∧ since = rest ++ [entry] := by
  constructor
  · intro same
    rcases List.eq_nil_or_concat since with rfl | ⟨rest, last, rfl⟩
    · obtain ⟨rfl, ends⟩ := List.append_inj' same rfl
      exact .inl ⟨rfl, (List.cons.inj ends).1, rfl⟩
    · rw [List.concat_eq_append, ← List.cons_append, ← List.append_assoc] at same
      obtain ⟨rfl, ends⟩ := List.append_inj' same rfl
      exact .inr ⟨rest, rfl, by rw [List.concat_eq_append, (List.cons.inj ends).1]⟩
  · rintro (⟨rfl, rfl, rfl⟩ | ⟨rest, rfl, rfl⟩)
    · rfl
    · simp

theorem stands_concat : Stands (past ++ [entry]) ticket deadline ↔
    entry = .scheduled ticket deadline ∨ Stands past ticket deadline ∧ ¬entry.Ends ticket := by
  constructor
  · rintro ⟨before, since, same, lasts⟩
    rcases concat_eq_append_cons.1 same with ⟨-, rfl, -⟩ | ⟨rest, rfl, rfl⟩
    · exact .inl rfl
    · rw [List.forall_mem_append, List.forall_mem_singleton] at lasts
      exact .inr ⟨⟨before, rest, rfl, lasts.1⟩, lasts.2⟩
  · rintro (rfl | ⟨⟨before, since, rfl, lasts⟩, remains⟩)
    · exact ⟨past, [], rfl, by simp⟩
    · refine ⟨before, since ++ [entry], by simp, ?_⟩
      rw [List.forall_mem_append, List.forall_mem_singleton]
      exact ⟨lasts, remains⟩

theorem Stands.mem_tickets (stands : Stands past ticket deadline) : ticket ∈ tickets past := by
  obtain ⟨before, since, rfl, -⟩ := stands
  rw [tickets_append]
  exact List.mem_append_right _ List.mem_cons_self

/-- Nothing has ended a ticket that stands. As no ticket is handed out twice, this is about the one
scheduling that it was handed out for. -/
theorem Stands.lasts (stands : Stands (before ++ since) ticket deadline)
    (distinct : (tickets (before ++ since)).Nodup) (known : ticket ∈ tickets before) :
    ∀ entry ∈ since, ¬entry.Ends ticket := by
  rw [tickets_append, List.nodup_append] at distinct
  have once : ticket ∉ tickets since := fun again => distinct.2.2 ticket known ticket again rfl
  obtain ⟨first, rest, same, lasts⟩ := stands
  rcases List.append_eq_append_iff.1 same with ⟨between, rfl, rfl⟩ | ⟨between, rfl, later⟩
  -- A scheduling behind the place where the ticket is known would hand it out again.
  · rw [tickets_append] at once
    exact absurd (List.mem_append_right _ List.mem_cons_self) once
  · cases between with
    | nil =>
      rw [List.nil_append] at later
      rw [← later] at once
      exact absurd List.mem_cons_self once
    | cons scheduled between =>
      rw [List.cons_append] at later
      rw [(List.cons.inj later).2] at lasts
      exact fun entry member => lasts entry (List.mem_append_right _ member)

theorem Stands.latest (stands : Stands past ticket deadline) :
    (tickets past).getLast? = some ticket := by
  obtain ⟨before, since, rfl, lasts⟩ := stands
  have none : tickets since = [] := by
    rw [tickets, List.filterMap_eq_nil_iff]
    intro entry member
    cases entry with
    | scheduled => exact absurd trivial (lasts _ member)
    | _ => rfl
  rw [tickets_append, show tickets (.scheduled ticket deadline :: since) = ticket :: tickets since from rfl,
    none, List.getLast?_concat]

def FiresInTime (past : List Entry) : Prop :=
  ∀ before now ticket since, past = before ++ .looked now (some ticket) :: since →
    ∃ deadline, Stands before ticket deadline ∧ deadline ≤ now

theorem fires_of_mem (member : ticket ∈ fired past) :
    ∃ before now since, past = before ++ .looked now (some ticket) :: since := by
  obtain ⟨entry, inside, same⟩ := List.mem_filterMap.1 member
  obtain ⟨before, since, rfl⟩ := List.append_of_mem inside
  cases entry with
  | looked now fired => exact ⟨before, now, since, by rw [← show fired = some ticket from same]⟩
  | _ => cases same

/-- What has fired does not stand, so it does not fire again. -/
theorem nodup_fired (distinct : (tickets past).Nodup) (inTime : FiresInTime past) :
    (fired past).Nodup := by
  induction past using List.reverseRecOn with
  | nil => exact List.nodup_nil
  | append_singleton past entry ih =>
    have distinct' : (tickets past).Nodup := by
      rw [tickets_append] at distinct
      exact distinct.of_append_left
    have inTime' : FiresInTime past := fun before now ticket since same =>
      inTime before now ticket (since ++ [entry]) (by simp [same])
    cases fires : entry.fired? with
    | none =>
      have idle : fired [entry] = [] := List.filterMap_cons_none fires
      rw [fired_append, idle, List.append_nil]
      exact ih distinct' inTime'
    | some ticket =>
      obtain ⟨now, rfl⟩ : ∃ now, entry = .looked now (some ticket) := by
        cases entry with
        | looked now fired => exact ⟨now, by rw [← show fired = some ticket from fires]⟩
        | _ => cases fires
      obtain ⟨deadline, stands, -⟩ := inTime past now ticket [] rfl
      rw [fired_looked]
      refine (ih distinct' inTime').concat fun again => ?_
      obtain ⟨before, earlier, since, rfl⟩ := fires_of_mem again
      obtain ⟨_, known, -⟩ := inTime' before earlier ticket since rfl
      exact stands.lasts distinct' known.mem_tickets _ List.mem_cons_self rfl

/-! ## A timer and its history -/

/-- What ties a timer to its history. -/
structure Tracks (past : List Entry) (timer : Timer) : Prop where
  numbers : ∀ ticket ∈ tickets past, ticket.number ≤ timer.number
  distinct : (tickets past).Nodup
  stands : ∀ ticket deadline, Stands past ticket deadline ↔
    timer.deadline = some deadline ∧ ticket.number = timer.number

theorem tracks_empty : Tracks [] empty where
  numbers _ member := absurd member List.not_mem_nil
  distinct := List.nodup_nil
  stands _ _ := iff_of_false not_stands_nil (by simp [empty])

theorem takeDue_cases (timer : Timer) (now : Nat) :
    (timer.takeDue now = (none, timer) ∧ ∀ deadline, timer.deadline = some deadline → now < deadline) ∨
      ∃ deadline, timer.deadline = some deadline ∧ deadline ≤ now ∧
        timer.takeDue now = (some ⟨timer.number⟩, { timer with deadline := none }) := by
  unfold takeDue
  split
  · rename_i absent
    exact .inl ⟨rfl, by simp [absent]⟩
  · rename_i deadline present
    split
    · rename_i early
      refine .inl ⟨rfl, fun other same => ?_⟩
      rw [present, Option.some.injEq] at same
      rwa [← same]
    · rename_i late
      exact .inr ⟨deadline, present, Nat.not_lt.1 late, rfl⟩

theorem number_le_cancel (timer : Timer) : timer.number ≤ timer.cancel.number := by
  unfold cancel
  split
  · exact Nat.le_succ _
  · exact Nat.le_refl _

theorem finish_of_stale (stale : timer.isCurrent ticket = false) (now : Nat) :
    timer.finish ticket now = (false, timer) := if_neg (by simp [stale])

namespace Tracks

theorem isCurrent_iff (tracks : Tracks past timer) :
    timer.isCurrent ticket = true ↔ ∃ deadline, Stands past ticket deadline := by
  simp [Timer.isCurrent_iff, tracks.stands, Option.isSome_iff_exists]

theorem unique (tracks : Tracks past timer) {deadline' : Nat} (stands : Stands past ticket deadline)
    (stands' : Stands past other deadline') : ticket = other := by
  have first := ((tracks.stands _ _).1 stands).2
  have second := ((tracks.stands _ _).1 stands').2
  cases ticket
  cases other
  exact congrArg Ticket.mk (first.trans second.symm)

theorem schedule (tracks : Tracks past timer) (deadline : Nat) :
    Tracks (past ++ [.scheduled (timer.schedule deadline).1 deadline])
      (timer.schedule deadline).2 where
  numbers ticket member := by
    rw [tickets_scheduled, List.concat_eq_append] at member
    rcases List.mem_append.1 member with earlier | new
    · exact Nat.le_succ_of_le (tracks.numbers ticket earlier)
    · rw [List.mem_singleton.1 new]
      exact Nat.le_refl _
  distinct := by
    rw [tickets_scheduled]
    refine tracks.distinct.concat fun known => ?_
    have bound := tracks.numbers _ known
    exact Nat.not_succ_le_self _ bound
  stands ticket other := by
    rw [stands_concat, Entry.Ends, not_true_eq_false, and_false, or_false, Entry.scheduled.injEq]
    cases ticket
    simp [Timer.schedule, and_comm, eq_comm]

theorem keep {timer' : Timer} (tracks : Tracks past timer) (none : entry.handed? = none)
    (grows : timer.number ≤ timer'.number)
    (stands : ∀ ticket deadline, Stands past ticket deadline ∧ ¬entry.Ends ticket ↔
      timer'.deadline = some deadline ∧ ticket.number = timer'.number) :
    Tracks (past ++ [entry]) timer' := by
  have idle : tickets [entry] = [] := List.filterMap_cons_none none
  have same : tickets (past ++ [entry]) = tickets past := by
    rw [tickets_append, idle, List.append_nil]
  refine ⟨?_, ?_, fun ticket deadline => ?_⟩
  · rw [same]
    exact fun ticket known => Nat.le_trans (tracks.numbers ticket known) grows
  · rw [same]
    exact tracks.distinct
  · rw [stands_concat, or_iff_right, stands]
    rintro rfl
    cases none

theorem cancel (tracks : Tracks past timer) : Tracks (past ++ [.cancelled]) timer.cancel := by
  refine tracks.keep rfl (number_le_cancel timer) fun ticket deadline => ?_
  rw [deadline_cancel]
  exact iff_of_false (fun both => both.2 trivial) (by simp)

theorem takeDue (tracks : Tracks past timer) (now : Nat) :
    Tracks (past ++ [.looked now (timer.takeDue now).1]) (timer.takeDue now).2 := by
  rcases takeDue_cases timer now with ⟨same, -⟩ | ⟨deadline, -, -, same⟩ <;> rw [same]
  · refine tracks.keep rfl (Nat.le_refl _) fun ticket deadline => ?_
    rw [← tracks.stands]
    simp [Entry.Ends]
  · refine tracks.keep rfl (Nat.le_refl _) fun ticket deadline => ?_
    simp [Entry.Ends]

theorem finish (tracks : Tracks past timer) (settled : Ticket) (now : Nat) :
    Tracks (past ++ [.finished settled now (timer.finish settled now).1])
      (timer.finish settled now).2 := by
  by_cases current : timer.isCurrent settled = true
  · have done : (timer.finish settled now).2 = timer.cancel := by
      rw [Timer.finish, if_pos current]
    obtain ⟨deadline, stood⟩ := tracks.isCurrent_iff.1 current
    rw [done]
    refine tracks.keep rfl (number_le_cancel timer) fun ticket other => ?_
    rw [deadline_cancel]
    exact iff_of_false (fun both => both.2 (tracks.unique stood both.1)) (by simp)
  · rw [finish_of_stale (by simpa using current)]
    refine tracks.keep rfl (Nat.le_refl _) fun ticket deadline => ?_
    rw [← tracks.stands, and_iff_left_iff_imp]
    -- What is settled is not what stands.
    rintro stood rfl
    exact current (tracks.isCurrent_iff.2 ⟨deadline, stood⟩)

theorem perform (tracks : Tracks past timer) (operation : Operation) :
    Tracks (past ++ [(timer.perform operation).1]) (timer.perform operation).2 := by
  cases operation with
  | schedule deadline => exact tracks.schedule deadline
  | cancel => exact tracks.cancel
  | takeDue now => exact tracks.takeDue now
  | finish ticket now => exact tracks.finish ticket now

theorem takeDue_iff (tracks : Tracks past timer) :
    (timer.takeDue now).1 = some ticket ↔ ∃ deadline, Stands past ticket deadline ∧ deadline ≤ now := by
  simp only [tracks.stands]
  rcases takeDue_cases timer now with ⟨same, early⟩ | ⟨deadline, present, late, same⟩ <;> rw [same]
  · refine iff_of_false (by simp) ?_
    rintro ⟨deadline, ⟨present, -⟩, late⟩
    exact Nat.not_lt.2 late (early deadline present)
  · cases ticket
    simp [present, late, eq_comm]

theorem finish_iff (tracks : Tracks past timer) :
    (timer.finish ticket now).1 = true ↔ ∃ deadline, Stands past ticket deadline ∧ now < deadline := by
  by_cases current : timer.isCurrent ticket = true
  · have number := (Timer.isCurrent_iff.1 current).2
    rw [Timer.finish, if_pos current, Option.any_eq_true]
    simp [tracks.stands, number]
  · rw [finish_of_stale (by simpa using current)]
    refine iff_of_false Bool.false_ne_true ?_
    rintro ⟨deadline, stood, -⟩
    exact current (tracks.isCurrent_iff.2 ⟨deadline, stood⟩)

end Tracks

/-! ## Runs -/

theorem run_concat (operations : List Operation) (operation : Operation) :
    run (operations ++ [operation]) = record (run operations) operation := by
  rw [run, List.foldl_append]
  rfl

theorem tracks_run (operations : List Operation) :
    Tracks (history operations) (after operations) := by
  induction operations using List.reverseRecOn with
  | nil => exact tracks_empty
  | append_singleton operations operation ih =>
    rw [history, after, run_concat]
    exact ih.perform operation

theorem firesInTime_run (operations : List Operation) : FiresInTime (history operations) := by
  induction operations using List.reverseRecOn with
  | nil => exact fun before now ticket since same => absurd same (by simp [history, run])
  | append_singleton operations operation ih =>
    have tracks := tracks_run operations
    intro before now ticket since same
    rw [history, run_concat] at same
    rcases concat_eq_append_cons.1 same with ⟨rfl, fires, -⟩ | ⟨rest, earlier, -⟩
    · cases operation with
      | takeDue moment =>
        obtain ⟨rfl, fired⟩ := Entry.looked.inj fires
        exact tracks.takeDue_iff.1 fired
      | _ => cases fires
    · exact ih before now ticket rest earlier

/-- Behind any operations, at any times: tickets are told apart; the current one is the latest, if nothing
has ended it; none comes back; each fires once at most, with its own deadline behind it; and a ticket is
finished in time exactly if it is current and its deadline is still to come, and not at all otherwise. -/
theorem orderly_history (operations : List Operation) :
    (tickets (history operations)).Nodup ∧
      (∀ ticket, (after operations).isCurrent ticket = true ↔
        ∃ deadline, Stands (history operations) ticket deadline) ∧
      (∀ ticket, (after operations).isCurrent ticket = true →
        (tickets (history operations)).getLast? = some ticket) ∧
      (∀ before entry since ticket, history operations = before ++ entry :: since →
        ticket ∈ tickets before → entry.Ends ticket → (after operations).isCurrent ticket = false) ∧
      (fired (history operations)).Nodup ∧
      (∀ before now ticket since,
        history operations = before ++ .looked now (some ticket) :: since →
          ∃ deadline, Stands before ticket deadline ∧ deadline ≤ now) ∧
      (∀ ticket now, ((after operations).takeDue now).1 = some ticket ↔
        ∃ deadline, Stands (history operations) ticket deadline ∧ deadline ≤ now) ∧
      (∀ ticket now, ((after operations).finish ticket now).1 = true ↔
        ∃ deadline, Stands (history operations) ticket deadline ∧ now < deadline) ∧
      ∀ ticket now, (after operations).isCurrent ticket = false →
        (after operations).finish ticket now = (false, after operations) := by
  have tracks := tracks_run operations
  have inTime := firesInTime_run operations
  refine ⟨tracks.distinct, fun _ => tracks.isCurrent_iff, fun ticket current => ?_, ?_,
    nodup_fired tracks.distinct inTime, inTime, fun _ _ => tracks.takeDue_iff,
    fun _ _ => tracks.finish_iff, fun _ now stale => finish_of_stale stale now⟩
  · obtain ⟨deadline, stands⟩ := tracks.isCurrent_iff.1 current
    exact stands.latest
  · intro before entry since ticket same known ends
    rw [Bool.eq_false_iff]
    intro current
    obtain ⟨deadline, stands⟩ := tracks.isCurrent_iff.1 current
    have distinct := tracks.distinct
    rw [same] at stands distinct
    exact stands.lasts distinct known entry List.mem_cons_self ends

/-- The first ticket fires, and the third takes the place of the second, which ends too late. -/
def outpaced : List Operation :=
  [.schedule 100, .takeDue 120, .schedule 200, .schedule 300, .finish ⟨2⟩ 250]

theorem orderly_history_outpaced :
    history outpaced = [.scheduled ⟨1⟩ 100, .looked 120 (some ⟨1⟩), .scheduled ⟨2⟩ 200,
        .scheduled ⟨3⟩ 300, .finished ⟨2⟩ 250 false] ∧
      (after outpaced).isCurrent ⟨3⟩ = true ∧
      (tickets (history outpaced)).getLast? = some ⟨3⟩ ∧
      (∃ deadline, Stands (history outpaced) ⟨3⟩ deadline ∧ 299 < deadline) ∧
      (∃ deadline, Stands (history outpaced) ⟨3⟩ deadline ∧ deadline ≤ 300) ∧
      (∃ deadline, Stands [.scheduled ⟨1⟩ 100] ⟨1⟩ deadline ∧ deadline ≤ 120) ∧
      (after outpaced).isCurrent ⟨1⟩ = false ∧
      (after outpaced).finish ⟨1⟩ 120 = (false, after outpaced) := by
  have past : history outpaced = [.scheduled ⟨1⟩ 100, .looked 120 (some ⟨1⟩), .scheduled ⟨2⟩ 200,
    .scheduled ⟨3⟩ 300, .finished ⟨2⟩ 250 false] := by decide
  obtain ⟨-, -, latest, ended, -, inTime, fires, wins, stale⟩ := orderly_history outpaced
  have current : (after outpaced).isCurrent ⟨3⟩ = true := by decide
  have gone : (after outpaced).isCurrent ⟨1⟩ = false :=
    ended [.scheduled ⟨1⟩ 100] (.looked 120 (some ⟨1⟩)) _ ⟨1⟩ past (by decide) rfl
  exact ⟨past, current, latest ⟨3⟩ current, (wins ⟨3⟩ 299).1 (by decide), (fires ⟨3⟩ 300).1 (by decide),
    inTime [.scheduled ⟨1⟩ 100] 120 ⟨1⟩ _ past, gone, stale ⟨1⟩ 120 gone⟩

end Lifeline.Timer

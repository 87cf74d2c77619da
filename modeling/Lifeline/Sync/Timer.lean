/-! A slot for one deadline at a time.

Each scheduling supersedes the one before and hands out a ticket of its own. A ticket is current as
long as its scheduling is the latest one and has been neither cancelled nor fired nor settled. -/

set_option autoImplicit false

namespace Lifeline

structure Ticket where
  number : Nat
  deriving DecidableEq, Repr

/-- Times are in nanoseconds from some start. -/
structure Timer where
  /-- The number of the latest ticket, or a greater one if that has been cancelled. -/
  number : Nat
  deadline : Option Nat
  deriving DecidableEq, Repr

namespace Timer

def empty : Timer := ⟨0, none⟩

def schedule (timer : Timer) (deadline : Nat) : Ticket × Timer :=
  (⟨timer.number + 1⟩, ⟨timer.number + 1, some deadline⟩)

def cancel (timer : Timer) : Timer :=
  if timer.deadline.isSome then ⟨timer.number + 1, none⟩ else timer

def isPending (timer : Timer) : Bool := timer.deadline.isSome

def isCurrent (timer : Timer) (ticket : Ticket) : Bool :=
  timer.deadline.isSome && ticket.number == timer.number

def takeDue (timer : Timer) (now : Nat) : Option Ticket × Timer :=
  match timer.deadline with
  | none => (none, timer)
  | some deadline =>
    if now < deadline then (none, timer) else (some ⟨timer.number⟩, { timer with deadline := none })

/-- Settles a race between the work behind a ticket, which ends now, and the deadline. The work wins
before the deadline if its ticket is current. -/
def finish (timer : Timer) (ticket : Ticket) (now : Nat) : Bool × Timer :=
  if timer.isCurrent ticket then (timer.deadline.any (now < ·), timer.cancel) else (false, timer)

@[simp] theorem isCurrent_schedule (timer : Timer) (deadline : Nat) :
    (timer.schedule deadline).2.isCurrent (timer.schedule deadline).1 = true := by
  simp [schedule, isCurrent]

@[simp] theorem deadline_cancel (timer : Timer) : timer.cancel.deadline = none := by
  unfold cancel
  split
  · rfl
  · rename_i absent
    simpa using absent

theorem isCurrent_iff {timer : Timer} {ticket : Ticket} :
    timer.isCurrent ticket = true ↔ timer.deadline.isSome ∧ ticket.number = timer.number := by
  simp [isCurrent]

theorem isSome_takeDue_iff {timer : Timer} {now : Nat} :
    (timer.takeDue now).1.isSome = true ↔
      ∃ deadline, timer.deadline = some deadline ∧ deadline ≤ now := by
  unfold takeDue
  split
  · rename_i absent
    simp [absent]
  · rename_i deadline present
    by_cases early : now < deadline
    · simp [early, present]
    · simp [early, present, Nat.le_of_not_lt early]

end Timer

end Lifeline

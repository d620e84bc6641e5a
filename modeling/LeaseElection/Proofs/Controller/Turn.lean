import LeaseElection.Controller.Basic

/-!
# Turns of a controller

A controller takes a turn when it has reason to go on: it is resumed with a signal
and then waits again.  `Course` lists all turns there are, each with what it takes
and all that comes of it, so that whatever is true of every turn goes by cases on
it.  A `History` is a sequence of turns as an environment may bring them about that
answers what it likes, when it likes.
-/

namespace LeaseElection

namespace Controller

/-- Whether a controller in some phase may go on with a signal at `now`.  Any answer
may have come back, and one that lets others run goes on at any time. -/
inductive Due (now : Nat) (shutdown : Bool) : Phase → Signal → Prop where
  | signalled {phase : Phase} {s : Signal} (answer : Option Answer)
      (hsignal : signal? now shutdown answer phase = some s) : Due now shutdown phase s
  | resumed (completed taskOver : Bool) :
      Due now shutdown (.yielding completed) (.resumed taskOver)

/-- What a controller writes when its shutdown ends it in some phase. -/
def farewell? : Phase → Option Note
  | .starting _ => some .cancelledInDelay
  | .acquiring => some .cancelledInAttempt
  | .leading .. | .renewing .. => some .cancelledWhileLeading
  | .retrying _ => some .cancelledInWait
  | _ => none

/-- What a controller writes when an attempt brought no grant. -/
def missNote (a : Answer) : Note :=
  match a.refusal? with
  | some reason => .attemptFailed reason
  | none => .heldElsewhere

/-- What a controller writes when the last task is not over in time. -/
def overrunNotes (taskOver : Bool) : List Note :=
  if taskOver then [] else [.taskStillRunning]

/-- Every turn that a controller can take, by phase and signal. -/
inductive Course (id : ControllerId) (p : Policy) (now : Nat) :
    (shutdown : Bool) → Phase → Signal → Step → Prop where
  | begin (shutdown : Bool) : Course id p now shutdown .idle .begun
      (.starting (Instant.wake now p.delay),
        [.note (.starting p), .note (.moved .idle .waiting)])
  | first {wake : Nat} (hdue : wake ≤ now) :
      Course id p now false (.starting wake) .elapsed (attempt id)
  | again {wake : Nat} (hdue : wake ≤ now) :
      Course id p now false (.retrying wake) .elapsed (attempt id)
  | win {a : Answer} {token : LockToken} {ticker : Ticker} (hgrant : a.grant? = some token)
      (hticker : Ticker.start? now p.renewal = some ticker) :
      Course id p now false .acquiring (.answered a) (.leading ⟨token, now⟩ ticker,
        [.note (.acquired token), .note (.moved .attempting .leading), .startTask token])
  | fail {a : Answer} {token : LockToken} (hgrant : a.grant? = some token)
      (hticker : Ticker.start? now p.renewal = none) :
      Course id p now false .acquiring (.answered a) (.failed,
        [.note (.acquired token), .note (.moved .attempting .leading), .startTask token,
          .cancelTask])
  | miss {a : Answer} (hgrant : a.grant? = none) :
      Course id p now false .acquiring (.answered a)
        (retry p now, [.note (missNote a), .note (.moved .attempting .waiting)])
  | renew {reign : Reign} {ticker : Ticker} (hdue : ticker.wake ≤ now) :
      Course id p now false (.leading reign ticker) .elapsed
        (.renewing reign (ticker.advance now), [.note .renewing, .call .renew])
  | keep {reign : Reign} {ticker : Ticker} {a : Answer} (hanswer : a.refusal? = none) :
      Course id p now false (.renewing reign ticker) (.answered a) (.leading reign ticker, [])
  | lose {reign : Reign} {ticker : Ticker} {a : Answer} {reason : LockError}
      (hanswer : a.refusal? = some reason) :
      Course id p now false (.renewing reign ticker) (.answered a)
        (.cooling (Instant.wake now p.delay),
          [.note (.lost reason reign.token (reign.heldMillis now)), .cancelTask,
            .note (.moved .leading .waiting)])
  | cool {wake : Nat} (hdue : wake ≤ now) :
      Course id p now false (.cooling wake) .elapsed (.yielding true, [])
  | interrupt {wake : Nat} : Course id p now true (.cooling wake) .cancelled (.yielding false, [])
  | rest (shutdown taskOver : Bool) :
      Course id p now shutdown (.yielding true) (.resumed taskOver)
        (retry p now, (overrunNotes taskOver).map Action.note)
  | leave (shutdown taskOver : Bool) :
      Course id p now shutdown (.yielding false) (.resumed taskOver)
        (stop .waiting (overrunNotes taskOver))
  | quit {phase : Phase} {note : Note} (hnote : farewell? phase = some note) :
      Course id p now true phase .cancelled (stop phase.state [note])

/-- A wait is cut short by shutdown, or it is over. -/
theorem signal_of_wait {wake now : Nat} {shutdown : Bool} {s : Signal}
    (hsignal : (if shutdown then some Signal.cancelled
      else if wake ≤ now then some .elapsed else none) = some s) :
    shutdown = true ∧ s = .cancelled ∨ shutdown = false ∧ wake ≤ now ∧ s = .elapsed := by
  cases shutdown with
  | true =>
      cases hsignal
      exact Or.inl ⟨rfl, rfl⟩
  | false =>
      simp only [Bool.false_eq_true, if_false, Option.ite_none_right_eq_some,
        Option.some.injEq] at hsignal
      exact Or.inr ⟨rfl, hsignal.1, hsignal.2.symm⟩

/-- A call is dropped on shutdown, or it was answered. -/
theorem signal_of_call {shutdown : Bool} {answer : Option Answer} {s : Signal}
    (hsignal : (if shutdown then some Signal.cancelled else answer.map .answered) = some s) :
    shutdown = true ∧ s = .cancelled ∨
      shutdown = false ∧ ∃ a, answer = some a ∧ s = .answered a := by
  cases shutdown with
  | true =>
      cases hsignal
      exact Or.inl ⟨rfl, rfl⟩
  | false =>
      obtain ⟨a, hanswer, rfl⟩ := Option.map_eq_some_iff.mp hsignal
      exact Or.inr ⟨rfl, a, hanswer, rfl⟩

theorem wait_eq_none_iff {wake now : Nat} {shutdown : Bool} :
    (if shutdown then some Signal.cancelled else if wake ≤ now then some .elapsed else none) =
      none ↔ shutdown = false ∧ now < wake := by
  cases shutdown <;> simp

theorem call_eq_none_iff {shutdown : Bool} {answer : Option Answer} :
    (if shutdown then some Signal.cancelled else answer.map .answered) = none ↔
      shutdown = false ∧ answer = none := by
  cases shutdown <;> simp

/-- The answer to an attempt decides between leading and waiting. -/
theorem course_of_attempt (id : ControllerId) (p : Policy) (now : Nat) (a : Answer) :
    Course id p now false .acquiring (.answered a) (resume id p now .acquiring (.answered a)) := by
  simp only [resume]
  cases hgrant : a.grant? with
  | none =>
      have hmiss : Course id p now false .acquiring (.answered a)
          (retry p now, [.note (missNote a), .note (.moved .attempting .waiting)]) :=
        .miss hgrant
      cases hrefusal : a.refusal? with
      | none => simpa only [missNote, hrefusal] using hmiss
      | some reason => simpa only [missNote, hrefusal] using hmiss
  | some token =>
      cases hticker : Ticker.start? now p.renewal with
      | none =>
          simp only [lead, hticker]
          exact .fail hgrant hticker
      | some ticker =>
          simp only [lead, hticker]
          exact .win hgrant hticker

/-- The answer to a renewal decides between going on and giving up. -/
theorem course_of_renewal (id : ControllerId) (p : Policy) (now : Nat) (reign : Reign)
    (ticker : Ticker) (a : Answer) :
    Course id p now false (.renewing reign ticker) (.answered a)
      (resume id p now (.renewing reign ticker) (.answered a)) := by
  simp only [resume]
  cases hrefusal : a.refusal? with
  | none => exact .keep hrefusal
  | some reason => exact .lose hrefusal

/-- A controller that may go on takes one of these turns. -/
theorem course_of_due {now : Nat} {shutdown : Bool} {phase : Phase} {s : Signal}
    (hdue : Due now shutdown phase s) (id : ControllerId) (p : Policy) :
    Course id p now shutdown phase s (resume id p now phase s) := by
  cases hdue with
  | resumed completed taskOver =>
      cases completed with
      | true => exact .rest shutdown taskOver
      | false => exact .leave shutdown taskOver
  | signalled answer hsignal =>
      cases phase with
      | idle =>
          cases hsignal
          exact .begin shutdown
      | starting wake =>
          rcases signal_of_wait hsignal with ⟨rfl, rfl⟩ | ⟨rfl, hwake, rfl⟩
          · exact .quit rfl
          · exact .first hwake
      | acquiring =>
          rcases signal_of_call hsignal with ⟨rfl, rfl⟩ | ⟨rfl, a, _, rfl⟩
          · exact .quit rfl
          · exact course_of_attempt id p now a
      | leading reign ticker =>
          rcases signal_of_wait hsignal with ⟨rfl, rfl⟩ | ⟨rfl, hwake, rfl⟩
          · exact .quit rfl
          · exact .renew hwake
      | renewing reign ticker =>
          rcases signal_of_call hsignal with ⟨rfl, rfl⟩ | ⟨rfl, a, _, rfl⟩
          · exact .quit rfl
          · exact course_of_renewal id p now reign ticker a
      | cooling wake =>
          rcases signal_of_wait hsignal with ⟨rfl, rfl⟩ | ⟨rfl, hwake, rfl⟩
          · exact .interrupt
          · exact .cool hwake
      | retrying wake =>
          rcases signal_of_wait hsignal with ⟨rfl, rfl⟩ | ⟨rfl, hwake, rfl⟩
          · exact .quit rfl
          · exact .again hwake
      | yielding completed => cases hsignal
      | stopped => cases hsignal
      | failed => cases hsignal

/-- A turn that was taken: when, whether the shutdown had fired by then, from which
phase and why, and what came of it. -/
structure Turn where
  time : Nat
  shutdown : Bool
  before : Phase
  signal : Signal
  outcome : Step
deriving DecidableEq

namespace Turn

def after (t : Turn) : Phase := t.outcome.1

def actions (t : Turn) : List Action := t.outcome.2

/-- The calls that were made in a turn. -/
def requests (t : Turn) : List Request :=
  t.actions.filterMap fun
    | .call r => some r
    | _ => none

/-- What was written in a turn. -/
def notes (t : Turn) : List Note :=
  t.actions.filterMap fun
    | .note n => some n
    | _ => none

/-- The token of the grant that a turn heard of, if it heard of one. -/
def grant? (t : Turn) : Option LockToken :=
  match t.before, t.signal with
  | .acquiring, .answered a => a.grant?
  | _, _ => none

/-- Whether a turn heard that a renewal went through. -/
def isRenewal (t : Turn) : Bool :=
  match t.before, t.signal with
  | .renewing .., .answered a => a.refusal?.isNone
  | _, _ => false

/-- The turn that a controller takes. -/
def take (id : ControllerId) (p : Policy) (now : Nat) (shutdown : Bool) (phase : Phase)
    (s : Signal) : Turn :=
  ⟨now, shutdown, phase, s, resume id p now phase s⟩

/-- A turn that a controller with this identity and pace can take. -/
def IsOf (t : Turn) (id : ControllerId) (p : Policy) : Prop :=
  Course id p t.time t.shutdown t.before t.signal t.outcome

theorem isOf_take {id : ControllerId} {p : Policy} {now : Nat} {shutdown : Bool}
    {phase : Phase} {s : Signal} (hdue : Due now shutdown phase s) :
    (take id p now shutdown phase s).IsOf id p :=
  course_of_due hdue id p

/-- A grant is heard in a call to acquire only. -/
theorem exists_answer_of_grant {t : Turn} (hgrant : t.grant? ≠ none) :
    ∃ a, t.before = .acquiring ∧ t.signal = .answered a ∧ a.grant? ≠ none := by
  rw [grant?] at hgrant
  split at hgrant
  · rename_i a hbefore hsignal
    exact ⟨a, hbefore, hsignal, hgrant⟩
  · exact absurd rfl hgrant

/-- Without a grant nobody begins to lead. -/
theorem before_of_leading {t : Turn} {id : ControllerId} {p : Policy} (hturn : t.IsOf id p)
    (hgrant : t.grant? = none) (hafter : t.after.state = .leading) :
    t.before.state = .leading := by
  obtain ⟨now, shutdown, before, signal, outcome⟩ := t
  change Course id p now shutdown before signal outcome at hturn
  cases hturn with
  | win hgranted | fail hgranted =>
      have hheard := hgranted.symm.trans hgrant
      cases hheard
  | renew | keep => rfl
  | _ => cases hafter

/-- Nobody leaves off leading but for its shutdown or a refused renewal. -/
theorem reason_to_leave {t : Turn} {id : ControllerId} {p : Policy} (hturn : t.IsOf id p)
    (hbefore : t.before.state = .leading) (hafter : t.after.state ≠ .leading) :
    t.shutdown = true ∨ ∃ reign ticker a, t.before = .renewing reign ticker ∧
      t.signal = .answered a ∧ a.refusal? ≠ none := by
  obtain ⟨now, shutdown, before, signal, outcome⟩ := t
  change Course id p now shutdown before signal outcome at hturn
  cases hturn with
  | quit => exact Or.inl rfl
  | lose hanswer =>
      refine Or.inr ⟨_, _, _, rfl, rfl, ?_⟩
      rw [hanswer]
      exact Option.some_ne_none _
  | renew | keep => exact absurd rfl hafter
  | _ => cases hbefore

end Turn

/-- The turns that a controller took, latest first, and the phase it is in since.
Time does not run back, and a shutdown that fired stays fired. -/
inductive History (id : ControllerId) (p : Policy) : List Turn → Phase → Prop where
  | begin : History id p [] .idle
  | turn {ts : List Turn} {phase : Phase} (past : History id p ts phase) {now : Nat}
      {shutdown : Bool} {s : Signal} (hdue : Due now shutdown phase s)
      (hlater : ∀ t ∈ ts, t.time ≤ now ∧ (t.shutdown = true → shutdown = true)) :
      History id p (Turn.take id p now shutdown phase s :: ts) (resume id p now phase s).1

end Controller

end LeaseElection

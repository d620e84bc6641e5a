import LeaseElection.Proofs.Controller.Path

/-!
# Lost leases and what is found after them

A controller that lost its lease waits, lets the others run, and looks whether its task is over.
Every loss is followed by one such look at most, and by one exactly unless the controller is
still on its way there.  The warning that a task still runs is written once for every look that
found it running, and at no other time.
-/

namespace LeaseElection

namespace Controller

/-- A lease that was lost: when, and once the wait after that is over, when the controller
looked for its task and whether that was over. -/
structure Loss where
  time : Nat
  found : Option (Nat × Bool)
deriving DecidableEq

namespace Loss

/-- When the task was found not to be over, if it was. -/
def overrun? (l : Loss) : Option Nat :=
  l.found.bind fun f => if f.2 then none else some f.1

end Loss

namespace Turn

/-- Whether a turn heard that a renewal was refused. -/
def isLoss (t : Turn) : Bool :=
  match t.before, t.signal with
  | .renewing .., .answered a => a.refusal?.isSome
  | _, _ => false

/-- What a turn found of the last task, if it looked for it. -/
def finding? (t : Turn) : Option Bool :=
  match t.before, t.signal with
  | .yielding _, .resumed taskOver => some taskOver
  | _, _ => none

/-- The instants at which a turn wrote that a task still runs. -/
def overruns (t : Turn) : List Nat := (t.notes.filter (· = .taskStillRunning)).map fun _ => t.time

end Turn

/-- The instants at which it was written that a task still runs, first to last. -/
def overruns : List Turn → List Nat
  | [] => []
  | t :: ts => overruns ts ++ t.overruns

/-- The leases that were lost, latest first. -/
def losses : List Turn → List Loss
  | [] => []
  | t :: ts =>
      if t.isLoss then ⟨t.time, none⟩ :: losses ts
      else
        match t.finding?, losses ts with
        | some taskOver, l :: ls => { l with found := some (t.time, taskOver) } :: ls
        | _, ls => ls

/-- Whether a controller lost its lease and is yet to look for its task. -/
def Phase.isAftermath : Phase → Bool
  | .cooling _ | .yielding _ => true
  | _ => false

/-- What a turn has to do with lost leases: it hears of a loss, looks for the task, or
neither. -/
inductive Turn.Bearing (t : Turn) : Prop where
  | loses (hloss : t.isLoss = true) (hoverruns : t.overruns = [])
      (hbefore : t.before.isAftermath = false) (hafter : t.after.isAftermath = true)
  | finds {taskOver : Bool} (hloss : t.isLoss = false) (hfinding : t.finding? = some taskOver)
      (hoverruns : t.overruns = if taskOver then [] else [t.time])
      (hbefore : t.before.isAftermath = true) (hafter : t.after.isAftermath = false)
  | goesOn (hloss : t.isLoss = false) (hfinding : t.finding? = none) (hoverruns : t.overruns = [])
      (hsame : t.after.isAftermath = t.before.isAftermath)

/-- What becomes of the lost leases in a turn. -/
theorem losses_cons_of_loss {t : Turn} (hloss : t.isLoss = true) (ts : List Turn) :
    losses (t :: ts) = ⟨t.time, none⟩ :: losses ts := by
  rw [losses, if_pos hloss]

theorem losses_cons_of_finding {t : Turn} {taskOver : Bool} (hloss : t.isLoss = false)
    (hfinding : t.finding? = some taskOver) {ts : List Turn} {l : Loss} {ls : List Loss}
    (hlosses : losses ts = l :: ls) :
    losses (t :: ts) = { l with found := some (t.time, taskOver) } :: ls := by
  rw [losses, if_neg (by simp [hloss]), hfinding, hlosses]

theorem losses_cons_of_neither {t : Turn} (hloss : t.isLoss = false) (hfinding : t.finding? = none)
    (ts : List Turn) : losses (t :: ts) = losses ts := by
  rw [losses, if_neg (by simp [hloss]), hfinding]

/-- Under the warning there is an entry for every time at which it was written. -/
theorem Turn.filter_writings (t : Turn) (id : ControllerId) :
    (t.notes.map (Note.entry id)).filter (·.message = Note.message .taskStillRunning) =
      t.overruns.map fun _ => Note.entry id .taskStillRunning := by
  have hmessage (n : Note) :
      (n.entry id).message = Note.message .taskStillRunning ↔ n = .taskStillRunning := by
    cases n <;> simp [Note.entry, Note.message]
  have hfilter : t.notes.filter ((fun e => decide (e.message = Note.message .taskStillRunning)) ∘
      Note.entry id) = t.notes.filter (· = .taskStillRunning) :=
    List.filter_congr fun n _ => decide_eq_decide.mpr (hmessage n)
  rw [List.filter_map, hfilter, overruns, List.map_map]
  refine List.map_congr_left fun n hn => ?_
  rw [of_decide_eq_true (List.mem_filter.mp hn).2]
  rfl

/-- That every loss is accounted for: the controller looked for its task after each of them, but
for the last if it is yet to do so, and wrote of the tasks that it found running. -/
structure Accounts (id : ControllerId) (ts : List Turn) (phase : Phase) : Prop where
  overruns_eq : overruns ts = ((losses ts).filterMap Loss.overrun?).reverse
  pending : phase.isAftermath = true →
    ∃ l ls, losses ts = l :: ls ∧ l.found = none ∧ ∀ l ∈ ls, l.found ≠ none
  settled : phase.isAftermath = false → ∀ l ∈ losses ts, l.found ≠ none
  writings_eq : (writings id ts).filter (·.message = Note.message .taskStillRunning) =
    (overruns ts).map fun _ => Note.entry id .taskStillRunning

/-- A turn keeps the account. -/
theorem Accounts.turn {id : ControllerId} {ts : List Turn} {t : Turn}
    (haccounts : Accounts id ts t.before) (hbearing : t.Bearing) :
    Accounts id (t :: ts) t.after := by
  obtain ⟨hoverruns, hpending, hsettled, hwritings⟩ := haccounts
  have hwritings' : (writings id (t :: ts)).filter
      (·.message = Note.message .taskStillRunning) =
        (overruns (t :: ts)).map fun _ => Note.entry id .taskStillRunning := by
    rw [writings, List.filter_append, hwritings, t.filter_writings, overruns, List.map_append]
  cases hbearing with
  | loses hloss hnone hbefore hafter =>
      have hlosses := losses_cons_of_loss hloss ts
      refine ⟨?_, fun _ => ⟨_, _, hlosses, rfl, hsettled hbefore⟩, fun h => ?_, hwritings'⟩
      · rw [overruns, hnone, List.append_nil, hoverruns, hlosses]
        rfl
      · rw [hafter] at h
        cases h
  | @finds taskOver hloss hfinding hwritten hbefore hafter =>
      obtain ⟨l, ls, hbegun, hunfound, hfound⟩ := hpending hbefore
      have hlosses := losses_cons_of_finding hloss hfinding hbegun
      refine ⟨?_, fun h => ?_, fun _ => ?_, hwritings'⟩
      · have hskip : l.overrun? = none := by rw [Loss.overrun?, hunfound]; rfl
        rw [overruns, hoverruns, hwritten, hlosses, hbegun, List.filterMap_cons_none hskip]
        cases taskOver <;> simp [Loss.overrun?]
      · rw [hafter] at h
        cases h
      · rw [hlosses]
        exact List.forall_mem_cons.mpr ⟨Option.some_ne_none _, hfound⟩
  | goesOn hloss hfinding hnone hsame =>
      have hlosses := losses_cons_of_neither hloss hfinding ts
      rw [← hsame] at hpending hsettled
      rw [← hlosses] at hpending hsettled hoverruns
      refine ⟨?_, hpending, hsettled, hwritings'⟩
      rw [overruns, hnone, List.append_nil, hoverruns]

end Controller

end LeaseElection

import LeaseElection.Controller.Journal
import LeaseElection.Proofs.Controller.Turn
import Mathlib.Computability.Language
import Mathlib.Data.List.Destutter

/-!
# The path of a controller

Whatever the lock service answers and whenever it does, and whenever the shutdown
fires, the states that a controller shows form a path through a fixed diagram.  The
journal has one entry for each step of that path, and the calls of the controller
follow one another in an order that a regular expression describes.
-/

namespace LeaseElection

namespace Controller

open scoped Computability

/-- The steps from state to state that there are. -/
def State.leadsTo : State → State → Bool
  | .idle, .waiting => true
  | .waiting, .attempting => true
  | .attempting, .waiting | .attempting, .leading => true
  | .leading, .waiting => true
  | .waiting, .stopped | .attempting, .stopped | .leading, .stopped => true
  | _, _ => false

/-- The states that a controller showed, first to last. -/
def states : List Turn → List State
  | [] => [.idle]
  | t :: ts => states ts ++ [t.after.state]

/-- The same without repetitions. -/
def path (ts : List Turn) : List State := (states ts).destutter (· ≠ ·)

/-- The journal entry for a step from state to state.  That a controller stopped is
written outside its scope. -/
def transitionEntry (id : ControllerId) (previous next : State) : Entry where
  level := .trace
  message := "state transition"
  fields := [("from", .text previous.name), ("to", .text next.name)]
  scopes := if next = .stopped then [] else [Scope.election id]

/-- What a controller wrote to the journal, first to last. -/
def writings (id : ControllerId) : List Turn → List Entry
  | [] => []
  | t :: ts => writings id ts ++ t.notes.map (Note.entry id)

/-- The calls that are in flight.  A turn hears the answer to the first of them, or
drops them all, or leaves them be. -/
def inFlight : List Turn → List Request
  | [] => []
  | t :: ts =>
      (match t.signal with
        | .answered _ => (inFlight ts).tail
        | .cancelled => []
        | _ => inFlight ts) ++ t.requests

/-- What the answer to a call comes down to. -/
inductive Verdict where
  | notGranted
  | granted
  | renewed
  | lost
  | released
deriving DecidableEq

/-- Only a grant under a token counts, and any refusal of a renewal is a loss. -/
def Verdict.of (a : Answer) : Request → Verdict
  | .acquire _ => if a.grant?.isSome then .granted else .notGranted
  | .renew => if a.refusal?.isSome then .lost else .renewed
  | .release => .released

/-- What is heard of the calls in flight with some signal. -/
def heard : List Request → Signal → List Verdict
  | r :: _, .answered a => [.of a r]
  | _, _ => []

/-- What the answered calls came down to, first to last. -/
def verdicts : List Turn → List Verdict
  | [] => []
  | t :: ts => verdicts ts ++ heard (inFlight ts) t.signal

/-- Whether a turn heard an answer. -/
def Turn.isAnswered (t : Turn) : Bool :=
  match t.signal with
  | .answered _ => true
  | _ => false

/-- Attempts until one is granted, then renewals until one is lost, and all over. -/
def terms : Language Verdict :=
  ({[.notGranted]}∗ * {[.granted]} * {[.renewed]}∗ * {[.lost]})∗

/-- The call that a controller waits for in some phase. -/
def Phase.call? (id : ControllerId) : Phase → Option Request
  | .acquiring => some (.acquire id)
  | .renewing .. => some .renew
  | _ => none

section Lists

/-- One more element changes a list without repetitions unless it repeats the last. -/
theorem destutter_concat {α : Type} [DecidableEq α] (l : List α) (x : α) :
    (l ++ [x]).destutter (· ≠ ·) =
      if l.getLast? = some x then l.destutter (· ≠ ·) else l.destutter (· ≠ ·) ++ [x] := by
  cases l with
  | nil => rfl
  | cons a l =>
      simp only [List.cons_append, List.destutter_cons']
      induction l generalizing a with
      | nil => by_cases hax : a = x <;> simp [hax]
      | cons b l hl =>
          simp only [List.cons_append, List.destutter'_cons, hl b, List.getLast?_cons_cons]
          by_cases hab : a = b
          · subst hab
            simp [hl a]
          · simp only [ne_eq, hab, not_false_eq_true, if_true]
            split <;> rfl

/-- One more element makes one more pair of neighbours. -/
theorem zip_tail_concat {α : Type} {l : List α} {x : α} (hlast : l.getLast? = some x) (y : α) :
    (l ++ [y]).zip (l ++ [y]).tail = l.zip l.tail ++ [(x, y)] := by
  induction l with
  | nil => cases hlast
  | cons a l hl =>
      cases l with
      | nil =>
          cases hlast
          rfl
      | cons b l =>
          have htail := hl (by simpa only [List.getLast?_cons_cons] using hlast)
          simpa using htail

end Lists

section Terms

/-- All terms so far, and attempts that brought no grant. -/
def unfinished : Language Verdict := terms * {[.notGranted]}∗

/-- All terms so far, and one that goes on. -/
def reigning : Language Verdict := unfinished * {[.granted]} * {[.renewed]}∗

/-- The answered calls of a controller that shows some state. -/
def soFar : State → Language Verdict
  | .leading => reigning
  | .stopped => unfinished + reigning
  | _ => unfinished

theorem nil_mem_unfinished : [] ∈ unfinished :=
  Language.append_mem_mul (Language.nil_mem_kstar _) (Language.nil_mem_kstar _)

theorem append_notGranted {w : List Verdict} (hw : w ∈ unfinished) :
    w ++ [.notGranted] ∈ unfinished := by
  have hmore : unfinished * {[.notGranted]} ≤ unfinished := by
    rw [unfinished, mul_assoc]
    gcongr
    exact kstar_mul_le_kstar
  exact hmore (Language.append_mem_mul hw rfl)

theorem append_granted {w : List Verdict} (hw : w ∈ unfinished) :
    w ++ [.granted] ∈ reigning := by
  have hbegun : w ++ [.granted] ∈ unfinished * {[.granted]} := Language.append_mem_mul hw rfl
  rw [← List.append_nil (w ++ [_])]
  exact Language.append_mem_mul hbegun (Language.nil_mem_kstar _)

theorem append_renewed {w : List Verdict} (hw : w ∈ reigning) :
    w ++ [.renewed] ∈ reigning := by
  have hmore : reigning * {[.renewed]} ≤ reigning := by
    rw [reigning, mul_assoc]
    gcongr
    exact kstar_mul_le_kstar
  exact hmore (Language.append_mem_mul hw rfl)

theorem append_lost_mem_terms {w : List Verdict} (hw : w ∈ reigning) :
    w ++ [.lost] ∈ terms := by
  have hmore : reigning * {[.lost]} ≤ terms := by
    rw [reigning, unfinished, mul_assoc, mul_assoc, mul_assoc, ← mul_assoc {[_]}∗,
      ← mul_assoc ({[_]}∗ * _)]
    exact kstar_mul_le_kstar
  exact hmore (Language.append_mem_mul hw rfl)

theorem append_lost {w : List Verdict} (hw : w ∈ reigning) :
    w ++ [.lost] ∈ unfinished := by
  have hall := Language.append_mem_mul (append_lost_mem_terms hw)
    (Language.nil_mem_kstar {[.notGranted]})
  rwa [List.append_nil] at hall

/-- What a controller has heard so far is how a row of terms begins. -/
theorem exists_append_mem_terms {w : List Verdict} {s : State} (hw : w ∈ soFar s) :
    ∃ rest, w ++ rest ∈ terms := by
  have hafter (hw : w ∈ reigning) : ∃ rest, w ++ rest ∈ terms :=
    ⟨_, append_lost_mem_terms hw⟩
  have hbefore (hw : w ∈ unfinished) : ∃ rest, w ++ rest ∈ terms := by
    have hterm := append_lost_mem_terms (append_granted hw)
    rw [List.append_assoc] at hterm
    exact ⟨_, hterm⟩
  cases s with
  | leading => exact hafter hw
  | stopped => exact hw.elim hbefore hafter
  | idle | waiting | attempting => exact hbefore hw

end Terms

namespace Turn

variable {t : Turn} {id : ControllerId} {p : Policy}

/-- A turn shows no new state, or one that the old one leads to. -/
theorem leadsTo (hturn : t.IsOf id p) (hmoved : t.after.state ≠ t.before.state) :
    t.before.state.leadsTo t.after.state = true := by
  obtain ⟨now, shutdown, before, signal, outcome⟩ := t
  change Course id p now shutdown before signal outcome at hturn
  cases hturn with
  | quit hnote => cases before <;> first | rfl | cases hnote
  | keep | cool | interrupt | rest | renew => exact absurd rfl hmoved
  | _ => rfl

/-- A turn writes down every step from state to state, and nothing else at the lowest
level. -/
theorem traceEntries_eq (hturn : t.IsOf id p) :
    (t.notes.map (Note.entry id)).filter (·.level = .trace) =
      if t.before.state = t.after.state then []
      else [transitionEntry id t.before.state t.after.state] := by
  obtain ⟨now, shutdown, before, signal, outcome⟩ := t
  change Course id p now shutdown before signal outcome at hturn
  cases hturn with
  | quit hnote => cases before <;> cases hnote <;> rfl
  | rest _ taskOver => cases taskOver <;> rfl
  | leave _ taskOver => cases taskOver <;> rfl
  | miss =>
      simp only [missNote]
      split <;> rfl
  | _ => rfl

/-- Leading begins exactly on a grant under a token. -/
theorem wins_iff (hturn : t.IsOf id p) :
    t.before.state = .attempting ∧ t.after.state = .leading ↔
      ∃ token, t.before = .acquiring ∧ t.signal = .answered (.granted token) ∧
        token.isEmpty = false := by
  obtain ⟨now, shutdown, before, signal, outcome⟩ := t
  change Course id p now shutdown before signal outcome at hturn
  constructor
  · rintro ⟨hbefore, hafter⟩
    cases hturn with
    | win hgrant | fail hgrant =>
        obtain ⟨rfl, htoken⟩ := Answer.grant?_eq_some_iff.mp hgrant
        exact ⟨_, rfl, rfl, htoken⟩
    | quit => cases hafter
    | miss => cases hafter
    | _ => cases hbefore
  · rintro ⟨token, rfl, rfl, htoken⟩
    cases hturn with
    | win | fail => exact ⟨rfl, rfl⟩
    | miss hgrant =>
        have hgranted : Answer.grant? (.granted token) = some token :=
          Answer.grant?_eq_some_iff.mpr ⟨rfl, htoken⟩
        rw [hgranted] at hgrant
        cases hgrant

/-- Leading ends, but for the shutdown, exactly on a refused renewal. -/
theorem loses_iff (hturn : t.IsOf id p) :
    t.before.state = .leading ∧ t.after.state = .waiting ↔
      ∃ reign ticker reason, t.before = .renewing reign ticker ∧
        t.signal = .answered (.refused reason) := by
  obtain ⟨now, shutdown, before, signal, outcome⟩ := t
  change Course id p now shutdown before signal outcome at hturn
  constructor
  · rintro ⟨hbefore, hafter⟩
    cases hturn with
    | lose hanswer =>
        obtain rfl := Answer.refusal?_eq_some_iff.mp hanswer
        exact ⟨_, _, _, rfl, rfl⟩
    | quit | leave | renew | keep => cases hafter
    | _ => cases hbefore
  · rintro ⟨reign, ticker, reason, rfl, rfl⟩
    cases hturn with
    | keep hanswer => cases hanswer
    | lose => exact ⟨rfl, rfl⟩

/-- A controller that stopped takes no turn, and it stops on its shutdown or in the
turn after one that its shutdown cut short. -/
theorem stops (hturn : t.IsOf id p) :
    t.before.state ≠ .stopped ∧
      (t.after.state = .stopped → t.shutdown = true ∨ t.before = .yielding false) ∧
      (t.after = .yielding false → t.shutdown = true) := by
  obtain ⟨now, shutdown, before, signal, outcome⟩ := t
  change Course id p now shutdown before signal outcome at hturn
  cases hturn with
  | quit hnote => cases before <;> cases hnote <;> simp [after, stop, Phase.state]
  | _ => simp [after, stop, attempt, retry, Phase.state]

/-- The call that a turn waits for is the one that was in flight, or made by it. -/
theorem inFlight_eq (hturn : t.IsOf id p) :
    (match t.signal with
      | .answered _ => (t.before.call? id).toList.tail
      | .cancelled => []
      | _ => (t.before.call? id).toList) ++ t.requests = (t.after.call? id).toList := by
  obtain ⟨now, shutdown, before, signal, outcome⟩ := t
  change Course id p now shutdown before signal outcome at hturn
  cases hturn with
  | quit hnote => cases before <;> cases hnote <;> rfl
  | rest _ taskOver => cases taskOver <;> rfl
  | leave _ taskOver => cases taskOver <;> rfl
  | _ => rfl

/-- Every answer is that to a call. -/
theorem length_heard (hturn : t.IsOf id p) :
    (heard (t.before.call? id).toList t.signal).length = if t.isAnswered then 1 else 0 := by
  obtain ⟨now, shutdown, before, signal, outcome⟩ := t
  change Course id p now shutdown before signal outcome at hturn
  cases hturn with
  | quit hnote => cases before <;> cases hnote <;> rfl
  | _ => rfl

/-- A turn makes one call at most: it asks for the lock from waiting, or renews it. -/
theorem requests_cases (hturn : t.IsOf id p) :
    t.requests = [] ∨ t.before.state = .waiting ∧ t.requests = [.acquire id] ∨
      t.before.state = .leading ∧ t.requests = [.renew] := by
  obtain ⟨now, shutdown, before, signal, outcome⟩ := t
  change Course id p now shutdown before signal outcome at hturn
  cases hturn with
  | first | again => exact Or.inr (Or.inl ⟨rfl, rfl⟩)
  | renew => exact Or.inr (Or.inr ⟨rfl, rfl⟩)
  | quit | leave => simp [requests, actions, stop]
  | _ => simp [requests, actions]

theorem release_notMem_requests (hturn : t.IsOf id p) : .release ∉ t.requests := by
  rcases requests_cases hturn with hnone | ⟨-, hacquire⟩ | ⟨-, hrenew⟩
  · simp [hnone]
  · simp [hacquire]
  · simp [hrenew]

/-- What is heard in a turn goes on with the terms of leading. -/
theorem append_heard_mem (hturn : t.IsOf id p) {w : List Verdict}
    (hw : w ∈ soFar t.before.state) :
    w ++ heard (t.before.call? id).toList t.signal ∈ soFar t.after.state := by
  obtain ⟨now, shutdown, before, signal, outcome⟩ := t
  change Course id p now shutdown before signal outcome at hturn
  cases hturn with
  | win hgrant | fail hgrant =>
      change w ++ [Verdict.of _ (.acquire id)] ∈ reigning
      simp only [Verdict.of, hgrant, Option.isSome_some, if_true]
      exact append_granted hw
  | miss hgrant =>
      change w ++ [Verdict.of _ (.acquire id)] ∈ unfinished
      simp only [Verdict.of, hgrant, Option.isSome_none, Bool.false_eq_true, if_false]
      exact append_notGranted hw
  | keep hanswer =>
      change w ++ [Verdict.of _ .renew] ∈ reigning
      simp only [Verdict.of, hanswer, Option.isSome_none, Bool.false_eq_true, if_false]
      exact append_renewed hw
  | lose hanswer =>
      change w ++ [Verdict.of _ .renew] ∈ unfinished
      simp only [Verdict.of, hanswer, Option.isSome_some, if_true]
      exact append_lost hw
  | quit hnote =>
      have hsilent : ∀ rs, heard rs Signal.cancelled = [] := by
        intro rs
        cases rs <;> rfl
      rw [hsilent, List.append_nil]
      cases before <;> first | exact Or.inl hw | exact Or.inr hw | cases hnote
  | leave =>
      rw [← List.append_nil w] at hw
      exact Or.inl hw
  | _ =>
      rw [← List.append_nil w] at hw
      exact hw

end Turn

namespace History

variable {t : Turn} {ts : List Turn} {phase : Phase} {id : ControllerId} {p : Policy}

theorem isOf_of_mem (past : History id p ts phase) : ∀ t ∈ ts, t.IsOf id p := by
  induction past with
  | begin => exact fun t ht => absurd ht List.not_mem_nil
  | turn past hdue _ hts => exact List.forall_mem_cons.mpr ⟨Turn.isOf_take hdue, hts⟩

theorem after_of_mem_head? (past : History id p ts phase) :
    ∀ t ∈ ts.head?, t.after = phase := by
  cases past with
  | begin => exact fun t ht => absurd ht (Option.not_mem_none t)
  | turn =>
      rintro t ⟨⟩
      rfl

/-- Every turn begins in the phase in which the last one ended. -/
theorem isChain_turns (past : History id p ts phase) :
    ts.IsChain fun later t => later.before = t.after := by
  induction past with
  | begin => exact List.isChain_nil
  | turn past _ _ hts =>
      exact List.isChain_cons.mpr ⟨fun t ht => (past.after_of_mem_head? t ht).symm, hts⟩

/-- The last state shown is that of the phase. -/
theorem getLast?_states (past : History id p ts phase) :
    (states ts).getLast? = some phase.state := by
  cases past with
  | begin => rfl
  | turn => exact List.getLast?_concat

/-- A turn adds the state that it leads to, if that is new. -/
theorem path_cons (past : History id p ts t.before) :
    path (t :: ts) =
      if t.before.state = t.after.state then path ts else path ts ++ [t.after.state] := by
  rw [path, states, destutter_concat, past.getLast?_states]
  simp only [Option.some.injEq, path]

theorem head?_path (past : History id p ts phase) : (path ts).head? = some .idle := by
  induction past with
  | begin => rfl
  | @turn ts phase past now shutdown s hdue hlater hts =>
      rw [path_cons past]
      split
      · exact hts
      · rw [List.head?_append, hts]
        rfl

theorem getLast?_path (past : History id p ts phase) :
    (path ts).getLast? = some phase.state := by
  induction past with
  | begin => rfl
  | @turn ts phase past now shutdown s hdue hlater hts =>
      rw [path_cons past]
      split
      · rw [hts]
        exact congrArg some ‹_›
      · exact List.getLast?_concat

/-- Neighbours on the path are steps of the diagram. -/
theorem isChain_path (past : History id p ts phase) :
    (path ts).IsChain fun a b => a.leadsTo b = true := by
  induction past with
  | begin => exact List.isChain_singleton _
  | @turn ts phase past now shutdown s hdue hlater hts =>
      rw [path_cons past]
      split
      · exact hts
      · rename_i hmoved
        refine List.isChain_append.mpr ⟨hts, List.isChain_singleton _, ?_⟩
        intro a ha b hb
        rw [past.getLast?_path] at ha
        cases ha
        cases hb
        exact Turn.leadsTo (Turn.isOf_take hdue) (Ne.symm hmoved)

/-- The entries at the lowest level are the steps of the path. -/
theorem traceEntries_eq (past : History id p ts phase) :
    (writings id ts).filter (·.level = .trace) =
      ((path ts).zip (path ts).tail).map fun e => transitionEntry id e.1 e.2 := by
  induction past with
  | begin => rfl
  | @turn ts phase past now shutdown s hdue hlater hts =>
      rw [writings, List.filter_append, hts, Turn.traceEntries_eq (Turn.isOf_take hdue),
        path_cons past]
      split
      · exact List.append_nil _
      · rw [zip_tail_concat past.getLast?_path, List.map_append]
        rfl

/-- What is in flight is the call that the phase waits for. -/
theorem inFlight_eq (past : History id p ts phase) :
    inFlight ts = (phase.call? id).toList := by
  induction past with
  | begin => rfl
  | @turn ts phase past now shutdown s hdue hlater hts =>
      rw [inFlight, hts]
      exact Turn.inFlight_eq (Turn.isOf_take hdue)

/-- A controller that is about to stop was told to. -/
theorem shutdown_of_yielding (past : History id p ts (.yielding false)) :
    ∃ t ∈ ts, t.shutdown = true := by
  generalize hphase : Phase.yielding false = phase at past
  cases past with
  | begin => cases hphase
  | turn past hdue hlater =>
      have hstops := Turn.stops (Turn.isOf_take hdue : Turn.IsOf _ id p)
      exact ⟨_, List.mem_cons_self, hstops.2.2 hphase.symm⟩

/-- Nobody stops whose shutdown did not fire. -/
theorem shutdown_of_stopped (past : History id p ts phase) :
    ∀ t ∈ ts, t.after.state = .stopped → t.shutdown = true := by
  induction past with
  | begin => exact fun t ht => absurd ht List.not_mem_nil
  | @turn ts phase past now shutdown s hdue hlater hts =>
      refine List.forall_mem_cons.mpr ⟨fun hstopped => ?_, hts⟩
      have hstops := Turn.stops (Turn.isOf_take hdue : Turn.IsOf _ id p)
      rcases hstops.2.1 hstopped with hshutdown | hphase
      · exact hshutdown
      · change phase = .yielding false at hphase
        subst hphase
        obtain ⟨t, ht, hfired⟩ := past.shutdown_of_yielding
        exact (hlater t ht).2 hfired

/-- Calls come and are answered in the order of terms of leading. -/
theorem verdicts_mem (past : History id p ts phase) :
    verdicts ts ∈ soFar phase.state := by
  induction past with
  | begin => exact nil_mem_unfinished
  | @turn ts phase past now shutdown s hdue hlater hts =>
      rw [verdicts, past.inFlight_eq]
      exact Turn.append_heard_mem (Turn.isOf_take hdue) hts

/-- All that was heard counts. -/
theorem length_verdicts (past : History id p ts phase) :
    (verdicts ts).length = ts.countP Turn.isAnswered := by
  induction past with
  | begin => rfl
  | @turn ts phase past now shutdown s hdue hlater hts =>
      rw [verdicts, past.inFlight_eq, List.length_append, hts, List.countP_cons]
      exact congrArg _ (Turn.length_heard (Turn.isOf_take hdue))

end History

/-- The states that were shown are a path, and the turns that showed them are as they
should be. -/
structure Follows (ts : List Turn) (s : State) : Prop where
  linked : ts.IsChain fun later t => later.before = t.after
  begins : (path ts).head? = some .idle
  ends : (path ts).getLast? = some s
  steps : (path ts).IsChain fun a b => a.leadsTo b = true
  wins : ∀ t ∈ ts, t.before.state = .attempting ∧ t.after.state = .leading ↔
    ∃ token, t.before = .acquiring ∧ t.signal = .answered (.granted token) ∧
      token.isEmpty = false
  loses : ∀ t ∈ ts, t.before.state = .leading ∧ t.after.state = .waiting ↔
    ∃ reign ticker reason, t.before = .renewing reign ticker ∧
      t.signal = .answered (.refused reason)
  stops : ∀ t ∈ ts, t.before.state ≠ .stopped ∧
    (t.after.state = .stopped → t.shutdown = true)

/-- There is one call at a time, of the kind that goes with the state, and what was
answered is how a row of terms begins. -/
structure Converses (id : ControllerId) (ts : List Turn) (s : State) : Prop where
  alone : (inFlight ts).length ≤ 1
  asks : ∀ r ∈ inFlight ts,
    r = .acquire id ∧ s = .attempting ∨ r = .renew ∧ s = .leading
  keeps : ∀ t ∈ ts, .release ∉ t.requests
  hears : (verdicts ts).length = ts.countP Turn.isAnswered
  ordered : ∃ rest, verdicts ts ++ rest ∈ terms

namespace History

variable {ts : List Turn} {phase : Phase} {id : ControllerId} {p : Policy}

theorem follows (past : History id p ts phase) : Follows ts phase.state where
  linked := past.isChain_turns
  begins := past.head?_path
  ends := past.getLast?_path
  steps := past.isChain_path
  wins t ht := Turn.wins_iff (past.isOf_of_mem t ht)
  loses t ht := Turn.loses_iff (past.isOf_of_mem t ht)
  stops t ht := ⟨(Turn.stops (past.isOf_of_mem t ht)).1, past.shutdown_of_stopped t ht⟩

theorem converses (past : History id p ts phase) : Converses id ts phase.state where
  alone := by
    rw [past.inFlight_eq]
    exact Option.length_toList_le
  asks r hr := by
    rw [past.inFlight_eq, Option.mem_toList] at hr
    cases phase with
    | acquiring =>
        cases hr
        exact Or.inl ⟨rfl, rfl⟩
    | renewing reign ticker =>
        cases hr
        exact Or.inr ⟨rfl, rfl⟩
    | _ => cases hr
  keeps t ht := Turn.release_notMem_requests (past.isOf_of_mem t ht)
  hears := past.length_verdicts
  ordered := exists_append_mem_terms past.verdicts_mem

end History

end Controller

end LeaseElection

import LeaseElection.Proofs.Cluster.Commands
import LeaseElection.Proofs.Cluster.Tokens

/-!
# Shutdown

A controller that is told to stop does so at once, wherever it is: before its first turn,
in a wait, in a call that may never be answered, or while it lets others run.  What is
ready at the same instant comes too late.  It calls nobody any more, starts no task, and
takes two turns at most before it has stopped; time does not pass in between.
-/

namespace LeaseElection

open Controller (Phase Signal Action Note Turn Course)

namespace Controller

/-- How many turns a controller in some phase takes at most once its shutdown fired. -/
def Phase.turnsToStop : Phase → Nat
  | .idle | .cooling _ | .yielding true => 2
  | .starting _ | .acquiring | .leading .. | .renewing .. | .yielding false | .retrying _ => 1
  | .stopped | .failed => 0

theorem Phase.turnsToStop_le (phase : Phase) : phase.turnsToStop ≤ 2 := by
  cases phase with
  | yielding completed => cases completed <;> simp [turnsToStop]
  | _ => simp [turnsToStop]

section Courses

variable {id : ControllerId} {p : Policy} {now : Nat} {phase : Phase} {s : Signal} {step : Step}

/-- After its shutdown a controller does nothing but write. -/
theorem Course.exists_notes (hcourse : Course id p now true phase s step) :
    ∃ notes : List Note, step.2 = notes.map .note := by
  cases hcourse with
  | begin => exact ⟨[.starting p, .moved .idle .waiting], rfl⟩
  | interrupt => exact ⟨[], rfl⟩
  | rest _ taskOver => exact ⟨overrunNotes taskOver, rfl⟩
  | leave | quit => exact ⟨_, rfl⟩

/-- After its shutdown every turn of a controller is one less to take. -/
theorem Course.turnsToStop_lt (hcourse : Course id p now true phase s step) :
    step.1.turnsToStop < phase.turnsToStop := by
  cases hcourse with
  | begin | interrupt | rest | leave => simp [Phase.turnsToStop, retry, stop]
  | @quit phase note hnote =>
      cases phase with
      | starting | acquiring | leading | renewing | retrying => simp [Phase.turnsToStop, stop]
      | idle | cooling | yielding | stopped | failed => cases hnote

/-- After its shutdown a controller does not fail any more. -/
theorem Course.ne_failed_of_shutdown (hcourse : Course id p now true phase s step) :
    step.1 ≠ .failed := by
  cases hcourse <;> rintro ⟨⟩

/-- A controller fails only if no clock can show its first renewal. -/
theorem Course.ne_failed {shutdown : Bool} (hcourse : Course id p now shutdown phase s step)
    (hticker : now + Ticker.periodOf p.renewal < Instant.horizon) : step.1 ≠ .failed := by
  cases hcourse with
  | fail hgrant hstart =>
      rw [Ticker.start?, if_pos hticker] at hstart
      cases hstart
  | _ => rintro ⟨⟩

end Courses

/-- Notes call nobody and start nothing. -/
theorem Turn.quiet_of_notes {t : Turn} {notes : List Note}
    (hnotes : t.actions = notes.map .note) :
    t.requests = [] ∧ ∀ token, Action.startTask token ∉ t.actions := by
  constructor
  · rw [Turn.requests, hnotes, List.filterMap_eq_nil_iff]
    intro a ha
    obtain ⟨n, -, rfl⟩ := List.mem_map.mp ha
    rfl
  · intro token htoken
    rw [hnotes] at htoken
    obtain ⟨n, -, hn⟩ := List.mem_map.mp htoken
    cases hn

end Controller

theorem SameMarks.eq_true_of_mem {i : Nat} {marks marks' : List (Nat × Bool)}
    (hsame : SameMarks i marks marks') (hcancelled : ∀ mark ∈ marks, mark.1 = i → mark.2 = true) :
    ∀ mark ∈ marks', mark.1 = i → mark.2 = true := by
  rintro ⟨group, cancelled⟩ hmark rfl
  obtain ⟨k, hk⟩ := List.mem_iff_getElem?.mp hmark
  exact hcancelled _ (List.mem_of_getElem? ((hsame.at_iff k cancelled).mp hk)) rfl

namespace Cluster

variable {σ : Type} {c c' : Cluster σ} {i j : Nat} {m m' : Member}

/-- What a world may do in which time is virtual: anything to the service and to the
calls that it answers, but time passes only while all controllers wait. -/
structure Unhurried (c c' : Cluster σ) : Prop extends Open c c' where
  waits : c.now < c'.now → ∀ m ∈ c.members,
    m.signal? c.now = none ∧ ∀ completed, m.phase ≠ .yielding completed

theorem Virtual.unhurried (hvirtual : Virtual c c') : Unhurried c c' where
  toOpen := hvirtual.isOpen
  waits hlater := by
    cases hvirtual with
    | work | queue => exact absurd hlater (Nat.lt_irrefl _)
    | pass now _ _ hrest _ => exact hrest

section Cancelled

/-- To cancel again what is cancelled only wakes the controller. -/
theorem dismiss_eq_wake (hm : c.members[i]? = some m) (hshutdown : m.shutdown = true)
    (hcancelled : ∀ mark ∈ c.crew.marks, mark.1 = i → mark.2 = true) :
    c.dismiss i = c.wake (.member i) := by
  have hnone : c.crew.activeIn i = [] := by
    apply List.eq_nil_iff_forall_not_mem.mpr
    intro k hk
    have hmark := List.mem_of_getElem? (Crew.mem_activeIn_iff.mp hk)
    cases hcancelled _ hmark rfl
  have hsame : c.members.modify i (fun m => { m with shutdown := true }) = c.members := by
    obtain ⟨hi, rfl⟩ := List.getElem?_eq_some_iff.mp hm
    rw [modify_eq_set hm, ← hshutdown, List.set_getElem_self]
  rw [dismiss, hnone, modify, hsame, List.foldl_nil]

/-- A controller that is to stop can go on until it has. -/
theorem stopped_or_goesOn (c : Cluster σ) (hshutdown : m.shutdown = true)
    (hsound : m.phase ≠ .failed) : m.phase = .stopped ∨ ∃ s, c.GoesOn m s := by
  cases hphase : m.phase with
  | stopped => exact Or.inl rfl
  | failed => exact absurd hphase hsound
  | idle => exact Or.inr ⟨.begun, .signalled (by rw [Member.signal?, hphase]; rfl)⟩
  | yielding completed => exact Or.inr ⟨_, .resumed hphase⟩
  | _ => exact Or.inr ⟨.cancelled, .signalled (by rw [Member.signal?, hphase, hshutdown]; rfl)⟩

/-- So if it waits it has stopped. -/
theorem stopped_of_rests (hshutdown : m.shutdown = true) (hsound : m.phase ≠ .failed)
    (hrests : m.signal? c.now = none ∧ ∀ completed, m.phase ≠ .yielding completed) :
    m.phase = .stopped := by
  refine (stopped_or_goesOn c hshutdown hsound).resolve_right ?_
  rintro ⟨s, hgoes⟩
  cases hgoes with
  | signalled hsignal =>
      rw [hrests.1] at hsignal
      cases hsignal
  | resumed hphase => exact hrests.2 _ hphase

end Cancelled

variable [LockService σ] {h h' e : Chronicle} {start : Cluster σ} {service : σ} {traced : Bool}

/-- While time is such that a clock can show all first renewals, nobody fails. -/
theorem Run.phase_ne_failed (run : Run Open (empty service traced) h c)
    (hm : c.members[i]? = some m) (hticker : c.Representable m) : m.phase ≠ .failed := by
  induction run generalizing m with
  | start => simp [empty] at hm
  | @step h e c c' run hstep hall =>
      rcases hstep.member hm with ⟨-, hphase, -⟩ |
        ⟨m₀, hm₀, -, hpolicy, ⟨s, hgoes, -, hphase, -⟩ | ⟨hphase, -, -⟩⟩
      · rw [hphase]
        rintro ⟨⟩
      all_goals
        have hearlier : c.Representable m₀ := by
          rw [Representable, hpolicy] at hticker
          exact Nat.lt_of_le_of_lt (Nat.add_le_add_right hstep.now_le _) hticker
        rw [hphase]
      · exact (Controller.course_of_due hgoes.due m₀.id m₀.policy).ne_failed hearlier
      · exact hall hm₀ hearlier

/-- How far controller `i` has come in `h`, since its shutdown fired in `start`. -/
structure Stopping (start : Cluster σ) (h : Chronicle) (c : Cluster σ) (i : Nat) (m : Member) :
    Prop where
  told : m.shutdown = true
  sound : m.phase ≠ .failed
  atOnce : m.phase = .stopped ∨ c.now = start.now
  few : (h.turnsOf i).length + m.phase.turnsToStop ≤ 2
  quiet : ∀ t ∈ h.turnsOf i, t.time = start.now ∧ ∃ notes : List Note, t.actions = notes.map .note
  marks : SameMarks i start.crew.marks c.crew.marks

namespace Stopping

omit [LockService σ] in
/-- All that matters of a controller that is to stop is its phase. -/
theorem frame (hstopping : Stopping start h c i m) (hphase : m'.phase = m.phase)
    (htold : m'.shutdown = true) (hnow : m.phase = .stopped ∨ c'.now = c.now)
    (hturns : (e ++ h).turnsOf i = h.turnsOf i)
    (hmarks : SameMarks i c.crew.marks c'.crew.marks) : Stopping start (e ++ h) c' i m' where
  told := htold
  sound := hphase ▸ hstopping.sound
  atOnce := by
    rw [hphase]
    rcases hnow with hstopped | hnow
    · exact Or.inl hstopped
    · rw [hnow]
      exact hstopping.atOnce
  few := by
    rw [hphase, hturns]
    exact hstopping.few
  quiet := by
    rw [hturns]
    exact hstopping.quiet
  marks := hstopping.marks.trans hmarks

theorem turn {s : Signal} (hstopping : Stopping start h c i m) (hm : c.members[i]? = some m)
    (hgoes : c.GoesOn m s) (hm' : (c.resume i m s).members[i]? = some m') :
    let t := Turn.take m.id m.policy c.now m.shutdown m.phase s
    Stopping start ([(i, t)] ++ h) (c.resume i m s) i m' := by
  intro t
  have hcourse : Course m.id m.policy c.now true m.phase s t.outcome := by
    rw [← hstopping.told]
    exact Controller.course_of_due hgoes.due m.id m.policy
  obtain ⟨notes, hnotes⟩ := hcourse.exists_notes
  have hfewer := hcourse.turnsToStop_lt
  have hfew := hstopping.few
  -- One that has stopped takes no turn.
  have hnow : c.now = start.now := by
    refine hstopping.atOnce.resolve_left fun hstopped => ?_
    rw [hstopped] at hfewer
    exact absurd hfewer (Nat.not_lt_zero _)
  obtain ⟨hclock, hframe⟩ := resume_frame hm s
  have hreach : c.reach i m t = ⟨c.service, none, c.crew, m.episode⟩ := by
    rw [reach, Turn.actions, hnotes]
    exact Reach.foldl_act_note c.now i m _ notes
  rw [member_resume hm s] at hm'
  cases hm'
  constructor
  · exact hstopping.told
  · exact hcourse.ne_failed_of_shutdown
  · exact Or.inr (hclock.trans hnow)
  · rw [List.singleton_append, Chronicle.turnsOf_cons_self, List.length_cons]
    change (h.turnsOf i).length + 1 + t.outcome.1.turnsToStop ≤ 2
    omega
  · rw [List.singleton_append, Chronicle.turnsOf_cons_self]
    exact List.forall_mem_cons.mpr ⟨⟨hnow, notes, hnotes⟩, hstopping.quiet⟩
  · rw [hframe.crew, hreach]
    exact hstopping.marks

omit [LockService σ] in
/-- The shutdown cancelled all tasks there were, and no more were started. -/
theorem cancelled (hstopping : Stopping (start.dismiss i) h c i m) :
    ∀ mark ∈ c.crew.marks, mark.1 = i → mark.2 = true := by
  apply hstopping.marks.eq_true_of_mem
  rw [(dismiss_frame start i).2.2.2, Crew.marks_foldl_cancel_activeIn]
  intro mark hmark hi
  obtain ⟨mark', -, rfl⟩ := List.mem_map.mp hmark
  simp [show mark'.1 = i from hi]

omit [LockService σ] in
/-- The shutdown itself is the first step on the way. -/
theorem of_dismiss (hsound : m.phase ≠ .failed) :
    Stopping (c.dismiss i) [] (c.dismiss i) i { m with shutdown := true } where
  told := rfl
  sound := hsound
  atOnce := Or.inr rfl
  few := by
    rw [show Chronicle.turnsOf i [] = [] from rfl, List.length_nil, Nat.zero_add]
    exact m.phase.turnsToStop_le
  quiet t ht := absurd ht List.not_mem_nil
  marks := .refl i _

omit [LockService σ] in
/-- A controller that is to stop has nothing to wait for, so it has stopped before time
passes. -/
theorem world (hstopping : Stopping (start.dismiss i) h c i m) (hm : c.members[i]? = some m)
    (hworld : Unhurried c c') (hm' : c'.members[i]? = some m') :
    Stopping (start.dismiss i) h c' i m' := by
  obtain ⟨m₀, call, hm₀, rfl⟩ := hworld.member hm'
  rw [hm] at hm₀
  cases hm₀
  have hnow : m.phase = .stopped ∨ c'.now = c.now := by
    rcases Nat.eq_or_lt_of_le hworld.now_le with hnow | hlater
    · exact Or.inr hnow.symm
    · exact Or.inl (stopped_of_rests hstopping.told hstopping.sound
        (hworld.waits hlater m (List.mem_of_getElem? hm)))
  exact hstopping.frame (e := []) rfl hstopping.told hnow rfl
    (.of_endure hworld.marks hstopping.cancelled)

omit [LockService σ] in
/-- Another shutdown changes nothing for a controller that is to stop. -/
theorem dismiss (hstopping : Stopping (start.dismiss i) h c i m) (hm : c.members[i]? = some m)
    (j : Nat) (hm' : (c.dismiss j).members[i]? = some m') :
    Stopping (start.dismiss i) h (c.dismiss j) i m' := by
  obtain ⟨m₀, hm₀, rfl⟩ := member_dismiss hm'
  rw [hm] at hm₀
  cases hm₀
  obtain ⟨hnow, -, -, hcrew⟩ := dismiss_frame c j
  refine hstopping.frame (e := []) ?_ ?_ (Or.inr hnow) rfl ?_
  · split <;> rfl
  · split
    · rfl
    · exact hstopping.told
  · by_cases hij : j = i
    · subst hij
      rw [dismiss_eq_wake hm hstopping.told hstopping.cancelled, crew_wake]
      exact .refl j _
    · rw [hcrew, Crew.marks_foldl_cancel_activeIn]
      exact .map hij

end Stopping

/-- Whatever happens after its shutdown, a controller is on its way to stop. -/
theorem Run.stopping (run : Run Open (empty service traced) h c) (hm : c.members[i]? = some m)
    (hticker : c.Representable m) (after : Run Unhurried (c.dismiss i) h' c') :
    ∃ m', c'.members[i]? = some m' ∧ Stopping (c.dismiss i) h' c' i m' := by
  have hi : i < c.members.length := (List.getElem?_eq_some_iff.mp hm).1
  induction after with
  | start =>
      refine ⟨{ m with shutdown := true }, ?_, .of_dismiss (run.phase_ne_failed hm hticker)⟩
      rw [(dismiss_frame c i).2.2.1, List.getElem?_modify, hm]
      simp
  | @step h₁ e c₁ c₂ after hstep hall =>
      obtain ⟨m₁, hm₁, hstopping⟩ := hall
      have hopen : Step Open c₁ e c₂ := hstep.mono Unhurried.toOpen
      have hlt : i < c₂.members.length :=
        (List.getElem?_eq_some_iff.mp hm₁).1.trans_le hopen.length_members_le
      refine ⟨_, List.getElem?_eq_getElem hlt, ?_⟩
      have hm₂ : c₂.members[i]? = some c₂.members[i] := List.getElem?_eq_getElem hlt
      cases hstep with
      | @turn j m₀ s hm₀ hgoes =>
          by_cases hji : j = i
          · subst hji
            rw [hm₁] at hm₀
            cases hm₀
            exact hstopping.turn hm₁ hgoes hm₂
          · -- The turn of another controller touches only what belongs to that one.
            have whole := (run.step (.dismiss c i)).trans (after.mono Unhurried.toOpen)
            obtain ⟨-, hsame⟩ := owns_resume hm₀ (whole.bonds.owns j m₀ hm₀) s
            have hself := member_resume_of_ne hm₀ s hji
            rw [hm₂, hm₁, Option.some.injEq] at hself
            rw [hself]
            refine hstopping.frame rfl hstopping.told (Or.inr (resume_frame hm₀ s).1) ?_
              (hsame i hji)
            exact Chronicle.turnsOf_cons_of_ne hji _ _
      | enroll hphase hepisode hcall =>
          rcases member_enroll hm₂ with hm₂' | ⟨rfl, -⟩
          · rw [hm₁] at hm₂'
            cases hm₂'
            exact hstopping.frame rfl hstopping.told (Or.inr rfl) rfl (.refl i _)
          · exact absurd (List.getElem?_eq_some_iff.mp hm₁).1 (Nat.lt_irrefl _)
      | dismiss j => exact hstopping.dismiss hm₁ j hm₂
      | world hworld => exact hstopping.world hm₁ hworld hm₂

/-- All tokens are cancelled, and there are as many as grants were heard of before. -/
theorem Stopping.tokensOf_eq (hstopping : Stopping (c.dismiss i) h' c' i m')
    (run : Run Open (empty service traced) h c) (hm : c.members[i]? = some m)
    (hticker : c.Representable m) :
    c'.crew.tokensOf i = List.replicate (grantsHeard h i) true := by
  have hbound := (run.bonds.bound i m hm hticker).dismiss
  rw [Crew.tokensOf, Crew.tokens_eq_replicate hstopping.cancelled, hstopping.marks.count_eq,
    (dismiss_frame c i).2.2.2, Crew.marks_foldl_cancel_activeIn, hbound.count]

/-- While all go on who can, who is to stop does. -/
theorem Stopping.stopped_of_rests (hstopping : Stopping start h c i m) (htidy : c.Tidy)
    (hrests : c.step? = none) (hm : c.members[i]? = some m) : m.phase = .stopped := by
  have hparked := htidy.parked hrests hm
  exact Cluster.stopped_of_rests hstopping.told hstopping.sound ⟨hparked.rests, hparked.stays⟩

/-- Whatever the lock service does, be it that it never answers, and wherever a controller
is when its shutdown fires: from then on it makes no call and starts no task, all task
tokens that it ever gave out are cancelled, and it stops within two turns, before time
passes.  As long as it has not stopped it can go on, and where all go on who can it
returns.  To fire its shutdown again only wakes it. -/
theorem stops_at_shutdown (run : Run Open (empty service traced) h c)
    (hm : c.members[i]? = some m) (hticker : c.Representable m)
    (after : Run Unhurried (c.dismiss i) h' c') :
    (∀ t ∈ h'.turnsOf i, t.time = c.now ∧ t.requests = [] ∧
      ∀ token, .startTask token ∉ t.actions) ∧
    (h'.turnsOf i).length ≤ 2 ∧
    c'.crew.tokensOf i = List.replicate (grantsHeard h i) true ∧
    (∃ m', c'.members[i]? = some m' ∧
      (m'.phase = .stopped ∨ c'.now = c.now ∧ ∃ s, c'.GoesOn m' s)) ∧
    (c'.Tidy → c'.settle.ending? i = some .returned ∧ c'.settle.now = c'.now) ∧
    c'.dismiss i = c'.wake (.member i) := by
  obtain ⟨m', hm', hstopping⟩ := run.stopping hm hticker after
  have hnow : (c.dismiss i).now = c.now := (dismiss_frame c i).1
  refine ⟨?_, ?_, hstopping.tokensOf_eq run hm hticker, ⟨m', hm', ?_⟩, ?_,
    dismiss_eq_wake hm' hstopping.told hstopping.cancelled⟩
  · intro t ht
    obtain ⟨htime, notes, hnotes⟩ := hstopping.quiet t ht
    exact ⟨htime.trans hnow, Turn.quiet_of_notes hnotes⟩
  · exact (Nat.le_add_right _ _).trans hstopping.few
  · rcases hstopping.atOnce with hstopped | hatOnce
    · exact Or.inl hstopped
    · exact (stopped_or_goesOn c' hstopping.told hstopping.sound).imp_right fun hgoes =>
        ⟨hatOnce.trans hnow, hgoes⟩
  · intro htidy
    obtain ⟨hsettles, hclock⟩ := htidy.settle
    obtain ⟨h'', settling⟩ := hsettles.run
    -- What is settled is a later stage of the same run.
    obtain ⟨m'', hm'', hlast⟩ :=
      run.stopping hm hticker (after.trans (settling.mono Virtual.unhurried))
    refine ⟨?_, hclock⟩
    rw [ending?, hm'', Option.map_some, hlast.stopped_of_rests hsettles.tidy hsettles.rests hm'']

/-- A controller lost its lease and lets its task end when its shutdown fires.  It goes on
as if it were to try again, and stops then. -/
theorem stops_at_shutdown_of_loss :
    ∃ (c c' : Cluster Script) (m m' : Member) (h' : Chronicle),
      c.now = 5000000 ∧ c.members = [m] ∧ m.phase = .yielding true ∧ m.shutdown = false ∧
        Run Unhurried (c.dismiss 0) h' c' ∧ c'.members = [m'] ∧ m'.phase = .stopped ∧
        (∀ t ∈ h'.turnsOf 0, t.time = c.now ∧ t.requests = [] ∧
          ∀ token, .startTask token ∉ t.actions) ∧
        c'.crew.tokensOf 0 = [true] ∧ c'.dismiss 0 = c'.wake (.member 0) := by
  let script : Script :=
    ⟨[.answer .zero (.granted ⟨"lock-1"⟩)], [.answer .zero (.refused .expired)]⟩
  let m : Member :=
    { name := "first", id := ⟨"first"⟩, policy := ⟨.ofMillis 5, .ofMillis 7, .zero⟩,
      conduct := .prompt }
  let leader (phase : Phase) : Member := { m with phase, episode := some ⟨⟨"lock-1"⟩, 0, 0⟩ }
  let told (phase : Phase) : Member := { leader phase with shutdown := true }
  have enrolled : Run Open (empty script false) [] ((empty script false).enroll m) :=
    .step .start (.enroll _ rfl rfl rfl)
  have begun := enrolled.step (.turn (i := 0) (s := .begun) rfl (.signalled rfl))
  have asked := begun.step (.turn (i := 0) (s := .elapsed) rfl (.signalled (by decide)))
  have granted := asked.step (.turn (i := 0) (s := .answered (.granted ⟨"lock-1"⟩)) rfl
    (.signalled (by decide)))
  have later := granted.step (.world (Virtual.pass _ 5000000
    (by decide) (by decide) (by decide) (by decide)).isOpen)
  have renewing := later.step (.turn (i := 0)
    (m := leader (.leading ⟨⟨"lock-1"⟩, 0⟩ ⟨5000000, 5000000⟩))
    (s := .elapsed) (by decide) (.signalled (by decide)))
  have lost := renewing.step (.turn (i := 0)
    (m := { leader (.renewing ⟨⟨"lock-1"⟩, 0⟩ ⟨10000000, 5000000⟩) with
      call := some ⟨.renew, 5000000, 5000000, .refused .expired⟩ })
    (s := .answered (.refused .expired)) (by decide) (.signalled (by decide)))
  have cooled := lost.step (.turn (i := 0) (m := leader (.cooling 5000000))
    (s := .elapsed) (by decide) (.signalled (by decide)))
  have dismiss {h : Chronicle} {c : Cluster Script} (_ : Run Open (empty script false) h c) :
      Run Unhurried (c.dismiss 0) [] (c.dismiss 0) := .start
  have resumed := (dismiss cooled).step (.turn (i := 0) (m := told (.yielding true))
    (by decide) (.resumed rfl))
  have stopped := resumed.step (.turn (i := 0) (m := told (.retrying 12000000))
    (s := .cancelled) (by decide) (.signalled (by decide)))
  have hall := stops_at_shutdown cooled (m := leader (.yielding true)) (by decide)
    (by unfold Representable; decide) stopped
  exact ⟨_, _, leader (.yielding true), told .stopped, _, by decide, by decide, rfl, rfl, stopped,
    by decide, rfl, hall.1, hall.2.2.1.trans (by decide), hall.2.2.2.2.2⟩

/-- To shut a controller down is to have it return at once, where controllers have a wait
between their attempts. -/
theorem Commanded.returns_at_shutdown (hc : Commanded Open service traced c)
    (hm : c.members[i]? = some m) (hticker : c.Representable m) :
    (c.shutdown i).ending? i = some .returned ∧ (c.shutdown i).now = c.now := by
  obtain ⟨⟨h, run⟩, htidy, -⟩ := hc.settles Virtual.isOpen
  obtain ⟨hsettles, hclock⟩ := (htidy.dismiss i).settle
  obtain ⟨h', settling⟩ := hsettles.run
  obtain ⟨m', hm', hlast⟩ := run.stopping hm hticker (settling.mono Virtual.unhurried)
  refine ⟨?_, hclock.trans (dismiss_frame c i).1⟩
  rw [Cluster.shutdown, ending?, hm', Option.map_some,
    hlast.stopped_of_rests hsettles.tidy hsettles.rests hm']

end Cluster

end LeaseElection

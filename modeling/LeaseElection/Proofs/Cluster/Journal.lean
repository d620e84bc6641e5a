import LeaseElection.Proofs.Cluster.Runs

/-!
# What the journal of a cluster tells

Controllers, the lock service and the tracing of calls all write to one journal.  Under a
message that is left to controllers the journal tells what their turns note, in order.
So that of a single controller tells of every step on its path, and of nothing else that
is called a state transition.
-/

namespace LeaseElection

open Controller (Signal Action Note Turn)

/-- That neither the lock service nor the tracing of calls writes under a message. -/
structure LeftToControllers (σ : Type) [LockService σ] (message : String) : Prop where
  service : ∀ now party r (x : σ), ∀ e ∈ (LockService.call now party r x).2.2, e.message ≠ message
  tracing : ∀ r millis a, (Request.verdict r millis a).message ≠ message

theorem Request.message_verdict_ne (r : Request) (millis : Nat) (a : Answer) :
    (r.verdict millis a).message ≠ "state transition" := by
  cases r <;> cases a <;> simp [verdict]

theorem leftToControllers_leaseTable :
    LeftToControllers (LeaseTable Party) "state transition" where
  service now party r t := by
    have hevents (name : String) (events : List Lease.Event) :
        ∀ e ∈ events.map (Lease.Event.entry name), e.message ≠ "state transition" := by
      intro e he
      obtain ⟨event, -, rfl⟩ := List.mem_map.mp he
      cases event <;> simp [Lease.Event.entry, Lease.Event.message]
    cases r with
    | acquire caller => exact hevents _ (t.acquire now party caller).2.2
    | renew => exact hevents _ (t.renew now party).2.2
    | release => exact hevents _ (t.release now party).2.2
  tracing := Request.message_verdict_ne

theorem leftToControllers_script : LeftToControllers Script "state transition" where
  service _ _ _ _ _ he := absurd he List.not_mem_nil
  tracing := Request.message_verdict_ne

theorem leftToControllers_lockDouble : LeftToControllers LockDouble "state transition" where
  service _ _ _ _ _ he := absurd he List.not_mem_nil
  tracing := Request.message_verdict_ne

/-- What an action writes. -/
def Controller.Action.note? : Action → Option Note
  | .note n => some n
  | _ => none

namespace Cluster

variable {σ : Type} {c c' : Cluster σ} {i : Nat} {m : Member} {message : String}

/-- What was written under a message, first to last. -/
def told (c : Cluster σ) (message : String) : List Stamped :=
  c.journal.filter (·.entry.message = message)

/-- What is written under a message at some time of several entries. -/
def telling (now : Nat) (message : String) (es : List Entry) : List Stamped :=
  (es.filter (·.message = message)).map (Stamped.mk now)

theorem told_write (c : Cluster σ) (es : List Entry) :
    (c.write es).told message = c.told message ++ telling c.now message es := by
  simp [told, telling, write, journal, List.filter_map, Function.comp_def]

theorem telling_eq_nil {now : Nat} {es : List Entry} (hes : ∀ e ∈ es, e.message ≠ message) :
    telling now message es = [] := by
  rw [telling, List.filter_eq_nil_iff.mpr (by simpa using hes)]
  rfl

theorem telling_append (now : Nat) (es es' : List Entry) :
    telling now message (es ++ es') = telling now message es ++ telling now message es' := by
  simp [telling]

theorem told_wake (c : Cluster σ) (r : Runner) : (c.wake r).told message = c.told message := by
  rw [wake]
  split <;> rfl

section Turns

variable [LockService σ]

/-- Nobody but the service writes when it is called, and nothing that is left to
controllers. -/
theorem told_call (hleft : LeftToControllers σ message) (c : Cluster σ) (i : Nat) (m : Member)
    (r : Request) : (c.call i m r).told message = c.told message := by
  have hes := hleft.service c.now (.member i) r c.service
  rw [Cluster.call]
  generalize LockService.call c.now (.member i) r c.service = response at hes ⊢
  obtain ⟨reply, service, es⟩ := response
  change (Cluster.write _ _).told message = _
  rw [told_write, telling_eq_nil, List.append_nil]
  · rfl
  · intro e he
    obtain ⟨e', he', rfl⟩ := List.mem_map.mp he
    split at he'
    · obtain ⟨e'', he'', rfl⟩ := List.mem_map.mp he'
      exact hes e'' he''
    · exact hes e' he'

theorem told_perform (hleft : LeftToControllers σ message) (i : Nat) (m : Member) (c : Cluster σ)
    (a : Action) :
    (perform i m c a).told message =
      c.told message ++ telling c.now message (a.note?.toList.map (Note.entry m.id)) := by
  have hsilent (hsame : (perform i m c a).told message = c.told message) (ha : a.note? = none) :
      (perform i m c a).told message =
        c.told message ++ telling c.now message (a.note?.toList.map (Note.entry m.id)) := by
    rw [ha, hsame]
    exact (List.append_nil _).symm
  cases a with
  | note n => exact told_write c _
  | call r => exact hsilent (told_call hleft c i m r) rfl
  | startTask token => exact hsilent (told_wake _ _) rfl
  | cancelTask =>
      refine hsilent ?_ rfl
      simp only [perform]
      split
      · rfl
      · exact told_wake _ _

theorem told_foldl_perform (hleft : LeftToControllers σ message) (i : Nat) (m : Member)
    (actions : List Action) (c : Cluster σ) :
    (actions.foldl (perform i m) c).told message =
      c.told message ++
        telling c.now message ((actions.filterMap Action.note?).map (Note.entry m.id)) := by
  induction actions generalizing c with
  | nil => exact (List.append_nil _).symm
  | cons a actions hall =>
      have hnotes : (a :: actions).filterMap Action.note? =
          a.note?.toList ++ actions.filterMap Action.note? := by
        cases a <;> rfl
      rw [List.foldl_cons, hall, told_perform hleft, now_perform, List.append_assoc, hnotes,
        List.map_append, telling_append]

theorem told_hear (hleft : LeftToControllers σ message) (c : Cluster σ) (m : Member) :
    (c.hear m).told message = c.told message := by
  rw [hear]
  cases m.call with
  | none => rfl
  | some k =>
      dsimp only
      split
      · apply (told_write _ _).trans
        rw [telling_eq_nil, List.append_nil]
        · rfl
        · intro e he
          obtain rfl := List.mem_singleton.mp he
          exact hleft.tracing _ _ _
      · rfl

/-- A turn tells what it notes. -/
theorem told_resume (hleft : LeftToControllers σ message) (c : Cluster σ) (i : Nat) (m : Member)
    (s : Signal) :
    (c.resume i m s).told message = c.told message ++ telling c.now message
      ((Turn.take m.id m.policy c.now m.shutdown m.phase s).notes.map (Note.entry m.id)) := by
  have hstep (c' : Cluster σ) (hnow : c'.now = c.now) (htold : c'.told message = c.told message) :
      ((Controller.resume m.id m.policy c'.now m.phase s).2.foldl (perform i m)
        (c'.modify i fun m' => { m' with
          phase := (Controller.resume m.id m.policy c'.now m.phase s).1, call := none })).told
          message = c.told message ++ telling c.now message
      ((Turn.take m.id m.policy c.now m.shutdown m.phase s).notes.map (Note.entry m.id)) := by
    have hmodified (f : Member → Member) : (c'.modify i f).told message = c.told message := htold
    have hclock (f : Member → Member) : (c'.modify i f).now = c.now := hnow
    rw [told_foldl_perform hleft, hmodified, hclock, hnow]
    rfl
  cases s with
  | answered a => exact hstep (c.hear m) (hear_frame c m).1 (told_hear hleft c m)
  | begun | cancelled | elapsed | resumed => exact hstep c rfl rfl

end Turns

section Runs

variable [LockService σ] {World : Cluster σ → Cluster σ → Prop} {h e : Chronicle} {service : σ}
variable {traced : Bool}

/-- What a world may do that leaves alone what was told under a message. -/
structure LeavesJournal (World : Cluster σ → Cluster σ → Prop) (message : String) : Prop where
  isOpen : ∀ {c c'}, World c c' → Open c c'
  told : ∀ {c c'}, World c c' → c'.told message = c.told message

omit [LockService σ] in
theorem leavesJournal_virtual (message : String) : LeavesJournal (Virtual (σ := σ)) message where
  isOpen := Virtual.isOpen
  told hvirtual := by cases hvirtual <;> rfl

omit [LockService σ] in
theorem told_dismiss (c : Cluster σ) (i : Nat) : (c.dismiss i).told message = c.told message := by
  have hcancel (tasks : List Nat) (c : Cluster σ) :
      (tasks.foldl cancelTask c).told message = c.told message := by
    induction tasks generalizing c with
    | nil => rfl
    | cons j tasks hall => exact (hall _).trans (told_wake _ _)
  exact (told_wake _ _).trans (hcancel _ _)

theorem ids_resume (hm : c.members[i]? = some m) (s : Signal) :
    (c.resume i m s).members.map Member.id = c.members.map Member.id := by
  have hi : i < c.members.length := (List.getElem?_eq_some_iff.mp hm).1
  apply List.ext_getElem?
  intro j
  rw [(resume_frame hm s).2.members, List.getElem?_map, List.getElem?_set, List.getElem?_map]
  by_cases hij : i = j
  · subst hij
    rw [hm, if_pos rfl, if_pos hi]
    rfl
  · rw [if_neg hij]

omit [LockService σ] in
theorem ids_dismiss (c : Cluster σ) (i : Nat) :
    (c.dismiss i).members.map Member.id = c.members.map Member.id := by
  apply List.ext_getElem?
  intro j
  rw [(dismiss_frame c i).2.2.1, List.getElem?_map, List.getElem?_modify, List.getElem?_map]
  cases c.members[j]? with
  | none => rfl
  | some m => by_cases hij : i = j <;> simp [hij]

omit [LockService σ] in
theorem Open.ids_eq (hopen : Open c c') : c'.members.map Member.id = c.members.map Member.id := by
  have hids := congrArg (List.map Member.id) hopen.members_eq
  rw [List.map_map, List.map_map] at hids
  exact hids

/-- The only controller there is adds what it notes. -/
theorem told_turn (hleft : LeftToControllers σ message) (hm : c.members[i]? = some m)
    {controller : ControllerId} (hids : c.members.map Member.id = [controller])
    (htold : (c.told message).map Stamped.entry =
      (Controller.writings controller (h.turnsOf 0)).filter (·.message = message))
    (s : Signal) :
    ((c.resume i m s).told message).map Stamped.entry =
      (Controller.writings controller (Chronicle.turnsOf 0
        ((i, Turn.take m.id m.policy c.now m.shutdown m.phase s) :: h))).filter
          (·.message = message) := by
  obtain ⟨m₀, hmembers, hid⟩ := List.map_eq_singleton_iff.mp hids
  rw [hmembers, List.getElem?_singleton] at hm
  obtain ⟨rfl, hm⟩ := Option.ite_none_right_eq_some.mp hm
  cases hm
  rw [told_resume hleft, List.map_append, htold, hid, Chronicle.turnsOf_cons_self,
    Controller.writings, List.filter_append]
  congr 1
  simp [telling, Function.comp_def]

/-- What was told is what the only controller noted, if there is one. -/
theorem Run.told (run : Run World (empty service traced) h c)
    (hleft : LeftToControllers σ message) (hworld : LeavesJournal World message) :
    (c.members.map Member.id = [] → c.told message = []) ∧
      ∀ controller, c.members.map Member.id = [controller] →
        (c.told message).map Stamped.entry =
          (Controller.writings controller (h.turnsOf 0)).filter (·.message = message) := by
  induction run with
  | start => exact ⟨fun _ => rfl, by rintro controller ⟨⟩⟩
  | @step h e c c' run hstep hall =>
      obtain ⟨hnobody, halone⟩ := hall
      have hc := (run.mono hworld.isOpen).chronicled
      cases hstep with
      | @turn i m s hm hgoes =>
          rw [ids_resume hm s]
          refine ⟨fun hids => ?_, fun controller hids => ?_⟩
          · rw [List.map_eq_nil_iff.mp hids] at hm
            cases hm
          · exact told_turn hleft hm hids (halone controller hids) s
      | @enroll m =>
          have hids : (c.enroll m).members.map Member.id = c.members.map Member.id ++ [m.id] := by
            simp [Cluster.enroll]
          rw [hids]
          refine ⟨fun hnone => by simp at hnone, fun controller hone => ?_⟩
          obtain ⟨hnone, -⟩ := List.append_eq_singleton_iff.mp hone |>.resolve_right (by simp)
          have habsent : h.turnsOf 0 = [] := by
            apply hc.absent 0
            rw [List.map_eq_nil_iff.mp hnone]
            exact Nat.le_refl 0
          rw [List.nil_append, habsent]
          exact congrArg (List.map Stamped.entry) (hnobody hnone)
      | dismiss i =>
          rw [told_dismiss, ids_dismiss]
          exact ⟨hnobody, halone⟩
      | world hmoves =>
          rw [hworld.told hmoves, (hworld.isOpen hmoves).ids_eq]
          exact ⟨hnobody, halone⟩

omit [LockService σ] in
/-- Of all that a controller writes only steps from state to state are of the lowest level. -/
theorem transitions_writings (controller : ControllerId) (ts : List Turn) :
    (Controller.writings controller ts).filter (·.message = "state transition") =
      (Controller.writings controller ts).filter (·.level = .trace) := by
  have hnote (n : Note) : n.message = "state transition" ↔ n.level = .trace := by
    cases n <;> simp [Note.message, Note.level]
  induction ts with
  | nil => rfl
  | cons t ts hall =>
      rw [Controller.writings, List.filter_append, List.filter_append, hall]
      congr 1
      refine List.filter_congr fun e he => ?_
      obtain ⟨n, -, rfl⟩ := List.mem_map.mp he
      exact decide_eq_decide.mpr (hnote n)

/-- The journal of a controller that is alone has one entry called a state transition
for every step on its path, and no others. -/
theorem transitions_of_alone (run : Run World (empty service traced) h c)
    (hleft : LeftToControllers σ "state transition")
    (hworld : LeavesJournal World "state transition") (halone : c.members = [m]) :
    (c.told "state transition").map Stamped.entry =
      ((Controller.path (h.turnsOf 0)).zip (Controller.path (h.turnsOf 0)).tail).map
        (fun e => Controller.transitionEntry m.id e.1 e.2) := by
  have past := (run.mono hworld.isOpen).chronicled.past 0 m (by rw [halone]; rfl)
  rw [(run.told hleft hworld).2 m.id (by rw [halone]; rfl), transitions_writings]
  exact past.traceEntries_eq

end Runs

end Cluster

end LeaseElection

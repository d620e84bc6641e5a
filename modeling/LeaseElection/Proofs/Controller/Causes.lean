import LeaseElection.Proofs.Controller.Path

/-!
# Causes make no difference

A controller asks of an answer whether it is a grant under a token, or whether a renewal was
refused.  Under which token, for which reason, and whether an attempt was refused or only not
granted goes into what it writes, and nowhere else: whatever the cause, it goes on in the same
phase and does the same.
-/

namespace LeaseElection

namespace Controller

/-- Phases that are the same but for the token of the reign. -/
inductive Phase.Alike : Phase → Phase → Prop where
  | same (phase : Phase) : Alike phase phase
  | leading {reign reign' : Reign} (hsince : reign.since = reign'.since) (ticker : Ticker) :
      Alike (.leading reign ticker) (.leading reign' ticker)
  | renewing {reign reign' : Reign} (hsince : reign.since = reign'.since) (ticker : Ticker) :
      Alike (.renewing reign ticker) (.renewing reign' ticker)

/-- Signals that come to the same for a controller that waits for the answer to some call. -/
inductive Signal.Alike (call? : Option Request) : Signal → Signal → Prop where
  | same (s : Signal) : Alike call? s s
  | answered {r : Request} {a a' : Answer} (hcall : call? = some r)
      (hverdict : Verdict.of a r = Verdict.of a' r) : Alike call? (.answered a) (.answered a')

/-- Actions that come to the same, whatever is written but for steps from state to state, and
whatever the token of the reign. -/
inductive Action.Alike : Action → Action → Prop where
  | same (a : Action) : Alike a a
  | note {n n' : Note} (hnote : n.message ≠ "state transition")
      (hnote' : n'.message ≠ "state transition") : Alike (.note n) (.note n')
  | startTask (token token' : LockToken) : Alike (.startTask token) (.startTask token')

theorem Phase.Alike.state_eq {phase phase' : Phase} (halike : phase.Alike phase') :
    phase.state = phase'.state := by
  cases halike <;> rfl

theorem Verdict.isSome_grant?_eq {a a' : Answer} {caller : ControllerId}
    (hverdict : Verdict.of a (.acquire caller) = Verdict.of a' (.acquire caller)) :
    a.grant?.isSome = a'.grant?.isSome := by
  cases hgrant : a.grant?.isSome <;> cases hgrant' : a'.grant?.isSome <;>
    simp [Verdict.of, hgrant, hgrant'] at hverdict ⊢

theorem Verdict.isSome_refusal?_eq {a a' : Answer}
    (hverdict : Verdict.of a .renew = Verdict.of a' .renew) :
    a.refusal?.isSome = a'.refusal?.isSome := by
  cases hrefusal : a.refusal?.isSome <;> cases hrefusal' : a'.refusal?.isSome <;>
    simp [Verdict.of, hrefusal, hrefusal'] at hverdict ⊢

/-- A step that comes to the same as another. -/
structure Step.Alike (x x' : Step) : Prop where
  phase : x.1.Alike x'.1
  actions : List.Forall₂ Action.Alike x.2 x'.2

namespace Step.Alike

theorem refl (x : Step) : Alike x x :=
  ⟨.same _, List.forall₂_same.mpr fun a _ => .same a⟩

/-- A grant under another token. -/
theorem lead (p : Policy) (now : Nat) (token token' : LockToken) :
    Alike (Controller.lead p now token) (Controller.lead p now token') := by
  have hbegins : List.Forall₂ Action.Alike
      [.note (.acquired token), .note (.moved .attempting .leading), .startTask token]
      [.note (.acquired token'), .note (.moved .attempting .leading), .startTask token'] :=
    .cons (.note (by simp [Note.message]) (by simp [Note.message]))
      (.cons (.same _) (.cons (.startTask _ _) .nil))
  rw [Controller.lead, Controller.lead]
  cases Ticker.start? now p.renewal with
  | none => exact ⟨.same _, List.rel_append hbegins (.cons (.same _) .nil)⟩
  | some ticker =>
      have hsince : (⟨token, now⟩ : Reign).since = (⟨token', now⟩ : Reign).since := rfl
      exact ⟨.leading hsince ticker, hbegins⟩

/-- An attempt that brought no grant, for whatever reason. -/
theorem miss (p : Policy) (now : Nat) (a a' : Answer) :
    Alike (retry p now, [.note (missNote a), .note (.moved .attempting .waiting)])
      (retry p now, [.note (missNote a'), .note (.moved .attempting .waiting)]) := by
  have hmessage (a : Answer) : (missNote a).message ≠ "state transition" := by
    rw [missNote]
    split <;> simp [Note.message]
  exact ⟨.same _, .cons (.note (hmessage a) (hmessage a')) (.cons (.same _) .nil)⟩

/-- A renewal that was refused, for whatever reason. -/
theorem lose (p : Policy) (now : Nat) (reason reason' : LockError) {reign reign' : Reign}
    (token token' : LockToken) :
    Alike
      (.cooling (Instant.wake now p.delay),
        [.note (.lost reason token (reign.heldMillis now)), .cancelTask,
          .note (.moved .leading .waiting)])
      (.cooling (Instant.wake now p.delay),
        [.note (.lost reason' token' (reign'.heldMillis now)), .cancelTask,
          .note (.moved .leading .waiting)]) :=
  ⟨.same _, .cons (.note (by simp [Note.message]) (by simp [Note.message]))
    (.cons (.same _) (.cons (.same _) .nil))⟩

end Step.Alike

section Resume

variable {id : ControllerId} {p : Policy} {now : Nat} {phase phase' : Phase} {s s' : Signal}

/-- Answers that come to the same call a controller to go on in the same way. -/
theorem signal?_alike {shutdown : Bool} {answer answer' : Option Answer}
    (hphase : phase.Alike phase') (hanswer : ∀ r, phase.call? id = some r →
      Option.Rel (fun a a' => Verdict.of a r = Verdict.of a' r) answer answer') :
    Option.Rel (Signal.Alike (phase.call? id)) (signal? now shutdown answer phase)
      (signal? now shutdown answer' phase') := by
  have hsame (x : Option Signal) : Option.Rel (Signal.Alike (phase.call? id)) x x := by
    cases x with
    | none => exact .none
    | some s => exact .some (.same s)
  have hcall (r : Request) (hr : phase.call? id = some r) :
      Option.Rel (Signal.Alike (phase.call? id))
        (if shutdown then some .cancelled else answer.map .answered)
        (if shutdown then some .cancelled else answer'.map .answered) := by
    split
    · exact .some (.same _)
    · cases hanswer r hr with
      | none => exact .none
      | some hverdict => exact .some (.answered hr hverdict)
  cases hphase with
  | same =>
      cases phase with
      | acquiring | renewing => exact hcall _ rfl
      | _ => exact hsame _
  | leading => exact hsame _
  | renewing => exact hcall _ rfl

/-- Who makes a call waits for its answer. -/
theorem call?_of_mem_resume {r : Request} (hr : .call r ∈ (resume id p now phase s).2) :
    (resume id p now phase s).1.call? id = some r := by
  have hstops (previous : State) (notes : List Note) : .call r ∉ (stop previous notes).2 := by
    simp [stop]
  have hleads (token : LockToken) : .call r ∉ (lead p now token).2 := by
    rw [lead]
    split <;> simp
  have hattempts (hr : .call r ∈ (attempt id).2) : (attempt id).1.call? id = some r := by
    simpa [attempt, Phase.call?, eq_comm] using hr
  revert hr
  fun_cases resume id p now phase s <;>
    first
    | exact hattempts
    | simp [hstops, hleads, Phase.call?, eq_comm]

theorem resume_attempt_alike {a a' : Answer} (hgrant : a.grant?.isSome = a'.grant?.isSome) :
    (resume id p now .acquiring (.answered a)).Alike
      (resume id p now .acquiring (.answered a')) := by
  have hmiss (a : Answer) (hnone : a.grant? = none) : resume id p now .acquiring (.answered a) =
      (retry p now, [.note (missNote a), .note (.moved .attempting .waiting)]) := by
    simp only [resume, hnone, missNote]
    cases a.refusal? <;> rfl
  have hwin (a : Answer) (token : LockToken) (hsome : a.grant? = some token) :
      resume id p now .acquiring (.answered a) = lead p now token := by
    simp only [resume, hsome]
  cases h : a.grant? with
  | none =>
      rw [h] at hgrant
      rw [hmiss a h, hmiss a' (Option.not_isSome_iff_eq_none.mp (by simp [← hgrant]))]
      exact .miss p now a a'
  | some token =>
      rw [h] at hgrant
      obtain ⟨token', h'⟩ := Option.isSome_iff_exists.mp hgrant.symm
      rw [hwin a token h, hwin a' token' h']
      exact .lead p now token token'

theorem resume_renewal_alike {a a' : Answer} (hrefusal : a.refusal?.isSome = a'.refusal?.isSome)
    {reign reign' : Reign} (hsince : reign.since = reign'.since) (ticker : Ticker) :
    (resume id p now (.renewing reign ticker) (.answered a)).Alike
      (resume id p now (.renewing reign' ticker) (.answered a')) := by
  cases h : a.refusal? with
  | none =>
      rw [h] at hrefusal
      have h' : a'.refusal? = none := Option.not_isSome_iff_eq_none.mp (by simp [← hrefusal])
      simp only [resume, h, h']
      exact ⟨.leading hsince ticker, .nil⟩
  | some reason =>
      rw [h] at hrefusal
      obtain ⟨reason', h'⟩ := Option.isSome_iff_exists.mp hrefusal.symm
      simp only [resume, h, h']
      exact .lose p now reason reason' _ _

/-- Whatever the cause and whatever the token, a controller goes on in the same way. -/
theorem resume_alike (hphase : phase.Alike phase') (hs : Signal.Alike (phase.call? id) s s') :
    (resume id p now phase s).Alike (resume id p now phase' s') := by
  cases hs with
  | same =>
      cases hphase with
      | same => exact .refl _
      | leading hsince ticker =>
          cases s with
          | cancelled => exact .refl _
          | elapsed => exact ⟨.renewing hsince _, List.forall₂_same.mpr fun a _ => .same a⟩
          | begun | answered | resumed => exact ⟨.leading hsince ticker, .nil⟩
      | renewing hsince ticker =>
          cases s with
          | cancelled => exact .refl _
          | answered a => exact resume_renewal_alike rfl hsince ticker
          | begun | elapsed | resumed => exact ⟨.renewing hsince ticker, .nil⟩
  | answered hcall hverdict =>
      cases hphase with
      | renewing hsince ticker =>
          cases hcall
          exact resume_renewal_alike (Verdict.isSome_refusal?_eq hverdict) hsince ticker
      | leading => cases hcall
      | same =>
          cases phase with
          | acquiring =>
              cases hcall
              exact resume_attempt_alike (Verdict.isSome_grant?_eq hverdict)
          | renewing reign ticker =>
              cases hcall
              exact resume_renewal_alike (Verdict.isSome_refusal?_eq hverdict) rfl ticker
          | idle | starting | leading | cooling | yielding | retrying | stopped | failed =>
              cases hcall

end Resume

end Controller

end LeaseElection

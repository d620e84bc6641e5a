import LeaseElection.Proofs.Cluster.Journal
import LeaseElection.Proofs.Controller.Causes

/-!
# Services that differ in causes only

Two clusters are given the same commands.  The replies of their lock services come after the same
time and come to the same: an attempt is granted in both or in neither, and a renewal refused in
both or in neither.  Tokens and reasons may differ, and so may whether calls are traced.  Then all
that can be seen of the two clusters is the same at all times, but for what is written besides
steps from state to state.
-/

namespace LeaseElection

open Controller (Phase Signal Action Note Verdict)

section Lists

variable {α β : Type} {P : α → β → Prop} {l : List α} {l' : List β}

/-- Two options in relation are both there, or neither is. -/
theorem rel_cases {x : Option α} {y : Option β} (hrel : Option.Rel P x y) :
    x = none ∧ y = none ∨ ∃ a b, x = some a ∧ y = some b ∧ P a b := by
  cases hrel with
  | none => exact Or.inl ⟨rfl, rfl⟩
  | some hab => exact Or.inr ⟨_, _, rfl, rfl, hab⟩

theorem rel_getElem? (hl : List.Forall₂ P l l') (i : Nat) : Option.Rel P l[i]? l'[i]? := by
  induction hl generalizing i with
  | nil => exact .none
  | cons hhead _ ih =>
      cases i with
      | zero => exact .some hhead
      | succ i => exact ih i

theorem forall₂_modify (hl : List.Forall₂ P l l') (i : Nat) {f : α → α} {g : β → β}
    (hfg : ∀ x y, l[i]? = some x → P x y → P (f x) (g y)) :
    List.Forall₂ P (l.modify i f) (l'.modify i g) := by
  induction hl generalizing i with
  | nil => simp
  | cons hhead htail ih =>
      cases i with
      | zero => exact .cons (hfg _ _ rfl hhead) htail
      | succ i => exact .cons hhead (ih i hfg)

end Lists

/-- Replies to a call that come to the same, after the same time. -/
inductive Reply.Alike (r : Request) : Reply → Reply → Prop where
  | silence : Alike r .silence .silence
  | answer (latency : Span) {a a' : Answer} (hverdict : Verdict.of a r = Verdict.of a' r) :
      Alike r (.answer latency a) (.answer latency a')

/-- That the replies of two services in related states always come to the same, and that no
service writes about steps from state to state. -/
structure LockService.Indistinct {σ τ : Type} [LockService σ] [LockService τ]
    (Related : σ → τ → Prop) : Prop where
  reply : ∀ (now : Nat) (party : Party) (r : Request) (x : σ) (y : τ), Related x y →
    (call now party r x).1.Alike r (call now party r y).1
  next : ∀ (now : Nat) (party : Party) (r : Request) (x : σ) (y : τ), Related x y →
    Related (call now party r x).2.1 (call now party r y).2.1
  left : LeftToControllers σ "state transition"
  right : LeftToControllers τ "state transition"

/-- Calls whose answers come to the same. -/
structure PendingCall.Alike (k k' : PendingCall) : Prop where
  request : k.request = k'.request
  askedAt : k.askedAt = k'.askedAt
  due : k.due = k'.due
  verdict : Verdict.of k.answer k.request = Verdict.of k'.answer k.request

theorem PendingCall.of?_alike {r : Request} {reply reply' : Reply} (halike : reply.Alike r reply')
    (now : Nat) : Option.Rel PendingCall.Alike (of? now r reply) (of? now r reply') := by
  cases halike with
  | silence => exact .none
  | answer latency hverdict => exact .some ⟨rfl, rfl, rfl, hverdict⟩

theorem PendingCall.request_of?_eq {now : Nat} {r : Request} {reply : Reply} {k : PendingCall}
    (hk : of? now r reply = some k) : k.request = r := by
  cases reply with
  | silence => cases hk
  | answer => cases hk; rfl

/-- Episodes that are the same but for their token. -/
structure Episode.Alike (e e' : Episode) : Prop where
  startedAt : e.startedAt = e'.startedAt
  task : e.task = e'.task

/-- What goes to and fro, up to the causes of an answer. -/
inductive Exchange.Alike : Exchange → Exchange → Prop where
  | asked (r : Request) : Alike (.asked r) (.asked r)
  | answered {r : Request} {a a' : Answer} (hverdict : Verdict.of a r = Verdict.of a' r) :
      Alike (.answered r a) (.answered r a')

/-- Controllers that are the same but for tokens and causes, each in the call that it waits for,
if it is in any. -/
structure Member.Alike (m m' : Member) : Prop where
  name : m.name = m'.name
  id : m.id = m'.id
  policy : m.policy = m'.policy
  conduct : m.conduct = m'.conduct
  shutdown : m.shutdown = m'.shutdown
  phase : m.phase.Alike m'.phase
  episode : Option.Rel Episode.Alike m.episode m'.episode
  call : Option.Rel PendingCall.Alike m.call m'.call
  asks : ∀ k, m.call = some k → m.phase.call? m.id = some k.request

namespace Member.Alike

variable {m m' : Member}

theorem refl {m : Member} (hepisode : m.episode = none) (hcall : m.call = none) : m.Alike m where
  name := rfl
  id := rfl
  policy := rfl
  conduct := rfl
  shutdown := rfl
  phase := .same _
  episode := by rw [hepisode]; exact .none
  call := by rw [hcall]; exact .none
  asks := by rw [hcall]; rintro k ⟨⟩

theorem state_eq (halike : m.Alike m') : m.state = m'.state := halike.phase.state_eq

theorem wake?_eq (halike : m.Alike m') : m.wake? = m'.wake? := by
  have hdue : m.call.map PendingCall.due = m'.call.map PendingCall.due := by
    rcases rel_cases halike.call with ⟨hnone, hnone'⟩ | ⟨k, k', hsome, hsome', hk⟩
    · rw [hnone, hnone']
    · rw [hsome, hsome', Option.map_some, Option.map_some, hk.due]
  have hphase := halike.phase
  rw [Member.wake?, Member.wake?]
  generalize m.phase = phase, m'.phase = phase' at hphase ⊢
  cases hphase with
  | same => rw [hdue]
  | leading => rfl
  | renewing => exact hdue

/-- What has come back comes to the same. -/
theorem answer?_rel (halike : m.Alike m') (now : Nat) {r : Request}
    (hr : m.phase.call? m.id = some r) :
    Option.Rel (fun a a' => Verdict.of a r = Verdict.of a' r) (m.answer? now) (m'.answer? now) := by
  rw [answer?, answer?]
  rcases rel_cases halike.call with ⟨hnone, hnone'⟩ | ⟨k, k', hsome, hsome', hk⟩
  · rw [hnone, hnone']
    exact .none
  · obtain rfl : r = k.request := Option.some.inj (hr.symm.trans (halike.asks k hsome))
    rw [hsome, hsome', Option.filter_some, Option.filter_some, ← hk.due]
    split
    · exact .some hk.verdict
    · exact .none

theorem signal?_rel (halike : m.Alike m') (now : Nat) :
    Option.Rel (Signal.Alike (m.phase.call? m.id)) (m.signal? now) (m'.signal? now) := by
  rw [Member.signal?, Member.signal?, ← halike.shutdown]
  exact Controller.signal?_alike halike.phase fun _ hr => halike.answer?_rel now hr

end Member.Alike

namespace Cluster

variable {σ τ : Type} {c : Cluster σ} {c' : Cluster τ} {i : Nat} {m m' : Member}

/-- To hear an answer adds to what went to and fro, and to the journal. -/
theorem hear_of_call (c : Cluster σ) {k : PendingCall} (hcall : m.call = some k) :
    ∃ entries, c.hear m = { c.exchange (.answered k.request k.answer) with entries } := by
  rw [hear, hcall]
  dsimp only
  split
  · exact ⟨_, rfl⟩
  · exact ⟨_, rfl⟩

/-- Clusters that are the same but for tokens and causes, with services in related states.  Of
the journal only what is written about steps from state to state has to be the same. -/
structure Alike (Related : σ → τ → Prop) (c : Cluster σ) (c' : Cluster τ) : Prop where
  now : c.now = c'.now
  service : Related c.service c'.service
  members : List.Forall₂ Member.Alike c.members c'.members
  crew : c.crew = c'.crew
  ready : c.ready = c'.ready
  yielded : c.yielded = c'.yielded
  alarms : c.alarms = c'.alarms
  exchanges : List.Forall₂ (fun e e' => e.1 = e'.1 ∧ e.2.Alike e'.2) c.exchanges c'.exchanges
  told : c.told "state transition" = c'.told "state transition"

namespace Alike

variable {Related : σ → τ → Prop}

theorem empty {service : σ} {service' : τ} (hservice : Related service service')
    (traced traced' : Bool) :
    Alike Related (Cluster.empty service traced) (Cluster.empty service' traced') where
  now := rfl
  service := hservice
  members := .nil
  crew := rfl
  ready := rfl
  yielded := rfl
  alarms := rfl
  exchanges := .nil
  told := rfl

theorem member (halike : Alike Related c c') (i : Nat) :
    Option.Rel Member.Alike c.members[i]? c'.members[i]? :=
  rel_getElem? halike.members i

theorem episode (halike : Alike Related c c') (i : Nat) :
    Option.Rel Episode.Alike (c.members[i]?.bind Member.episode)
      (c'.members[i]?.bind Member.episode) := by
  rcases rel_cases (halike.member i) with ⟨hnone, hnone'⟩ | ⟨m, m', hsome, hsome', hm⟩
  · rw [hnone, hnone']
    exact .none
  · rw [hsome, hsome']
    exact hm.episode

section Parts

theorem wake (halike : Alike Related c c') (r : Runner) :
    Alike Related (c.wake r) (c'.wake r) := by
  rw [Cluster.wake, Cluster.wake, ← halike.ready]
  split
  · exact halike
  · exact { halike with ready := rfl }

theorem foldl_wake (halike : Alike Related c c') (rs : List Runner) :
    Alike Related (rs.foldl Cluster.wake c) (rs.foldl Cluster.wake c') := by
  induction rs generalizing c c' with
  | nil => exact halike
  | cons r rs hall => exact hall (halike.wake r)

theorem cancelTask (halike : Alike Related c c') (j : Nat) :
    Alike Related (c.cancelTask j) (c'.cancelTask j) := by
  have hcancelled : Alike Related { c with crew := c.crew.cancel j }
      { c' with crew := c'.crew.cancel j } := { halike with crew := by rw [halike.crew] }
  exact hcancelled.wake _

theorem foldl_cancelTask (halike : Alike Related c c') (tasks : List Nat) :
    Alike Related (tasks.foldl Cluster.cancelTask c) (tasks.foldl Cluster.cancelTask c') := by
  induction tasks generalizing c c' with
  | nil => exact halike
  | cons j tasks hall => exact hall (halike.cancelTask j)

theorem write (halike : Alike Related c c') {es es' : List Entry}
    (hes : telling c.now "state transition" es = telling c.now "state transition" es') :
    Alike Related (c.write es) (c'.write es') :=
  { halike with told := by rw [told_write, told_write, halike.told, ← halike.now, hes] }

theorem exchange (halike : Alike Related c c') {e e' : Exchange} (he : e.Alike e') :
    Alike Related (c.exchange e) (c'.exchange e') :=
  { halike with exchanges := .cons ⟨halike.now, he⟩ halike.exchanges }

theorem modify (halike : Alike Related c c') (i : Nat) {f g : Member → Member}
    (hfg : ∀ m m', c.members[i]? = some m → m.Alike m' → (f m).Alike (g m')) :
    Alike Related (c.modify i f) (c'.modify i g) :=
  { halike with members := forall₂_modify halike.members i hfg }

/-- Of a controller that waits only its alarm matters, and whether it lets the others run. -/
theorem park (halike : Alike Related c c') (i : Nat) : Alike Related (c.park i) (c'.park i) := by
  rw [Cluster.park, Cluster.park]
  rcases rel_cases (halike.member i) with ⟨hnone, hnone'⟩ | ⟨m, m', hsome, hsome', hm⟩
  · rw [hnone, hnone']
    exact halike
  · have hset : Alike Related { c with alarms := c.alarms.set (.member i) m.wake? }
        { c' with alarms := c'.alarms.set (.member i) m'.wake? } :=
      { halike with alarms := by rw [halike.alarms, hm.wake?_eq] }
    have hyields : Alike Related
        { c with
          alarms := c.alarms.set (.member i) m.wake?, yielded := c.yielded ++ [i] }
        { c' with
          alarms := c'.alarms.set (.member i) m'.wake?, yielded := c'.yielded ++ [i] } :=
      { hset with yielded := by rw [halike.yielded] }
    rw [hsome, hsome']
    have hphase := hm.phase
    dsimp only
    generalize m.phase = phase, m'.phase = phase' at hphase ⊢
    cases hphase with
    | leading | renewing => exact hset
    | same =>
        cases phase with
        | yielding completed =>
            have hmem : i ∈ c.yielded ↔ i ∈ c'.yielded := by rw [halike.yielded]
            by_cases hi : i ∈ c.yielded
            · simpa only [if_pos hi, if_pos (hmem.mp hi)] using hset
            · simpa only [if_neg hi, if_neg (mt hmem.mpr hi)] using hyields
        | _ => exact hset

theorem isTaskOver_eq (halike : Alike Related c c') (hm : m.Alike m') :
    c.isTaskOver m = c'.isTaskOver m' := by
  rw [isTaskOver, isTaskOver, ← halike.crew]
  rcases rel_cases hm.episode with ⟨hnone, hnone'⟩ | ⟨e, e', hsome, hsome', he⟩
  · rw [hnone, hnone']
  · rw [hsome, hsome', Option.all_some, Option.all_some, he.task]

theorem enroll (halike : Alike Related c c') (hm : m.Alike m') :
    Alike Related (c.enroll m) (c'.enroll m') :=
  { halike with
    members := List.rel_append halike.members (.cons hm .nil)
    ready := by simp only [Cluster.enroll, halike.ready, halike.members.length_eq] }

theorem dismiss (halike : Alike Related c c') (i : Nat) :
    Alike Related (c.dismiss i) (c'.dismiss i) := by
  rw [Cluster.dismiss, Cluster.dismiss, ← halike.crew]
  apply wake
  apply foldl_cancelTask
  exact halike.modify i fun _ _ _ hm => { hm with shutdown := rfl }

end Parts

section Turns

variable [LockService σ] [LockService τ]

/-- A task is not told the token under which it runs. -/
theorem startTask (halike : Alike Related c c') (hm : m.Alike m') (token token' : LockToken) :
    Alike Related (perform i m c (.startTask token)) (perform i m' c' (.startTask token')) := by
  simp only [Cluster.perform, Episode.begin, Crew.spawn]
  rw [← halike.crew, ← hm.id, ← hm.conduct, ← hm.shutdown]
  apply wake
  have hspawned (crew : Crew) : Alike Related { c with crew } { c' with crew } :=
    { halike with crew := rfl }
  apply (hspawned _).modify i
  intro _ _ _ hm₁
  exact { hm₁ with episode := .some ⟨halike.now, rfl⟩ }

variable (hservices : LockService.Indistinct Related)

include hservices

/-- A call of a controller that waits for its answer. -/
theorem call (halike : Alike Related c c') {r : Request}
    (hawaits : ∀ x, c.members[i]? = some x → x.phase.call? x.id = some r) :
    Alike Related (c.call i m r) (c'.call i m' r) := by
  have hreply := hservices.reply c.now (.member i) r _ _ halike.service
  have hnext := hservices.next c.now (.member i) r _ _ halike.service
  have htold : (c.call i m r).told "state transition" =
      (c'.call i m' r).told "state transition" := by
    rw [told_call hservices.left, told_call hservices.right, halike.told]
  rw [Cluster.call, Cluster.call, ← halike.now] at htold ⊢
  generalize LockService.call c.now (.member i) r c.service = x at hreply hnext htold ⊢
  generalize LockService.call c.now (.member i) r c'.service = x' at hreply hnext htold ⊢
  have hanswered : List.Forall₂ Member.Alike
      (c.members.modify i fun m => { m with call := PendingCall.of? c.now r x.1 })
      (c'.members.modify i fun m => { m with call := PendingCall.of? c.now r x'.1 }) := by
    refine forall₂_modify halike.members i fun m₁ m₁' hm₁ hm => ?_
    refine { hm with call := PendingCall.of?_alike hreply c.now, asks := fun k hk => ?_ }
    rw [hawaits m₁ hm₁, PendingCall.request_of?_eq hk]
  exact { halike with
    now := rfl
    service := hnext
    members := hanswered
    exchanges := .cons ⟨rfl, .asked r⟩ halike.exchanges
    told := htold }

/-- Actions that come to the same, of a controller that waits for the answer to the call that it
makes, if it makes one. -/
theorem perform {a a' : Action} (halike : Alike Related c c') (hm : m.Alike m') (ha : a.Alike a')
    (hawaits : ∀ r, a = .call r → ∀ x, c.members[i]? = some x → x.phase.call? x.id = some r) :
    Alike Related (perform i m c a) (perform i m' c' a') := by
  cases ha with
  | note hnote hnote' =>
      apply halike.write
      rw [telling_eq_nil, telling_eq_nil] <;> simpa [Note.entry]
  | startTask token token' => exact halike.startTask hm token token'
  | same =>
      cases a with
      | note n => exact halike.write (by rw [hm.id])
      | call r => exact halike.call hservices (hawaits r rfl)
      | startTask token => exact halike.startTask hm token token
      | cancelTask =>
          simp only [Cluster.perform]
          rcases rel_cases (halike.episode i) with ⟨hnone, hnone'⟩ | ⟨e, e', hsome, hsome', he⟩
          · rw [hnone, hnone']
            exact halike
          · rw [hsome, hsome']
            dsimp only
            rw [he.task]
            exact halike.cancelTask e'.task

/-- The phase of the controller is set before its actions are done, and no action changes it: it
waits for the answer to every call that is among them. -/
theorem foldl_perform {actions actions' : List Action} {members : List Member} {m₁ : Member}
    {x : Reach σ} (halike : Alike Related c c') (hi : i < members.length)
    (hagrees : c.Agrees members i m₁ x) (hm : m.Alike m')
    (hactions : List.Forall₂ Action.Alike actions actions')
    (hcalls : ∀ r, .call r ∈ actions → m₁.phase.call? m₁.id = some r) :
    Alike Related (actions.foldl (Cluster.perform i m) c)
      (actions'.foldl (Cluster.perform i m') c') := by
  induction hactions generalizing c c' x with
  | nil => exact halike
  | @cons a a' actions _ ha _ hall =>
      have hself : c.members[i]? = some { m₁ with call := x.call, episode := x.episode } := by
        rw [hagrees.members, List.getElem?_set_self hi]
      have hdone : Alike Related (Cluster.perform i m c a) (Cluster.perform i m' c' a') := by
        refine halike.perform hservices hm ha fun r hr m₂ hm₂ => ?_
        cases hself.symm.trans hm₂
        exact hcalls r (hr ▸ List.mem_cons_self)
      exact hall hdone (hagrees.perform hi a) fun r hr => hcalls r (List.mem_cons_of_mem _ hr)

/-- The answers that are heard come to the same, whatever is written about them. -/
theorem hear (halike : Alike Related c c') (hm : m.Alike m') :
    Alike Related (c.hear m) (c'.hear m') := by
  have htold : (c.hear m).told "state transition" = (c'.hear m').told "state transition" := by
    rw [told_hear hservices.left, told_hear hservices.right, halike.told]
  rcases rel_cases hm.call with ⟨hnone, hnone'⟩ | ⟨k, k', hsome, hsome', hk⟩
  · rw [Cluster.hear, Cluster.hear, hnone, hnone']
    exact halike
  · obtain ⟨entries, hheard⟩ := hear_of_call c hsome
    obtain ⟨entries', hheard'⟩ := hear_of_call c' hsome'
    have hanswered : Exchange.Alike (.answered k.request k.answer)
        (.answered k'.request k'.answer) := hk.request ▸ .answered hk.verdict
    rw [hheard, hheard'] at htold ⊢
    exact { halike.exchange hanswered with told := htold }

/-- A controller that goes on with signals that come to the same. -/
theorem resume {s s' : Signal} (halike : Alike Related c c') (hm : c.members[i]? = some m)
    (hm' : c'.members[i]? = some m') (hs : Signal.Alike (m.phase.call? m.id) s s') :
    Alike Related (c.resume i m s) (c'.resume i m' s') := by
  have hsame : m.Alike m' := by
    have hrel := halike.member i
    rw [hm, hm'] at hrel
    cases hrel
    assumption
  have hi : i < c.members.length := (List.getElem?_eq_some_iff.mp hm).1
  -- An answer is heard first, so the actions start from clusters that were written to since.
  have hstep (x : Cluster σ) (x' : Cluster τ) (hx : Alike Related x x')
      (hmembers : x.members = c.members) :
      let step := Controller.resume m.id m.policy x.now m.phase s
      let step' := Controller.resume m'.id m'.policy x'.now m'.phase s'
      Alike Related
        (step.2.foldl (Cluster.perform i m)
          (x.modify i fun m => { m with phase := step.1, call := none }))
        (step'.2.foldl (Cluster.perform i m')
          (x'.modify i fun m => { m with phase := step'.1, call := none })) := by
    rw [← hsame.id, ← hsame.policy, ← hx.now]
    intro step step'
    have hturn : step.Alike step' := Controller.resume_alike hsame.phase hs
    have hagrees : (x.modify i fun m => { m with phase := step.1, call := none }).Agrees
        c.members i { m with phase := step.1 } ⟨x.service, none, x.crew, m.episode⟩ := by
      refine ⟨rfl, rfl, ?_⟩
      rw [Cluster.modify, hmembers]
      exact modify_eq_set hm _
    have hmoved : Alike Related (x.modify i fun m => { m with phase := step.1, call := none })
        (x'.modify i fun m => { m with phase := step'.1, call := none }) := by
      apply hx.modify i
      intro _ _ _ hm₁
      exact { hm₁ with phase := hturn.phase, call := .none, asks := by rintro k ⟨⟩ }
    exact hmoved.foldl_perform hservices hi hagrees hsame hturn.actions
      fun r hr => Controller.call?_of_mem_resume hr
  cases hs with
  | same =>
      cases s with
      | answered a => exact hstep _ _ (halike.hear hservices hsame) (hear_frame c m).2.2.2
      | begun | cancelled | elapsed | resumed => exact hstep _ _ halike rfl
  | answered => exact hstep _ _ (halike.hear hservices hsame) (hear_frame c m).2.2.2

/-- The same runner goes on in both clusters, or nobody can. -/
theorem step? (halike : Alike Related c c') : Option.Rel (Alike Related) c.step? c'.step? := by
  rw [Cluster.step?, Cluster.step?, ← halike.ready]
  cases c.ready with
  | nil =>
      rw [← halike.yielded]
      cases c.yielded with
      | nil => exact .none
      | cons i rest =>
          have htaken : Alike Related { c with yielded := rest, ready := [.member i] }
              { c' with yielded := rest, ready := [.member i] } :=
            { halike with ready := rfl, yielded := rfl }
          refine .some ?_
          rcases rel_cases (halike.member i) with ⟨hnone, hnone'⟩ | ⟨m, m', hsome, hsome', hm⟩
          · rw [hnone, hnone']
            exact htaken
          · rw [hsome, hsome']
            apply htaken.resume hservices hsome hsome'
            rw [htaken.isTaskOver_eq hm]
            exact .same _
  | cons r rest =>
      cases r with
      | member i =>
          have hrest : Alike Related { c with ready := rest } { c' with ready := rest } :=
            { halike with ready := rfl }
          refine .some ?_
          rcases rel_cases (halike.member i) with ⟨hnone, hnone'⟩ | ⟨m, m', hsome, hsome', hm⟩
          · rw [hnone, hnone']
            exact hrest
          · have hsignal : Option.Rel (Signal.Alike (m.phase.call? m.id)) (m.signal? c.now)
                (m'.signal? c'.now) := by
              rw [← halike.now]
              exact hm.signal?_rel c.now
            rw [hsome, hsome']
            dsimp only
            rcases rel_cases hsignal with ⟨hnone, hnone'⟩ | ⟨s, s', hs, hs', hsame⟩
            · rw [hnone, hnone']
              exact hrest.park i
            · rw [hs, hs']
              exact halike.resume hservices hsome hsome' hsame
      | task j =>
          exact .some { halike with
            ready := rfl
            crew := by rw [halike.crew, halike.now]
            alarms := by rw [halike.crew, halike.now, halike.alarms] }

theorem run (halike : Alike Related c c') (fuel : Nat) :
    Alike Related (c.run fuel) (c'.run fuel) := by
  induction fuel generalizing c c' with
  | zero => exact halike
  | succ fuel hall =>
      rw [Cluster.run, Cluster.run]
      rcases rel_cases (halike.step? hservices) with ⟨hnone, hnone'⟩ | ⟨x, x', hsome, hsome', hx⟩
      · rw [hnone, hnone']
        exact halike
      · rw [hsome, hsome']
        exact hall hx

theorem settle (halike : Alike Related c c') : Alike Related c.settle c'.settle := by
  have hpatience : c.patience = c'.patience := by
    rw [patience, patience, halike.ready, halike.yielded, halike.members.length_eq]
  rw [Cluster.settle, Cluster.settle, hpatience]
  exact halike.run hservices _

theorem moveTo (halike : Alike Related c c') (now : Nat) :
    Alike Related (c.moveTo now) (c'.moveTo now) := by
  have hdue : c.alarms.due now = c'.alarms.due now := by rw [halike.alarms]
  rw [Cluster.moveTo, Cluster.moveTo, ← hdue]
  have hmoved : Alike Related { c with now } { c' with now } := { halike with now := rfl }
  exact (hmoved.foldl_wake _).settle hservices

theorem advanceFrom (halike : Alike Related c c') (now target : Nat) :
    Alike Related (c.advanceFrom now target) (c'.advanceFrom now target) := by
  fun_induction Cluster.advanceFrom now target c generalizing c' with
  | case1 now c w hnext hall =>
      rw [advanceFrom.eq_def now target c', ← halike.alarms, hnext]
      exact hall (halike.moveTo hservices w.val)
  | case2 now c hnone =>
      rw [advanceFrom.eq_def now target c', ← halike.alarms, hnone]
      exact halike.moveTo hservices target

theorem advanceTo (halike : Alike Related c c') (target : Nat) :
    Alike Related (c.advanceTo target) (c'.advanceTo target) := by
  rw [Cluster.advanceTo, Cluster.advanceTo, ← halike.now]
  split
  · exact halike.advanceFrom hservices c.now target
  · exact halike

theorem sleep (halike : Alike Related c c') (millis : Nat) :
    Alike Related (c.sleep millis) (c'.sleep millis) := by
  rw [Cluster.sleep, Cluster.sleep, ← halike.now]
  exact (halike.settle hservices).advanceTo hservices _

/-- An answer to somebody outside. -/
theorem answer (halike : Alike Related c c') {r : Request} (latency : Span) {a a' : Answer}
    (hverdict : Verdict.of a r = Verdict.of a' r) :
    Alike Related ((c.settle.advanceTo (latency.dueFrom c.now)).exchange (.answered r a)).settle
      ((c'.settle.advanceTo (latency.dueFrom c'.now)).exchange (.answered r a')).settle := by
  rw [← halike.now]
  apply settle hservices
  apply exchange _ (.answered hverdict)
  exact (halike.settle hservices).advanceTo hservices _

theorem callFrom (halike : Alike Related c c') (name : String) (r : Request) :
    Alike Related (c.callFrom name r).2 (c'.callFrom name r).2 := by
  have hreply := hservices.reply c.now (.outsider name) r _ _ halike.service
  have hnext := hservices.next c.now (.outsider name) r _ _ halike.service
  have hleft := hservices.left.service c.now (.outsider name) r c.service
  have hright := hservices.right.service c.now (.outsider name) r c'.service
  rw [Cluster.callFrom, Cluster.callFrom, ← halike.now]
  generalize LockService.call c.now (.outsider name) r c.service = x at hreply hnext hleft ⊢
  generalize LockService.call c.now (.outsider name) r c'.service = x' at hreply hnext hright ⊢
  obtain ⟨reply, service, es⟩ := x
  obtain ⟨reply', service', es'⟩ := x'
  have hserved : Alike Related { c with service } { c' with now := c.now, service := service' } :=
    { halike with now := rfl, service := hnext }
  have hsilent : telling c.now "state transition" es = telling c.now "state transition" es' := by
    rw [telling_eq_nil hleft, telling_eq_nil hright]
  have hasked := (hserved.exchange (.asked r)).write hsilent
  change reply.Alike r reply' at hreply
  cases hreply with
  | silence => exact hasked.settle hservices
  | answer latency hverdict => exact hasked.answer hservices latency hverdict

end Turns

end Alike

section Commands

/-- What is done to a cluster from outside, and how far it then goes on: by one step, until all
wait, or with the clock moved on.  Of tasks nothing is known but that they work on the crew. -/
inductive Command where
  | enroll (name : String) (id : ControllerId) (policy : Policy) (conduct : Conduct)
  | dismiss (i : Nat)
  | step
  | settle
  | sleep (millis : Nat)
  | moveTo (now : Nat)
  | work (f : Crew → Crew)
  | rouse (r : Runner)
  | callFrom (name : String) (r : Request)

def obey [LockService σ] (c : Cluster σ) : Command → Cluster σ
  | .enroll name id policy conduct => c.enroll { name, id, policy, conduct }
  | .dismiss i => c.dismiss i
  | .step => c.step?.getD c
  | .settle => c.settle
  | .sleep millis => c.sleep millis
  | .moveTo now => c.moveTo now
  | .work f => { c with crew := f c.crew }
  | .rouse r => c.wake r
  | .callFrom name r => (c.callFrom name r).2

/-- What can be seen of a cluster. -/
structure View where
  now : Nat
  /-- What the controllers show. -/
  states : List Controller.State
  /-- What was written about steps from state to state, and when. -/
  transitions : List Stamped
  /-- The calls that were made, and when. -/
  calls : List (Nat × Request)
  /-- Every task that was started, and whether it was cancelled. -/
  crew : Crew
deriving DecidableEq

def view (c : Cluster σ) : View where
  now := c.now
  states := c.members.map Member.state
  transitions := c.told "state transition"
  calls := c.history.filterMap fun e =>
    match e.2 with
    | .asked r => some (e.1, r)
    | .answered .. => none
  crew := c.crew

namespace Alike

variable {Related : σ → τ → Prop}

theorem view_eq (halike : Alike Related c c') : c.view = c'.view := by
  have hstates : c.members.map Member.state = c'.members.map Member.state := by
    rw [← List.forall₂_eq_eq_eq, List.forall₂_map_left_iff, List.forall₂_map_right_iff]
    exact halike.members.imp fun _ _ hm => hm.state_eq
  have hcalls : c.view.calls = c'.view.calls := by
    rw [← List.forall₂_eq_eq_eq]
    refine List.rel_filterMap ?_ (List.rel_reverse halike.exchanges)
    rintro ⟨now, e⟩ ⟨now', e'⟩ ⟨rfl, he⟩
    cases he with
    | asked r => exact .some rfl
    | answered => exact .none
  rw [view, view, View.mk.injEq]
  exact ⟨halike.now, hstates, halike.told, hcalls, halike.crew⟩

/-- No command tells the one service from the other. -/
theorem obey [LockService σ] [LockService τ] (hservices : LockService.Indistinct Related)
    (halike : Alike Related c c') (command : Command) :
    Alike Related (c.obey command) (c'.obey command) := by
  cases command with
  | enroll name id policy conduct => exact halike.enroll (.refl rfl rfl)
  | dismiss i => exact halike.dismiss i
  | step =>
      rw [Cluster.obey, Cluster.obey]
      rcases rel_cases (halike.step? hservices) with ⟨hnone, hnone'⟩ | ⟨x, x', hsome, hsome', hx⟩
      · rw [hnone, hnone']
        exact halike
      · rw [hsome, hsome']
        exact hx
  | settle => exact halike.settle hservices
  | sleep millis => exact halike.sleep hservices millis
  | moveTo now => exact halike.moveTo hservices now
  | work f => exact { halike with crew := congrArg f halike.crew }
  | rouse r => exact halike.wake r
  | callFrom name r => exact halike.callFrom hservices name r

theorem foldl_obey [LockService σ] [LockService τ] (hservices : LockService.Indistinct Related)
    (halike : Alike Related c c') (commands : List Command) :
    Alike Related (commands.foldl Cluster.obey c) (commands.foldl Cluster.obey c') := by
  induction commands generalizing c c' with
  | nil => exact halike
  | cons command commands hall => exact hall (halike.obey hservices command)

end Alike

end Commands

end Cluster

/-- Scripts whose replies come after the same times, and that grant the same attempts and refuse
the same renewals. -/
structure Script.Agrees (s s' : Script) : Prop where
  attempts : ∀ (n : Nat) (caller : ControllerId),
    (s.acquires.getD n exhausted).Alike (.acquire caller) (s'.acquires.getD n exhausted)
  renewals : ∀ n : Nat,
    (s.renewals.getD n exhausted).Alike .renew (s'.renewals.getD n exhausted)

theorem Script.indistinct_agrees : LockService.Indistinct Script.Agrees where
  reply now party r s s' hagrees := by
    have hhead (l : List Reply) : l.headD exhausted = l.getD 0 exhausted := by
      cases l <;> rfl
    cases r with
    | acquire caller =>
        change (s.acquires.headD exhausted).Alike _ (s'.acquires.headD exhausted)
        rw [hhead, hhead]
        exact hagrees.attempts 0 caller
    | renew =>
        change (s.renewals.headD exhausted).Alike _ (s'.renewals.headD exhausted)
        rw [hhead, hhead]
        exact hagrees.renewals 0
    | release => exact .answer .zero rfl
  next now party r s s' hagrees := by
    have htail (l : List Reply) (n : Nat) :
        l.tail.getD n exhausted = l.getD (n + 1) exhausted := by
      cases l <;> rfl
    cases r with
    | acquire caller =>
        refine { hagrees with attempts := fun n caller => ?_ }
        change (s.acquires.tail.getD n exhausted).Alike _ (s'.acquires.tail.getD n exhausted)
        rw [htail, htail]
        exact hagrees.attempts (n + 1) caller
    | renew =>
        refine { hagrees with renewals := fun n => ?_ }
        change (s.renewals.tail.getD n exhausted).Alike _ (s'.renewals.tail.getD n exhausted)
        rw [htail, htail]
        exact hagrees.renewals (n + 1)
    | release => exact hagrees
  left := leftToControllers_script
  right := leftToControllers_script

namespace Cluster

/-- Services that cannot be told apart by what their replies come to leave no trace of what tells
them apart. -/
theorem view_eq_of_indistinct {σ τ : Type} [LockService σ] [LockService τ]
    {Related : σ → τ → Prop} (hservices : LockService.Indistinct Related) {service : σ}
    {service' : τ} (hservice : Related service service') (traced traced' : Bool)
    (commands : List Command) :
    (commands.foldl obey (empty service traced)).view =
      (commands.foldl obey (empty service' traced')).view :=
  ((Alike.empty hservice traced traced').foldl_obey hservices commands).view_eq

/-- Whatever the pace of controllers, whatever tasks do and whenever a shutdown fires: where two
scripts grant the same attempts and refuse the same renewals after the same times, all that can
be seen is the same at all times.  Which token was granted makes no difference, nor why an
attempt was not granted or a renewal refused, nor whether calls are traced. -/
theorem view_eq_of_agrees {s s' : Script} (hagrees : s.Agrees s') (traced traced' : Bool)
    (commands : List Command) :
    (commands.foldl obey (empty s traced)).view = (commands.foldl obey (empty s' traced')).view :=
  view_eq_of_indistinct Script.indistinct_agrees hagrees traced traced' commands

/-- Nothing is granted, then there is a grant, it is renewed and lost, and nothing is granted any
more: for other reasons and under other tokens, and written down otherwise. -/
theorem view_eq_of_agrees_of_other_causes :
    let s : Script :=
      ⟨[.answer .zero .denied, .answer (.ofMillis 1) (.granted ⟨"lock-1"⟩)],
        [.answer .zero .done, .answer .zero (.refused .expired)]⟩
    let s' : Script :=
      ⟨[.answer .zero (.refused (.backend "down")), .answer (.ofMillis 1) (.granted ⟨"lock-2"⟩),
          .answer .zero (.granted ⟨""⟩)],
        [.answer .zero (.granted ⟨""⟩), .answer .zero (.refused .notHeld)]⟩
    let commands : List Command :=
      [.enroll "first" ⟨"first"⟩ ⟨.ofMillis 5, .ofMillis 7, .zero⟩ .prompt, .settle,
        .moveTo 7000000, .moveTo 8000000, .moveTo 13000000, .moveTo 18000000, .moveTo 25000000,
        .dismiss 0, .settle]
    let c := commands.foldl obey (empty s false)
    let c' := commands.foldl obey (empty s' true)
    s.Agrees s' ∧ c.view = c'.view ∧ c.view.states = [.stopped] ∧
      c.view.calls.map Prod.fst = [0, 7000000, 13000000, 18000000, 25000000] ∧
      c.view.crew.tasks.map (fun t => (t.cancelled, t.isOver)) = [(true, true)] ∧
      c.entries.map (·.entry.message) ≠ c'.entries.map (·.entry.message) := by
  intro s s' commands c c'
  have hagrees : s.Agrees s' := by
    constructor
    · rintro (_ | _ | _ | n) caller
      · exact .answer .zero rfl
      · exact .answer (.ofMillis 1) rfl
      · exact .answer .zero rfl
      · exact .answer .zero rfl
    · rintro (_ | _ | n)
      · exact .answer .zero rfl
      · exact .answer .zero rfl
      · exact .answer .zero rfl
  exact ⟨hagrees, view_eq_of_agrees hagrees false true commands, by decide +kernel,
    by decide +kernel, by decide +kernel, by decide +kernel⟩

end Cluster

end LeaseElection

import LeaseElection.Lock.Service

/-!
# A lease table is a lock that knows its owner

A lease table keeps one lease and the memory of every client, and decides by
comparing names and tokens.  A lock that simply knows which client owns it would
decide without either.  This module defines that lock and proves that nobody who
asks can tell the two apart: stale memories are never taken for current ones.
-/

namespace LeaseElection

/-- The client that owns a lock, the name it asked under, and the instant of the
grant or of the last renewal. -/
structure Ownership (κ : Type) where
  client : κ
  caller : ControllerId
  since : Nat
deriving DecidableEq

/-- A lock that knows its owner.  Tokens are handed out and never looked at. -/
structure OwnerLock (κ : Type) where
  name : String
  ttl : Span
  owner : Option (Ownership κ) := none
  /-- How many grants were made so far. -/
  grants : Nat := 0

/-- What can be asked of a lock. -/
inductive Inquiry (κ : Type) where
  | call (client : κ) (r : Request)
  | tick
  | holder

/-- What an inquiry brings to light. -/
inductive Finding where
  | answer (a : Answer)
  | events (es : List Lease.Event)
  | holder (id : Option ControllerId)
deriving DecidableEq

/-- What a series of inquiries brings to light, each made some nanoseconds after
the one before. -/
def findings {κ σ : Type} (respond : Nat → Inquiry κ → σ → Finding × σ) :
    (now : Nat) → σ → List (Nat × Inquiry κ) → List Finding
  | _, _, [] => []
  | now, s, (pause, q) :: rest =>
      let (f, s) := respond (now + pause) q s
      f :: findings respond (now + pause) s rest

namespace OwnerLock

variable {κ : Type}

/-- The token of the `k`-th grant. -/
def token (l : OwnerLock κ) (k : Nat) : LockToken := ⟨l.name ++ "-" ++ toString k⟩

/-- Whether the owner went more than `ttl` without a renewal. -/
def isLapsed (l : OwnerLock κ) (now : Nat) (o : Ownership κ) : Bool :=
  decide (l.ttl.nanos < now - o.since)

def free (l : OwnerLock κ) : OwnerLock κ := { l with owner := none }

/-- The lock once it is granted to a client. -/
def grant (l : OwnerLock κ) (now : Nat) (client : κ) (caller : ControllerId) : OwnerLock κ :=
  { l with owner := some ⟨client, caller, now⟩, grants := l.grants + 1 }

/-- The lock once its owner renewed it. -/
def extend (l : OwnerLock κ) (now : Nat) (o : Ownership κ) : OwnerLock κ :=
  { l with owner := some { o with since := now } }

variable [DecidableEq κ]

def acquire (l : OwnerLock κ) (now : Nat) (client : κ) (caller : ControllerId) :
    Answer × OwnerLock κ :=
  if l.owner.all (l.isLapsed now) then
    (.granted (l.token (l.grants + 1)), l.grant now client caller)
  else (.denied, l)

def renew (l : OwnerLock κ) (now : Nat) (client : κ) : Answer × OwnerLock κ :=
  match l.owner.filter (·.client = client) with
  | none => (.refused .notHeld, l)
  | some o =>
      if l.isLapsed now o then (.refused .expired, l.free) else (.done, l.extend now o)

def release (l : OwnerLock κ) (client : κ) : Answer × OwnerLock κ :=
  match l.owner.filter (·.client = client) with
  | none => (.refused .notHeld, l)
  | some _ => (.done, l.free)

def call (l : OwnerLock κ) (now : Nat) (client : κ) : Request → Answer × OwnerLock κ
  | .acquire caller => l.acquire now client caller
  | .renew => l.renew now client
  | .release => l.release client

def tick (l : OwnerLock κ) (now : Nat) : List Lease.Event × OwnerLock κ :=
  match l.owner.filter (l.isLapsed now) with
  | none => ([], l)
  | some o => ([.expired o.caller], l.free)

def holder (l : OwnerLock κ) (now : Nat) : Option ControllerId :=
  (l.owner.filter fun o => !l.isLapsed now o).map Ownership.caller

/-- A lock that was never granted. -/
def new (name : String) (ttl : Span) : OwnerLock κ := { name, ttl }

def respond (now : Nat) (q : Inquiry κ) (l : OwnerLock κ) : Finding × OwnerLock κ :=
  match q with
  | .call client r => ((l.call now client r).map Finding.answer id)
  | .tick => (l.tick now).map Finding.events id
  | .holder => (.holder (l.holder now), l)

end OwnerLock

namespace LeaseTable

variable {κ : Type}

/-- A table behaves as the lock `l`.  The lease is held exactly while the lock has
an owner, who remembers the grant it is held under; every memory carries a token
that was issued, and the one issued last is remembered by the owner alone. -/
structure Realizes (t : LeaseTable κ) (l : OwnerLock κ) : Prop where
  name : t.lease.name = l.name
  ttl : t.lease.ttl = l.ttl
  grants : t.lease.grants = l.grants
  holding : t.lease.holding =
    l.owner.map fun o => ⟨o.caller, t.lease.tokenOf l.grants, o.since⟩
  remembered : ∀ o, l.owner = some o →
    t.grants o.client = some ⟨o.caller, t.lease.tokenOf l.grants⟩
  issued : ∀ k g, t.grants k = some g → ∃ n ≤ l.grants, g.token = t.lease.tokenOf n ∧
    (n = l.grants → ∀ o, l.owner = some o → o.client = k)

namespace Realizes

variable {t t' : LeaseTable κ} {l : OwnerLock κ} {o : Ownership κ} {g : Grant}

theorem new (name : String) (ttl : Span) :
    (LeaseTable.new name ttl : LeaseTable κ).Realizes (OwnerLock.new name ttl) where
  name := rfl
  ttl := rfl
  grants := rfl
  holding := rfl
  remembered := by intro o howner; cases howner
  issued := by intro k g hmemory; cases hmemory

theorem tokenOf_eq (hreal : t.Realizes l) (k : Nat) : t.lease.tokenOf k = l.token k := by
  rw [Lease.tokenOf, OwnerLock.token, hreal.name]

theorem isExpired_eq (hreal : t.Realizes l) (now : Nat) (token : LockToken) :
    Holding.isExpired ⟨o.caller, token, o.since⟩ t.lease.ttl now = l.isLapsed now o := by
  rw [Holding.isExpired, OwnerLock.isLapsed, hreal.ttl]

/-- A lease that nobody holds is a lock without an owner. -/
theorem holding_of_owner_none (hreal : t.Realizes l) (howner : l.owner = none) :
    t.lease.holding = none := by
  rw [hreal.holding, howner, Option.map_none]

theorem holding_of_owner_some (hreal : t.Realizes l) (howner : l.owner = some o) :
    t.lease.holding = some ⟨o.caller, t.lease.tokenOf l.grants, o.since⟩ := by
  rw [hreal.holding, howner, Option.map_some]

/-- The lease is freed, whether or not a client forgets its grant. -/
theorem free (hreal : t.Realizes l) (hlease : t'.lease = t.lease.free)
    (hforget : ∀ k g, t'.grants k = some g → t.grants k = some g) :
    t'.Realizes l.free where
  name := by
    rw [hlease]
    exact hreal.name
  ttl := by
    rw [hlease]
    exact hreal.ttl
  grants := by
    rw [hlease]
    exact hreal.grants
  holding := by
    rw [hlease]
    rfl
  remembered := by intro o howner; cases howner
  issued := by
    intro k g hmemory
    obtain ⟨n, hn, htoken, _⟩ := hreal.issued k g (hforget k g hmemory)
    refine ⟨n, hn, ?_, ?_⟩
    · rw [hlease]
      exact htoken
    · intro _ o howner
      cases howner

/-- The owner renews its grant. -/
theorem extend (hreal : t.Realizes l) (howner : l.owner = some o) (now : Nat) (token : LockToken)
    (htoken : token = t.lease.tokenOf l.grants) :
    ({ t with lease := { t.lease with holding := some ⟨o.caller, token, now⟩ } } :
      LeaseTable κ).Realizes (l.extend now o) where
  name := hreal.name
  ttl := hreal.ttl
  grants := hreal.grants
  holding := by
    rw [htoken]
    rfl
  remembered := by
    intro o' howner'
    cases howner'
    exact hreal.remembered o howner
  issued := by
    intro k g hmemory
    obtain ⟨n, hn, hissued, hlatest⟩ := hreal.issued k g hmemory
    refine ⟨n, hn, hissued, ?_⟩
    intro heq o' howner'
    cases howner'
    exact hlatest heq o howner

theorem tick (hreal : t.Realizes l) (now : Nat) :
    (t.tick now).2 = (l.tick now).1 ∧ (t.tick now).1.Realizes (l.tick now).2 := by
  cases howner : l.owner with
  | none =>
      simp only [LeaseTable.tick, LeaseTable.apply, Lease.step, Lease.tick,
        hreal.holding_of_owner_none howner, OwnerLock.tick, howner, Option.filter_none]
      exact ⟨trivial, hreal⟩
  | some o =>
      have hlapse := hreal.isExpired_eq (o := o) now (t.lease.tokenOf l.grants)
      cases hlapsed : l.isLapsed now o with
      | true =>
          simp only [LeaseTable.tick, LeaseTable.apply, Lease.step, Lease.tick,
            hreal.holding_of_owner_some howner, hlapse, hlapsed, if_true, OwnerLock.tick,
            howner, Option.filter_some]
          exact ⟨trivial, hreal.free rfl fun _ _ hmemory => hmemory⟩
      | false =>
          simp only [LeaseTable.tick, LeaseTable.apply, Lease.step, Lease.tick,
            hreal.holding_of_owner_some howner, hlapse, hlapsed, Bool.false_eq_true, if_false,
            OwnerLock.tick, howner, Option.filter_some]
          exact ⟨trivial, hreal⟩

theorem holder (hreal : t.Realizes l) (now : Nat) : t.holder now = l.holder now := by
  cases howner : l.owner with
  | none =>
      simp [LeaseTable.holder, Lease.isExpired, Lease.holder, OwnerLock.holder, howner,
        hreal.holding_of_owner_none howner]
  | some o =>
      have hlapse := hreal.isExpired_eq (o := o) now (t.lease.tokenOf l.grants)
      cases hlapsed : l.isLapsed now o <;>
        simp [LeaseTable.holder, Lease.isExpired, Lease.holder, OwnerLock.holder, howner,
          hreal.holding_of_owner_some howner, hlapse, hlapsed, Option.filter_some]

variable [DecidableEq κ]

/-- A client without a memory is not the owner. -/
theorem filter_owner_of_forgotten (hreal : t.Realizes l) {client : κ}
    (hmemory : t.grants client = none) : l.owner.filter (·.client = client) = none := by
  rw [Option.filter_eq_none_iff]
  intro o howner hclient
  have hremembered := hreal.remembered o howner
  rw [of_decide_eq_true hclient, hmemory] at hremembered
  cases hremembered

/-- The memory of a client claims the lease exactly if the client is the owner. -/
theorem claimed_eq (hreal : t.Realizes l) {client : κ} (hmemory : t.grants client = some g) :
    t.lease.claimed g.holder g.token =
      (l.owner.filter (·.client = client)).map fun o =>
        ⟨o.caller, t.lease.tokenOf l.grants, o.since⟩ := by
  cases howner : l.owner with
  | none => simp [Lease.claimed, hreal.holding_of_owner_none howner]
  | some o =>
      rw [Lease.claimed, hreal.holding_of_owner_some howner]
      by_cases hclient : o.client = client
      · have hgrant : g = ⟨o.caller, t.lease.tokenOf l.grants⟩ := by
          have := hreal.remembered o howner
          rw [hclient, hmemory] at this
          exact Option.some.inj this
        rw [hgrant, Option.filter_some_pos (by simp), Option.filter_some_pos (by simp [hclient])]
        rfl
      · obtain ⟨n, _, htoken, hlatest⟩ := hreal.issued client g hmemory
        have hstale : t.lease.tokenOf l.grants ≠ g.token := by
          intro hsame
          rw [htoken] at hsame
          exact hclient (hlatest (t.lease.tokenOf_injective hsame).symm o howner)
        rw [Option.filter_some_neg (by simp [hstale]),
          Option.filter_some_neg (by simp [hclient])]
        rfl

/-- The lease is granted, and the client remembers it. -/
theorem grant (hreal : t.Realizes l) (now : Nat) (client : κ) (caller : ControllerId) :
    (({ t with lease := t.lease.grant now caller } : LeaseTable κ).remember client
      (some ⟨caller, t.lease.tokenOf (t.lease.grants + 1)⟩)).Realizes
        (l.grant now client caller) where
  name := hreal.name
  ttl := hreal.ttl
  grants := congrArg (· + 1) hreal.grants
  holding := by
    simp [Lease.grant, Lease.tokenOf, OwnerLock.grant, hreal.grants]
  remembered := by
    intro o howner
    cases howner
    rw [grants_remember_self, hreal.grants]
    rfl
  issued := by
    intro k g hmemory
    by_cases hk : k = client
    · subst k
      rw [grants_remember_self] at hmemory
      cases hmemory
      refine ⟨l.grants + 1, Nat.le_refl _, ?_, ?_⟩
      · rw [hreal.grants]
        rfl
      · intro _ o howner
        cases howner
        rfl
    · rw [grants_remember_of_ne _ _ hk] at hmemory
      obtain ⟨n, hn, htoken, _⟩ := hreal.issued k g hmemory
      refine ⟨n, Nat.le_succ_of_le hn, htoken, ?_⟩
      intro hlatest
      have : n = l.grants + 1 := hlatest
      omega

theorem remembered_of_remember_none (client k : κ) (g : Grant)
    (hmemory : (t.remember client none).grants k = some g) : t.grants k = some g := by
  by_cases hk : k = client
  · subst k
    rw [grants_remember_self] at hmemory
    cases hmemory
  · rwa [grants_remember_of_ne _ _ hk] at hmemory

/-- A client that is not the owner forgets its grant. -/
theorem forget (hreal : t.Realizes l) {client : κ}
    (hclient : ∀ o, l.owner = some o → o.client ≠ client) :
    (t.remember client none).Realizes l where
  name := hreal.name
  ttl := hreal.ttl
  grants := hreal.grants
  holding := hreal.holding
  remembered := by
    intro o howner
    rw [grants_remember_of_ne _ _ (hclient o howner)]
    exact hreal.remembered o howner
  issued := by
    intro k g hmemory
    by_cases hk : k = client
    · subst k
      rw [grants_remember_self] at hmemory
      cases hmemory
    · rw [grants_remember_of_ne _ _ hk] at hmemory
      exact hreal.issued k g hmemory

/-- A lapsed or missing owner is what lets the lease be granted. -/
theorem acquire (hreal : t.Realizes l) (now : Nat) (client : κ) (caller : ControllerId) :
    (t.call now client (.acquire caller)).1 = (l.acquire now client caller).1 ∧
      (t.call now client (.acquire caller)).2.1.Realizes (l.acquire now client caller).2 := by
  have htoken : t.lease.tokenOf (t.lease.grants + 1) = l.token (l.grants + 1) := by
    rw [hreal.tokenOf_eq, hreal.grants]
  cases howner : l.owner with
  | none =>
      have hholding := hreal.holding_of_owner_none howner
      simp only [OwnerLock.acquire, howner, Option.all_none, if_true]
      simp only [LeaseTable.call, LeaseTable.acquire, LeaseTable.apply, Lease.step, Lease.acquire,
        hholding, grantedToken?, List.findSome?_cons]
      exact ⟨congrArg Answer.granted htoken, hreal.grant now client caller⟩
  | some o =>
      have hholding := hreal.holding_of_owner_some howner
      have hlapse := hreal.isExpired_eq (o := o) now (t.lease.tokenOf l.grants)
      simp only [OwnerLock.acquire, howner, Option.all_some]
      cases hlapsed : l.isLapsed now o with
      | true =>
          simp only [LeaseTable.call, LeaseTable.acquire, LeaseTable.apply, Lease.step,
            Lease.acquire, hholding, hlapse, hlapsed, if_true, grantedToken?,
            List.findSome?_cons]
          exact ⟨congrArg Answer.granted htoken, hreal.grant now client caller⟩
      | false =>
          simp only [LeaseTable.call, LeaseTable.acquire, LeaseTable.apply, Lease.step,
            Lease.acquire, hholding, hlapse, hlapsed, Bool.false_eq_true, if_false,
            grantedToken?, List.findSome?_cons, List.findSome?_nil]
          exact ⟨rfl, hreal⟩

/-- A refused client forgets its grant, and a lapsed owner is no owner any more. -/
theorem renew (hreal : t.Realizes l) (now : Nat) (client : κ) :
    (t.call now client .renew).1 = (l.renew now client).1 ∧
      (t.call now client .renew).2.1.Realizes (l.renew now client).2 := by
  cases hmemory : t.grants client with
  | none =>
      have howner := hreal.filter_owner_of_forgotten hmemory
      simp only [OwnerLock.renew, howner, LeaseTable.call, LeaseTable.renew, hmemory]
      exact ⟨rfl, hreal⟩
  | some g =>
      have hclaim := hreal.claimed_eq hmemory
      cases howner : l.owner.filter (·.client = client) with
      | none =>
          rw [howner, Option.map_none] at hclaim
          simp only [OwnerLock.renew, howner, LeaseTable.call, LeaseTable.renew, hmemory,
            LeaseTable.apply, Lease.step, Lease.renew, hclaim, rejection?,
            List.findSome?_cons]
          refine ⟨rfl, hreal.forget ?_⟩
          intro o ho hclient
          rw [ho, Option.filter_some_pos (by simp [hclient])] at howner
          cases howner
      | some o =>
          rw [howner, Option.map_some] at hclaim
          have hlapse := hreal.isExpired_eq (o := o) now (t.lease.tokenOf l.grants)
          cases hlapsed : l.isLapsed now o with
          | true =>
              simp only [OwnerLock.renew, howner, hlapsed, LeaseTable.call, LeaseTable.renew,
                hmemory, LeaseTable.apply, Lease.step, Lease.renew, hclaim, hlapse, if_true,
                rejection?, List.findSome?_cons]
              exact ⟨rfl, hreal.free rfl (remembered_of_remember_none client)⟩
          | false =>
              simp only [OwnerLock.renew, howner, hlapsed, LeaseTable.call, LeaseTable.renew,
                hmemory, LeaseTable.apply, Lease.step, Lease.renew, hclaim, hlapse,
                Bool.false_eq_true, if_false, rejection?, List.findSome?_cons,
                List.findSome?_nil]
              exact ⟨rfl, hreal.extend (Option.eq_some_of_filter_eq_some howner) now _ rfl⟩

theorem release (hreal : t.Realizes l) (now : Nat) (client : κ) :
    (t.call now client .release).1 = (l.release client).1 ∧
      (t.call now client .release).2.1.Realizes (l.release client).2 := by
  cases hmemory : t.grants client with
  | none =>
      have howner := hreal.filter_owner_of_forgotten hmemory
      simp only [OwnerLock.release, howner, LeaseTable.call, LeaseTable.release, hmemory]
      exact ⟨rfl, hreal⟩
  | some g =>
      have hclaim := hreal.claimed_eq hmemory
      cases howner : l.owner.filter (·.client = client) with
      | none =>
          rw [howner, Option.map_none] at hclaim
          simp only [OwnerLock.release, howner, LeaseTable.call, LeaseTable.release, hmemory,
            LeaseTable.apply, Lease.step, Lease.release, hclaim]
          refine ⟨rfl, hreal.forget ?_⟩
          intro o ho hclient
          rw [ho, Option.filter_some_pos (by simp [hclient])] at howner
          cases howner
      | some o =>
          rw [howner, Option.map_some] at hclaim
          simp only [OwnerLock.release, howner, LeaseTable.call, LeaseTable.release, hmemory,
            LeaseTable.apply, Lease.step, Lease.release, hclaim]
          exact ⟨rfl, hreal.free rfl (remembered_of_remember_none client)⟩

/-- Every call is answered as by the lock, and leaves a table that behaves as the
lock does after it. -/
theorem call (hreal : t.Realizes l) (now : Nat) (client : κ) (r : Request) :
    (t.call now client r).1 = (l.call now client r).1 ∧
      (t.call now client r).2.1.Realizes (l.call now client r).2 := by
  cases r with
  | acquire caller => exact hreal.acquire now client caller
  | renew => exact hreal.renew now client
  | release => exact hreal.release now client

end Realizes

variable [DecidableEq κ]

def respond (now : Nat) (q : Inquiry κ) (t : LeaseTable κ) : Finding × LeaseTable κ :=
  match q with
  | .call client r =>
      let (a, t, _) := t.call now client r
      (.answer a, t)
  | .tick =>
      let (t, events) := t.tick now
      (.events events, t)
  | .holder => (.holder (t.holder now), t)

theorem Realizes.respond {t : LeaseTable κ} {l : OwnerLock κ} (hreal : t.Realizes l)
    (now : Nat) (q : Inquiry κ) :
    (t.respond now q).1 = (l.respond now q).1 ∧
      (t.respond now q).2.Realizes (l.respond now q).2 := by
  cases q with
  | call client r =>
      obtain ⟨hanswer, hafter⟩ := hreal.call now client r
      exact ⟨congrArg Finding.answer hanswer, hafter⟩
  | tick =>
      obtain ⟨hevents, hafter⟩ := hreal.tick now
      exact ⟨congrArg Finding.events hevents, hafter⟩
  | holder => exact ⟨congrArg Finding.holder (hreal.holder now), hreal⟩

/-- From matching states on, table and lock bring the same to light. -/
theorem Realizes.findings_eq {t : LeaseTable κ} {l : OwnerLock κ} (hreal : t.Realizes l)
    (now : Nat) (script : List (Nat × Inquiry κ)) :
    findings LeaseTable.respond now t script = findings OwnerLock.respond now l script := by
  induction script generalizing now t l with
  | nil => rfl
  | cons entry rest ih =>
      obtain ⟨pause, q⟩ := entry
      obtain ⟨hfinding, hafter⟩ := hreal.respond (now + pause) q
      simp only [findings]
      rw [hfinding, ih hafter (now + pause)]

end LeaseTable

/-- Every finding is what some state of the lock makes of its inquiry. -/
theorem exists_respond_of_mem_findings {κ σ : Type}
    {respond : Nat → Inquiry κ → σ → Finding × σ} {now : Nat} {s : σ}
    {script : List (Nat × Inquiry κ)} {entry : (Nat × Inquiry κ) × Finding}
    (hmem : entry ∈ script.zip (findings respond now s script)) :
    ∃ now' s', entry.2 = (respond now' entry.1.2 s').1 := by
  induction script generalizing now s with
  | nil => simp at hmem
  | cons head rest ih =>
      simp only [findings, List.zip_cons_cons, List.mem_cons] at hmem
      rcases hmem with rfl | hmem
      · exact ⟨now + head.1, s, rfl⟩
      · exact ih hmem

theorem length_findings {κ σ : Type} (respond : Nat → Inquiry κ → σ → Finding × σ)
    (now : Nat) (s : σ) (script : List (Nat × Inquiry κ)) :
    (findings respond now s script).length = script.length := by
  induction script generalizing now s with
  | nil => rfl
  | cons head rest ih => simp only [findings, List.length_cons, ih]

namespace OwnerLock

variable {κ : Type} [DecidableEq κ]

/-- A call is refused only for want of ownership, and never if it asks for it. -/
theorem refusal_of_call (l : OwnerLock κ) (now : Nat) (client : κ) (r : Request)
    {reason : LockError} (hrefused : (l.call now client r).1 = .refused reason) :
    (reason = .notHeld ∨ reason = .expired) ∧ ∀ caller, r ≠ .acquire caller := by
  cases r with
  | acquire caller =>
      simp only [call, acquire] at hrefused
      split at hrefused <;> cases hrefused
  | renew =>
      refine ⟨?_, by intro caller hr; cases hr⟩
      simp only [call, renew] at hrefused
      split at hrefused
      · cases hrefused
        exact Or.inl rfl
      · split at hrefused <;> cases hrefused
        exact Or.inr rfl
  | release =>
      refine ⟨?_, by intro caller hr; cases hr⟩
      simp only [call, release] at hrefused
      split at hrefused <;> cases hrefused
      exact Or.inl rfl

end OwnerLock

/-- Whatever its clients ask of a lease table, in whatever order and at whatever
times, and whatever names they go by, they learn what they would learn from a lock
that knows its owner.  No failure of the table itself ever shows, and asking for
the lease is never refused with an error. -/
theorem leaseTable_findings_eq {κ : Type} [DecidableEq κ] (name : String) (ttl : Span)
    (start : Nat) (script : List (Nat × Inquiry κ)) :
    let seen := findings LeaseTable.respond start (LeaseTable.new name ttl) script
    seen = findings OwnerLock.respond start (OwnerLock.new name ttl) script ∧
      seen.length = script.length ∧
      ∀ inquiry finding reason, (inquiry, finding) ∈ script.zip seen →
        finding = .answer (.refused reason) →
          (reason = .notHeld ∨ reason = .expired) ∧
            ∀ pause client caller, inquiry ≠ (pause, .call client (.acquire caller)) := by
  have heq := (LeaseTable.Realizes.new (κ := κ) name ttl).findings_eq start script
  refine ⟨heq, length_findings _ _ _ _, ?_⟩
  intro inquiry finding reason hmem hrefused
  rw [heq] at hmem
  obtain ⟨now, l, hfinding⟩ := exists_respond_of_mem_findings hmem
  obtain ⟨pause, q⟩ := inquiry
  rw [hrefused] at hfinding
  cases q with
  | tick => cases hfinding
  | holder => cases hfinding
  | call client r =>
      obtain ⟨hreason, hasked⟩ :=
        l.refusal_of_call now client r (Finding.answer.inj hfinding).symm
      refine ⟨hreason, ?_⟩
      intro pause' client' caller hinquiry
      cases hinquiry
      exact hasked caller rfl

end LeaseElection

import LeaseElection.Proofs.Lease.Ownership

/-!
# Rehearsals

The lock double trusts its callers where a lease table checks them, keeps no tokens, and never
takes a grant back that nobody asks to renew.  Both are compared with a lock that knows its
owner.  A double agrees with it as long as nobody but the owner renews or releases, and nobody
asks for a grant that is past its time; so what was rehearsed with the one under these rules
goes the same way with the other.
-/

namespace LeaseElection

/-- What an answer says, whatever the token. -/
inductive Answer.Kind where
  | granted
  | denied
  | done
  | refused (reason : LockError)
deriving DecidableEq

def Answer.kind : Answer → Answer.Kind
  | .granted _ => .granted
  | .denied => .denied
  | .done => .done
  | .refused reason => .refused reason

/-- How a lock that does not fail may answer. -/
def Request.kinds : Request → List Answer.Kind
  | .acquire _ => [.granted, .denied]
  | .renew => [.done, .refused .notHeld, .refused .expired]
  | .release => [.done, .refused .notHeld]

namespace OwnerLock

variable {κ : Type} [DecidableEq κ]

theorem kind_call_mem (l : OwnerLock κ) (now : Nat) (client : κ) (r : Request) :
    (l.call now client r).1.kind ∈ r.kinds := by
  cases r with
  | acquire caller =>
      simp only [call, acquire]
      split <;> simp [Answer.kind, Request.kinds]
  | renew =>
      simp only [call, renew]
      split
      · simp [Answer.kind, Request.kinds]
      · split <;> simp [Answer.kind, Request.kinds]
  | release =>
      simp only [call, release]
      split <;> simp [Answer.kind, Request.kinds]

/-- Only who asks for the lock is granted it. -/
theorem kind_call_ne (l : OwnerLock κ) (now : Nat) (client : κ) {r : Request}
    (hr : .granted ∉ r.kinds) : (l.call now client r).1.kind ≠ .granted := by
  intro hkind
  have hmem := l.kind_call_mem now client r
  rw [hkind] at hmem
  exact hr hmem

end OwnerLock

/-- A call that is rehearsed and made, and the answers to both. -/
structure RehearsedCall (κ : Type) where
  time : Nat
  client : κ
  request : Request
  rehearsed : Answer
  real : Answer
deriving DecidableEq

/-- Who was granted the lease last, if anybody was. -/
def lastGranted? {κ : Type} (xs : List (RehearsedCall κ)) : Option κ :=
  (xs.find? fun x => x.real.kind == .granted).map RehearsedCall.client

theorem lastGranted?_cons {κ : Type} (x : RehearsedCall κ) (xs : List (RehearsedCall κ)) :
    lastGranted? (x :: xs) =
      if x.real.kind = .granted then some x.client else lastGranted? xs := by
  by_cases hgrant : x.real.kind = .granted <;> simp [lastGranted?, hgrant]

/-- The same calls on a lock double and on a lease table, latest first, from the start of both.
Only who was granted the lease last renews or releases, and nobody asks for the lease while it
is held past its time. -/
inductive Rehearsal {κ : Type} [DecidableEq κ] (name : String) (ttl : Span) :
    List (RehearsedCall κ) → LockDouble → LeaseTable κ → Prop where
  | new : Rehearsal name ttl [] { ttl } (LeaseTable.new name ttl)
  | call {xs : List (RehearsedCall κ)} {d : LockDouble} {t : LeaseTable κ}
      (past : Rehearsal name ttl xs d t) (now : Nat) (client : κ) (r : Request)
      (hlater : ∀ x ∈ xs, x.time ≤ now)
      (howner : r = .renew ∨ r = .release → ∀ c, lastGranted? xs = some c → client = c)
      (hgood : ∀ caller, r = .acquire caller → t.lease.isExpired now = false) :
      Rehearsal name ttl
        (⟨now, client, r, (d.call now r).1, (t.call now client r).1⟩ :: xs)
        (d.call now r).2 (t.call now client r).2.1

/-- A double agrees with a lock that knows its owner, who is also who was granted it last. -/
structure LockDouble.Mirrors {κ : Type} (d : LockDouble) (l : OwnerLock κ) (latest : Option κ) :
    Prop where
  ttl : d.ttl = l.ttl
  acquires : d.failingAcquires = 0
  renewals : d.failingRenewals = 0
  holding : d.holding = l.owner.map fun o => (o.caller, o.since)
  latest : ∀ o, l.owner = some o → latest = some o.client

namespace LockDouble.Mirrors

variable {κ : Type} {d : LockDouble} {l : OwnerLock κ} {latest : Option κ}

theorem isLocked_eq (hmirrors : d.Mirrors l latest) : d.isLocked = l.owner.isSome := by
  rw [isLocked, hmirrors.holding, Option.isSome_map]

theorem free (hmirrors : d.Mirrors l latest) {d' : LockDouble}
    (httl : d'.ttl = d.ttl) (hacquires : d'.failingAcquires = d.failingAcquires)
    (hrenewals : d'.failingRenewals = d.failingRenewals) (hholding : d'.holding = none) :
    d'.Mirrors l.free latest where
  ttl := httl.trans hmirrors.ttl
  acquires := hacquires.trans hmirrors.acquires
  renewals := hrenewals.trans hmirrors.renewals
  holding := hholding
  latest := by intro o howner; cases howner

variable [DecidableEq κ]

/-- Who was granted the lease last is the owner, or nobody is. -/
theorem filter_owner (hmirrors : d.Mirrors l latest) {client : κ}
    (hclient : ∀ c, latest = some c → client = c) :
    l.owner.filter (·.client = client) = l.owner := by
  cases howner : l.owner with
  | none => rfl
  | some o =>
      have hlatest := hclient _ (hmirrors.latest o howner)
      rw [Option.filter_some_pos (by simp [hlatest])]

theorem acquire (hmirrors : d.Mirrors l latest) (now : Nat) (client : κ) (caller : ControllerId)
    (hgood : ∀ o, l.owner = some o → l.isLapsed now o = false) :
    (d.call now (.acquire caller)).1.kind = (l.call now client (.acquire caller)).1.kind ∧
      (d.call now (.acquire caller)).2.Mirrors (l.call now client (.acquire caller)).2
        (if (l.call now client (.acquire caller)).1.kind = .granted then some client
          else latest) := by
  have hlocked := hmirrors.isLocked_eq
  cases howner : l.owner with
  | none =>
      rw [howner] at hlocked
      simp only [LockDouble.call, LockDouble.acquire, hmirrors.acquires, isLocked] at hlocked ⊢
      simp only [hlocked, Option.isSome_none, Bool.false_eq_true, if_false, OwnerLock.call,
        OwnerLock.acquire, howner, Option.all_none, if_true]
      refine ⟨rfl, ?_⟩
      exact {
        ttl := hmirrors.ttl
        acquires := rfl
        renewals := hmirrors.renewals
        holding := rfl
        latest := by
          intro o howner
          cases howner
          rfl }
  | some o =>
      rw [howner] at hlocked
      simp only [LockDouble.call, LockDouble.acquire, hmirrors.acquires, isLocked] at hlocked ⊢
      simp only [hlocked, Option.isSome_some, if_true, OwnerLock.call, OwnerLock.acquire, howner,
        Option.all_some, hgood o howner, Bool.false_eq_true, if_false]
      refine ⟨rfl, ?_⟩
      exact {
        ttl := hmirrors.ttl
        acquires := rfl
        renewals := hmirrors.renewals
        holding := hmirrors.holding
        latest := hmirrors.latest }

theorem renew (hmirrors : d.Mirrors l latest) (now : Nat) {client : κ}
    (hclient : ∀ c, latest = some c → client = c) :
    (d.call now .renew).1.kind = (l.call now client .renew).1.kind ∧
      (d.call now .renew).2.Mirrors (l.call now client .renew).2 latest := by
  have hfilter := hmirrors.filter_owner hclient
  have hholding := hmirrors.holding
  cases howner : l.owner with
  | none =>
      rw [howner] at hfilter hholding
      simp only [LockDouble.call, LockDouble.renew, hmirrors.renewals, hholding, Option.map_none,
        OwnerLock.call, OwnerLock.renew, howner, hfilter]
      exact ⟨rfl, hmirrors⟩
  | some o =>
      rw [howner] at hfilter hholding
      simp only [LockDouble.call, LockDouble.renew, hmirrors.renewals, hholding, Option.map_some,
        OwnerLock.call, OwnerLock.renew, howner, hfilter, OwnerLock.isLapsed, hmirrors.ttl,
        decide_eq_true_eq]
      split
      · exact ⟨rfl, hmirrors.free hmirrors.ttl.symm rfl hmirrors.renewals.symm rfl⟩
      · refine ⟨rfl, ?_⟩
        exact {
          ttl := rfl
          acquires := hmirrors.acquires
          renewals := rfl
          holding := rfl
          latest := by
            intro o' howner'
            cases howner'
            exact hmirrors.latest o howner }

theorem release (hmirrors : d.Mirrors l latest) (now : Nat) {client : κ}
    (hclient : ∀ c, latest = some c → client = c) :
    (d.call now .release).1.kind = (l.call now client .release).1.kind ∧
      (d.call now .release).2.Mirrors (l.call now client .release).2 latest := by
  have hfilter := hmirrors.filter_owner hclient
  have hlocked := hmirrors.isLocked_eq
  cases howner : l.owner with
  | none =>
      rw [howner] at hfilter hlocked
      simp only [LockDouble.call, LockDouble.release, hlocked, Option.isSome_none,
        Bool.false_eq_true, if_false, OwnerLock.call, OwnerLock.release, howner, hfilter]
      exact ⟨rfl, hmirrors⟩
  | some o =>
      rw [howner] at hfilter hlocked
      simp only [LockDouble.call, LockDouble.release, hlocked, Option.isSome_some, if_true,
        OwnerLock.call, OwnerLock.release, howner, hfilter]
      exact ⟨rfl, hmirrors.free rfl rfl rfl rfl⟩

/-- Whatever is called under the rules of a rehearsal. -/
theorem call (hmirrors : d.Mirrors l latest) (now : Nat) (client : κ) (r : Request)
    (hclient : r = .renew ∨ r = .release → ∀ c, latest = some c → client = c)
    (hgood : ∀ caller, r = .acquire caller → ∀ o, l.owner = some o → l.isLapsed now o = false) :
    (d.call now r).1.kind = (l.call now client r).1.kind ∧
      (d.call now r).2.Mirrors (l.call now client r).2
        (if (l.call now client r).1.kind = .granted then some client else latest) := by
  cases r with
  | acquire caller => exact hmirrors.acquire now client caller (hgood caller rfl)
  | renew =>
      rw [if_neg (l.kind_call_ne now client (by decide))]
      exact hmirrors.renew now (hclient (Or.inl rfl))
  | release =>
      rw [if_neg (l.kind_call_ne now client (by decide))]
      exact hmirrors.release now (hclient (Or.inr rfl))

end LockDouble.Mirrors

namespace Rehearsal

variable {κ : Type} [DecidableEq κ] {name : String} {ttl : Span} {xs : List (RehearsedCall κ)}
variable {d : LockDouble} {t : LeaseTable κ}

/-- Behind every rehearsal there is one lock that knows its owner. -/
theorem exists_ownerLock (past : Rehearsal name ttl xs d t) :
    ∃ l : OwnerLock κ, t.Realizes l ∧ d.Mirrors l (lastGranted? xs) ∧
      ∀ x ∈ xs, x.rehearsed.kind = x.real.kind ∧ x.real.kind ∈ x.request.kinds := by
  induction past with
  | new =>
      refine ⟨OwnerLock.new name ttl, .new name ttl, ?_, fun x hx => absurd hx List.not_mem_nil⟩
      exact ⟨rfl, rfl, rfl, rfl, fun o howner => by cases howner⟩
  | @call xs d t past now client r hlater howner hgood ih =>
      obtain ⟨l, hreal, hmirrors, hkinds⟩ := ih
      obtain ⟨hanswer, hafter⟩ := hreal.call now client r
      have hlapse : ∀ caller, r = .acquire caller →
          ∀ o, l.owner = some o → l.isLapsed now o = false := by
        intro caller hr o ho
        have hexpired := hgood caller hr
        rw [Lease.isExpired, hreal.holding_of_owner_some ho, Option.any_some,
          hreal.isExpired_eq] at hexpired
        exact hexpired
      obtain ⟨hkind, hnext⟩ := hmirrors.call now client r howner hlapse
      rw [← hanswer] at hkind hnext
      refine ⟨_, hafter, ?_, List.forall_mem_cons.mpr ⟨⟨hkind, ?_⟩, hkinds⟩⟩
      · rw [lastGranted?_cons]
        exact hnext
      · rw [hanswer]
        exact l.kind_call_mem now client r

end Rehearsal

/-- What was rehearsed goes the same way in earnest.  As long as only who was granted the lease
last renews or releases, and nobody asks for it while it is held past its time, every call on
the double is answered as on a lease table, up to the token, and never with a failure; and
after every call the double is locked exactly while the lease is held, by the same holder. -/
theorem rehearsal_mirrors {κ : Type} [DecidableEq κ] {name : String} {ttl : Span}
    {xs : List (RehearsedCall κ)} {d : LockDouble} {t : LeaseTable κ}
    (past : Rehearsal name ttl xs d t) :
    (∀ x ∈ xs, x.rehearsed.kind = x.real.kind ∧ x.real.kind ∈ x.request.kinds) ∧
      d.isLocked = !t.lease.isFree ∧ d.holder = t.lease.holder := by
  obtain ⟨l, hreal, hmirrors, hkinds⟩ := past.exists_ownerLock
  refine ⟨hkinds, ?_, ?_⟩
  · rw [hmirrors.isLocked_eq, Lease.isFree, hreal.holding, Option.isNone_map, Option.not_isNone]
  · rw [LockDouble.holder, hmirrors.holding, Lease.holder, hreal.holding, Option.map_map,
      Option.map_map]
    rfl

/-- A grant is renewed in time and then too late; the next one is given back long after its
time. -/
theorem rehearsal_mirrors_of_takeover :
    ∃ (xs : List (RehearsedCall Bool)) (d : LockDouble) (t : LeaseTable Bool),
      Rehearsal "lock" (.ofMillis 10) xs d t ∧
      xs.reverse.map (fun x => (x.client, x.rehearsed.kind)) =
        [(false, .granted), (true, .denied), (false, .done), (false, .refused .expired),
          (true, .granted), (true, .done), (true, .refused .notHeld)] ∧
      (∀ x ∈ xs, x.rehearsed.kind = x.real.kind ∧ x.real.kind ∈ x.request.kinds) ∧
      d.isLocked = !t.lease.isFree ∧ d.holder = t.lease.holder := by
  have granted : Rehearsal "lock" (.ofMillis 10) _ _ _ :=
    .call .new 0 false (.acquire ⟨"a"⟩) (by decide) (by decide) (fun _ _ => by decide)
  have denied := granted.call 5000000 true (.acquire ⟨"b"⟩) (by decide) (by decide)
    (fun _ _ => by decide)
  have renewed := denied.call 8000000 false .renew (by decide) (by decide)
    (fun _ hr => by cases hr)
  have lapsed := renewed.call 19000000 false .renew (by decide) (by decide)
    (fun _ hr => by cases hr)
  have taken := lapsed.call 20000000 true (.acquire ⟨"b"⟩) (by decide) (by decide)
    (fun _ _ => by decide)
  have released := taken.call 40000000 true .release (by decide) (by decide)
    (fun _ hr => by cases hr)
  have refused := released.call 41000000 true .renew (by decide) (by decide)
    (fun _ hr => by cases hr)
  exact ⟨_, _, _, refused, by decide, rehearsal_mirrors refused⟩

end LeaseElection

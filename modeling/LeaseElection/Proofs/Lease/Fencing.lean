import LeaseElection.Proofs.Lease.History
import LeaseElection.Proofs.Text.Numbered
import Mathlib.Data.List.Basic

/-!
# Grants, one after another

The grants of a lease are numbered, and its tokens carry the number after the name, so that
no token comes twice.  A grant lasts until it is given back or goes more than the time of the
lease without a renewal, and only then can the next one be made; until then nobody can cut it
short.  Once it is over its token is good for nothing, whatever happens afterwards.
-/

namespace LeaseElection

theorem Holding.isExpired_iff {h : Holding} {ttl : Span} {now : Nat} :
    h.isExpired ttl now = true ↔ h.renewedAt + ttl.nanos < now := by
  rw [isExpired, decide_eq_true_iff]
  omega

namespace Lease

/-- The grant that events tell of, if they tell of one. -/
def granted? (es : List Event) : Option Grant :=
  es.findSome? fun
    | .acquired holder token => some ⟨holder, token⟩
    | _ => none

/-- Whether an event shows that the grant before it is over. -/
def Event.isEnd : Event → Bool
  | .released _ | .expired _ | .acquired .. => true
  | _ => false

namespace Move

def grant? (m : Move) : Option Grant := granted? m.events

/-- Whether a grant was made or renewed. -/
def upholds (g : Grant) (m : Move) : Bool :=
  m.grant? == some g ||
    (m.input == .renew g.holder g.token && m.events.contains (.renewed g.holder))

/-- Whether a grant was given back. -/
def returns (g : Grant) (m : Move) : Bool :=
  m.input == .release g.holder g.token && m.events.contains (.released g.holder)

/-- Whether the grant before a move was over with it. -/
def ends (m : Move) : Bool := m.events.any Event.isEnd

end Move

/-- How many grants were made. -/
def grantCount (ms : List Move) : Nat := ms.countP fun m => m.grant?.isSome

theorem grantCount_append (later earlier : List Move) {m : Move} {g : Grant}
    (hgrant : m.grant? = some g) :
    grantCount (later ++ m :: earlier) = grantCount later + (grantCount earlier + 1) := by
  simp [grantCount, List.countP_append, hgrant]

/-- When a grant was made or last renewed. -/
def lastUpheld? (g : Grant) (ms : List Move) : Option Nat :=
  (ms.find? (Move.upholds g)).map Move.time

/-- A lease that is held and not expired can be renewed, and is denied to everybody. -/
theorem step_of_good {l : Lease} {now : Nat} {h : Holding} (hheld : l.holding = some h)
    (hgood : h.isExpired l.ttl now = false) :
    (l.step now (.renew h.holder h.token)).2 = [.renewed h.holder] ∧
      ∀ caller, (l.step now (.acquire caller)).2 = [.denied caller h.holder] := by
  constructor
  · have hclaimed : l.claimed h.holder h.token = some h :=
      claimed_eq_some_iff.mpr ⟨hheld, rfl, rfl⟩
    simp only [step, renew, hclaimed, hgood, Bool.false_eq_true, if_false]
  · intro caller
    simp only [step, acquire, hheld, hgood, Bool.false_eq_true, if_false]

/-- A token that is not current claims nothing, whoever shows it. -/
theorem step_of_lost {l : Lease} {token : LockToken}
    (hlost : ∀ h, l.holding = some h → h.token ≠ token) (now : Nat) (holder : ControllerId) :
    l.step now (.renew holder token) = (l, [.renewRejected holder .notHeld]) ∧
      l.step now (.release holder token) = (l, [.releaseRejected holder .notHeld]) := by
  have hclaimed : l.claimed holder token = none := by
    rw [Option.eq_none_iff_forall_ne_some]
    intro h hclaim
    obtain ⟨hheld, -, htoken⟩ := claimed_eq_some_iff.mp hclaim
    exact hlost h hheld htoken
  constructor <;> simp only [step, renew, release, hclaimed]

section Steps

variable {l : Lease} {now : Nat} {i : Input} {step : Lease × List Event} {g : Grant} {k : Nat}

theorem Course.name_ttl_eq (hcourse : Course l now i step) :
    step.1.name = l.name ∧ step.1.ttl = l.ttl := by
  cases hcourse <;> exact ⟨rfl, rfl⟩

theorem Course.grants_eq (hcourse : Course l now i step) :
    step.1.grants = l.grants + if (granted? step.2).isSome then 1 else 0 := by
  cases hcourse <;> rfl

/-- A grant carries the next number. -/
theorem Course.token_eq (hcourse : Course l now i step) (hgrant : granted? step.2 = some g) :
    g.token = l.tokenOf (l.grants + 1) := by
  cases hcourse with
  | take | reclaim =>
      cases hgrant
      rfl
  | _ => cases hgrant

/-- Only a lease that is free or expired is granted. -/
theorem Course.free_or_expired (hcourse : Course l now i step)
    (hgrant : granted? step.2 = some g) {h : Holding} (hheld : l.holding = some h) :
    h.isExpired l.ttl now = true := by
  cases hcourse with
  | take hfree =>
      rw [hheld] at hfree
      cases hfree
  | reclaim hheld' hexpired =>
      rw [hheld] at hheld'
      cases hheld'
      exact hexpired
  | _ => cases hgrant

/-- Who made or renewed a grant holds the lease since then. -/
theorem Course.holding_of_upholds (hcourse : Course l now i step)
    (hupheld : (⟨now, i, l, step⟩ : Move).upholds g = true) :
    step.1.holding = some ⟨g.holder, g.token, now⟩ := by
  simp only [Move.upholds, Bool.or_eq_true, beq_iff_eq, Bool.and_eq_true,
    List.contains_iff_mem] at hupheld
  rcases hupheld with hgrant | ⟨hinput, hrenewed⟩
  · cases hcourse with
    | take | reclaim =>
        cases hgrant
        rfl
    | _ => cases hgrant
  · cases hcourse with
    | extend =>
        obtain ⟨hholder, htoken⟩ := Input.renew.inj hinput
        rw [← hholder, ← htoken]
    | lapse | disown => simp [Move.events] at hrenewed
    | _ => cases hinput

/-- A token that was issued and is not current does not become so again. -/
theorem Course.lost (hcourse : Course l now i step) {token : LockToken} (hissued : k ≤ l.grants)
    (htoken : token = l.tokenOf k) (hlost : ∀ h, l.holding = some h → h.token ≠ token) :
    ∀ h, step.1.holding = some h → h.token ≠ token := by
  intro h hheld
  cases hcourse with
  | take | reclaim =>
      cases hheld
      rw [htoken]
      exact fun hsame => absurd (l.tokenOf_injective hsame) (by omega)
  | extend hbefore =>
      cases hheld
      exact fun hsame => hlost _ hbefore hsame
  | deny | disown | decline | idle => exact hlost h hheld
  | lapse | giveBack | clear => cases hheld

/-- What became of a grant that was made or last renewed at `upheld`, after the moves since it
was made. -/
inductive Fate (g : Grant) (upheld : Nat) (since : List Move) (l : Lease) : Prop where
  | stands (hheld : l.holding = some ⟨g.holder, g.token, upheld⟩)
      (hquiet : ∀ m ∈ since, m.ends = false)
  | ended {m : Move} (hlost : ∀ h, l.holding = some h → h.token ≠ g.token) (hm : m ∈ since)
      (hends : m.ends = true)
      (hcause : m.returns g = true ∨ upheld + l.ttl.nanos < m.time)

namespace Fate

variable {upheld : Nat} {since : List Move}

/-- A grant stands that a move leaves alone. -/
theorem stay (hcourse : Course l now i step)
    (hheld : l.holding = some ⟨g.holder, g.token, upheld⟩)
    (hquiet : ∀ m ∈ since, m.ends = false) (hsame : step.1 = l)
    (hends : (⟨now, i, l, step⟩ : Move).ends = false) :
    Fate g (if (⟨now, i, l, step⟩ : Move).upholds g then now else upheld)
      (⟨now, i, l, step⟩ :: since) step.1 := by
  have hupheld : (if (⟨now, i, l, step⟩ : Move).upholds g then now else upheld) = upheld := by
    split
    next hupholds =>
      -- Where nothing changed the grant can only be upheld since now if it was so before.
      have hnow := hcourse.holding_of_upholds hupholds
      rw [hsame, hheld] at hnow
      cases hnow
      rfl
    next => rfl
  rw [hupheld]
  refine .stands ?_ (List.forall_mem_cons.mpr ⟨hends, hquiet⟩)
  rw [hsame]
  exact hheld

theorem upholds_eq_false (hcourse : Course l now i step)
    (hlost : ∀ h, step.1.holding = some h → h.token ≠ g.token) :
    (⟨now, i, l, step⟩ : Move).upholds g = false := by
  cases hupholds : (⟨now, i, l, step⟩ : Move).upholds g with
  | false => rfl
  | true => exact absurd rfl (hlost _ (hcourse.holding_of_upholds hupholds))

/-- A grant is over with a move that ends it for a good cause. -/
theorem finish (hcourse : Course l now i step)
    (hlost : ∀ h, step.1.holding = some h → h.token ≠ g.token)
    (hends : (⟨now, i, l, step⟩ : Move).ends = true)
    (hcause : (⟨now, i, l, step⟩ : Move).returns g = true ∨ upheld + l.ttl.nanos < now) :
    Fate g (if (⟨now, i, l, step⟩ : Move).upholds g then now else upheld)
      (⟨now, i, l, step⟩ :: since) step.1 := by
  rw [upholds_eq_false hcourse hlost]
  refine .ended hlost List.mem_cons_self hends ?_
  rw [hcourse.name_ttl_eq.2]
  exact hcause

theorem move (hfate : Fate g upheld since l) (hcourse : Course l now i step)
    (hissued : k ≤ l.grants) (htoken : g.token = l.tokenOf k) :
    Fate g (if (⟨now, i, l, step⟩ : Move).upholds g then now else upheld)
      (⟨now, i, l, step⟩ :: since) step.1 := by
  cases hfate with
  | ended hlost hm hends hcause =>
      -- All grants to come have greater numbers, so the token is lost for good.
      have hlater := hcourse.lost hissued htoken hlost
      rw [upholds_eq_false hcourse hlater]
      rw [← hcourse.name_ttl_eq.2] at hcause
      exact .ended hlater (List.mem_cons_of_mem _ hm) hends hcause
  | stands hheld hquiet =>
      have hexpiry {h : Holding} (hbefore : l.holding = some h)
          (hexpired : h.isExpired l.ttl now = true) : upheld + l.ttl.nanos < now := by
        rw [hheld] at hbefore
        cases hbefore
        exact Holding.isExpired_iff.mp hexpired
      cases hcourse with
      | take hfree =>
          rw [hheld] at hfree
          cases hfree
      | reclaim hbefore hexpired =>
          refine finish (.reclaim hbefore hexpired) ?_ rfl (Or.inr (hexpiry hbefore hexpired))
          intro h hafter
          cases hafter
          rw [htoken]
          exact fun hsame => absurd (l.tokenOf_injective hsame) (by omega)
      | extend hbefore hgood =>
          rw [hheld] at hbefore
          cases hbefore
          rw [show Move.upholds g ⟨now, _, l, _⟩ = true by simp [Move.upholds, Move.events]]
          exact .stands rfl (List.forall_mem_cons.mpr ⟨rfl, hquiet⟩)
      | giveBack hbefore =>
          have hcourse : Course l now _ _ := .giveBack hbefore
          rw [hheld] at hbefore
          cases hbefore
          refine finish hcourse (fun _ hafter => by cases hafter) rfl (Or.inl ?_)
          simp [Move.returns, Move.events]
      | lapse hbefore hexpired =>
          exact finish (.lapse hbefore hexpired) (fun _ hafter => by cases hafter) rfl
            (Or.inr (hexpiry hbefore hexpired))
      | clear hbefore hexpired =>
          exact finish (.clear hbefore hexpired) (fun _ hafter => by cases hafter) rfl
            (Or.inr (hexpiry hbefore hexpired))
      | deny hbefore hgood => exact stay (.deny hbefore hgood) hheld hquiet rfl rfl
      | disown hstranger => exact stay (.disown hstranger) hheld hquiet rfl rfl
      | decline hstranger => exact stay (.decline hstranger) hheld hquiet rfl rfl
      | idle hgood => exact stay (.idle hgood) hheld hquiet rfl rfl

end Fate

end Steps

namespace History

variable {name : String} {ttl : Span} {ms later between earlier : List Move} {l : Lease}
variable {m : Move} {g : Grant}

theorem name_ttl_eq (past : History name ttl ms l) : l.name = name ∧ l.ttl = ttl := by
  induction past with
  | new => exact ⟨rfl, rfl⟩
  | @move ms l past now i hlater ih =>
      obtain ⟨hname, httl⟩ := (course_step l now i).name_ttl_eq
      exact ⟨hname.trans ih.1, httl.trans ih.2⟩

theorem grants_eq (past : History name ttl ms l) : l.grants = grantCount ms := by
  induction past with
  | new => rfl
  | @move ms l past now i hlater ih =>
      rw [(course_step l now i).grants_eq, ih, grantCount, grantCount, List.countP_cons]
      rfl

/-- A part of the past is a past itself. -/
theorem of_append (past : History name ttl (later ++ ms) l) : ∃ l', History name ttl ms l' := by
  induction later generalizing l with
  | nil => exact ⟨l, past⟩
  | cons m later ih =>
      cases past with
      | move past => exact ih past

theorem time_le (past : History name ttl (m :: ms) l) : ∀ m' ∈ ms, m'.time ≤ m.time := by
  cases past with
  | move past now i hlater => exact hlater

theorem token_eq (past : History name ttl (m :: earlier) l) (hgrant : m.grant? = some g) :
    g.token.text = name ++ "-" ++ toString (grantCount earlier + 1) := by
  cases past with
  | @move _ l past now i hlater =>
      rw [(course_step l now i).token_eq hgrant, Lease.tokenOf, past.name_ttl_eq.1,
        past.grants_eq]

theorem token_text_eq (past : History name ttl (later ++ m :: earlier) l)
    (hgrant : m.grant? = some g) :
    g.token.text = name ++ "-" ++ toString (grantCount earlier + 1) := by
  obtain ⟨l', past'⟩ := past.of_append
  exact past'.token_eq hgrant

/-- The number of a grant is no greater than that of the latest one. -/
theorem issued (past : History name ttl (later ++ m :: earlier) l) (hgrant : m.grant? = some g) :
    grantCount earlier + 1 ≤ l.grants ∧ g.token = l.tokenOf (grantCount earlier + 1) := by
  constructor
  · rw [past.grants_eq, grantCount_append later earlier hgrant]
    exact Nat.le_add_left _ _
  · rw [Lease.tokenOf, past.name_ttl_eq.1]
    exact congrArg LockToken.mk (past.token_text_eq hgrant)

/-- Every move since a grant was made adds to its fate. -/
theorem fate (past : History name ttl (between ++ m :: earlier) l)
    (hgrant : m.grant? = some g) :
    ∃ upheld, lastUpheld? g (between ++ m :: earlier) = some upheld ∧
      Fate g upheld between l := by
  induction between generalizing l with
  | nil =>
      have hupholds : m.upholds g = true := by simp [Move.upholds, hgrant]
      refine ⟨m.time, ?_, ?_⟩
      · rw [lastUpheld?, List.nil_append, List.find?_cons_of_pos hupholds]
        rfl
      · cases past with
        | @move _ l past now i hlater =>
            exact .stands ((course_step l now i).holding_of_upholds hupholds)
              fun _ hm => absurd hm List.not_mem_nil
  | cons latest between ih =>
      cases past with
      | @move _ l past now i hlater =>
          obtain ⟨upheld, hlast, hfate⟩ := ih past
          obtain ⟨hissued, htoken⟩ := past.issued hgrant
          refine ⟨_, ?_, hfate.move (course_step l now i) hissued htoken⟩
          rw [lastUpheld?, List.cons_append, List.find?_cons,
            show (⟨now, i, l, l.step now i⟩ : Move) = Move.make l now i from rfl]
          cases (Move.make l now i).upholds g with
          | true => rfl
          | false => exact hlast

end History

/-- Two grants of a lease are never good at once, whatever it is given and by whom.  The later
one is only made once the earlier was given back, or once more than the time of the lease went
by since that was made or last renewed.  Nor is a grant cut short: until that much time went
by its holder can renew it, unless it gave it back, and everybody is denied the lease. -/
theorem grants_disjoint {name : String} {ttl : Span} {between earlier : List Move} {l : Lease}
    {m first : Move} {g : Grant} (past : History name ttl (m :: (between ++ first :: earlier)) l)
    (hgrant : first.grant? = some g) :
    ∃ upheld, lastUpheld? g (between ++ first :: earlier) = some upheld ∧
      (∀ next, m.grant? = some next →
        (∃ m' ∈ between, m'.returns g = true) ∨ upheld + ttl.nanos < m.time) ∧
      (m.time ≤ upheld + ttl.nanos →
        (∀ m' ∈ between, m'.input ≠ .release g.holder g.token) →
          (m.input = .renew g.holder g.token → m.events = [.renewed g.holder]) ∧
          ∀ caller, m.input = .acquire caller → m.events = [.denied caller g.holder]) := by
  have hlater := past.time_le
  cases past with
  | @move _ l past now i =>
      obtain ⟨upheld, hlast, hfate⟩ := past.fate hgrant
      refine ⟨upheld, hlast, ?_, ?_⟩
      · intro next hnext
        cases hfate with
        | stands hheld =>
            have hexpired := (course_step l now i).free_or_expired hnext hheld
            rw [past.name_ttl_eq.2] at hexpired
            exact Or.inr (Holding.isExpired_iff.mp hexpired)
        | @ended m' _ hm _ hcause =>
            rw [past.name_ttl_eq.2] at hcause
            exact hcause.imp (fun hreturns => ⟨m', hm, hreturns⟩)
              fun hlate => Nat.lt_of_lt_of_le hlate (hlater m' (List.mem_append_left _ hm))
      · intro hsoon hkept
        cases hfate with
        | stands hheld =>
            have hgood : Holding.isExpired ⟨g.holder, g.token, upheld⟩ l.ttl now = false := by
              rw [past.name_ttl_eq.2, Bool.eq_false_iff, Ne, Holding.isExpired_iff]
              exact Nat.not_lt.mpr hsoon
            obtain ⟨hrenewed, hdenied⟩ := step_of_good hheld hgood
            refine ⟨?_, ?_⟩
            · rintro rfl
              exact hrenewed
            · rintro caller rfl
              exact hdenied caller
        | @ended m' _ hm _ hcause =>
            rw [past.name_ttl_eq.2] at hcause
            rcases hcause with hreturns | hlate
            · simp only [Move.returns, Bool.and_eq_true, beq_iff_eq] at hreturns
              exact absurd hreturns.1 (hkept m' hm)
            · have hm' := hlater m' (List.mem_append_left _ hm)
              omega

/-- A grant is renewed, denied to a second participant at the last instant of its time, and
taken over a nanosecond later. -/
theorem grants_disjoint_of_takeover :
    ∃ (first renewal denial takeover : Move) (l : Lease),
      History "lock" (.ofMillis 10) (takeover :: [denial, renewal, first]) l ∧
      first.grant? = some ⟨⟨"a"⟩, ⟨"lock-1"⟩⟩ ∧ renewal.time = 7000000 ∧
      denial.time = 17000000 ∧ denial.events = [.denied ⟨"b"⟩ ⟨"a"⟩] ∧
      takeover.grant? = some ⟨⟨"b"⟩, ⟨"lock-2"⟩⟩ ∧ 17000000 < takeover.time := by
  have granted : History "lock" (.ofMillis 10) _ _ :=
    .move .new 0 (.acquire ⟨"a"⟩) (by decide)
  have renewed := granted.move 7000000 (.renew ⟨"a"⟩ ⟨"lock-1"⟩) (by decide)
  have denied := renewed.move 17000000 (.acquire ⟨"b"⟩) (by decide)
  have takenOver := denied.move 17000001 (.acquire ⟨"b"⟩) (by decide)
  refine ⟨_, _, _, _, _, takenOver, by decide, rfl, rfl, ?_, by decide, ?_⟩
  · have past : History "lock" (.ofMillis 10) (_ :: ([_] ++ _ :: [])) _ := denied
    obtain ⟨upheld, hlast, -, hgood⟩ :=
      grants_disjoint (g := ⟨⟨"a"⟩, ⟨"lock-1"⟩⟩) past (by decide)
    have hrenewed : some upheld = some 7000000 := hlast.symm.trans (by decide)
    cases hrenewed
    exact (hgood (by decide) (by decide)).2 _ rfl
  · have past : History "lock" (.ofMillis 10) (_ :: ([_, _] ++ _ :: [])) _ := takenOver
    obtain ⟨upheld, hlast, hapart, -⟩ :=
      grants_disjoint (g := ⟨⟨"a"⟩, ⟨"lock-1"⟩⟩) past (by decide)
    have hrenewed : some upheld = some 7000000 := hlast.symm.trans (by decide)
    cases hrenewed
    exact (hapart ⟨⟨"b"⟩, ⟨"lock-2"⟩⟩ (by decide)).resolve_left (by decide)

/-- The `k`-th grant of a lease carries the number `k` after the name.  No other grant carries
the same token, neither of this lease nor of one with another name, whatever the two names are.
Once the grant is given back, expired or taken over, nobody renews or releases anything with
that token, at any time, and the attempt leaves the lease as it is. -/
theorem token_unique {name : String} {ttl : Span} {later earlier : List Move} {l : Lease}
    {m : Move} {g : Grant} (past : History name ttl (later ++ m :: earlier) l)
    (hgrant : m.grant? = some g) :
    g.token.text = name ++ "-" ++ toString (grantCount earlier + 1) ∧
    (∀ m' ∈ later, ∀ g', m'.grant? = some g' → g'.token ≠ g.token) ∧
    (∀ (name' : String) (ttl' : Span) (ms : List Move) (l' : Lease), name' ≠ name →
      History name' ttl' ms l' → ∀ m' ∈ ms, ∀ g', m'.grant? = some g' → g'.token ≠ g.token) ∧
    ((∃ m' ∈ later, m'.ends = true) → ∀ (now : Nat) (holder : ControllerId),
      l.step now (.renew holder g.token) = (l, [.renewRejected holder .notHeld]) ∧
      l.step now (.release holder g.token) = (l, [.releaseRejected holder .notHeld])) := by
  have htext := past.token_text_eq hgrant
  refine ⟨htext, ?_, ?_, ?_⟩
  · intro m' hm' g' hgrant' hsame
    obtain ⟨latest, between, rfl⟩ := List.append_of_mem hm'
    rw [List.append_assoc, List.cons_append] at past
    have hnumber := past.token_text_eq hgrant'
    rw [hsame, htext, numbered_inj, grantCount_append between earlier hgrant] at hnumber
    omega
  · intro name' ttl' ms l' hname past' m' hm' g' hgrant' hsame
    obtain ⟨latest, before, rfl⟩ := List.append_of_mem hm'
    have hnumber := past'.token_text_eq hgrant'
    rw [hsame, htext, numbered_inj] at hnumber
    exact hname hnumber.1.symm
  · rintro ⟨m', hm', hends⟩
    obtain ⟨upheld, -, hfate⟩ := past.fate hgrant
    cases hfate with
    | stands hheld hquiet =>
        rw [hquiet m' hm'] at hends
        cases hends
    | ended hlost => exact step_of_lost hlost

/-- Who let a grant expire gets the next one, and has no more use of the first token. -/
theorem token_unique_of_return :
    ∃ (first expiry second : Move) (l : Lease),
      History "lock" (.ofMillis 10) ([second, expiry] ++ first :: []) l ∧
      first.grant? = some ⟨⟨"a"⟩, ⟨"lock-1"⟩⟩ ∧ second.grant? = some ⟨⟨"a"⟩, ⟨"lock-2"⟩⟩ ∧
      l.step 12000000 (.renew ⟨"a"⟩ ⟨"lock-1"⟩) =
        (l, [.renewRejected ⟨"a"⟩ .notHeld]) ∧
      ∀ (l' : Lease) (ms : List Move), History "lock-1" (.ofMillis 10) ms l' →
        ∀ m ∈ ms, ∀ g, m.grant? = some g → g.token ≠ ⟨"lock-1"⟩ := by
  have granted : History "lock" (.ofMillis 10) _ _ :=
    .move .new 0 (.acquire ⟨"a"⟩) (by decide)
  have expired := granted.move 10000001 .tick (by decide)
  have returned := expired.move 11000000 (.acquire ⟨"a"⟩) (by decide)
  have past : History "lock" (.ofMillis 10) ([_, _] ++ _ :: []) _ := returned
  obtain ⟨-, -, helsewhere, hretired⟩ :=
    token_unique (g := ⟨⟨"a"⟩, ⟨"lock-1"⟩⟩) past (by decide)
  exact ⟨_, _, _, _, past, by decide, by decide, (hretired (by decide) 12000000 ⟨"a"⟩).1,
    fun l' ms => helsewhere "lock-1" (.ofMillis 10) ms l' (by decide)⟩

end Lease

end LeaseElection

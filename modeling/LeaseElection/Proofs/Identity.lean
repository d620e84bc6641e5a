import LeaseElection.Controller.Build
import LeaseElection.Proofs.Text.Numbered
import Mathlib.Data.List.Nodup

/-!
# Names from shared sequences

A name is drawn by itself, for an identity, or to build a controller whose configuration has
none.  However handles are made and shared, and in whatever order they are used, the names drawn
from one sequence carry the numbers from one on, none left out and none twice; sequences with
different stems have no name in common; and a controller that is not built, or brings its
identity along, leaves no trace.
-/

namespace LeaseElection

namespace Controller

variable {c : Config}

/-- A configuration that cannot be used, or has an identity, draws nothing. -/
theorem build_of_silent (hsilent : c.validate ≠ .ok () ∨ c.id ≠ none) (entropy : WordStream)
    (ids : IdSequence) :
    ∃ result, build c entropy ids = (result, ids) ∧
      (c.id = none → ∃ flaw, result = .error flaw) := by
  rw [build, Policy.ofConfig]
  cases hvalid : c.validate with
  | error flaw => exact ⟨_, rfl, fun _ => ⟨flaw, rfl⟩⟩
  | ok =>
      cases hid : c.id with
      | none => exact absurd hid (hsilent.resolve_left (not_not_intro hvalid))
      | some id => exact ⟨_, rfl, fun hnone => by cases hnone⟩

/-- A usable configuration without an identity draws one. -/
theorem build_of_drawing (hvalid : c.validate = .ok ()) (hid : c.id = none)
    (entropy : WordStream) (ids : IdSequence) :
    ∃ p, build c entropy ids = (.ok (⟨ids.next.1⟩, p), ids.next.2) := by
  rw [build, Policy.ofConfig, hvalid, hid]
  exact ⟨_, rfl⟩

end Controller

namespace IdRegistry

/-- What can be done with handles on sequences of names. -/
inductive Operation where
  | create (stem : String)
  | share (handle : Nat)
  | next (handle : Nat)
  | generate (handle : Nat)
  | build (handle : Nat) (c : Config) (entropy : WordStream)

/-- What comes of it. -/
inductive Outcome where
  /-- There is no such handle. -/
  | refused
  | made (handle : Nat)
  | named (text : String)
  | identified (id : ControllerId)
  | built (result : Except Config.Flaw (ControllerId × Policy))

/-- The outcome of something that may have been impossible, and the registry after it. -/
def settle {α : Type} (r : IdRegistry) (outcome : α → Outcome) :
    Option (α × IdRegistry) → Outcome × IdRegistry
  | some (x, r') => (outcome x, r')
  | none => (.refused, r)

def perform (r : IdRegistry) : Operation → Outcome × IdRegistry
  | .create stem => r.settle .made (some (r.create stem))
  | .share h => r.settle .made (r.share? h)
  | .next h => r.settle .named (r.draw? h)
  | .generate h => r.settle (fun text => .identified ⟨text⟩) (r.draw? h)
  | .build h c entropy => r.settle .built (r.use? h (Controller.build c entropy))

/-- The handle through which an operation may draw. -/
def Operation.handle? : Operation → Option Nat
  | .next h | .generate h | .build h _ _ => some h
  | .create _ | .share _ => none

def Operation.isCreation : Operation → Bool
  | .create _ => true
  | _ => false

/-- The name that was drawn, where one was. -/
def Outcome.drawn? : Operation → Outcome → Option String
  | .next _, .named text => some text
  | .generate _, .identified id => some id.text
  | .build _ c _, .built (.ok (id, _)) => if c.id.isNone then some id.text else none
  | _, _ => none

/-- An operation and what came of it. -/
structure Entry where
  operation : Operation
  outcome : Outcome

def Entry.drawn? (e : Entry) : Option String := e.outcome.drawn? e.operation

/-- Where a handle comes from: the creation, by number, to which its shares go back. -/
structure Origin where
  number : Nat
  stem : String
deriving DecidableEq

/-- The `k`-th name, counted from zero, of a sequence with this origin. -/
def Origin.nameAt (o : Origin) (k : Nat) : String := o.stem ++ "-" ++ toString (k + 1)

theorem Origin.nameAt_inj {o o' : Origin} {k k' : Nat} :
    o.nameAt k = o'.nameAt k' ↔ o.stem = o'.stem ∧ k = k' := by
  rw [nameAt, nameAt, numbered_inj, Nat.add_right_cancel_iff]

/-- How many sequences were created; the latest entry comes first. -/
def creations (es : List Entry) : Nat := es.countP (·.operation.isCreation)

/-- The origins of all handles, in the order in which these were made. -/
def origins : List Entry → List Origin
  | [] => []
  | e :: es =>
      match e.operation with
      | .create stem => origins es ++ [⟨creations es, stem⟩]
      | .share h => origins es ++ (origins es)[h]?.toList
      | _ => origins es

/-- The names that were drawn through handles of one origin, first one first. -/
def names (o : Origin) : List Entry → List String
  | [] => []
  | e :: es =>
      names o es ++
        if (e.operation.handle?.bind fun h => (origins es)[h]?) = some o then e.drawn?.toList
        else []

/-- A registry in use, and everything that was done with it, latest first. -/
structure Ledger where
  registry : IdRegistry := {}
  entries : List Entry := []

namespace Ledger

def perform (l : Ledger) (op : Operation) : Ledger :=
  let (outcome, registry) := l.registry.perform op
  ⟨registry, ⟨op, outcome⟩ :: l.entries⟩

/-- An empty registry after the operations, first one first. -/
def after (ops : List Operation) : Ledger := ops.foldl perform {}

end Ledger

section Effects

variable {r : IdRegistry} {op : Operation} {h i : Nat} {s : IdSequence}

/-- All that can come of an operation. -/
inductive Effect (r : IdRegistry) : Operation → Outcome × IdRegistry → Prop where
  | create {stem : String} :
      Effect r (.create stem)
        (.made r.handles.length, ⟨r.sequences ++ [⟨stem, 0⟩], r.handles ++ [r.sequences.length]⟩)
  | share {h i : Nat} (hi : r.handles[h]? = some i) :
      Effect r (.share h) (.made r.handles.length, { r with handles := r.handles ++ [i] })
  | draw {op : Operation} {o : Outcome} {h i : Nat} {s : IdSequence} (hop : op.handle? = some h)
      (hi : r.handles[h]? = some i) (hs : r.sequences[i]? = some s)
      (hdrawn : o.drawn? op = some s.next.1) :
      Effect r op (o, { r with sequences := r.sequences.set i s.next.2 })
  | rest {op : Operation} {o : Outcome} (hdrawn : o.drawn? op = none)
      (hcreate : op.isCreation = false) (hshare : ∀ h, op = .share h → r.handles[h]? = none) :
      Effect r op (o, r)

theorem use?_of_some {α : Type} (hi : r.handles[h]? = some i) (hs : r.sequences[i]? = some s)
    (f : IdSequence → α × IdSequence) :
    r.use? h f = some ((f s).1, { r with sequences := r.sequences.set i (f s).2 }) := by
  simp [use?, hi, hs]

/-- A handle is in use, or nothing can be done through it. -/
theorem use?_cases (r : IdRegistry) (h : Nat) :
    (∃ i s, r.handles[h]? = some i ∧ r.sequences[i]? = some s) ∨
      ∀ (α : Type) (f : IdSequence → α × IdSequence), r.use? h f = none := by
  cases hi : r.handles[h]? with
  | none => exact Or.inr fun α f => by simp [use?, hi]
  | some i =>
      cases hs : r.sequences[i]? with
      | none => exact Or.inr fun α f => by simp [use?, hi, hs]
      | some s => exact Or.inl ⟨i, s, rfl, hs⟩

/-- A sequence that is put back as it was is put back nowhere. -/
theorem set_self (hs : r.sequences[i]? = some s) :
    { r with sequences := r.sequences.set i s } = r := by
  obtain ⟨hi, rfl⟩ := List.getElem?_eq_some_iff.mp hs
  rw [List.set_getElem_self]

theorem drawn?_build_of_silent {c : Config} {entropy : WordStream}
    {result : Except Config.Flaw (ControllerId × Policy)}
    (hresult : c.id = none → ∃ flaw, result = .error flaw) :
    Outcome.drawn? (.build h c entropy) (.built result) = none := by
  cases result with
  | error flaw => rfl
  | ok made =>
      have hid : c.id ≠ none := fun hnone => by
        obtain ⟨flaw, hflaw⟩ := hresult hnone
        cases hflaw
      simpa [Outcome.drawn?] using hid

/-- To build from a configuration that draws nothing leaves the registry as it is. -/
theorem perform_build_of_silent {c : Config} (hsilent : c.validate ≠ .ok () ∨ c.id ≠ none)
    (r : IdRegistry) (h : Nat) (entropy : WordStream) :
    ∃ o, r.perform (.build h c entropy) = (o, r) ∧ o.drawn? (.build h c entropy) = none := by
  rcases r.use?_cases h with ⟨i, s, hi, hs⟩ | hnone
  · obtain ⟨result, hbuild, hresult⟩ := Controller.build_of_silent hsilent entropy s
    refine ⟨.built result, ?_, drawn?_build_of_silent hresult⟩
    rw [perform, use?_of_some hi hs, hbuild, set_self hs, settle]
  · refine ⟨.refused, ?_, rfl⟩
    rw [perform, hnone, settle]

/-- Where the next name of a sequence is all that is asked for, it is drawn or refused. -/
theorem effect_draw? {outcome : String → Outcome} (hop : op.handle? = some h)
    (hdrawn : ∀ text, (outcome text).drawn? op = some text) :
    Effect r op (r.settle outcome (r.draw? h)) := by
  rcases r.use?_cases h with ⟨i, s, hi, hs⟩ | hnone
  · rw [draw?, use?_of_some hi hs]
    exact .draw hop hi hs (hdrawn _)
  · rw [draw?, hnone]
    cases op with
    | create | share => cases hop
    | next | generate | build => exact .rest rfl rfl nofun

theorem effect_perform (r : IdRegistry) (op : Operation) : Effect r op (r.perform op) := by
  cases op with
  | create stem => exact .create
  | share h =>
      rw [perform, share?]
      cases hi : r.handles[h]? with
      | none => exact .rest rfl rfl fun h' heq => by cases heq; exact hi
      | some i => exact .share hi
  | next h => exact effect_draw? rfl fun _ => rfl
  | generate h => exact effect_draw? rfl fun _ => rfl
  | build h c entropy =>
      by_cases hdraws : c.validate = .ok () ∧ c.id = none
      · rcases r.use?_cases h with ⟨i, s, hi, hs⟩ | hnone
        · obtain ⟨p, hbuild⟩ := Controller.build_of_drawing hdraws.1 hdraws.2 entropy s
          rw [perform, use?_of_some hi hs, hbuild]
          exact .draw rfl hi hs (by simp [Outcome.drawn?, hdraws.2])
        · rw [perform, hnone]
          exact .rest rfl rfl nofun
      · obtain ⟨o, hperform, hdrawn⟩ :=
          perform_build_of_silent (Decidable.not_and_iff_or_not.mp hdraws) r h entropy
        rw [hperform]
        exact .rest hdrawn rfl nofun

end Effects

section Entries

variable {op : Operation} {o : Outcome} {es : List Entry}

theorem creations_cons_of_not (hcreate : op.isCreation = false) :
    creations (⟨op, o⟩ :: es) = creations es :=
  List.countP_cons_of_neg (by simp [hcreate])

theorem isCreation_of_handle {h : Nat} (hop : op.handle? = some h) : op.isCreation = false := by
  cases op with
  | create => cases hop
  | share | next | generate | build => rfl

theorem creations_cons_create (stem : String) :
    creations (⟨.create stem, o⟩ :: es) = creations es + 1 := List.countP_cons_of_pos rfl

theorem origins_cons_create (stem : String) :
    origins (⟨.create stem, o⟩ :: es) = origins es ++ [⟨creations es, stem⟩] := rfl

theorem origins_cons_share (h : Nat) :
    origins (⟨.share h, o⟩ :: es) = origins es ++ (origins es)[h]?.toList := rfl

theorem origins_cons_of_handle {h : Nat} (hop : op.handle? = some h) :
    origins (⟨op, o⟩ :: es) = origins es := by
  cases op with
  | create | share => cases hop
  | next | generate | build => rfl

theorem origins_cons_of_rest (hcreate : op.isCreation = false)
    (hshare : ∀ h, op = .share h → (origins es)[h]? = none) :
    origins (⟨op, o⟩ :: es) = origins es := by
  cases op with
  | create => cases hcreate
  | share h =>
      rw [origins_cons_share, hshare h rfl]
      exact List.append_nil _
  | next | generate | build => rfl

theorem names_cons_of_none (hdrawn : o.drawn? op = none) (source : Origin) :
    names source (⟨op, o⟩ :: es) = names source es := by
  simp [names, Entry.drawn?, hdrawn]

theorem names_cons_of_some {h : Nat} {source : Origin} {text : String}
    (hop : op.handle? = some h) (hsource : (origins es)[h]? = some source)
    (hdrawn : o.drawn? op = some text) (other : Origin) :
    names other (⟨op, o⟩ :: es) = names other es ++ if source = other then [text] else [] := by
  simp [names, Entry.drawn?, hdrawn, hop, hsource]

end Entries

section Origins

variable {r : IdRegistry} {i : Nat} {s : IdSequence}

/-- The origin of the handles on the `i`-th sequence. -/
def originAt (r : IdRegistry) (i : Nat) : Origin :=
  ⟨i, (r.sequences[i]?.map IdSequence.stem).getD ""⟩

/-- How many names the registry says were drawn from the sequence with this origin. -/
def drawnFrom (r : IdRegistry) (o : Origin) : Nat :=
  match r.sequences[o.number]? with
  | some s => if s.stem = o.stem then s.drawn else 0
  | none => 0

theorem originAt_of_some (hs : r.sequences[i]? = some s) : r.originAt i = ⟨i, s.stem⟩ := by
  rw [originAt, hs]
  rfl

theorem originAt_append (hi : i < r.sequences.length) (s : IdSequence) (handles : List Nat) :
    originAt ⟨r.sequences ++ [s], handles⟩ i = r.originAt i := by
  rw [originAt, List.getElem?_append_left hi, originAt]

theorem originAt_set {j : Nat} (hs : r.sequences[i]? = some s) :
    originAt { r with sequences := r.sequences.set i s.next.2 } j = r.originAt j := by
  rw [originAt, List.getElem?_set, originAt]
  split
  · subst j
    rw [hs, if_pos (List.getElem?_eq_some_iff.mp hs).1]
    rfl
  · rfl

theorem drawnFrom_originAt (hs : r.sequences[i]? = some s) :
    r.drawnFrom (r.originAt i) = s.drawn := by
  rw [originAt_of_some hs, drawnFrom, hs]
  exact if_pos rfl

/-- A new sequence has no names yet. -/
theorem drawnFrom_append (r : IdRegistry) (stem : String) (handles : List Nat) (o : Origin) :
    drawnFrom ⟨r.sequences ++ [⟨stem, 0⟩], handles⟩ o = r.drawnFrom o := by
  rw [drawnFrom, drawnFrom]
  rcases Nat.lt_trichotomy o.number r.sequences.length with hold | hnew | hbeyond
  · rw [List.getElem?_append_left hold]
  · rw [hnew, List.getElem?_concat_length, List.getElem?_eq_none (Nat.le_refl _)]
    exact ite_self 0
  · rw [List.getElem?_eq_none (Nat.le_of_lt hbeyond),
      List.getElem?_eq_none (by simpa using Nat.succ_le_of_lt hbeyond)]

/-- To draw a name counts for its own sequence and for no other. -/
theorem drawnFrom_set (hs : r.sequences[i]? = some s) (o : Origin) :
    drawnFrom { r with sequences := r.sequences.set i s.next.2 } o =
      r.drawnFrom o + if r.originAt i = o then 1 else 0 := by
  obtain ⟨number, stem⟩ := o
  rw [originAt_of_some hs, drawnFrom, drawnFrom, List.getElem?_set]
  by_cases hnumber : i = number
  · subst hnumber
    rw [if_pos rfl, if_pos (List.getElem?_eq_some_iff.mp hs).1, hs]
    by_cases hstem : s.stem = stem <;> simp [hstem]
  · rw [if_neg hnumber, if_neg (by simp [hnumber])]
    rfl

end Origins

/-- That a registry agrees with what was done with it. -/
structure Agrees (r : IdRegistry) (es : List Entry) : Prop where
  valid : ∀ i ∈ r.handles, i < r.sequences.length
  creations : creations es = r.sequences.length
  origins : origins es = r.handles.map r.originAt
  names : ∀ source, names source es = (List.range (r.drawnFrom source)).map source.nameAt

namespace Agrees

variable {r : IdRegistry} {es : List Entry}

theorem new : Agrees {} [] where
  valid _ hi := absurd hi List.not_mem_nil
  creations := rfl
  origins := rfl
  names _ := rfl

theorem create (hagrees : r.Agrees es) (stem : String) {o : Outcome}
    (hdrawn : o.drawn? (.create stem) = none) :
    Agrees ⟨r.sequences ++ [⟨stem, 0⟩], r.handles ++ [r.sequences.length]⟩
      (⟨.create stem, o⟩ :: es) where
  valid i hi := by
    rw [List.length_append, List.length_singleton]
    rcases List.mem_append.mp hi with hold | hnew
    · exact Nat.lt_succ_of_lt (hagrees.valid i hold)
    · exact List.mem_singleton.mp hnew ▸ Nat.lt_succ_self _
  creations := by
    rw [creations_cons_create, hagrees.creations, List.length_append, List.length_singleton]
  origins := by
    rw [origins_cons_create, hagrees.creations, hagrees.origins, List.map_append]
    congr 1
    · exact List.map_congr_left fun i hi => (originAt_append (hagrees.valid i hi) ..).symm
    · simp [originAt]
  names source := by
    rw [names_cons_of_none hdrawn, drawnFrom_append]
    exact hagrees.names source

theorem share (hagrees : r.Agrees es) {h i : Nat} (hi : r.handles[h]? = some i) {o : Outcome}
    (hdrawn : o.drawn? (.share h) = none) :
    Agrees { r with handles := r.handles ++ [i] } (⟨.share h, o⟩ :: es) where
  valid j hj := by
    rcases List.mem_append.mp hj with hold | hnew
    · exact hagrees.valid j hold
    · exact List.mem_singleton.mp hnew ▸ hagrees.valid i (List.mem_of_getElem? hi)
  creations := (creations_cons_of_not rfl).trans hagrees.creations
  origins := by
    rw [origins_cons_share, hagrees.origins, List.getElem?_map, hi, List.map_append]
    rfl
  names source := by
    rw [names_cons_of_none hdrawn]
    exact hagrees.names source

theorem rest (hagrees : r.Agrees es) {op : Operation} {o : Outcome}
    (hdrawn : o.drawn? op = none) (hcreate : op.isCreation = false)
    (hshare : ∀ h, op = .share h → r.handles[h]? = none) : r.Agrees (⟨op, o⟩ :: es) where
  valid := hagrees.valid
  creations := (creations_cons_of_not hcreate).trans hagrees.creations
  origins := by
    refine (origins_cons_of_rest hcreate fun h hop => ?_).trans hagrees.origins
    rw [hagrees.origins, List.getElem?_map, hshare h hop]
    rfl
  names source := by
    rw [names_cons_of_none hdrawn]
    exact hagrees.names source

theorem draw (hagrees : r.Agrees es) {op : Operation} {o : Outcome} {h i : Nat}
    {s : IdSequence} (hop : op.handle? = some h) (hi : r.handles[h]? = some i)
    (hs : r.sequences[i]? = some s) (hdrawn : o.drawn? op = some s.next.1) :
    Agrees { r with sequences := r.sequences.set i s.next.2 } (⟨op, o⟩ :: es) where
  valid j hj := by
    rw [List.length_set]
    exact hagrees.valid j hj
  creations := by
    rw [List.length_set]
    exact (creations_cons_of_not (isCreation_of_handle hop)).trans hagrees.creations
  origins := by
    refine (origins_cons_of_handle hop).trans (hagrees.origins.trans ?_)
    exact List.map_congr_left fun j _ => (originAt_set hs).symm
  names source := by
    have hsource : (IdRegistry.origins es)[h]? = some (r.originAt i) := by
      rw [hagrees.origins, List.getElem?_map, hi]
      rfl
    rw [names_cons_of_some hop hsource hdrawn, drawnFrom_set hs, hagrees.names]
    split
    next hsame =>
      subst hsame
      rw [List.range_succ, List.map_append, drawnFrom_originAt hs, originAt_of_some hs]
      rfl
    next => exact List.append_nil _

/-- A handle that was made is one on a sequence, whose next name follows those told of. -/
theorem exists_sequence (hagrees : r.Agrees es) {h : Nat} {source : Origin}
    (hsource : (IdRegistry.origins es)[h]? = some source) :
    ∃ i s, r.handles[h]? = some i ∧ r.sequences[i]? = some s ∧
      s.next.1 = source.nameAt (IdRegistry.names source es).length := by
  rw [hagrees.origins, List.getElem?_map] at hsource
  obtain ⟨i, hi, rfl⟩ := Option.map_eq_some_iff.mp hsource
  have hs := List.getElem?_eq_getElem (hagrees.valid i (List.mem_of_getElem? hi))
  refine ⟨i, _, hi, hs, ?_⟩
  rw [hagrees.names, List.length_map, List.length_range, drawnFrom_originAt hs,
    originAt_of_some hs]
  rfl

theorem perform (hagrees : r.Agrees es) (op : Operation) :
    (r.perform op).2.Agrees (⟨op, (r.perform op).1⟩ :: es) := by
  have heffect := effect_perform r op
  generalize r.perform op = result at heffect ⊢
  cases heffect with
  | create => exact hagrees.create _ rfl
  | share hi => exact hagrees.share hi rfl
  | draw hop hi hs hdrawn => exact hagrees.draw hop hi hs hdrawn
  | rest hdrawn hcreate hshare => exact hagrees.rest hdrawn hcreate hshare

end Agrees

namespace Ledger

theorem agrees_after (ops : List Operation) : (after ops).registry.Agrees (after ops).entries := by
  have hrun (l : Ledger) (hagrees : l.registry.Agrees l.entries) :
      (ops.foldl perform l).registry.Agrees (ops.foldl perform l).entries := by
    induction ops generalizing l with
    | nil => exact hagrees
    | cons op ops ih => exact ih _ (hagrees.perform op)
  exact hrun {} .new

/-- What is done depends on the registry alone, not on what was done before. -/
theorem foldl_perform (ops : List Operation) (r : IdRegistry) (es : List Entry) :
    ops.foldl perform ⟨r, es⟩ =
      ⟨(ops.foldl perform ⟨r, []⟩).registry, (ops.foldl perform ⟨r, []⟩).entries ++ es⟩ := by
  induction ops generalizing r es with
  | nil => rfl
  | cons op ops ih =>
      rw [List.foldl_cons, List.foldl_cons, perform, perform, ih _ (_ :: es), ih _ [_]]
      simp

/-- What leaves the registry as it is leaves no trace in what comes after it. -/
theorem after_append_cons {op : Operation} {o : Outcome} (earlier later : List Operation)
    (hperform : (after earlier).registry.perform op = (o, (after earlier).registry)) :
    ∃ es, after (earlier ++ later) =
        ⟨(after (earlier ++ op :: later)).registry, es ++ (after earlier).entries⟩ ∧
      (after (earlier ++ op :: later)).entries = es ++ ⟨op, o⟩ :: (after earlier).entries := by
  have hafter : after (earlier ++ later) = later.foldl perform (after earlier) :=
    List.foldl_append
  have hafter' : after (earlier ++ op :: later) =
      later.foldl perform ⟨(after earlier).registry, ⟨op, o⟩ :: (after earlier).entries⟩ := by
    rw [after, List.foldl_append, List.foldl_cons, ← after, perform, hperform]
  rw [hafter, hafter', foldl_perform later _ (_ :: _),
    foldl_perform later _ (after earlier).entries]
  exact ⟨_, rfl, rfl⟩

/-- Whatever is done with handles on sequences of names: the names drawn through handles of one
origin are the stem with one, two and so on, in the order in which they were drawn, and none
comes twice.  Two stems have no name in common, even if one goes on where the other ends.  The
next name through a handle is the next of its origin, whether it is drawn by itself, for an
identity or for a controller.  A controller whose configuration cannot be used, or has an
identity, draws none, and everything else is as it would be without it. -/
theorem names_in_order (ops : List Operation) :
    let r := (after ops).registry
    let es := (after ops).entries
    (∀ source : Origin, names source es =
      (List.range (names source es).length).map fun k =>
        source.stem ++ "-" ++ toString (k + 1)) ∧
    (∀ source : Origin, (names source es).Nodup) ∧
    (∀ source source' : Origin, source.stem ≠ source'.stem →
      ∀ text ∈ names source es, text ∉ names source' es) ∧
    (∀ (h : Nat) (source : Origin), (origins es)[h]? = some source →
      let text := source.stem ++ "-" ++ toString ((names source es).length + 1)
      (r.perform (.next h)).1 = .named text ∧
      (r.perform (.generate h)).1 = .identified ⟨text⟩ ∧
      ∀ (c : Config) (entropy : WordStream), c.validate = .ok () → c.id = none →
        ∃ p, (r.perform (.build h c entropy)).1 = .built (.ok (⟨text⟩, p))) ∧
    (∀ (earlier later : List Operation) (h : Nat) (c : Config) (entropy : WordStream),
      ops = earlier ++ .build h c entropy :: later → c.validate ≠ .ok () ∨ c.id ≠ none →
      ∃ (o : Outcome) (between : List Entry),
        o.drawn? (.build h c entropy) = none ∧
        es = between ++ ⟨.build h c entropy, o⟩ :: (after earlier).entries ∧
        after (earlier ++ later) = ⟨r, between ++ (after earlier).entries⟩) := by
  intro r es
  have hagrees : r.Agrees es := agrees_after ops
  refine ⟨fun source => ?_, fun source => ?_, fun source source' hstem text htext htext' => ?_,
    fun h source hsource => ?_, fun earlier later h c entropy hops hsilent => ?_⟩
  · rw [hagrees.names, List.length_map, List.length_range]
    rfl
  · rw [hagrees.names]
    exact List.Nodup.map (fun k k' hname => (Origin.nameAt_inj.mp hname).2) List.nodup_range
  · rw [hagrees.names] at htext htext'
    obtain ⟨k, -, rfl⟩ := List.mem_map.mp htext
    obtain ⟨k', -, hname⟩ := List.mem_map.mp htext'
    exact hstem (Origin.nameAt_inj.mp hname).1.symm
  · obtain ⟨i, s, hi, hs, hname⟩ := hagrees.exists_sequence hsource
    rw [Origin.nameAt] at hname
    refine ⟨?_, ?_, fun c entropy hvalid hid => ?_⟩
    · rw [IdRegistry.perform, draw?, use?_of_some hi hs, settle, hname]
    · rw [IdRegistry.perform, draw?, use?_of_some hi hs, settle, hname]
    · obtain ⟨p, hbuild⟩ := Controller.build_of_drawing hvalid hid entropy s
      rw [IdRegistry.perform, use?_of_some hi hs, settle, hbuild, hname]
      exact ⟨p, rfl⟩
  · subst hops
    obtain ⟨o, hperform, hdrawn⟩ :=
      perform_build_of_silent hsilent (after earlier).registry h entropy
    obtain ⟨between, hwithout, hwith⟩ := after_append_cons earlier later hperform
    exact ⟨o, between, hdrawn, hwith, hwithout⟩

/-- One stem goes on where the other ends, a handle is shared, and one controller is not built
while another brings its identity along. -/
theorem names_in_order_of_nested_stems :
    let words : WordStream := fun _ => 0
    let usable : Config := { lease := .ofMillis 10 }
    let earlier : List Operation := [.create "a", .create "a-1", .share 0, .next 0]
    let later : List Operation := [.generate 2, .build 1 { usable with id := some "own" } words,
      .build 2 usable words, .next 1]
    let l := after (earlier ++ .build 2 { usable with lease := .zero } words :: later)
    names ⟨0, "a"⟩ l.entries = ["a-1", "a-2", "a-3"] ∧ names ⟨1, "a-1"⟩ l.entries = ["a-1-1"] ∧
      "a-1-1" ∉ names ⟨0, "a"⟩ l.entries ∧ (l.registry.perform (.next 2)).1 = .named "a-4" ∧
      (after (earlier ++ later)).registry = l.registry := by
  intro words usable earlier later l
  obtain ⟨-, -, hstems, hnext, hsilent⟩ :=
    names_in_order (earlier ++ .build 2 { usable with lease := .zero } words :: later)
  have hshort : names ⟨0, "a"⟩ l.entries = ["a-1", "a-2", "a-3"] := by decide +kernel
  have hlong : names ⟨1, "a-1"⟩ l.entries = ["a-1-1"] := by decide +kernel
  have hmem : "a-1-1" ∈ names ⟨1, "a-1"⟩ l.entries := hlong ▸ List.mem_singleton_self _
  have hshared : (origins l.entries)[2]? = some ⟨0, "a"⟩ := by decide +kernel
  have hfourth : "a" ++ "-" ++ toString ((names ⟨0, "a"⟩ l.entries).length + 1) = "a-4" := by
    rw [hshort]
    decide
  obtain ⟨o, between, -, -, hwithout⟩ :=
    hsilent earlier later 2 _ words rfl (Or.inl (by decide +kernel))
  have hregistry : (after (earlier ++ later)).registry = l.registry := by rw [hwithout]
  exact ⟨hshort, hlong, hstems ⟨1, "a-1"⟩ ⟨0, "a"⟩ (by decide) _ hmem,
    (hnext 2 ⟨0, "a"⟩ hshared).1.trans (congrArg Outcome.named hfourth), hregistry⟩

end Ledger

end IdRegistry

end LeaseElection

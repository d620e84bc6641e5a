import LeaseElection.Proofs.Cluster.Runs

/-!
# Cancellation of protected tasks

While a controller leads, and its shutdown did not fire, all its task instances are cancelled
but the one that it started last.  At any other time that one is too, so the controller never
asks for the lock while a task of its own still may run.  A task holds a clone of its token, so
it can resign, and nobody starts another one in its place: then the controller leads without a
task, and there is no other way to that.
-/

namespace LeaseElection

open Controller (Phase Signal Action Turn Course Ticker)

namespace Crew

variable {crew : Crew}

/-- The tokens of the instances that controller `i` started, in order: whether they
were cancelled. -/
def tokensOf (crew : Crew) (i : Nat) : List Bool :=
  (crew.marks.filter fun mark => mark.1 = i).map Prod.snd

theorem marks_spawn (crew : Crew) (t : Task) :
    (crew.spawn t).2.marks = crew.marks ++ [(t.group, t.cancelled)] := by
  simp [spawn, marks]

theorem getElem?_marks_foldl_cancel (crew : Crew) (ks : List Nat) (j : Nat) :
    (ks.foldl cancel crew).marks[j]? =
      crew.marks[j]?.map fun mark => (mark.1, mark.2 || decide (j ∈ ks)) := by
  induction ks generalizing crew with
  | nil => simp
  | cons k ks hks =>
      rw [List.foldl_cons, hks, marks_cancel, List.getElem?_modify]
      cases crew.marks[j]? with
      | none => rfl
      | some mark =>
          by_cases hjk : j = k
          · subst hjk
            simp
          · simp [hjk, Ne.symm hjk]

theorem mem_activeIn_iff {i k : Nat} :
    k ∈ crew.activeIn i ↔ crew.marks[k]? = some (i, false) := by
  simp only [activeIn, List.mem_reverse, List.mem_filter, List.mem_range, marks,
    List.getElem?_map]
  constructor
  · rintro ⟨hk, hactive⟩
    rw [List.getElem?_eq_getElem hk] at hactive ⊢
    simpa using hactive
  · intro hmark
    obtain ⟨t, ht, hmark⟩ := Option.map_eq_some_iff.mp hmark
    obtain ⟨hgroup, hcancelled⟩ := Prod.mk.inj hmark
    refine ⟨(List.getElem?_eq_some_iff.mp ht).1, ?_⟩
    simp [ht, hgroup, hcancelled]

/-- Once the tasks of `i` are cancelled, all its tokens are, and no others. -/
theorem marks_foldl_cancel_activeIn (crew : Crew) (i : Nat) :
    ((crew.activeIn i).foldl cancel crew).marks =
      crew.marks.map fun mark => (mark.1, mark.2 || decide (mark.1 = i)) := by
  apply List.ext_getElem?
  intro j
  rw [getElem?_marks_foldl_cancel, List.getElem?_map]
  cases hj : crew.marks[j]? with
  | none => rfl
  | some mark =>
      obtain ⟨group, cancelled⟩ := mark
      cases cancelled <;> simp [mem_activeIn_iff, hj]

/-- If every instance of `i` was cancelled, its tokens say so. -/
theorem tokens_eq_replicate {marks : List (Nat × Bool)} {i : Nat}
    (hmarks : ∀ mark ∈ marks, mark.1 = i → mark.2 = true) :
    (marks.filter fun mark => mark.1 = i).map Prod.snd =
      List.replicate (marks.countP fun mark => mark.1 = i) true := by
  rw [List.countP_eq_length_filter, ← List.length_map Prod.snd, List.eq_replicate_iff]
  refine ⟨rfl, fun cancelled hcancelled => ?_⟩
  obtain ⟨mark, hmark, rfl⟩ := List.mem_map.mp hcancelled
  obtain ⟨hmem, hi⟩ := List.mem_filter.mp hmark
  exact hmarks mark hmem (by simpa using hi)

end Crew

/-- The task instance that a controller keeps running. -/
def Member.liveTask? (m : Member) : Option Nat :=
  if m.state = .leading ∧ m.shutdown = false then m.episode.map Episode.task else none

/-- What ties the task instances of controller `i` to its phase, where it heard of
`started` grants and none but `resigners` cancelled their own tokens. -/
structure Bound (resigners : Nat → Prop) (marks : List (Nat × Bool)) (i : Nat) (m : Member)
    (started : Nat) : Prop where
  begun : m.state = .leading → m.episode ≠ none
  live : ∀ k, marks[k]? = some (i, false) → m.liveTask? = some k
  kept : ∀ k, m.liveTask? = some k →
    ∃ cancelled, marks[k]? = some (i, cancelled) ∧ (cancelled = true → resigners k)
  latest : ∀ k, m.liveTask? = some k → ∀ j cancelled, marks[j]? = some (i, cancelled) → j ≤ k
  count : marks.countP (fun mark => mark.1 = i) = started

namespace Bound

variable {resigners : Nat → Prop} {marks marks' : List (Nat × Bool)} {i started : Nat}
variable {m m' : Member}

theorem eq_true_of_mem (hbound : Bound resigners marks i m started)
    (hdead : m.liveTask? = none) : ∀ mark ∈ marks, mark.1 = i → mark.2 = true := by
  rintro ⟨group, cancelled⟩ hmark rfl
  cases cancelled with
  | true => rfl
  | false =>
      obtain ⟨k, hk⟩ := List.mem_iff_getElem?.mp hmark
      have hlive := hbound.live k hk
      rw [hdead] at hlive
      cases hlive

/-- Without a live task all tokens are cancelled. -/
theorem tokens_of_dead (hbound : Bound resigners marks i m started)
    (hdead : m.liveTask? = none) :
    (marks.filter fun mark => mark.1 = i).map Prod.snd = List.replicate started true := by
  rw [Crew.tokens_eq_replicate (hbound.eq_true_of_mem hdead), hbound.count]

/-- A live task is the latest, and none but it is not cancelled. -/
theorem tokens_of_live {k : Nat} {cancelled : Bool} (hbound : Bound resigners marks i m started)
    (hlive : m.liveTask? = some k) (hk : marks[k]? = some (i, cancelled)) :
    0 < started ∧ (marks.filter fun mark => mark.1 = i).map Prod.snd =
      List.replicate (started - 1) true ++ [cancelled] := by
  obtain ⟨hlt, hget⟩ := List.getElem?_eq_some_iff.mp hk
  have hsplit : marks = marks.take k ++ (i, cancelled) :: marks.drop (k + 1) := by
    rw [← hget, List.getElem_cons_drop, List.take_append_drop]
  have hbefore : ∀ mark ∈ marks.take k, mark.1 = i → mark.2 = true := by
    rintro ⟨group, cancelled⟩ hmark rfl
    cases cancelled with
    | true => rfl
    | false =>
        obtain ⟨j, hj⟩ := List.mem_iff_getElem?.mp hmark
        rw [List.getElem?_take] at hj
        split at hj
        · have hother := hbound.live j hj
          rw [hlive] at hother
          cases hother
          omega
        · cases hj
  have hafter : ∀ mark ∈ marks.drop (k + 1), mark.1 ≠ i := by
    rintro ⟨group, cancelled⟩ hmark rfl
    obtain ⟨j, hj⟩ := List.mem_iff_getElem?.mp hmark
    rw [List.getElem?_drop] at hj
    have hle := hbound.latest k hlive _ _ hj
    omega
  have hnone : (marks.drop (k + 1)).filter (fun mark => mark.1 = i) = [] :=
    List.filter_eq_nil_iff.mpr fun mark hmark => by simpa using hafter mark hmark
  have hcount : started = (marks.take k).countP (fun mark => mark.1 = i) + 1 := by
    rw [← hbound.count]
    conv_lhs => rw [hsplit]
    rw [List.countP_append, List.countP_cons, List.countP_eq_length_filter
      (l := marks.drop (k + 1)), hnone]
    simp
  refine ⟨by omega, ?_⟩
  conv_lhs => rw [hsplit]
  rw [List.filter_append, List.map_append, Crew.tokens_eq_replicate hbefore,
    List.filter_cons_of_pos (by simp), hnone, hcount]
  rfl

end Bound

/-- What is not cancelled once an instance is was not cancelled before, and is another one. -/
theorem getElem?_of_modify {marks : List (Nat × Bool)} {i j k : Nat}
    (hj : (marks.modify k fun mark => (mark.1, true))[j]? = some (i, false)) :
    marks[j]? = some (i, false) ∧ k ≠ j := by
  rw [List.getElem?_modify] at hj
  obtain ⟨mark, hmark, hsame⟩ := Option.map_eq_some_iff.mp hj
  by_cases hkj : k = j
  · simp [hkj] at hsame
  · rw [if_neg hkj] at hsame
    exact ⟨hsame ▸ hmark, hkj⟩

/-- That the marks of controller `i` are the same in two lists. -/
structure SameMarks (i : Nat) (marks marks' : List (Nat × Bool)) : Prop where
  at_iff : ∀ (k : Nat) (cancelled : Bool),
    marks'[k]? = some (i, cancelled) ↔ marks[k]? = some (i, cancelled)
  count_eq : marks'.countP (fun mark => mark.1 = i) = marks.countP fun mark => mark.1 = i

namespace SameMarks

variable {marks marks' : List (Nat × Bool)} {i j : Nat}

theorem refl (i : Nat) (marks : List (Nat × Bool)) : SameMarks i marks marks :=
  ⟨fun _ _ => Iff.rfl, rfl⟩

theorem trans {marks'' : List (Nat × Bool)} (hfirst : SameMarks i marks marks')
    (hsecond : SameMarks i marks' marks'') : SameMarks i marks marks'' :=
  ⟨fun k cancelled => (hsecond.at_iff k cancelled).trans (hfirst.at_iff k cancelled),
    hsecond.count_eq.trans hfirst.count_eq⟩

theorem append {mark : Nat × Bool} (hmark : mark.1 ≠ i) : SameMarks i marks (marks ++ [mark]) where
  at_iff k cancelled := by
    rcases Nat.lt_trichotomy k marks.length with hk | rfl | hk
    · rw [List.getElem?_append_left hk]
    · rw [List.getElem?_concat_length, List.getElem?_eq_none (Nat.le_refl _)]
      constructor
      · rintro ⟨⟩
        exact absurd rfl hmark
      · rintro ⟨⟩
    · rw [List.getElem?_eq_none (Nat.le_of_lt hk), List.getElem?_eq_none]
      rw [List.length_append]
      exact hk
  count_eq := by simp [List.countP_append, hmark]

theorem map (hij : j ≠ i) :
    SameMarks i marks (marks.map fun mark => (mark.1, mark.2 || decide (mark.1 = j))) where
  at_iff k cancelled := by
    rw [List.getElem?_map]
    cases marks[k]? with
    | none => exact Iff.rfl
    | some mark =>
        obtain ⟨group, mark⟩ := mark
        by_cases hgroup : group = i
        · subst hgroup
          simp [Ne.symm hij]
        · simp [hgroup]
  count_eq := by simp [List.countP_map, Function.comp_def]

/-- Who has no instances has no marks, whatever they are. -/
theorem nil_iff : SameMarks i [] marks ↔ i ∉ marks.map Prod.fst := by
  constructor
  · intro hnone hi
    obtain ⟨⟨group, cancelled⟩, hmark, rfl⟩ := List.mem_map.mp hi
    obtain ⟨k, hk⟩ := List.mem_iff_getElem?.mp hmark
    have hnil := (hnone.at_iff k cancelled).mp hk
    simp at hnil
  · refine fun hi => ⟨fun k cancelled => ⟨fun hk => ?_, fun hk => by simp at hk⟩, ?_⟩
    · exact absurd (List.mem_map_of_mem (List.mem_of_getElem? hk)) hi
    · rw [List.countP_nil, List.countP_eq_zero]
      intro mark hmark hgroup
      exact hi (List.mem_map.mpr ⟨mark, hmark, by simpa using hgroup⟩)

theorem of_nil (hnone : SameMarks i [] marks)
    (hgroups : marks'.map Prod.fst = marks.map Prod.fst) : SameMarks i [] marks' := by
  rw [nil_iff, hgroups]
  exact nil_iff.mp hnone

theorem modify {k : Nat} {cancelled : Bool} (hk : marks[k]? = some (j, cancelled))
    (hij : j ≠ i) : SameMarks i marks (marks.modify k fun mark => (mark.1, true)) where
  at_iff k' cancelled' := by
    rw [List.getElem?_modify]
    by_cases hkk' : k = k'
    · subst hkk'
      simp [hk, hij]
    · simp [hkk']
  count_eq := (MarksEndure.modify marks k).count_eq i

/-- Nothing becomes of instances that were all cancelled. -/
theorem of_endure (hendure : MarksEndure marks marks')
    (hcancelled : ∀ mark ∈ marks, mark.1 = i → mark.2 = true) : SameMarks i marks marks' where
  at_iff k cancelled := by
    constructor
    · intro hk
      obtain ⟨was, hwas, hstays⟩ := hendure.before hk
      have htrue : was = true := hcancelled _ (List.mem_of_getElem? hwas) rfl
      rw [hwas, htrue, hstays htrue]
    · intro hk
      obtain rfl : cancelled = true := hcancelled _ (List.mem_of_getElem? hk) rfl
      exact hendure.cancelled k i hk
  count_eq := hendure.count_eq i

end SameMarks

namespace Bound

variable {resigners : Nat → Prop} {marks marks' : List (Nat × Bool)} {i started : Nat}
variable {m m' : Member}

theorem of_same
    (hbound : Bound resigners marks i m started) (hsame : SameMarks i marks marks')
    (hlive : m'.liveTask? = m.liveTask?) (hbegun : m'.state = .leading → m'.episode ≠ none) :
    Bound resigners marks' i m' started where
  begun := hbegun
  live k hk := hlive ▸ hbound.live k ((hsame.at_iff k false).mp hk)
  kept k hk := by
    obtain ⟨cancelled, hmark, hresigned⟩ := hbound.kept k (hlive ▸ hk)
    exact ⟨cancelled, (hsame.at_iff k cancelled).mpr hmark, hresigned⟩
  latest k hk j cancelled hj := by
    rw [hlive] at hk
    exact hbound.latest k hk j cancelled ((hsame.at_iff j cancelled).mp hj)
  count := hsame.count_eq.trans hbound.count

/-- The instance started last is live, where none was. -/
theorem start (hbound : Bound resigners marks i m started) (hdead : m.liveTask? = none)
    (hlive : m'.liveTask? = some marks.length) (hbegun : m'.episode ≠ none) :
    Bound resigners (marks ++ [(i, false)]) i m' (started + 1) where
  begun _ := hbegun
  live k hk := by
    rcases Nat.lt_trichotomy k marks.length with hold | rfl | hbeyond
    · rw [List.getElem?_append_left hold] at hk
      have hother := hbound.live k hk
      rw [hdead] at hother
      cases hother
    · exact hlive
    · rw [List.getElem?_eq_none (by rw [List.length_append]; exact hbeyond)] at hk
      cases hk
  kept k hk := by
    rw [hlive] at hk
    cases hk
    exact ⟨false, List.getElem?_concat_length, fun hcancelled => by cases hcancelled⟩
  latest k hk j cancelled hj := by
    rw [hlive] at hk
    cases hk
    have hlt := (List.getElem?_eq_some_iff.mp hj).1
    rw [List.length_append] at hlt
    exact Nat.le_of_lt_succ hlt
  count := by simp [List.countP_append, hbound.count]

/-- To cancel the live instance leaves none. -/
theorem cancel {k : Nat} (hbound : Bound resigners marks i m started)
    (hlive : m.liveTask? = some k) (hdead : m'.liveTask? = none) (hover : m'.state ≠ .leading) :
    Bound resigners (marks.modify k fun mark => (mark.1, true)) i m' started where
  begun hleading := absurd hleading hover
  live j hj := by
    obtain ⟨hmark, hkj⟩ := getElem?_of_modify hj
    have hother := hbound.live j hmark
    rw [hlive] at hother
    exact absurd (Option.some.inj hother) hkj
  kept j hj := by
    rw [hdead] at hj
    cases hj
  latest j hj := by
    rw [hdead] at hj
    cases hj
  count := ((MarksEndure.modify marks k).count_eq i).trans hbound.count

/-- To cancel all instances leaves none either. -/
theorem dismiss (hbound : Bound resigners marks i m started) :
    Bound resigners (marks.map fun mark => (mark.1, mark.2 || decide (mark.1 = i))) i
      { m with shutdown := true } started where
  begun := hbound.begun
  live k hk := by
    rw [List.getElem?_map] at hk
    obtain ⟨⟨group, cancelled⟩, -, hmark⟩ := Option.map_eq_some_iff.mp hk
    obtain ⟨rfl, hcancelled⟩ := Prod.mk.inj hmark
    simp at hcancelled
  kept k hk := by simp [Member.liveTask?] at hk
  latest k hk := by simp [Member.liveTask?] at hk
  count := by
    rw [← hbound.count]
    simp [List.countP_map, Function.comp_def]

/-- Tasks that resign, whosever they are, leave the others as they are. -/
theorem resign (hbound : Bound resigners marks i m started) (hendure : MarksEndure marks marks')
    (hloyal : ∀ k : Nat, ¬resigners k → marks'[k]? = marks[k]?)
    (hlive : m'.liveTask? = m.liveTask?) (hbegun : m'.state = .leading → m'.episode ≠ none) :
    Bound resigners marks' i m' started where
  begun := hbegun
  live k hk := by
    obtain ⟨was, hwas, hstays⟩ := hendure.before hk
    rw [Bool.eq_false_iff.mpr fun htrue => Bool.false_ne_true (hstays htrue)] at hwas
    exact hlive ▸ hbound.live k hwas
  kept k hk := by
    obtain ⟨cancelled, hmark, hresigned⟩ := hbound.kept k (hlive ▸ hk)
    by_cases hresigns : resigners k
    · obtain ⟨became, hbecame⟩ := hendure.after hmark
      exact ⟨became, hbecame, fun _ => hresigns⟩
    · exact ⟨cancelled, (hloyal k hresigns).trans hmark, hresigned⟩
  latest k hk j cancelled hj := by
    obtain ⟨was, hwas, -⟩ := hendure.before hj
    exact hbound.latest k (hlive ▸ hk) j was hwas
  count := (hendure.count_eq i).trans hbound.count

end Bound

/-- What a turn of controller `i` does to its task instances: it starts one, or cancels
that of the last episode, or leaves them be. -/
inductive Reach.Effect {σ : Type} (i : Nat) (t : Turn) (x x' : Reach σ) : Prop where
  | starts (hgrant : t.grant?.isSome = true) (hshutdown : t.shutdown = false)
      (hbefore : t.before.state ≠ .leading) (hafter : t.after.state = .leading)
      (hmarks : x'.crew.marks = x.crew.marks ++ [(i, false)])
      (hepisode : x'.episode.map Episode.task = some x.crew.marks.length)
  | cancels (hgrant : t.grant? = none) (hshutdown : t.shutdown = false)
      (hbefore : t.before.state = .leading) (hafter : t.after.state ≠ .leading)
      (hepisode : x'.episode = x.episode)
      (hcancel : ∀ e, x.episode = some e → x'.crew = x.crew.cancel e.task)
  | keeps (hgrant : t.grant? = none) (hcrew : x'.crew = x.crew) (hepisode : x'.episode = x.episode)
      (hleads : t.after.state = .leading → t.before.state = .leading)
      (hled : t.before.state = .leading → t.shutdown = false → t.after.state = .leading)

/-- Off leading nothing is done to tasks. -/
theorem Reach.Effect.idle {σ : Type} {i : Nat} {t : Turn} {x x' : Reach σ}
    (hgrant : t.grant? = none) (hcrew : x'.crew = x.crew) (hepisode : x'.episode = x.episode)
    (hbefore : t.before.state ≠ .leading) (hafter : t.after.state ≠ .leading) :
    Effect i t x x' :=
  .keeps hgrant hcrew hepisode (fun hleading => absurd hleading hafter)
    (fun hleading => absurd hleading hbefore)

theorem Reach.effect_of_course {σ : Type} [LockService σ] {id : ControllerId} {p : Policy}
    {now : Nat} {shutdown : Bool} {phase : Phase} {s : Signal} {step : Controller.Step}
    (hcourse : Course id p now shutdown phase s step)
    (hticker : now + Ticker.periodOf p.renewal < Instant.horizon) (i : Nat) {m : Member}
    (hm : m.shutdown = shutdown) (x : Reach σ) :
    Effect i ⟨now, shutdown, phase, s, step⟩ x (step.2.foldl (Reach.act now i m) x) := by
  have hnotes (notes : List Controller.Note) :
      (notes.map Action.note).foldl (Reach.act now i m) x = x :=
    Reach.foldl_act_note now i m x notes
  cases hcourse with
  | win hgrant hstart =>
      apply Effect.starts
      · simp [Turn.grant?, hgrant]
      · rfl
      · simp [Phase.state]
      · rfl
      · change (x.crew.spawn _).2.marks = _
        rw [Crew.marks_spawn, hm]
      · simp [act, Episode.begin, Crew.spawn, Crew.marks]
  | fail hgrant hstart =>
      rw [Ticker.start?, if_pos hticker] at hstart
      cases hstart
  | lose hanswer =>
      apply Effect.cancels rfl rfl rfl
      · simp [Turn.after, Phase.state]
      · simp only [act, List.foldl_cons, List.foldl_nil]
        cases hepisode : x.episode <;> simp [hepisode]
      · intro e he
        simp [act, he]
  | @quit phase note hnote =>
      apply Effect.keeps
      · cases phase <;> rfl
      · exact congrArg Reach.crew (hnotes [note, .moved phase.state .stopped])
      · exact congrArg Reach.episode (hnotes [note, .moved phase.state .stopped])
      · intro hstopped
        cases hstopped
      · intro _ hshutdown
        cases hshutdown
  | miss hgrant => refine .idle hgrant rfl rfl ?_ ?_ <;> rintro ⟨⟩
  | rest _ taskOver =>
      have hsame := hnotes (Controller.overrunNotes taskOver)
      apply Effect.idle rfl (congrArg Reach.crew hsame) (congrArg Reach.episode hsame) <;>
        rintro ⟨⟩
  | leave _ taskOver =>
      have hsame := hnotes (Controller.overrunNotes taskOver ++ [.moved .waiting .stopped])
      apply Effect.idle rfl (congrArg Reach.crew hsame) (congrArg Reach.episode hsame) <;>
        rintro ⟨⟩
  | renew | keep => exact .keeps rfl rfl rfl (fun _ => rfl) (fun _ _ => rfl)
  | begin | first | again | cool | interrupt =>
      refine .idle rfl rfl rfl ?_ ?_ <;> rintro ⟨⟩

/-- That an episode, if there is one, is over a task instance of controller `i`. -/
def Owns (marks : List (Nat × Bool)) (i : Nat) (episode : Option Episode) : Prop :=
  ∀ e, episode = some e → ∃ cancelled, marks[e.task]? = some (i, cancelled)

theorem Owns.of_same {marks marks' : List (Nat × Bool)} {i : Nat} {episode : Option Episode}
    (howns : Owns marks i episode) (hsame : SameMarks i marks marks') :
    Owns marks' i episode := by
  intro e he
  obtain ⟨cancelled, hmark⟩ := howns e he
  exact ⟨cancelled, (hsame.at_iff _ _).mpr hmark⟩

/-- The actions of a controller touch no task instances but its own. -/
theorem Reach.foldl_act_owns {σ : Type} [LockService σ] (now i : Nat) (m : Member)
    (actions : List Action) (x : Reach σ) (howns : Owns x.crew.marks i x.episode) :
    let x' := actions.foldl (Reach.act now i m) x
    Owns x'.crew.marks i x'.episode ∧ ∀ j, i ≠ j → SameMarks j x.crew.marks x'.crew.marks := by
  induction actions generalizing x with
  | nil => exact ⟨howns, fun j _ => .refl j _⟩
  | cons a actions hall =>
      have hact : Owns (x.act now i m a).crew.marks i (x.act now i m a).episode ∧
          ∀ j, i ≠ j → SameMarks j x.crew.marks (x.act now i m a).crew.marks := by
        cases a with
        | note | call => exact ⟨howns, fun j _ => .refl j _⟩
        | startTask token =>
            have hmarks : (x.act now i m (.startTask token)).crew.marks =
                x.crew.marks ++ [(i, m.shutdown)] := Crew.marks_spawn _ _
            rw [hmarks]
            refine ⟨?_, fun j hij => .append hij⟩
            rintro e ⟨⟩
            have hlength : x.crew.tasks.length = x.crew.marks.length := by simp [Crew.marks]
            exact ⟨m.shutdown, by simp [hlength]⟩
        | cancelTask =>
            cases hepisode : x.episode with
            | none =>
                simp only [Reach.act, hepisode]
                exact ⟨hepisode ▸ howns, fun j _ => .refl j _⟩
            | some e =>
                obtain ⟨cancelled, hmark⟩ := howns e hepisode
                simp only [Reach.act, hepisode, Crew.marks_cancel]
                refine ⟨?_, fun j hij => .modify hmark hij⟩
                rintro e' ⟨⟩
                exact ⟨true, by simp [hmark]⟩
      obtain ⟨hrest, hsame⟩ := hall _ hact.1
      exact ⟨hrest, fun j hij => (hact.2 j hij).trans (hsame j hij)⟩

namespace Cluster

variable {σ : Type} [LockService σ] {c c' : Cluster σ} {i j : Nat} {m m' : Member} {s : Signal}
variable {h e : Chronicle} {service : σ} {traced : Bool} {resigners : Nat → Prop}

/-- How many grants controller `i` heard of before its shutdown. -/
def grantsHeard (h : Chronicle) (i : Nat) : Nat :=
  (h.turnsOf i).countP fun t => t.grant?.isSome && !t.shutdown

theorem grantsHeard_cons_of_ne (hij : i ≠ j) (t : Turn) (h : Chronicle) :
    grantsHeard ((i, t) :: h) j = grantsHeard h j := by
  rw [grantsHeard, Chronicle.turnsOf_cons_of_ne hij, grantsHeard]

theorem grantsHeard_cons_self (i : Nat) (t : Turn) (h : Chronicle) :
    grantsHeard ((i, t) :: h) i =
      grantsHeard h i + if t.grant?.isSome && !t.shutdown then 1 else 0 := by
  simp [grantsHeard, List.countP_cons]

/-- What ties all task instances to their controllers. -/
structure Bonds (resigners : Nat → Prop) (h : Chronicle) (c : Cluster σ) : Prop where
  bound : ∀ i m, c.members[i]? = some m → c.Representable m →
    Bound resigners c.crew.marks i m (grantsHeard h i)
  owns : ∀ i m, c.members[i]? = some m → Owns c.crew.marks i m.episode
  unowned : ∀ i, c.members.length ≤ i → SameMarks i [] c.crew.marks
  unheard : ∀ i, c.members.length ≤ i → grantsHeard h i = 0

theorem effect_of_goesOn (hgoes : c.GoesOn m s) (hticker : c.Representable m) (i : Nat) :
    let t := Turn.take m.id m.policy c.now m.shutdown m.phase s
    Reach.Effect i t ⟨c.service, none, c.crew, m.episode⟩ (c.reach i m t) :=
  Reach.effect_of_course (Controller.course_of_due hgoes.due m.id m.policy) hticker i rfl _

/-- A turn keeps the tasks of its controller bound to it. -/
theorem bound_resume (hbound : Bound resigners c.crew.marks i m (grantsHeard h i))
    (hm : c.members[i]? = some m) (hgoes : c.GoesOn m s) (hticker : c.Representable m)
    (hm' : (c.resume i m s).members[i]? = some m') :
    Bound resigners (c.resume i m s).crew.marks i m' (grantsHeard
      ((i, Turn.take m.id m.policy c.now m.shutdown m.phase s) :: h) i) := by
  have heffect := effect_of_goesOn hgoes hticker i
  have hshutdown : (Turn.take m.id m.policy c.now m.shutdown m.phase s).shutdown = m.shutdown := rfl
  have hstate : (Turn.take m.id m.policy c.now m.shutdown m.phase s).before.state = m.state := rfl
  rw [member_resume hm s] at hm'
  rw [(resume_frame hm s).2.crew, grantsHeard_cons_self]
  dsimp only at heffect
  generalize Turn.take m.id m.policy c.now m.shutdown m.phase s = t at *
  generalize c.reach i m t = x at *
  cases hm'
  cases heffect with
  | starts hgrant hnot hbefore hafter hmarks hepisode =>
      rw [hshutdown] at hnot
      rw [hstate] at hbefore
      have hdead : m.liveTask? = none := if_neg fun hlive => hbefore hlive.1
      rw [hmarks, if_pos (by simp [hgrant, hshutdown, hnot])]
      refine hbound.start hdead ((if_pos ⟨hafter, hnot⟩).trans hepisode) ?_
      intro hnone
      rw [show x.episode = none from hnone] at hepisode
      cases hepisode
  | cancels hgrant hnot hbefore hafter hepisode hcancel =>
      rw [hshutdown] at hnot
      rw [hstate] at hbefore
      obtain ⟨e, he⟩ := Option.ne_none_iff_exists'.mp (hbound.begun hbefore)
      have hlive : m.liveTask? = some e.task := by
        simp [Member.liveTask?, hbefore, hnot, he]
      rw [hcancel e he, Crew.marks_cancel, if_neg (by simp [hgrant])]
      exact hbound.cancel hlive (if_neg fun hlive => hafter hlive.1) hafter
  | keeps hgrant hcrew hepisode hleads hled =>
      rw [hstate] at hleads hled
      rw [hshutdown] at hled
      rw [hcrew, if_neg (by simp [hgrant])]
      apply hbound.of_same (.refl i _)
      · have hleading : t.after.state = .leading ∧ m.shutdown = false ↔
            m.state = .leading ∧ m.shutdown = false :=
          ⟨fun hafter => ⟨hleads hafter.1, hafter.2⟩,
            fun hbefore => ⟨hled hbefore.1 hbefore.2, hbefore.2⟩⟩
        exact if_congr hleading (congrArg _ hepisode) rfl
      · intro hleading
        rw [hepisode]
        exact hbound.begun (hleads hleading)

/-- A turn touches no task instances but those of its controller. -/
theorem owns_resume (hm : c.members[i]? = some m) (howns : Owns c.crew.marks i m.episode)
    (s : Signal) :
    let t := Turn.take m.id m.policy c.now m.shutdown m.phase s
    Owns (c.resume i m s).crew.marks i (c.reach i m t).episode ∧
      ∀ j, i ≠ j → SameMarks j c.crew.marks (c.resume i m s).crew.marks := by
  rw [(resume_frame hm s).2.crew]
  exact Reach.foldl_act_owns c.now i m _ ⟨c.service, none, c.crew, m.episode⟩ howns

theorem Bonds.turn (hbonds : Bonds resigners h c) (hm : c.members[i]? = some m)
    (hgoes : c.GoesOn m s) :
    Bonds resigners ((i, Turn.take m.id m.policy c.now m.shutdown m.phase s) :: h)
      (c.resume i m s) := by
  have hi : i < c.members.length := (List.getElem?_eq_some_iff.mp hm).1
  obtain ⟨howns, hsame⟩ := owns_resume hm (hbonds.owns i m hm) s
  have hnow := (resume_frame hm s).1
  constructor
  · intro j m' hm' hticker
    by_cases hij : i = j
    · subst hij
      have hmember := hm'
      rw [member_resume hm s] at hmember
      cases hmember
      refine bound_resume (hbonds.bound i m hm ?_) hm hgoes ?_ hm' <;>
        exact (by rwa [Representable, hnow] at hticker)
    · have hmember := hm'
      rw [member_resume_of_ne hm s hij] at hmember
      rw [Representable, hnow] at hticker
      have hbound := hbonds.bound j m' hmember hticker
      rw [grantsHeard_cons_of_ne hij]
      exact hbound.of_same (hsame j hij) rfl hbound.begun
  · intro j m' hm'
    by_cases hij : i = j
    · subst hij
      rw [member_resume hm s] at hm'
      cases hm'
      exact howns
    · rw [member_resume_of_ne hm s hij] at hm'
      exact (hbonds.owns j m' hm').of_same (hsame j hij)
  · intro j hj
    rw [length_members_resume hm s] at hj
    exact (hbonds.unowned j hj).trans (hsame j (by omega))
  · intro j hj
    rw [length_members_resume hm s] at hj
    rw [grantsHeard_cons_of_ne (by omega)]
    exact hbonds.unheard j hj

omit [LockService σ] in
theorem Bonds.enroll (hbonds : Bonds resigners h c) (hphase : m.phase = .idle)
    (hepisode : m.episode = none) : Bonds resigners h (c.enroll m) := by
  have hlength {j : Nat} (hj : (c.enroll m).members.length ≤ j) : c.members.length ≤ j := by
    simp only [Cluster.enroll, List.length_append] at hj
    omega
  constructor
  · intro j m' hm' hticker
    rcases member_enroll hm' with hm' | ⟨rfl, rfl⟩
    · exact hbonds.bound j m' hm' hticker
    · have hstate : m'.state ≠ .leading := by simp [Member.state, hphase, Phase.state]
      have hdead : m'.liveTask? = none := if_neg fun hlive => hstate hlive.1
      have hbound : Bound resigners [] c.members.length m' 0 :=
        ⟨fun hleading => absurd hleading hstate, by simp, by simp [hdead], by simp, rfl⟩
      rw [hbonds.unheard _ (Nat.le_refl _)]
      exact hbound.of_same (hbonds.unowned _ (Nat.le_refl _)) rfl hbound.begun
  · intro j m' hm'
    rcases member_enroll hm' with hm' | ⟨rfl, rfl⟩
    · exact hbonds.owns j m' hm'
    · rw [hepisode]
      rintro e ⟨⟩
  · exact fun j hj => hbonds.unowned j (hlength hj)
  · exact fun j hj => hbonds.unheard j (hlength hj)

omit [LockService σ] in
theorem Bonds.dismiss (hbonds : Bonds resigners h c) (i : Nat) :
    Bonds resigners h (c.dismiss i) := by
  obtain ⟨hnow, -, hmembers, hcrew⟩ := dismiss_frame c i
  have hmarks : (c.dismiss i).crew.marks =
      c.crew.marks.map fun mark => (mark.1, mark.2 || decide (mark.1 = i)) := by
    rw [hcrew, Crew.marks_foldl_cancel_activeIn]
  constructor
  · intro j m' hm' hticker
    rw [Representable, hnow] at hticker
    obtain ⟨m, hm, rfl⟩ := member_dismiss hm'
    rw [hmarks]
    by_cases hij : i = j
    · subst hij
      rw [if_pos rfl] at hticker ⊢
      exact (hbonds.bound i m hm hticker).dismiss
    · rw [if_neg hij] at hticker ⊢
      have hbound := hbonds.bound j m hm hticker
      exact hbound.of_same (.map hij) rfl hbound.begun
  · intro j m' hm' e he
    obtain ⟨m, hm, rfl⟩ := member_dismiss hm'
    have hepisode : m.episode = some e := by
      by_cases hij : i = j
      · rwa [if_pos hij] at he
      · rwa [if_neg hij] at he
    obtain ⟨cancelled, hmark⟩ := hbonds.owns j m hm e hepisode
    exact ⟨cancelled || decide (j = i), by rw [hmarks, List.getElem?_map, hmark]; rfl⟩
  · intro j hj
    rw [hmembers, List.length_modify] at hj
    rw [hmarks]
    exact (hbonds.unowned j hj).of_nil (by simp [Function.comp_def])
  · intro j hj
    rw [hmembers, List.length_modify] at hj
    exact hbonds.unheard j hj

omit [LockService σ] in
theorem Bonds.world (hbonds : Bonds resigners h c) (hworld : Resigning resigners c c') :
    Bonds resigners h c' := by
  constructor
  · intro j m' hm' hticker
    obtain ⟨m, call, hm, rfl⟩ := hworld.member hm'
    have hearlier : c.Representable m :=
      Nat.lt_of_le_of_lt (Nat.add_le_add_right hworld.now_le _) hticker
    have hbound := hbonds.bound j m hm hearlier
    exact hbound.resign hworld.marks hworld.loyal rfl hbound.begun
  · intro j m' hm' e he
    obtain ⟨m, call, hm, rfl⟩ := hworld.member hm'
    obtain ⟨cancelled, hmark⟩ := hbonds.owns j m hm e he
    exact hworld.marks.after hmark
  · intro j hj
    exact (hbonds.unowned j (hworld.length_members_eq ▸ hj)).of_nil hworld.marks.groups_eq
  · exact fun j hj => hbonds.unheard j (hworld.length_members_eq ▸ hj)

theorem Run.bonds_of_resigning (run : Run (Resigning resigners) (empty service traced) h c) :
    Bonds resigners h c := by
  induction run with
  | start =>
      refine ⟨fun i m hm => ?_, fun i m hm => ?_, fun i _ => .refl i _, fun i _ => rfl⟩ <;>
        simp [empty] at hm
  | step run hstep hbonds =>
      cases hstep with
      | turn hm hgoes => exact hbonds.turn hm hgoes
      | enroll hphase hepisode hcall => exact hbonds.enroll hphase hepisode
      | dismiss i => exact hbonds.dismiss i
      | world hworld => exact hbonds.world hworld

/-- In an open world all may resign. -/
theorem Run.bonds (run : Run Open (empty service traced) h c) : Bonds (fun _ => True) h c :=
  (run.mono fun hopen => ⟨hopen, fun _ hloyal => absurd trivial hloyal⟩).bonds_of_resigning

/-- Whatever the lock service does, whenever a shutdown fires and whatever the tasks do, even to
their own tokens: of a controller that shows it is leading, and whose shutdown did not fire, all
task instances but the latest are cancelled, and that one only if it resigned; at any other time
all are.  There are as many as it heard of grants before its shutdown, and when it asks for the
lock again they are all cancelled. -/
theorem member_tokens (run : Run (Resigning resigners) (empty service traced) h c)
    (hm : c.members[i]? = some m) (hticker : c.Representable m) :
    (m.state = .leading ∧ m.shutdown = false →
      0 < grantsHeard h i ∧ ∃ k cancelled,
        c.crew.marks[k]? = some (i, cancelled) ∧
        (∀ j mark, c.crew.marks[j]? = some (i, mark) → j ≤ k) ∧
        c.crew.tokensOf i = List.replicate (grantsHeard h i - 1) true ++ [cancelled] ∧
        (cancelled = true → resigners k)) ∧
      (¬(m.state = .leading ∧ m.shutdown = false) →
        c.crew.tokensOf i = List.replicate (grantsHeard h i) true) ∧
      ∀ e c' t r, Step (Resigning resigners) c e c' → (i, t) ∈ e → .acquire r ∈ t.requests →
        c.crew.tokensOf i = List.replicate (grantsHeard h i) true := by
  have hbound := run.bonds_of_resigning.bound i m hm hticker
  have hcancelled (hidle : ¬(m.state = .leading ∧ m.shutdown = false)) :
      c.crew.tokensOf i = List.replicate (grantsHeard h i) true :=
    hbound.tokens_of_dead (if_neg hidle)
  refine ⟨fun hleading => ?_, hcancelled, ?_⟩
  · obtain ⟨e, he⟩ := Option.ne_none_iff_exists'.mp (hbound.begun hleading.1)
    have hlive : m.liveTask? = some e.task := by
      rw [Member.liveTask?, if_pos hleading, he]
      rfl
    obtain ⟨cancelled, hmark, hresigned⟩ := hbound.kept e.task hlive
    obtain ⟨hstarted, htokens⟩ := hbound.tokens_of_live hlive hmark
    exact ⟨hstarted, e.task, cancelled, hmark, hbound.latest e.task hlive, htokens, hresigned⟩
  · intro e c' t r hstep ht hasks
    refine hcancelled fun hleading => ?_
    cases hstep with
    | @turn i' m' s hm' hgoes =>
        obtain ⟨rfl, rfl⟩ := Prod.mk.inj (List.mem_singleton.mp ht)
        rw [hm] at hm'
        cases hm'
        have hturn : Turn.IsOf _ m.id m.policy := Turn.isOf_take hgoes.due
        rcases Turn.requests_cases hturn with hnone | ⟨hwaiting, -⟩ | ⟨-, hrenew⟩
        · simp [hnone] at hasks
        · rw [show m.state = .waiting from hwaiting] at hleading
          cases hleading.1
        · simp [hrenew] at hasks
    | enroll | dismiss | world => exact absurd ht List.not_mem_nil

/-- The task of a leader is not cancelled, if it leaves its token alone. -/
theorem member_tokens_of_grant :
    ∃ (h : Chronicle) (c : Cluster Script) (m : Member),
      c.members[0]? = some m ∧ m.state = .leading ∧ 0 < grantsHeard h 0 ∧
        c.crew.tokensOf 0 = List.replicate (grantsHeard h 0 - 1) true ++ [false] := by
  obtain ⟨h, c, m, run, hm, hstate, hshutdown, hticker, -⟩ :=
    exists_run_to_grant (Resigning fun _ => False)
  have hleads := (member_tokens run hm hticker).1
  obtain ⟨hstarted, k, cancelled, -, -, htokens, hresigned⟩ := hleads ⟨hstate, hshutdown⟩
  rw [Bool.eq_false_iff.mpr hresigned] at htokens
  exact ⟨h, c, m, hm, hstate, hstarted, htokens⟩

/-- A controller is granted the lock and its task resigns.  It goes on leading, its shutdown did
not fire, and the one instance that it started is cancelled. -/
theorem exists_leader_without_task :
    ∃ (h : Chronicle) (c : Cluster Script) (m : Member),
      Run (Resigning (· = 0)) (empty ⟨[.answer .zero (.granted ⟨"lock-1"⟩)], []⟩ false) h c ∧
        c.members[0]? = some m ∧ c.Representable m ∧ m.state = .leading ∧ m.shutdown = false ∧
        c.crew.tokensOf 0 = [true] := by
  obtain ⟨h, c, m, run, hm, hstate, hshutdown, hticker, hmarks⟩ :=
    exists_run_to_grant (Resigning (· = 0))
  obtain ⟨hnow, -, hmembers, hcrew⟩ := cancelTask_frame c 0
  refine ⟨h, c.cancelTask 0, m, run.step (.world (resigning_cancelTask c rfl)), hmembers ▸ hm, ?_,
    hstate, hshutdown, ?_⟩
  · rwa [Representable, hnow]
  · rw [Crew.tokensOf, hcrew, Crew.marks_cancel, hmarks]
    rfl

end Cluster

end LeaseElection

import LeaseElection.Alarms
import Mathlib.Data.List.Basic

/-!
# What alarms there are

An alarm that is set stays until its sleeper sets another, and the next one to go off
is the earliest of all.
-/

namespace LeaseElection

namespace Alarms

variable {κ : Type}

theorem mem_due {a : Alarms κ} {k : κ} {w now : Nat} (hp : (k, w) ∈ a.pending) (hw : w ≤ now) :
    k ∈ a.due now :=
  List.mem_map.mpr ⟨(k, w), List.mem_filter.mpr ⟨hp, by simpa using hw⟩, rfl⟩

section Set

variable [DecidableEq κ]

/-- The others keep their alarms. -/
theorem mem_pending_set_of_ne {a : Alarms κ} {k : κ} {p : κ × Nat} (hp : p ∈ a.pending)
    (hk : p.1 ≠ k) (wake : Option Nat) : p ∈ (a.set k wake).pending := by
  have hkept : p ∈ (a.clear k).pending := List.mem_filter.mpr ⟨hp, by simpa using hk⟩
  cases wake with
  | none => exact hkept
  | some w =>
      simp only [set]
      split
      · exact hp
      · exact List.mem_append_left _ hkept

theorem mem_pending_set (a : Alarms κ) (k : κ) (w : Nat) : (k, w) ∈ (a.set k (some w)).pending := by
  simp only [set]
  split
  · assumption
  · exact List.mem_append_right _ (List.mem_singleton.mpr rfl)

/-- No alarms come up but the one that is set. -/
theorem of_mem_pending_set {a : Alarms κ} {k : κ} {wake : Option Nat} {p : κ × Nat}
    (hp : p ∈ (a.set k wake).pending) : p ∈ a.pending ∨ p.1 = k ∧ wake = some p.2 := by
  have hcleared (hp : p ∈ (a.clear k).pending) : p ∈ a.pending := (List.mem_filter.mp hp).1
  cases wake with
  | none => exact Or.inl (hcleared hp)
  | some w =>
      simp only [set] at hp
      split at hp
      · exact Or.inl hp
      · rcases List.mem_append.mp hp with hp | hp
        · exact Or.inl (hcleared hp)
        · rw [List.mem_singleton.mp hp]
          exact Or.inr ⟨rfl, rfl⟩

end Set

section Earliest

variable {p : Nat → Prop} {w : { w : Nat // p w }} {best : Option { w : Nat // p w }}

theorem exists_earlier? (best : Option { w : Nat // p w }) (x : { w : Nat // p w }) :
    ∃ w, earlier? best x = some w ∧ (best = some w ∨ x = w) ∧
      ∀ b, best = some b ∨ x = b → w.val ≤ b.val := by
  cases best with
  | none => exact ⟨x, rfl, Or.inr rfl, by simp⟩
  | some b =>
      simp only [earlier?]
      split
      · refine ⟨x, rfl, Or.inr rfl, ?_⟩
        rintro y (hy | rfl)
        · cases hy
          omega
        · exact Nat.le_refl _
      · refine ⟨b, rfl, Or.inl rfl, ?_⟩
        rintro y (hy | rfl)
        · cases hy
          exact Nat.le_refl _
        · omega

/-- The earliest of several alarms is one of them, and none is earlier. -/
theorem foldl_earlier?_eq_some {ws : List { w : Nat // p w }}
    (hw : ws.foldl earlier? best = some w) :
    (best = some w ∨ w ∈ ws) ∧ ∀ x, best = some x ∨ x ∈ ws → w.val ≤ x.val := by
  induction ws generalizing best with
  | nil =>
      rw [List.foldl_nil] at hw
      subst hw
      simp
  | cons x ws hall =>
      obtain ⟨b, hb, hone, hfirst⟩ := exists_earlier? best x
      obtain ⟨hmem, hleast⟩ := hall hw
      rw [hb] at hmem hleast
      simp only [List.mem_cons]
      constructor
      · rcases hmem with hmem | hmem
        · cases hmem
          exact hone.imp_right fun hx => Or.inl hx.symm
        · exact Or.inr (Or.inr hmem)
      · intro y hy
        have hbest := hleast b (Or.inl rfl)
        rcases hy with hy | rfl | hy
        · exact Nat.le_trans hbest (hfirst y (Or.inl hy))
        · exact Nat.le_trans hbest (hfirst y (Or.inr rfl))
        · exact hleast y (Or.inr hy)

theorem foldl_earlier?_ne_none (ws : List { w : Nat // p w }) (hbest : best ≠ none ∨ ws ≠ []) :
    ws.foldl earlier? best ≠ none := by
  induction ws generalizing best with
  | nil => exact hbest.resolve_right (absurd rfl)
  | cons x ws hall =>
      obtain ⟨b, hb, -⟩ := exists_earlier? best x
      refine hall (Or.inl ?_)
      rw [hb]
      exact Option.some_ne_none b

end Earliest

variable {a : Alarms κ} {now limit : Nat}

/-- The next alarm is one that was set, and none comes between. -/
theorem next?_eq_some {w : { w : Nat // now < w ∧ w ≤ limit }} (hw : a.next? now limit = some w) :
    (∃ k, (k, w.val) ∈ a.pending) ∧ ∀ p ∈ a.pending, now < p.2 → w.val ≤ p.2 := by
  obtain ⟨hmem, hleast⟩ := foldl_earlier?_eq_some hw
  refine ⟨?_, fun p hp hnow => ?_⟩
  · obtain ⟨p, hp, hpw⟩ := List.mem_filterMap.mp (hmem.resolve_left (Option.some_ne_none w).symm)
    obtain ⟨_, hsame⟩ := Option.dite_none_right_eq_some.mp hpw
    obtain rfl := Option.some.inj hsame
    exact ⟨p.1, hp⟩
  · by_cases hlimit : p.2 ≤ limit
    · refine hleast ⟨p.2, hnow, hlimit⟩ (Or.inr (List.mem_filterMap.mpr ⟨p, hp, ?_⟩))
      exact dif_pos ⟨hnow, hlimit⟩
    · exact Nat.le_trans w.property.2 (Nat.le_of_not_le hlimit)

theorem next?_eq_none (hnone : a.next? now limit = none) :
    ∀ p ∈ a.pending, now < p.2 → limit < p.2 := by
  intro p hp hnow
  by_contra hlimit
  have hbetween : now < p.2 ∧ p.2 ≤ limit := ⟨hnow, Nat.le_of_not_lt hlimit⟩
  have hmem : (⟨p.2, hbetween⟩ : { w : Nat // now < w ∧ w ≤ limit }) ∈
      a.pending.filterMap fun p =>
        if h : now < p.2 ∧ p.2 ≤ limit then some ⟨p.2, h⟩ else none :=
    List.mem_filterMap.mpr ⟨p, hp, dif_pos hbetween⟩
  exact foldl_earlier?_ne_none _ (Or.inr (List.ne_nil_of_mem hmem)) hnone

end Alarms

end LeaseElection

import LeaseElection.Config.Text
import LeaseElection.Proofs.Policy
import LeaseElection.Proofs.Span.Text
import LeaseElection.Proofs.Toml.Document

/-!
# Configurations that are read back

The text of a configuration is a document with a line for each field that is set.  Its lines
are read as its fields, and a line that is missing as a field that is not set.  Only a seed can
be too large to be written, and none that was read is.
-/

namespace LeaseElection

namespace Config

open Toml (Line writeFloat writeNat writeString)

variable {c : Config}

section Lines

/-- The lines of a configuration, and what their values are read as. -/
def document (c : Config) : List Line :=
  [⟨"lease", writeString c.lease.text.toList, .string c.lease.text⟩,
    ⟨"renewal_factor", writeFloat c.renewalFactor, .float c.renewalFactor⟩,
    ⟨"wait_factor", writeFloat c.waitFactor, .float c.waitFactor⟩,
    ⟨"max_jitter", writeString c.maxJitter.text.toList, .string c.maxJitter.text⟩] ++
    c.seed.toList.map (fun n => ⟨"seed", writeNat n.toNat, .integer n.toNat⟩) ++
    c.id.toList.map (fun s => ⟨"id", writeString s.toList, .string s⟩)

theorem flatMap_document (c : Config) : c.document.flatMap Line.text = c.lines.flatten := by
  have hlines : c.document.map Line.text = c.lines := by
    rw [document, lines]
    cases c.seed <;> cases c.id <;> rfl
  rw [List.flatMap_def, hlines]

theorem nodup_keys_document (c : Config) : (c.document.map Line.key).Nodup := by
  cases hseed : c.seed <;> cases hid : c.id <;> simp [document, hseed, hid]

/-- Whether a seed, if there is one, is among the integers of a document. -/
def SeedFits (seed : Option UInt64) : Prop := ∀ n, seed = some n → n.toNat < 9223372036854775808

theorem legible_line {key : String} {written : List Char} {v : Toml.Value}
    (hne : key.toList ≠ []) (hletters : key.toList.all Toml.isBareKeyLetter = true)
    (hvalue : Toml.ReadsAs written v) : Line.Legible ⟨key, written, v⟩ :=
  ⟨⟨hne, List.all_eq_true.mp hletters⟩, hvalue⟩

theorem readsAs_text (s : String) : Toml.ReadsAs (writeString s.toList) (.string s) := by
  have hvalue := Toml.readsAs_writeString s.toList
  rwa [String.ofList_toList] at hvalue

theorem legible_document (hseed : SeedFits c.seed) :
    ∀ l ∈ c.document, l.Legible := by
  have hfields : ∀ l ∈ c.document.take 4, l.Legible := by
    refine List.forall_mem_cons.mpr ⟨legible_line (by decide) (by decide) (readsAs_text _), ?_⟩
    refine List.forall_mem_cons.mpr
      ⟨legible_line (by decide) (by decide) (Toml.readsAs_writeFloat _), ?_⟩
    refine List.forall_mem_cons.mpr
      ⟨legible_line (by decide) (by decide) (Toml.readsAs_writeFloat _), ?_⟩
    exact List.forall_mem_singleton.mpr
      (legible_line (by decide) (by decide) (readsAs_text _))
  refine List.forall_mem_append.mpr ⟨List.forall_mem_append.mpr ⟨hfields, ?_⟩, ?_⟩
  · intro l hl
    obtain ⟨n, hn, rfl⟩ := List.mem_map.mp hl
    have hfits := hseed n (Option.mem_toList.mp hn)
    exact legible_line (by decide) (by decide) (Toml.readsAs_writeNat hfits)
  · intro l hl
    obtain ⟨s, -, rfl⟩ := List.mem_map.mp hl
    exact legible_line (by decide) (by decide) (readsAs_text s)

end Lines

section Fields

theorem readSpan_text (s : Span) : readSpan (.string s.text) = .ok s := by
  rw [readSpan, Span.read_text]

theorem readWord_toNat (n : UInt64) : readWord (.integer n.toNat) = .ok n := by
  rw [readWord, if_pos (Int.natCast_nonneg _), Int.toNat_natCast]
  exact congrArg Except.ok UInt64.ofNat_toNat

/-- The entries of a configuration are read as its fields. -/
theorem ofEntries_document (c : Config) : ofEntries (c.document.map Line.entry) = .ok c := by
  obtain ⟨lease, renewal, wait, jitter, seed, id⟩ := c
  cases seed <;> cases id <;>
    simp [document, ofEntries, Line.entry, Fields.set, readSpan_text, readFactor, readWord_toNat,
      readText, Fields.toConfig, bind, Except.bind, pure, Except.pure]

end Fields

section Seeds

theorem exists_of_bind_eq_ok {ε α β : Type} {x : Except ε α} {f : α → Except ε β} {b : β}
    (h : x >>= f = .ok b) : ∃ a, x = .ok a ∧ f a = .ok b := by
  cases x with
  | error e => cases h
  | ok a => exact ⟨a, rfl, h⟩

theorem lt_of_readWord {v : Toml.Value} {n : UInt64} (hv : v.Fits) (h : readWord v = .ok n) :
    n.toNat < 9223372036854775808 := by
  unfold readWord at h
  split at h
  · next i =>
      have hi : i < 9223372036854775808 := hv
      split at h
      · next hnonneg =>
          obtain rfl := Except.ok.inj h
          rw [Nat.toUInt64_eq, UInt64.toNat_ofNat']
          omega
      · cases h
  · cases h

/-- Only the key of the seed sets a seed. -/
theorem seedFits_of_set {f f' : Fields} {key : String} {v : Toml.Value} (hv : v.Fits)
    (h : f.set key v = .ok f') (hf : SeedFits f.seed) : SeedFits f'.seed := by
  unfold Fields.set at h
  split at h
  · obtain ⟨_, -, h⟩ := exists_of_bind_eq_ok h
    cases h
    exact hf
  split at h
  · obtain ⟨_, -, h⟩ := exists_of_bind_eq_ok h
    cases h
    exact hf
  split at h
  · obtain ⟨_, -, h⟩ := exists_of_bind_eq_ok h
    cases h
    exact hf
  split at h
  · obtain ⟨_, -, h⟩ := exists_of_bind_eq_ok h
    cases h
    exact hf
  split at h
  · obtain ⟨n, hn, h⟩ := exists_of_bind_eq_ok h
    cases h
    intro m hm
    obtain rfl := Option.some.inj hm
    exact lt_of_readWord hv hn
  split at h
  · obtain ⟨_, -, h⟩ := exists_of_bind_eq_ok h
    cases h
    exact hf
  · cases h
    exact hf

theorem seedFits_of_foldlM {f f' : Fields} {es : Toml.Entries} (hes : es.Fit)
    (h : es.foldlM (fun f e => f.set e.1 e.2) f = .ok f') (hf : SeedFits f.seed) :
    SeedFits f'.seed := by
  induction es generalizing f with
  | nil =>
      cases h
      exact hf
  | cons e es ih =>
      obtain ⟨he, hes⟩ := List.forall_mem_cons.mp hes
      obtain ⟨next, hnext, h⟩ := exists_of_bind_eq_ok h
      exact ih hes h (seedFits_of_set he hnext hf)

/-- No seed is read that could not be written. -/
theorem seedFits_of_read {s : String} (h : read s = .ok c) : SeedFits c.seed := by
  unfold read at h
  split at h
  · cases h
  · next es hes =>
      obtain ⟨f, hfields, h⟩ := exists_of_bind_eq_ok h
      have hseed := seedFits_of_foldlM (Toml.fit_readDocument hes) hfields (fun _ hn => by cases hn)
      unfold Fields.toConfig at h
      split at h
      · cases h
      · cases h
        exact hseed

end Seeds

section RoundTrip

/-- A configuration is written unless its seed is too large. -/
theorem write_eq_ok (hseed : SeedFits c.seed) : c.write = .ok (String.ofList c.lines.flatten) := by
  rw [write, if_neg]
  cases hc : c.seed with
  | none => exact Bool.false_ne_true
  | some n =>
      have hn := hseed n hc
      simpa using hn

theorem exists_write_eq_error_iff :
    (∃ e, c.write = .error e) ↔ ∃ n, c.seed = some n ∧ 9223372036854775807 < n.toNat := by
  constructor
  · rintro ⟨e, herror⟩
    by_contra hnone
    have hseed : SeedFits c.seed := fun n hn =>
      Nat.lt_succ_of_le (Nat.le_of_not_lt fun hlt => hnone ⟨n, hn, hlt⟩)
    rw [write_eq_ok hseed] at herror
    cases herror
  · rintro ⟨n, hn, hlt⟩
    refine ⟨.seedOutOfRange, if_pos ?_⟩
    rw [hn]
    exact decide_eq_true (Nat.succ_le_of_lt hlt)

/-- What is written is read, usable or not. -/
theorem read_lines (hseed : SeedFits c.seed) : read (String.ofList c.lines.flatten) = .ok c := by
  rw [read, ← flatMap_document,
    Toml.readDocument_lines (legible_document hseed) (nodup_keys_document c)]
  exact ofEntries_document c

theorem same_self (hvalid : c.validate = .ok ()) : c.same c = true := by
  have hself {x : Binary64} (hx : x.isNan = false) : x.same x = true := by
    cases x with
    | nan negative => cases hx
    | infinite negative => simp [Binary64.same, Binary64.place?]
    | finite negative r => simp [Binary64.same, Binary64.place?]
  obtain ⟨-, ⟨r, hrenewal, -⟩, hwait⟩ := validate_eq_ok_iff.mp hvalid
  have hrenewal : c.renewalFactor.isNan = false := by
    rw [hrenewal]
    rfl
  have hwait : c.waitFactor.isNan = false := by
    rcases hwait with hwait | ⟨r, hwait, -⟩ <;> rw [hwait] <;> rfl
  simp [same, hself hrenewal, hself hwait]

/-- A configuration can be written, and its text is read as the same configuration, which is
also an equal one, factors compared as numbers. -/
def Kept (c : Config) : Prop :=
  ∃ text, c.write = .ok text ∧ parse text = .ok c ∧ c.same c = true

theorem kept_of_seedFits (hvalid : c.validate = .ok ()) (hseed : SeedFits c.seed) : c.Kept := by
  refine ⟨_, write_eq_ok hseed, ?_, same_self hvalid⟩
  rw [parse, read_lines hseed]
  simp [hvalid]

/-- Every usable configuration is kept by its text, but for a seed that no integer of a document
can hold, with which it cannot be written.  Whatever text a configuration was read from, it is
kept by its own. -/
theorem parse_write :
    (∀ c : Config, c.validate = .ok () →
      ((∃ e, c.write = .error e) ↔ ∃ n, c.seed = some n ∧ 9223372036854775807 < n.toNat) ∧
        ((∀ n, c.seed = some n → n.toNat ≤ 9223372036854775807) → c.Kept)) ∧
      ∀ s c, parse s = .ok c → c.Kept := by
  refine ⟨fun c hvalid => ⟨exists_write_eq_error_iff, fun hseed => ?_⟩, fun s c hparse => ?_⟩
  · exact kept_of_seedFits hvalid fun n hn => Nat.lt_succ_of_le (hseed n hn)
  · unfold parse at hparse
    split at hparse
    · cases hparse
    · next d hread =>
        split at hparse
        · cases hparse
        · next hvalid =>
            cases hparse
            exact kept_of_seedFits hvalid (seedFits_of_read hread)

/-- The longest lease, an infinite factor, quotes and a line end in the identity, and the largest
seed that can be written; with the next one it cannot. -/
theorem parse_write_of_extreme :
    ∃ (c : Config) (text : String),
      c = { lease := ⟨18446744073709551615999999999, by decide⟩, waitFactor := .infinite false,
            seed := some 9223372036854775807,
            id := some (String.ofList ['\'', '"', '"', '"', '\n', '\\', '\x01', 'é']) } ∧
        c.validate = .ok () ∧ parse text = .ok c ∧ c.Kept ∧
        ∃ e, { c with seed := some 9223372036854775808 }.write = .error e := by
  let c : Config :=
    { lease := ⟨18446744073709551615999999999, by decide⟩, waitFactor := .infinite false,
      seed := some 9223372036854775807,
      id := some (String.ofList ['\'', '"', '"', '"', '\n', '\\', '\x01', 'é']) }
  have hvalid : c.validate = .ok () := by decide +kernel
  have hseed : ∀ n, c.seed = some n → n.toNat ≤ 9223372036854775807 := by
    rintro n ⟨⟩
    decide
  obtain ⟨text, -, hparse, -⟩ := (parse_write.1 c hvalid).2 hseed
  have hkept := parse_write.2 text c hparse
  have hlarge : { c with seed := some 9223372036854775808 }.validate = .ok () := by
    decide +kernel
  exact ⟨c, text, rfl, hvalid, hparse, hkept,
    (parse_write.1 _ hlarge).1.mpr ⟨_, rfl, by decide⟩⟩

end RoundTrip

end Config

namespace LeaseConfig

open Config (legible_line readSpan_text readsAs_text)
open Toml (Line writeString)

/-- The lines of a lease, and what their values are read as. -/
def document (c : LeaseConfig) : List Line :=
  [⟨"name", writeString c.name.toList, .string c.name⟩,
    ⟨"ttl", writeString c.ttl.text.toList, .string c.ttl.text⟩]

/-- A lease is read back from its text, whatever its name. -/
theorem read_write (c : LeaseConfig) : read c.write = .ok c := by
  have hlegible : ∀ l ∈ c.document, l.Legible := by
    refine List.forall_mem_cons.mpr
      ⟨legible_line (by decide) (by decide) (readsAs_text _), ?_⟩
    exact List.forall_mem_singleton.mpr
      (legible_line (by decide) (by decide) (readsAs_text _))
  have htext : c.write = String.ofList (c.document.flatMap Line.text) := by
    simp [write, document, Line.text]
  rw [read, htext, Toml.readDocument_lines hlegible (by simp [document])]
  simp [document, ofEntries, Line.entry, Config.readText, readSpan_text, bind, Except.bind, pure,
    Except.pure]

end LeaseConfig

end LeaseElection

import LeaseElection.Toml.Strings
import LeaseElection.Toml.Writer
import Mathlib.Data.List.Basic

/-!
# Strings that are read back

A string is written in one of four forms.  Both forms with escapes read an escaped character
the same way, and both forms with three quotes find their end the same way, as long as no more
than two quotes come in a row; so each of these is proved once.  The main result is that
every string is read back from the form that was chosen for it, whatever follows, unless it
is one more quote.
-/

namespace LeaseElection

namespace Toml

variable {c d q : Char} {cs tail rest written : List Char}

section Characters

/-- What is not written as a code point may stand as it is. -/
theorem isPlain_of_uncontrolled (h : ¬(c.toNat ≤ 0x1F || c.toNat == 0x7F) = true) :
    isPlain c = true := by
  rw [Bool.not_eq_true, Bool.or_eq_false_iff, decide_eq_false_iff_not] at h
  simp only [isPlain, bne, h.2, Bool.not_false, Bool.and_true, Bool.or_eq_true,
    decide_eq_true_eq]
  right
  omega

theorem isPlain_of_not_isControl (hcontrol : isControl c = false) (hnewline : c ≠ '\n') :
    isPlain c = true := by
  by_cases htab : c = '\t'
  · rw [htab]
    rfl
  · apply isPlain_of_uncontrolled
    simpa [isControl, htab, hnewline] using hcontrol

theorem hexDigit?_upperHexDigit (n : Nat) : hexDigit? (upperHexDigit n) = some (n % 16) := by
  have hdigits : ∀ k < 16, hexDigit? (Nat.digitChar k).toUpper = some k := by decide
  exact hdigits _ (Nat.mod_lt _ (by decide))

/-- The letters that stand for a character after a backslash. -/
theorem mem_of_escaped? {x : Char} (h : escaped? c = some x) :
    c ∈ ['b', 't', 'n', 'f', 'r', '"', '\\'] := by
  unfold escaped? at h
  split at h
  all_goals first | decide | cases h

theorem scalar?_toNat (h : c.toNat < 0xD800) : scalar? c.toNat = some c := by
  rw [scalar?, if_pos (Or.inl h), Char.ofNat_toNat]

end Characters

/-- A reader that understands escapes. -/
structure Unescapes (body : StringCursor → Reader (List Char)) : Prop where
  plain : ∀ c cs, c ≠ '"' → c ≠ '\\' → isPlain c = true →
    body .plain (c :: cs) = push c (body .plain cs)
  backslash : ∀ cs, body .plain ('\\' :: cs) = body .afterBackslash cs
  letter : ∀ c x cs, escaped? c = some x →
    body .afterBackslash (c :: cs) = push x (body .plain cs)
  code : ∀ cs, body .afterBackslash ('u' :: cs) = body (.inCode 4 0) cs
  digit : ∀ left value c d cs, hexDigit? c = some d →
    body (.inCode (left + 2) value) (c :: cs) = body (.inCode (left + 1) (value * 16 + d)) cs
  last : ∀ value c d x cs, hexDigit? c = some d → scalar? (value * 16 + d) = some x →
    body (.inCode 1 value) (c :: cs) = push x (body .plain cs)

theorem unescapes_basicBody : Unescapes basicBody where
  plain c cs hquote hbackslash hplain := by
    rw [basicBody, if_neg hquote, if_neg hbackslash, if_pos hplain]
  backslash cs := by rw [basicBody, if_neg (by decide), if_pos rfl]
  letter c x cs hescaped := by
    have hother : ∀ e ∈ ['b', 't', 'n', 'f', 'r', '"', '\\'], e ≠ 'u' ∧ e ≠ 'U' := by simp
    obtain ⟨hu, hU⟩ := hother c (mem_of_escaped? hescaped)
    rw [basicBody, if_neg hu, if_neg hU, hescaped]
  code cs := by rw [basicBody, if_pos rfl]
  digit left value c d cs hdigit := by
    rw [basicBody, hdigit]
    exact if_neg (by omega)
  last value c d x cs hdigit hscalar := by
    simp only [basicBody, hdigit, hscalar, Nat.le_refl, if_true]

theorem unescapes_longBasicBody : Unescapes longBasicBody where
  plain c cs hquote hbackslash hplain := by
    simp only [longBasicBody, if_neg hquote, if_neg hbackslash, hplain, Bool.or_true, if_true]
  backslash cs := by
    simp only [longBasicBody, if_true]
    exact if_neg (by decide)
  letter c x cs hescaped := by
    have hother : ∀ e ∈ ['b', 't', 'n', 'f', 'r', '"', '\\'],
        e ≠ 'u' ∧ e ≠ 'U' ∧ isSpace e = false ∧ e ≠ '\n' ∧ e ≠ '\r' := by simp [isSpace]
    obtain ⟨hu, hU, hspace, hnewline, hreturn⟩ := hother c (mem_of_escaped? hescaped)
    simp only [longBasicBody, if_neg hu, if_neg hU, hspace, if_neg hnewline, if_neg hreturn,
      hescaped, Bool.false_eq_true, if_false]
  code cs := by simp only [longBasicBody, if_true]
  digit left value c d cs hdigit := by
    simp only [longBasicBody, hdigit]
    exact if_neg (by omega)
  last value c d x cs hdigit hscalar := by
    simp only [longBasicBody, hdigit, hscalar, Nat.le_refl, if_true]

namespace Unescapes

variable {body : StringCursor → Reader (List Char)}

theorem code_of_lt (hbody : Unescapes body) (h : c.toNat < 0x100) (tail : List Char) :
    body .plain
        ('\\' :: 'u' :: '0' :: '0' :: upperHexDigit (c.toNat / 16) :: upperHexDigit c.toNat ::
          tail) = push c (body .plain tail) := by
  have hzero : hexDigit? '0' = some 0 := by decide
  have hvalue : (((0 * 16 + 0) * 16 + 0) * 16 + c.toNat / 16 % 16) * 16 + c.toNat % 16 =
      c.toNat := by omega
  have hscalar : scalar? c.toNat = some c := scalar?_toNat (by omega)
  rw [hbody.backslash, hbody.code, hbody.digit 2 0 _ 0 _ hzero, hbody.digit 1 _ _ 0 _ hzero,
    hbody.digit 0 _ _ _ _ (hexDigit?_upperHexDigit _)]
  exact hbody.last _ _ _ _ _ (hexDigit?_upperHexDigit _) (by rw [hvalue, hscalar])

theorem letter_of_escaped (hbody : Unescapes body) {x : Char} (h : escaped? c = some x)
    (tail : List Char) : body .plain ('\\' :: c :: tail) = push x (body .plain tail) := by
  rw [hbody.backslash, hbody.letter c x tail h]

/-- A character is read back from its escape. -/
theorem escapeControl (hbody : Unescapes body) (hquote : c ≠ '"') (tail : List Char) :
    body .plain (Toml.escapeControl c ++ tail) = push c (body .plain tail) := by
  unfold Toml.escapeControl
  split
  · next h => rw [h]; exact hbody.letter_of_escaped (by decide) tail
  split
  · next h => rw [h]; exact hbody.letter_of_escaped (by decide) tail
  split
  · next h => rw [h]; exact hbody.letter_of_escaped (by decide) tail
  split
  · next h => rw [h]; exact hbody.letter_of_escaped (by decide) tail
  split
  · next h => rw [h]; exact hbody.letter_of_escaped (by decide) tail
  split
  · next hcontrol =>
      rw [Bool.or_eq_true, decide_eq_true_eq, beq_iff_eq] at hcontrol
      exact hbody.code_of_lt (by omega) tail
  · next hbackslash hcontrol =>
      exact hbody.plain c tail hquote hbackslash (isPlain_of_uncontrolled hcontrol)

end Unescapes

/-- An escape begins with a character that is neither a quote nor of a line end. -/
theorem exists_escapeControl_eq (hquote : c ≠ '"') :
    ∃ d ds, escapeControl c = d :: ds ∧ d ≠ '"' ∧ d ≠ '\n' ∧ d ≠ '\r' := by
  unfold escapeControl
  repeat' split
  all_goals first
    | exact ⟨_, _, rfl, by decide, by decide, by decide⟩
    | skip
  next hreturn _ hcontrol =>
    have hnewline : c ≠ '\n' := by
      rintro rfl
      exact hcontrol (by decide)
    exact ⟨_, _, rfl, hquote, hnewline, hreturn⟩

theorem exists_escapeBasic_eq (c : Char) : ∃ d ds, escapeBasic c = d :: ds ∧ d ≠ '"' := by
  unfold escapeBasic
  split
  · exact ⟨_, _, rfl, by decide⟩
  split
  · exact ⟨_, _, rfl, by decide⟩
  · next hquote _ =>
      obtain ⟨d, ds, hescape, hd, -⟩ := exists_escapeControl_eq hquote
      exact ⟨d, ds, hescape, hd⟩

section OneLine

theorem basicBody_escapeBasic (c : Char) (tail : List Char) :
    basicBody .plain (escapeBasic c ++ tail) = push c (basicBody .plain tail) := by
  unfold escapeBasic
  split
  · next h => rw [h]; exact unescapes_basicBody.letter_of_escaped (by decide) tail
  split
  · next h => rw [h]; exact unescapes_basicBody.letter_of_escaped (by decide) tail
  · next hquote _ => exact unescapes_basicBody.escapeControl hquote tail

theorem basicBody_flatMap (cs rest : List Char) :
    basicBody .plain (cs.flatMap escapeBasic ++ '"' :: rest) = some (cs, rest) := by
  induction cs with
  | nil => rw [List.flatMap_nil, List.nil_append, basicBody, if_pos rfl]
  | cons c cs ih =>
      rw [List.flatMap_cons, List.append_assoc, basicBody_escapeBasic, ih]
      rfl

theorem literalBody_append (hplain : ∀ c ∈ cs, c ≠ '\'' ∧ isPlain c = true) :
    literalBody (cs ++ '\'' :: rest) = some (cs, rest) := by
  induction cs with
  | nil => rw [List.nil_append, literalBody, if_pos rfl]
  | cons c cs ih =>
      obtain ⟨hc, hcs⟩ := List.forall_mem_cons.mp hplain
      rw [List.cons_append, literalBody, if_neg hc.1, if_pos hc.2, ih hcs]
      rfl

end OneLine

section SeveralLines

/-- A text that a body reads back character by character, where no more than two quotes come in
a row; `run` came before. -/
inductive Spelled (body : Reader (List Char)) (q : Char) :
    (run : Nat) → (cs written : List Char) → Prop where
  | nil {run : Nat} : Spelled body q run [] []
  | quote {run : Nat} {cs written : List Char} (hrun : run < 2)
      (hrest : Spelled body q (run + 1) cs written) :
      Spelled body q run (q :: cs) (q :: written)
  | other {run : Nat} {c d : Char} (ds : List Char) {cs written : List Char} (hd : d ≠ q)
      (hreads : ∀ tail, body (d :: ds ++ tail) = push c (body tail))
      (hrest : Spelled body q 0 cs written) :
      Spelled body q run (c :: cs) (d :: ds ++ written)

variable {body : Reader (List Char)} {run : Nat}

theorem takeWhile_of_head? (hrest : rest.head? ≠ some q) : rest.takeWhile (· = q) = [] := by
  cases rest with
  | nil => rfl
  | cons d rest =>
      have hd : d ≠ q := fun h => hrest (congrArg some h)
      simp [hd]

/-- The quotes at the front: either all that is left to the end, or no more than two. -/
theorem Spelled.takeWhile_cases (hspelled : Spelled body q run cs written)
    (hrun : run ≤ 2) (hrest : rest.head? ≠ some q) :
    let text := written ++ q :: q :: q :: rest
    let quotes := (text.takeWhile (· = q)).length
    (∃ k, cs = List.replicate k q ∧ run + k ≤ 2 ∧ quotes = k + 3 ∧ text.drop (k + 3) = rest) ∨
      run + quotes ≤ 2 := by
  induction hspelled with
  | nil =>
      left
      refine ⟨0, rfl, hrun, ?_, rfl⟩
      simp [takeWhile_of_head? hrest]
  | @quote run cs written hlt hspelled ih =>
      simp only [List.cons_append, List.takeWhile_cons, decide_true, if_true, List.length_cons]
      rcases ih (by omega) with ⟨k, rfl, hk, hquotes, hdrop⟩ | hfew
      · left
        exact ⟨k + 1, rfl, by omega, by omega, hdrop⟩
      · right
        omega
  | @other run c d ds cs written hd hreads hspelled ih =>
      right
      simp only [List.cons_append, List.takeWhile_cons, hd, decide_false, Bool.false_eq_true,
        if_false, List.length_nil]
      exact hrun

/-- Three quotes close the string, and those before them belong to it. -/
theorem Spelled.read (hspelled : Spelled body q run cs written)
    (hbody : ∀ tail, body (q :: tail) =
      match closing? q (q :: tail) with
      | some p => some p
      | none => push q (body tail))
    (hrun : run ≤ 2) (hrest : rest.head? ≠ some q) :
    body (written ++ q :: q :: q :: rest) = some (cs, rest) := by
  have hclosing {run : Nat} {cs written : List Char} (hspelled : Spelled body q run cs written)
      (hrun : run ≤ 2) : closing? q (written ++ q :: q :: q :: rest) = some (cs, rest) ∨
        closing? q (written ++ q :: q :: q :: rest) = none := by
    unfold closing?
    rcases hspelled.takeWhile_cases hrun hrest with ⟨k, rfl, hk, hquotes, hdrop⟩ | hfew
    · left
      rw [hquotes, Nat.min_eq_left (by omega), if_pos (by omega), Nat.add_sub_cancel, hdrop]
    · right
      rw [if_neg (by omega)]
  induction hspelled with
  | nil =>
      have hclose : closing? q (q :: q :: q :: rest) = some ([], rest) := by
        simp [closing?, takeWhile_of_head? hrest]
      rw [List.nil_append, hbody, hclose]
  | @quote run cs written hlt hspelled ih =>
      rw [List.cons_append, hbody, ih (by omega)]
      rcases hclosing (.quote hlt hspelled) hrun with hclose | hclose
      · rw [List.cons_append] at hclose
        rw [hclose]
      · rw [List.cons_append] at hclose
        rw [hclose]
        rfl
  | @other run c d ds cs written hd hreads hspelled ih =>
      rw [List.append_assoc, hreads, ih (by decide)]
      rfl

theorem spelled_escapeLong (cs : List Char) (hrun : run ≤ 2) :
    Spelled (longBasicBody .plain) '"' run cs (escapeLong run cs) := by
  induction cs generalizing run with
  | nil => exact .nil
  | cons c cs ih =>
      unfold escapeLong
      split
      · next hquote =>
          subst hquote
          split
          · exact .other ['"'] (by decide)
              (unescapes_longBasicBody.letter_of_escaped (by decide)) (ih (by decide))
          · exact .quote (by omega) (ih (by omega))
      split
      · next hquote hnewline =>
          subst hnewline
          exact .other [] (by decide) (fun tail => rfl) (ih (by decide))
      · next hquote hnewline =>
          obtain ⟨d, ds, hescape, hd, -⟩ := exists_escapeControl_eq hquote
          have hreads := unescapes_longBasicBody.escapeControl hquote
          rw [hescape] at hreads ⊢
          exact .other ds hd hreads (ih (by decide))

/-- One more character of a run, and the longest run so far. -/
def runAfter (q : Char) (runs : Nat × Nat) (c : Char) : Nat × Nat :=
  if c = q then (max runs.1 (runs.2 + 1), runs.2 + 1) else (runs.1, 0)

theorem longestRun_eq (q : Char) (cs : List Char) :
    longestRun q cs = (cs.foldl (runAfter q) (0, 0)).1 := rfl

theorem le_foldl_runAfter (q : Char) (cs : List Char) (best run : Nat) :
    best ≤ (cs.foldl (runAfter q) (best, run)).1 := by
  induction cs generalizing best run with
  | nil => exact Nat.le_refl _
  | cons c cs ih =>
      rw [List.foldl_cons]
      by_cases hc : c = q
      · rw [runAfter, if_pos hc]
        exact Nat.le_trans (Nat.le_max_left _ _) (ih _ _)
      · rw [runAfter, if_neg hc]
        exact ih _ _

theorem spelled_longLiteral {best : Nat} (hcontrol : ∀ c ∈ cs, isControl c = false)
    (hruns : (cs.foldl (runAfter '\'') (best, run)).1 ≤ 2) :
    Spelled longLiteralBody '\'' run cs cs := by
  induction cs generalizing best run with
  | nil => exact .nil
  | cons c cs ih =>
      obtain ⟨hc, hcs⟩ := List.forall_mem_cons.mp hcontrol
      rw [List.foldl_cons] at hruns
      by_cases hquote : c = '\''
      · subst hquote
        rw [runAfter, if_pos rfl] at hruns
        have hbest := Nat.le_trans (le_foldl_runAfter _ _ _ _) hruns
        exact .quote (by omega) (ih hcs hruns)
      · rw [runAfter, if_neg hquote] at hruns
        refine .other [] hquote (fun tail => ?_) (ih hcs hruns)
        have hplain : (c = '\n' || isPlain c) = true := by
          by_cases hnewline : c = '\n'
          · simp [hnewline]
          · simp [isPlain_of_not_isControl hc hnewline]
        simp only [List.cons_append, List.nil_append, longLiteralBody, if_neg hquote, hplain,
          if_true]

end SeveralLines

section Forms

/-- Between single quotes in one line stands what has no single quotes and no controls. -/
theorem formOf_eq_literal (hform : formOf cs = .literal) :
    ∀ c ∈ cs, c ≠ '\'' ∧ isPlain c = true := by
  simp only [formOf] at hform
  split at hform
  · split at hform <;> cases hform
  split at hform
  · cases hform
  split at hform
  · next hcontrol _ hliteral =>
      intro c hc
      simp only [Bool.and_eq_true, Bool.not_eq_true', List.contains_eq_mem,
        decide_eq_false_iff_not] at hliteral
      have hquote : c ≠ '\'' := fun h => hliteral.1 (h ▸ hc)
      have hnewline : c ≠ '\n' := fun h => hliteral.2 (h ▸ hc)
      have hother : isControl c = false := by
        rw [List.any_eq_true, not_exists] at hcontrol
        simpa [hc] using hcontrol c
      exact ⟨hquote, isPlain_of_not_isControl hother hnewline⟩
  · repeat' split at hform
    all_goals cases hform

/-- Between three single quotes stands what has no controls, and no three quotes in a row. -/
theorem formOf_eq_longLiteral (hform : formOf cs = .longLiteral) :
    (∀ c ∈ cs, isControl c = false) ∧ longestRun '\'' cs ≤ 2 := by
  simp only [formOf] at hform
  split at hform
  · split at hform <;> cases hform
  next hcontrol =>
    have hcontrol : ∀ c ∈ cs, isControl c = false := by
      simpa [List.any_eq_true] using hcontrol
    repeat' split at hform
    all_goals first | exact ⟨hcontrol, ‹_›⟩ | cases hform

theorem lineEnd?_of_head? (hhead : ∀ c, tail.head? = some c → c ≠ '\n' ∧ c ≠ '\r') :
    lineEnd? tail = none := by
  unfold lineEnd?
  split
  · exact absurd rfl (hhead _ rfl).1
  · exact absurd rfl (hhead _ rfl).2
  · rfl

/-- The line end after the opening quotes is not part of the string. -/
theorem getD_lineEnd?_opening (cs tail : List Char)
    (hhead : '\n' ∉ cs → ∀ c, tail.head? = some c → c ≠ '\n' ∧ c ≠ '\r') :
    (lineEnd? (opening cs ++ tail)).getD (opening cs ++ tail) = tail := by
  unfold opening
  split
  · rfl
  · next hnewline =>
      rw [List.contains_iff_mem] at hnewline
      rw [List.nil_append, lineEnd?_of_head? (hhead hnewline), Option.getD_none]

theorem head?_escapeLong (hnewline : '\n' ∉ cs) :
    ∀ c, (escapeLong 0 cs ++ '"' :: tail).head? = some c → c ≠ '\n' ∧ c ≠ '\r' := by
  intro d hd
  cases cs with
  | nil =>
      cases hd
      decide
  | cons c cs =>
      have hc : c ≠ '\n' := fun h => hnewline (h ▸ List.mem_cons_self)
      by_cases hquote : c = '"'
      · rw [escapeLong, if_pos hquote, if_neg (by decide)] at hd
        cases hd
        decide
      · obtain ⟨e, es, hescape, -, he⟩ := exists_escapeControl_eq hquote
        rw [escapeLong, if_neg hquote, if_neg hc, hescape] at hd
        cases hd
        exact he

theorem head?_longLiteral (hcontrol : ∀ c ∈ cs, isControl c = false) (hnewline : '\n' ∉ cs) :
    ∀ c, (cs ++ '\'' :: tail).head? = some c → c ≠ '\n' ∧ c ≠ '\r' := by
  intro d hd
  cases cs with
  | nil =>
      cases hd
      decide
  | cons c cs =>
      cases hd
      refine ⟨fun h => hnewline (h ▸ List.mem_cons_self), ?_⟩
      rintro rfl
      cases hcontrol _ List.mem_cons_self

/-- Two quotes are no opening of three if the next character is another. -/
theorem readString_basic (hhead : ∀ tail', tail ≠ '"' :: '"' :: tail') :
    readString ('"' :: tail) = basicBody .plain tail := by
  unfold readString
  split
  · next h =>
      cases h
      exact absurd rfl (hhead _)
  · next h =>
      cases h
      rfl
  all_goals simp_all

theorem readString_literal (hhead : ∀ tail', tail ≠ '\'' :: '\'' :: tail') :
    readString ('\'' :: tail) = literalBody tail := by
  unfold readString
  split
  all_goals simp_all

/-- Every string is read back from the form that is chosen for it. -/
theorem readString_writeString (cs : List Char) (hdouble : rest.head? ≠ some '"')
    (hsingle : rest.head? ≠ some '\'') :
    readString (writeString cs ++ rest) = some (cs, rest) := by
  unfold writeString
  cases hform : formOf cs with
  | basic =>
      simp only [List.append_assoc, List.cons_append, List.nil_append]
      rw [readString_basic, basicBody_flatMap]
      intro tail htail
      cases cs with
      | nil =>
          cases htail
          exact hdouble rfl
      | cons c cs =>
          obtain ⟨d, ds, hescape, hd⟩ := exists_escapeBasic_eq c
          rw [List.flatMap_cons, hescape] at htail
          exact hd (List.cons.inj htail).1
  | literal =>
      have hplain := formOf_eq_literal hform
      simp only [List.append_assoc, List.cons_append, List.nil_append]
      rw [readString_literal, literalBody_append hplain]
      intro tail htail
      cases cs with
      | nil =>
          cases htail
          exact hsingle rfl
      | cons c cs => exact (hplain c List.mem_cons_self).1 (List.cons.inj htail).1
  | longBasic =>
      have hread := (spelled_escapeLong cs (Nat.zero_le 2)).read (fun tail => rfl) (by decide)
        hdouble
      have hopening := getD_lineEnd?_opening cs (escapeLong 0 cs ++ '"' :: '"' :: '"' :: rest)
        head?_escapeLong
      simp only [List.append_assoc, List.cons_append, List.nil_append]
      rw [readString, hopening, hread]
  | longLiteral =>
      obtain ⟨hcontrol, hruns⟩ := formOf_eq_longLiteral hform
      rw [longestRun_eq] at hruns
      have hread := (spelled_longLiteral hcontrol hruns).read (fun tail => rfl) (by decide)
        hsingle
      have hopening := getD_lineEnd?_opening cs (cs ++ '\'' :: '\'' :: '\'' :: rest)
        (head?_longLiteral hcontrol)
      simp only [List.append_assoc, List.cons_append, List.nil_append]
      rw [readString, hopening, hread]

end Forms

end Toml

end LeaseElection

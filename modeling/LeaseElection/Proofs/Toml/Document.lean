import LeaseElection.Proofs.Toml.Numbers
import LeaseElection.Proofs.Toml.Strings
import LeaseElection.Toml.Document

/-!
# Documents that are read back

A written document has one line for every key.  A line begins with a letter of its key, so
nothing of it is passed over; its value ends where the line ends; and a key that is new adds
an entry at the end.  The first main result is that such a document is read as its lines say.
The second is about every document: an integer under one of its own keys fits in 64 bits, for
no other is ever read and nothing that is done to tables makes one.
-/

namespace LeaseElection

namespace Toml

variable {c : Char} {cs rest written : List Char} {key : String} {v : Value} {n : Nat}

section Values

/-- Text that is read as a value up to the end of its line. -/
def ReadsAs (written : List Char) (v : Value) : Prop :=
  ∀ rest, readValue nestingLimit (skipSpaces (written ++ '\n' :: rest)) = some (v, '\n' :: rest)

theorem skipSpaces_cons (hspace : isSpace c = false) : skipSpaces (c :: cs) = c :: cs :=
  List.dropWhile_cons_of_neg (by simp [hspace])

/-- Whether a character opens neither a bracket nor a brace nor is it a blank. -/
def opensScalar (c : Char) : Bool := c != '[' && c != '\x7b' && !isSpace c

theorem readsAs_of_readScalar (hc : opensScalar c = true)
    (hread : ∀ rest, readScalar (c :: cs ++ '\n' :: rest) = some (v, '\n' :: rest)) :
    ReadsAs (c :: cs) v := by
  simp only [opensScalar, Bool.and_eq_true, bne_iff_ne, ne_eq, Bool.not_eq_true'] at hc
  obtain ⟨⟨hbracket, hbrace⟩, hspace⟩ := hc
  intro rest
  rw [List.cons_append, skipSpaces_cons hspace]
  unfold nestingLimit readValue
  split
  · next h => exact absurd (List.cons.inj h).1 hbracket
  · next h => exact absurd (List.cons.inj h).1 hbrace
  · exact hread rest

theorem exists_writeString_eq (cs : List Char) :
    ∃ q more, writeString cs = q :: more ∧ opensScalar q = true := by
  unfold writeString
  split
  · exact ⟨_, _, rfl, by decide⟩
  · exact ⟨_, _, rfl, by decide⟩
  · exact ⟨_, _, rfl, by decide⟩
  · exact ⟨_, _, rfl, by decide⟩

theorem readsAs_writeString (cs : List Char) :
    ReadsAs (writeString cs) (.string (String.ofList cs)) := by
  obtain ⟨q, more, hwritten, hq⟩ := exists_writeString_eq cs
  rw [hwritten]
  refine readsAs_of_readScalar hq fun rest => ?_
  have hread : readString (writeString cs ++ '\n' :: rest) = some (cs, '\n' :: rest) :=
    readString_writeString cs (by simp) (by simp)
  rw [← hwritten, readScalar, hread]
  rfl

/-- Whether a number that is written can begin with a character. -/
def opensNumber (c : Char) : Bool := c.isDigit || c == '-' || c == 'i' || c == 'n'

theorem opensScalar_of_opensNumber (hc : opensNumber c = true) : opensScalar c = true := by
  have hbracket : c ≠ '[' := ne_of_apply_ne opensNumber (by rw [hc]; decide)
  have hbrace : c ≠ '\x7b' := ne_of_apply_ne opensNumber (by rw [hc]; decide)
  have hblank : c ≠ ' ' := ne_of_apply_ne opensNumber (by rw [hc]; decide)
  have htab : c ≠ '\t' := ne_of_apply_ne opensNumber (by rw [hc]; decide)
  simp [opensScalar, isSpace, hbracket, hbrace, hblank, htab]

/-- What begins like a number is neither a string nor a truth value. -/
theorem readScalar_of_opensNumber (hc : opensNumber c = true) :
    readScalar (c :: cs) =
      (((readMoment (c :: cs)).map fun p => (.moment p.1, p.2)) <|>
        ((readFloat (c :: cs)).map fun p => (.float p.1, p.2)) <|>
        ((readInteger (c :: cs)).map fun p => (.integer p.1, p.2))) := by
  have hdouble : c ≠ '"' := ne_of_apply_ne opensNumber (by rw [hc]; decide)
  have hsingle : c ≠ '\'' := ne_of_apply_ne opensNumber (by rw [hc]; decide)
  have htrue : c ≠ 't' := ne_of_apply_ne opensNumber (by rw [hc]; decide)
  have hfalse : c ≠ 'f' := ne_of_apply_ne opensNumber (by rw [hc]; decide)
  have hstring : readString (c :: cs) = none := by
    unfold readString
    split
    all_goals simp_all
  have hboolean : readBoolean (c :: cs) = none := by
    unfold readBoolean
    split
    all_goals simp_all
  rw [readScalar, hstring, hboolean]
  rfl

theorem exists_writeFloat_eq (x : Binary64) :
    ∃ c more, writeFloat x = c :: more ∧ opensNumber c = true := by
  cases x with
  | nan negative => cases negative <;> exact ⟨_, _, rfl, by decide⟩
  | infinite negative => cases negative <;> exact ⟨_, _, rfl, by decide⟩
  | finite negative r =>
      cases negative
      · obtain ⟨whole, fraction, hdigits, -, hspells⟩ := exists_pointedDigits_eq r
        rw [writeFloat, hdigits]
        cases whole with
        | nil => exact absurd rfl hspells.before.ne_nil
        | cons c ds =>
            have hc := hspells.before.digits c List.mem_cons_self
            exact ⟨c, _, rfl, by simp [opensNumber, hc]⟩
      · exact ⟨_, _, rfl, by decide⟩

theorem readsAs_writeFloat (x : Binary64) : ReadsAs (writeFloat x) (.float x) := by
  obtain ⟨c, more, hwritten, hc⟩ := exists_writeFloat_eq x
  rw [hwritten]
  refine readsAs_of_readScalar (opensScalar_of_opensNumber hc) fun rest => ?_
  rw [List.cons_append, readScalar_of_opensNumber hc, ← List.cons_append, ← hwritten,
    readMoment_writeFloat, readFloat_writeFloat]
  rfl

theorem readsAs_writeNat (hn : n < 9223372036854775808) :
    ReadsAs (writeNat n) (.integer n) := by
  have hwhole := whole_toDigits n
  have hmoment (rest : List Char) : readMoment (Nat.toDigits 10 n ++ '\n' :: rest) = none :=
    readMoment_digits hwhole.digits (by decide) (by decide) (by decide)
  have hfloat (rest : List Char) : readFloat (Nat.toDigits 10 n ++ '\n' :: rest) = none :=
    readFloat_digits hwhole
  have hinteger (rest : List Char) : readInteger (Nat.toDigits 10 n ++ '\n' :: rest) =
      some ((n : Int), '\n' :: rest) := readInteger_writeNat hn
  rw [writeNat]
  cases hds : Nat.toDigits 10 n with
  | nil => exact absurd hds hwhole.ne_nil
  | cons c ds =>
      rw [hds] at hwhole hmoment hfloat hinteger
      have hc : opensNumber c = true := by
        simp [opensNumber, hwhole.digits c List.mem_cons_self]
      refine readsAs_of_readScalar (opensScalar_of_opensNumber hc) fun rest => ?_
      rw [List.cons_append, readScalar_of_opensNumber hc, ← List.cons_append, hmoment, hfloat,
        hinteger]
      rfl

end Values

section Lines

/-- A key that needs no quotes. -/
structure IsBare (key : String) : Prop where
  ne_nil : key.toList ≠ []
  letters : ∀ c ∈ key.toList, isBareKeyLetter c = true

theorem isSpace_of_bare (hc : isBareKeyLetter c = true) : isSpace c = false := by
  have hblank : c ≠ ' ' := ne_of_apply_ne isBareKeyLetter (by rw [hc]; decide)
  have htab : c ≠ '\t' := ne_of_apply_ne isBareKeyLetter (by rw [hc]; decide)
  simp [isSpace, hblank, htab]

theorem IsBare.exists_eq (hkey : IsBare key) :
    ∃ c more, key.toList = c :: more ∧ isBareKeyLetter c = true := by
  cases hletters : key.toList with
  | nil => exact absurd hletters hkey.ne_nil
  | cons c more => exact ⟨c, more, rfl, hkey.letters c (hletters ▸ List.mem_cons_self)⟩

theorem readKeyPart_of_isBare (hkey : IsBare key) (rest : List Char) :
    readKeyPart (key.toList ++ ' ' :: rest) = some (key, ' ' :: rest) := by
  obtain ⟨c, more, hc, hletter⟩ := hkey.exists_eq
  have hdouble : c ≠ '"' := ne_of_apply_ne isBareKeyLetter (by rw [hletter]; decide)
  have hsingle : c ≠ '\'' := ne_of_apply_ne isBareKeyLetter (by rw [hletter]; decide)
  have htake : (key.toList ++ ' ' :: rest).takeWhile isBareKeyLetter = key.toList := by
    rw [List.takeWhile_append_of_pos hkey.letters]
    exact List.append_nil _
  have hdrop : (key.toList ++ ' ' :: rest).dropWhile isBareKeyLetter = ' ' :: rest := by
    rw [List.dropWhile_append_of_pos hkey.letters]
    rfl
  have hempty : ¬key.toList.isEmpty = true := by
    rw [List.isEmpty_iff]
    exact hkey.ne_nil
  unfold readKeyPart
  split
  · next h => exact absurd (List.cons.inj (hc ▸ h)).1 hdouble
  · next h => exact absurd (List.cons.inj (hc ▸ h)).1 hsingle
  · rw [htake, hdrop, if_neg hempty, String.ofList_toList]

theorem readKey_of_isBare (hkey : IsBare key) (rest : List Char) :
    readKey (key.toList ++ ' ' :: '=' :: rest) = some (([], key), '=' :: rest) := by
  obtain ⟨c, more, hc, hletter⟩ := hkey.exists_eq
  have hspaces : skipSpaces (key.toList ++ ' ' :: '=' :: rest) =
      key.toList ++ ' ' :: '=' :: rest := by
    rw [hc]
    exact skipSpaces_cons (isSpace_of_bare hletter)
  have hparts : readKeyParts keyLimit (key.toList ++ ' ' :: '=' :: rest) =
      some ([key], '=' :: rest) := by
    rw [keyLimit, readKeyParts, hspaces, readKeyPart_of_isBare hkey]
    rfl
  rw [readKey, hparts]
  rfl

/-- One line of a document is read as the pair that it holds. -/
theorem readStatement_writePair (hkey : IsBare key) (hvalue : ReadsAs written v)
    (rest : List Char) :
    readStatement (writePair key written ++ rest) = some (.pair [] key v, rest) := by
  obtain ⟨c, more, hc, hletter⟩ := hkey.exists_eq
  have hbracket : c ≠ '[' := ne_of_apply_ne isBareKeyLetter (by rw [hletter]; decide)
  have hline : writePair key written ++ rest =
      key.toList ++ ' ' :: '=' :: (' ' :: (written ++ '\n' :: rest)) := by
    simp [writePair]
  have hblank : skipSpaces (' ' :: (written ++ '\n' :: rest)) =
      skipSpaces (written ++ '\n' :: rest) := rfl
  have hpair : readPair (readValue nestingLimit) (writePair key written ++ rest) =
      some (([], key, v), '\n' :: rest) := by
    rw [hline, readPair, readKey_of_isBare hkey]
    simp only [Option.bind_eq_bind, Option.bind_some, hblank, hvalue rest]
    rfl
  rw [hline, hc] at hpair ⊢
  unfold readStatement
  split
  · next h => exact absurd (List.cons.inj h).1 hbracket
  · next h => exact absurd (List.cons.inj h).1 hbracket
  · rw [hpair]
    rfl

/-- Nothing is passed over before a key. -/
theorem skipLines_cons (hletter : isBareKeyLetter c = true) (fuel : Nat) :
    skipLines fuel (c :: cs) = c :: cs := by
  have hhash : c ≠ '#' := ne_of_apply_ne isBareKeyLetter (by rw [hletter]; decide)
  have hnewline : c ≠ '\n' := ne_of_apply_ne isBareKeyLetter (by rw [hletter]; decide)
  have hreturn : c ≠ '\r' := ne_of_apply_ne isBareKeyLetter (by rw [hletter]; decide)
  have hcomment : skipComment (c :: cs) = c :: cs := by
    unfold skipComment
    split
    · next h => exact absurd (List.cons.inj h).1 hhash
    · rfl
  have hend : lineEnd? (c :: cs) = none :=
    lineEnd?_of_head? fun d hd => by
      cases hd
      exact ⟨hnewline, hreturn⟩
  cases fuel with
  | zero => rfl
  | succ fuel =>
      simp only [skipLines, skipSpaces_cons (isSpace_of_bare hletter), hcomment, hend]

/-- A line of a document: its key, the text of its value, and the value. -/
structure Line where
  key : String
  written : List Char
  value : Value

structure Line.Legible (l : Line) : Prop where
  key : IsBare l.key
  value : ReadsAs l.written l.value

def Line.text (l : Line) : List Char := writePair l.key l.written

def Line.entry (l : Line) : String × Value := (l.key, l.value)

/-- The statements of a document are its lines. -/
theorem readStatements_flatMap {lines : List Line} (hlines : ∀ l ∈ lines, l.Legible) {fuel : Nat}
    (hfuel : lines.length < fuel) :
    readStatements fuel (lines.flatMap Line.text) =
      some (lines.map fun l => .pair [] l.key l.value) := by
  induction lines generalizing fuel with
  | nil =>
      obtain ⟨more, rfl⟩ : ∃ more, fuel = more + 1 := Nat.exists_eq_add_one.mpr hfuel
      rfl
  | cons l lines ih =>
      rw [List.length_cons] at hfuel
      obtain ⟨hl, hlines⟩ := List.forall_mem_cons.mp hlines
      obtain ⟨c, more, hc, hletter⟩ := hl.key.exists_eq
      obtain ⟨less, rfl⟩ : ∃ less, fuel = less + 1 :=
        Nat.exists_eq_add_one.mpr (Nat.zero_lt_of_lt hfuel)
      have hhash : c ≠ '#' := ne_of_apply_ne isBareKeyLetter (by rw [hletter]; decide)
      have hrest : readStatements less (lines.flatMap Line.text) = _ :=
        ih hlines (Nat.lt_of_succ_lt_succ hfuel)
      have hread := readStatement_writePair hl.key hl.value (lines.flatMap Line.text)
      obtain ⟨tail, htail⟩ : ∃ tail, writePair l.key l.written ++ lines.flatMap Line.text =
          c :: tail := by
        rw [writePair, hc]
        exact ⟨_, rfl⟩
      rw [List.flatMap_cons, Line.text, htail, readStatements, skipLines_cons hletter]
      rw [htail] at hread
      split
      · next h => cases h
      · next h => exact absurd (List.cons.inj h).1 hhash
      · rw [hread]
        simp only [Option.bind_eq_bind, Option.bind_some, hrest]
        rfl

/-- Pairs with new keys are added at the end of the document. -/
theorem foldlM_apply_pairs (es prior : Entries) (hkeys : ((prior ++ es).map Prod.fst).Nodup) :
    (es.map fun e => Statement.pair [] e.1 e.2).foldlM Draft.apply ⟨prior, []⟩ =
      some ⟨prior ++ es, []⟩ := by
  induction es generalizing prior with
  | nil => rw [List.append_nil]; rfl
  | cons e es ih =>
      have hnew : prior.lookup e.1 = none := by
        rw [List.lookup_eq_none_iff]
        intro f hf
        rw [List.map_append, List.nodup_append] at hkeys
        have hne := hkeys.2.2 f.1 (List.mem_map_of_mem hf) e.1 (List.mem_cons_self)
        simpa using hne.symm
      have happly : Draft.apply ⟨prior, []⟩ (.pair [] e.1 e.2) = some ⟨prior ++ [e], []⟩ := by
        simp [Draft.apply, Entries.edit, Entries.addPair, hnew]
      rw [List.map_cons, List.foldlM_cons, happly]
      have hsplit : prior ++ e :: es = (prior ++ [e]) ++ es := by simp
      rw [hsplit] at hkeys ⊢
      exact ih (prior ++ [e]) hkeys

theorem length_le_length_flatMap (lines : List Line) :
    lines.length ≤ (lines.flatMap Line.text).length := by
  induction lines with
  | nil => exact Nat.le_refl _
  | cons l lines ih =>
      rw [List.flatMap_cons, List.length_append, List.length_cons, Line.text, writePair]
      simp only [List.length_append, List.length_cons]
      omega

/-- A document of lines with different keys is read as their entries. -/
theorem readDocument_lines {lines : List Line} (hlines : ∀ l ∈ lines, l.Legible)
    (hkeys : (lines.map Line.key).Nodup) :
    readDocument (String.ofList (lines.flatMap Line.text)) = some (lines.map Line.entry) := by
  have hread := readStatements_flatMap hlines (Nat.lt_succ_of_le (length_le_length_flatMap lines))
  have hstatements : lines.map (fun l => Statement.pair [] l.key l.value) =
      (lines.map Line.entry).map fun e => .pair [] e.1 e.2 := by
    rw [List.map_map]
    rfl
  have happly := foldlM_apply_pairs (lines.map Line.entry) [] (by rwa [List.nil_append,
    List.map_map])
  have hmark (more : List Char) : lines.flatMap Line.text ≠ '\uFEFF' :: more := by
    cases lines with
    | nil => exact (List.cons_ne_nil _ _).symm
    | cons l lines =>
        obtain ⟨c, _, hc, hletter⟩ := (hlines l List.mem_cons_self).key.exists_eq
        have hne : c ≠ '\uFEFF' := ne_of_apply_ne isBareKeyLetter (by rw [hletter]; decide)
        rw [List.flatMap_cons, Line.text, writePair, hc]
        exact fun h => hne (List.cons.inj h).1
  unfold readDocument
  rw [String.toList_ofList]
  split
  · next h => exact absurd h (hmark _)
  · simp only [hread, hstatements, happly, Option.bind_eq_bind, Option.bind_some]
    rfl

end Lines

section Integers

/-- Whether a value is no integer beyond 64 bits. -/
def Value.Fits : Value → Prop
  | .integer n => n < 9223372036854775808
  | _ => True

/-- Whether the values under the keys of a table fit, whatever tables below it hold. -/
def Entries.Fit (es : Entries) : Prop := ∀ e ∈ es, e.2.Fits

theorem lt_of_boundedInteger {negative : Bool} {i : Int} (h : boundedInteger negative n = some i) :
    i < 9223372036854775808 := by
  unfold boundedInteger at h
  dsimp only at h
  generalize (if negative then -(n : Int) else n) = j at h
  split at h
  · next hbounds =>
      obtain rfl := Option.some.inj h
      exact hbounds.2
  · cases h

theorem lt_of_readBased {base : Nat} {isDigit : Char → Bool} {i : Int}
    (h : readBased base isDigit cs = some (i, rest)) : i < 9223372036854775808 := by
  simp only [readBased, Option.bind_eq_bind, Option.bind_eq_some_iff] at h
  obtain ⟨_, -, j, hj, h⟩ := h
  cases h
  exact lt_of_boundedInteger hj

theorem lt_of_readInteger {i : Int} (h : readInteger cs = some (i, rest)) :
    i < 9223372036854775808 := by
  unfold readInteger at h
  split at h
  · exact lt_of_readBased h
  · exact lt_of_readBased h
  · exact lt_of_readBased h
  · simp only [Option.bind_eq_bind, Option.bind_eq_some_iff] at h
    obtain ⟨_, -, j, hj, h⟩ := h
    cases h
    exact lt_of_boundedInteger hj

theorem fits_of_readScalar (h : readScalar cs = some (v, rest)) : v.Fits := by
  simp only [readScalar, Option.orElse_eq_orElse, Option.orElse_eq_or, Option.or_eq_some_iff,
    Option.map_eq_some_iff] at h
  obtain ⟨_, -, h⟩ | ⟨-, ⟨_, -, h⟩ | ⟨-, ⟨_, -, h⟩ | ⟨-, ⟨_, -, h⟩ | ⟨-, p, hp, h⟩⟩⟩⟩ := h
  · cases h
    trivial
  · cases h
    trivial
  · cases h
    trivial
  · cases h
    trivial
  · cases h
    exact lt_of_readInteger hp

/-- A value is an integer only if it was read as one. -/
theorem fits_of_readValue {depth : Nat} (h : readValue depth cs = some (v, rest)) : v.Fits := by
  cases depth with
  | zero => exact fits_of_readScalar h
  | succ depth =>
      unfold readValue at h
      split at h
      · simp only [Option.bind_eq_bind, Option.bind_eq_some_iff] at h
        obtain ⟨_, -, h⟩ := h
        cases h
        trivial
      · split at h
        · cases h
          trivial
        · simp only [Option.bind_eq_bind, Option.bind_eq_some_iff] at h
          obtain ⟨_, -, h⟩ := h
          cases h
          trivial
      · exact fits_of_readScalar h

theorem fits_of_readPair {depth : Nat} {path : List String}
    (h : readPair (readValue depth) cs = some ((path, key, v), rest)) : v.Fits := by
  simp only [readPair, Option.bind_eq_bind, Option.bind_eq_some_iff] at h
  obtain ⟨_, -, h⟩ := h
  split at h
  · simp only [Option.bind_eq_some_iff] at h
    obtain ⟨_, hv, h⟩ := h
    cases h
    exact fits_of_readValue hv
  · cases h

/-- Whether the value of a statement fits, if it has one. -/
def Statement.Fits : Statement → Prop
  | .pair _ _ v => v.Fits
  | _ => True

theorem fits_of_readStatement {s : Statement} (h : readStatement cs = some (s, rest)) :
    s.Fits := by
  unfold readStatement at h
  split at h
  · simp only [Option.bind_eq_bind, Option.bind_eq_some_iff] at h
    obtain ⟨_, -, h⟩ := h
    split at h
    · simp only [Option.bind_eq_some_iff] at h
      obtain ⟨_, -, h⟩ := h
      cases h
      trivial
    · cases h
  · simp only [Option.bind_eq_bind, Option.bind_eq_some_iff] at h
    obtain ⟨_, -, h⟩ := h
    split at h
    · simp only [Option.bind_eq_some_iff] at h
      obtain ⟨_, -, h⟩ := h
      cases h
      trivial
    · cases h
  · simp only [Option.bind_eq_bind, Option.bind_eq_some_iff] at h
    obtain ⟨_, hpair, _, -, h⟩ := h
    cases h
    exact fits_of_readPair hpair

theorem fits_of_readStatements {fuel : Nat} {ss : List Statement}
    (h : readStatements fuel cs = some ss) : ∀ s ∈ ss, s.Fits := by
  induction fuel generalizing cs ss with
  | zero => cases h
  | succ fuel ih =>
      rw [readStatements] at h
      split at h
      · cases h
        exact List.forall_mem_nil _
      · split at h
        · cases h
          exact List.forall_mem_nil _
        · cases h
      · simp only [Option.bind_eq_bind, Option.bind_eq_some_iff] at h
        obtain ⟨_, hs, _, hss, h⟩ := h
        cases h
        exact List.forall_mem_cons.mpr ⟨fits_of_readStatement hs, ih hss⟩

namespace Entries

variable {es es' : Entries}

theorem fit_append (hes : es.Fit) (hv : v.Fits) : (es ++ [(key, v)]).Fit :=
  List.forall_mem_append.mpr ⟨hes, List.forall_mem_singleton.mpr hv⟩

theorem fit_replace (hes : es.Fit) (hv : v.Fits) : (es.replace key v).Fit := by
  intro e he
  obtain ⟨f, hf, rfl⟩ := List.mem_map.mp he
  split
  · exact hv
  · exact hes f hf

theorem fit_erase (hes : es.Fit) : (es.erase key).Fit :=
  fun e he => hes e (List.mem_filter.mp he).1

/-- What is done to a table below leaves a table in its place. -/
theorem fit_edit {dotted : Bool} {f : Edit} {path : List String} {origin : Origin}
    (hf : ∀ {origin es es'}, f origin es = some es' → es.Fit → es'.Fit)
    (h : edit dotted f path origin es = some es') (hes : es.Fit) : es'.Fit := by
  cases path with
  | nil => exact hf h hes
  | cons key path =>
      rw [edit] at h
      split at h
      · simp only [Option.bind_eq_bind, Option.bind_eq_some_iff] at h
        obtain ⟨_, -, h⟩ := h
        cases h
        exact fit_append hes trivial
      · cases h
      · simp only [Option.bind_eq_bind] at h
        split at h
        · cases h
        · simp only [Option.bind_eq_some_iff] at h
          obtain ⟨_, -, h⟩ := h
          cases h
          exact fit_replace hes trivial
      · simp only [Option.bind_eq_bind, Option.bind_eq_some_iff] at h
        obtain ⟨_, -, _, -, h⟩ := h
        cases h
        exact fit_replace hes trivial
      · cases h

theorem fit_addPair {path : List String} {origin : Origin} (hv : v.Fits)
    (h : addPair path key v origin es = some es') (hes : es.Fit) : es'.Fit := by
  refine fit_edit (fun h hes => ?_) h hes
  split at h
  · cases h
  · split at h
    · cases h
    · cases h
      exact fit_append hes hv

theorem fit_openTable {origin : Origin} (h : openTable key origin es = some es') (hes : es.Fit) :
    es'.Fit := by
  unfold openTable at h
  split at h
  · cases h
    exact fit_append hes trivial
  · cases h
    exact fit_append (fit_erase hes) trivial
  · cases h

theorem fit_openElement {origin : Origin} (h : openElement key origin es = some es')
    (hes : es.Fit) : es'.Fit := by
  unfold openElement at h
  split at h
  · cases h
    exact fit_append hes trivial
  · cases h
    exact fit_replace hes trivial
  · cases h

end Entries

theorem fit_apply {d d' : Draft} {s : Statement} (h : d.apply s = some d') (hs : s.Fits)
    (hd : d.entries.Fit) : d'.entries.Fit := by
  cases s with
  | pair path key v =>
      simp only [Draft.apply, Option.bind_eq_bind, Option.bind_eq_some_iff] at h
      obtain ⟨_, hes, h⟩ := h
      cases h
      exact Entries.fit_edit (Entries.fit_addPair hs) hes hd
  | header path key =>
      simp only [Draft.apply, Option.bind_eq_bind, Option.bind_eq_some_iff] at h
      obtain ⟨_, hes, h⟩ := h
      cases h
      exact Entries.fit_edit Entries.fit_openTable hes hd
  | elementHeader path key =>
      simp only [Draft.apply, Option.bind_eq_bind, Option.bind_eq_some_iff] at h
      obtain ⟨_, hes, h⟩ := h
      cases h
      exact Entries.fit_edit Entries.fit_openElement hes hd

theorem fit_foldlM_apply {d d' : Draft} {ss : List Statement}
    (h : ss.foldlM Draft.apply d = some d') (hss : ∀ s ∈ ss, s.Fits) (hd : d.entries.Fit) :
    d'.entries.Fit := by
  induction ss generalizing d with
  | nil =>
      cases h
      exact hd
  | cons s ss ih =>
      obtain ⟨hs, hss⟩ := List.forall_mem_cons.mp hss
      rw [List.foldlM_cons, Option.bind_eq_bind, Option.bind_eq_some_iff] at h
      obtain ⟨next, hnext, h⟩ := h
      exact ih h hss (fit_apply hnext hs hd)

/-- No document holds an integer beyond 64 bits under a key of its own. -/
theorem fit_readDocument {s : String} {es : Entries} (h : readDocument s = some es) : es.Fit := by
  simp only [readDocument, Option.bind_eq_bind, Option.bind_eq_some_iff] at h
  obtain ⟨ss, hss, d, hd, h⟩ := h
  cases h
  exact fit_foldlM_apply hd (fits_of_readStatements hss) (List.forall_mem_nil _)

end Integers

end Toml

end LeaseElection

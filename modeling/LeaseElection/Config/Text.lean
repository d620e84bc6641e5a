import LeaseElection.Binary64.Text
import LeaseElection.Config.Basic
import LeaseElection.Span.Text
import LeaseElection.Text.Quoted
import LeaseElection.Toml.Document
import LeaseElection.Toml.Writer

/-!
# Configurations as text

A configuration is kept as a TOML document with one key for every field.  Keys
are read in the order of the document and the first one of the wrong kind is
reported; keys that mean nothing are passed over.
-/

namespace LeaseElection

namespace Config

/-- What a key is expected to hold. -/
inductive Kind where
  | span
  | float
  | word
  | text
deriving DecidableEq

def Kind.description : Kind → String
  | .span => "a duration"
  | .float => "f64"
  | .word => "u64"
  | .text => "a string"

/-- What a message says of a value that was found. -/
def describe : Toml.Value → String
  | .string s => "string " ++ Quoted.quote s
  | .integer n => "integer `" ++ toString n ++ "`"
  | .float x => "floating point `" ++ x.pointedText ++ "`"
  | .boolean b => "boolean `" ++ toString b ++ "`"
  | .array _ | .tables _ => "sequence"
  | .moment _ | .table .. => "map"

/-- Why a document holds no configuration. -/
inductive DocumentError where
  /-- It is not a document at all. -/
  | syntaxError
  | wrongType (found : Toml.Value) (expected : Kind)
  | wrongValue (found : Toml.Value) (expected : Kind)
  | missing (key : String)
  /-- A span went past the longest one in its last nanosecond. -/
  | spanOverflow

/-- What is wrong with a document; nothing is said about its syntax. -/
def DocumentError.message : DocumentError → String
  | .syntaxError => ""
  | .wrongType found expected =>
      "invalid type: " ++ describe found ++ ", expected " ++ expected.description
  | .wrongValue found expected =>
      "invalid value: " ++ describe found ++ ", expected " ++ expected.description
  | .missing key => "missing field `" ++ key ++ "`"
  | .spanOverflow => Span.ReadError.overflowMessage

/-- The outcome of reading. -/
abbrev Read (α : Type) := Except DocumentError α

def readSpan (v : Toml.Value) : Read Span :=
  match v with
  | .string s =>
      match Span.read s with
      | .ok d => .ok d
      | .error .malformed => .error (.wrongValue v .span)
      | .error .overflow => .error .spanOverflow
  | v => .error (.wrongType v .span)

/-- A factor may be written as an integer. -/
def readFactor : Toml.Value → Read Binary64
  | .float x => .ok x
  | .integer n => .ok (.ofInt n)
  | v => .error (.wrongType v .float)

def readWord (v : Toml.Value) : Read UInt64 :=
  match v with
  | .integer n => if 0 ≤ n then .ok n.toNat.toUInt64 else .error (.wrongValue v .word)
  | v => .error (.wrongType v .word)

def readText : Toml.Value → Read String
  | .string s => .ok s
  | v => .error (.wrongType v .text)

/-- The fields of a configuration that a document has set so far. -/
structure Fields where
  lease : Option Span := none
  renewalFactor : Option Binary64 := none
  waitFactor : Option Binary64 := none
  maxJitter : Option Span := none
  seed : Option UInt64 := none
  id : Option String := none

def Fields.set (f : Fields) (key : String) (v : Toml.Value) : Read Fields :=
  if key = "lease" then do .ok { f with lease := some (← readSpan v) }
  else if key = "renewal_factor" then do .ok { f with renewalFactor := some (← readFactor v) }
  else if key = "wait_factor" then do .ok { f with waitFactor := some (← readFactor v) }
  else if key = "max_jitter" then do .ok { f with maxJitter := some (← readSpan v) }
  else if key = "seed" then do .ok { f with seed := some (← readWord v) }
  else if key = "id" then do .ok { f with id := some (← readText v) }
  else .ok f

/-- The configuration with these fields, and the usual values for the others. -/
def Fields.toConfig (f : Fields) : Read Config :=
  match f.lease with
  | none => .error (.missing "lease")
  | some lease =>
      let usual : Config := { lease }
      .ok {
        lease
        renewalFactor := f.renewalFactor.getD usual.renewalFactor
        waitFactor := f.waitFactor.getD usual.waitFactor
        maxJitter := f.maxJitter.getD usual.maxJitter
        seed := f.seed
        id := f.id }

/-- Reads a configuration from the entries of a document. -/
def ofEntries (es : Toml.Entries) : Read Config := do
  let f ← es.foldlM (fun f e => f.set e.1 e.2) ({} : Fields)
  f.toConfig

/-- Reads a configuration, without asking whether it can be used. -/
def read (s : String) : Read Config :=
  match Toml.readDocument s with
  | none => .error .syntaxError
  | some es => ofEntries es

/-- Why a configuration could not be had. -/
inductive LoadError where
  | document (e : DocumentError)
  | flaw (f : Flaw)

/-- Reads a configuration that can be used. -/
def parse (s : String) : Except LoadError Config :=
  match read s with
  | .error e => .error (.document e)
  | .ok c =>
      match c.validate with
      | .error f => .error (.flaw f)
      | .ok () => .ok c

def Flaw.message : Flaw → String
  | .zeroLease => "lease duration must be greater than zero"
  | .renewalFactor x => "renewal factor must be in (0, 1), got " ++ x.text
  | .waitFactor x => "wait factor must be greater than 1, got " ++ x.text

def LoadError.message : LoadError → String
  | .flaw f => f.message
  | .document .spanOverflow => DocumentError.spanOverflow.message
  | .document e => "invalid config: " ++ e.message

/-- What stands under the name of a file. -/
inductive FileContent where
  | absent
  | directory
  | bytes (content : ByteArray)

/-- Why a file could not be read. -/
inductive FileError where
  | notFound
  | isDirectory
  | notUtf8
deriving DecidableEq

def FileError.message : FileError → String
  | .notFound => "No such file or directory (os error 2)"
  | .isDirectory => "Is a directory (os error 21)"
  | .notUtf8 => "stream did not contain valid UTF-8"

/-- The text of a file. -/
def FileContent.text : FileContent → Except FileError String
  | .absent => .error .notFound
  | .directory => .error .isDirectory
  | .bytes content =>
      match String.fromUTF8? content with
      | some s => .ok s
      | none => .error .notUtf8

def FileError.messageFor (e : FileError) (name : String) : String :=
  "failed to read config " ++ name ++ ": " ++ e.message

/-- Reads a configuration that can be used from a file. -/
def load (file : FileContent) : Except FileError (Except LoadError Config) :=
  file.text.map parse

/-- Why a configuration cannot be written: its seed is no TOML integer. -/
inductive WriteError where
  | seedOutOfRange
deriving DecidableEq

def WriteError.message : WriteError → String
  | .seedOutOfRange => "out-of-range value for u64 type"

/-- The lines of a configuration. -/
def lines (c : Config) : List (List Char) :=
  let option {α : Type} (key : String) (write : α → List Char) (v : Option α) :=
    v.toList.map fun x => Toml.writePair key (write x)
  [Toml.writePair "lease" (Toml.writeString c.lease.text.toList),
    Toml.writePair "renewal_factor" (Toml.writeFloat c.renewalFactor),
    Toml.writePair "wait_factor" (Toml.writeFloat c.waitFactor),
    Toml.writePair "max_jitter" (Toml.writeString c.maxJitter.text.toList)] ++
    option "seed" (fun (n : UInt64) => Toml.writeNat n.toNat) c.seed ++
    option "id" (fun (s : String) => Toml.writeString s.toList) c.id

/-- The document of a configuration. -/
def write (c : Config) : Except WriteError String :=
  if c.seed.any fun n => 9223372036854775808 ≤ n.toNat then .error .seedOutOfRange
  else .ok (String.ofList c.lines.flatten)

end Config

namespace LeaseConfig

open Config (Read readSpan readText)

/-- Reads a lease from the entries of a document. -/
def ofEntries (es : Toml.Entries) : Read LeaseConfig := do
  let f ← es.foldlM (fun (f : Option String × Option Span) e =>
    if e.1 = "name" then do .ok (some (← readText e.2), f.2)
    else if e.1 = "ttl" then do .ok (f.1, some (← readSpan e.2))
    else .ok f) (none, none)
  match f with
  | (none, _) => .error (.missing "name")
  | (_, none) => .error (.missing "ttl")
  | (some name, some ttl) => .ok ⟨name, ttl⟩

def read (s : String) : Read LeaseConfig :=
  match Toml.readDocument s with
  | none => .error .syntaxError
  | some es => ofEntries es

def write (c : LeaseConfig) : String :=
  String.ofList (Toml.writePair "name" (Toml.writeString c.name.toList) ++
    Toml.writePair "ttl" (Toml.writeString c.ttl.text.toList))

end LeaseConfig

end LeaseElection

import Strongbox.Settings.Basic
import Strongbox.Toml.Document

/-!
# Settings — documents

Settings are written in TOML, in three sections.  A section is a table under a header, dotted keys,
an inline table, or an array that gives the fields in order; fields that are not given keep their
usual values.  A document that holds anything else is malformed.  Only then the preset is looked up
that the lock starts from, and last the settings are checked.

* `Settings.ofToml`: the settings of a document.
* `Settings.load`, `Settings.loadIfPresent`: the settings of a file, which may be missing.
-/

namespace Strongbox.Settings

open Toml (Value Members Block)

/-- What a document gives for a section: named fields, or fields in order. -/
inductive Section where
  | named (members : Members)
  | listed (items : List Value)

/-- The value that a section gives to the field `name`, the field numbered `i`. -/
def Section.field? (s : Section) (name : String) (i : Nat) : Option Value :=
  match s with
  | named members => (members.find? (·.1 == [name])).map (·.2)
  | listed items => items[i]?

/-- Every named field is one of those that the section has. -/
def Section.fits (s : Section) (names : List String) : Bool :=
  match s with
  | named members => members.all fun (path, _) => path.any fun n => path == [n] && names.contains n
  | listed _ => true

/-- A number below a bound, the usual one if none is given; none if the value is no such number. -/
def numberOr? (usual bound : Nat) : Option Value → Option Nat
  | none => some usual
  | some (.int n) => if 0 ≤ n ∧ n < bound then some n.toNat else none
  | some _ => none

/-- The first number that does not fit into 32 bits. -/
def bound32 : Nat := 1 <<< 32

/-- The first number that does not fit into 63 bits. -/
def bound63 : Nat := 1 <<< 63

/-! ### The three sections -/

/-- What a document says of the lock: a preset and changes to it. -/
structure LockSection where
  preset : Option String
  iterations : Option Nat
  memoryKib : Option Nat
  parallelism : Option Nat
  keyLength : Option Nat
  saltLength : Option Nat
  nonceLength : Option Nat

/-- A number below a bound if one is given; none if the value is no such number. -/
def givenNumber? (bound : Nat) : Option Value → Option (Option Nat)
  | none => some none
  | some v => (numberOr? 0 bound (some v)).map some

/-- A text if one is given; none if the value is no text. -/
def givenText? : Option Value → Option (Option String)
  | none => some none
  | some (.text s) => some (some s)
  | some _ => none

/-- The fields of the section on the lock, in order. -/
def lockFields : List String :=
  ["preset", "iterations", "memory_kib", "parallelism", "key_len", "salt_len", "nonce_len"]

/-- The section on the lock. -/
def lockSection? (s : Section) : Option LockSection := do
  if s.fits lockFields then
    return {
      preset := ← givenText? (s.field? "preset" 0)
      iterations := ← givenNumber? bound32 (s.field? "iterations" 1)
      memoryKib := ← givenNumber? bound32 (s.field? "memory_kib" 2)
      parallelism := ← givenNumber? bound32 (s.field? "parallelism" 3)
      keyLength := ← givenNumber? bound63 (s.field? "key_len" 4)
      saltLength := ← givenNumber? bound63 (s.field? "salt_len" 5)
      nonceLength := ← givenNumber? bound63 (s.field? "nonce_len" 6) }
  else none

/-- The parameters that the section asks for. -/
def LockSection.params (s : LockSection) : Except SettingsError Lock.Params := do
  let preset ←
    match s.preset with
    | none => pure Lock.Preset.default
    | some name =>
      match Lock.Preset.ofName? name with
      | some preset => pure preset
      | none => throw (.unknownPreset name)
  let base := preset.params
  return {
    iterations := s.iterations.getD base.iterations
    memoryKib := s.memoryKib.getD base.memoryKib
    parallelism := s.parallelism.getD base.parallelism
    keyLength := s.keyLength.getD base.keyLength
    saltLength := s.saltLength.getD base.saltLength
    nonceLength := s.nonceLength.getD base.nonceLength }

/-- The fields of the section on tokens, in order. -/
def tokenFields : List String :=
  ["min_length", "max_length", "default_length", "create_attempts"]

/-- The section on tokens. -/
def tokenRules? (s : Section) : Option TokenRules := do
  let usual : TokenRules := {}
  if s.fits tokenFields then
    return {
      least := ← numberOr? usual.least bound63 (s.field? "min_length" 0)
      most := ← numberOr? usual.most bound63 (s.field? "max_length" 1)
      usual := ← numberOr? usual.usual bound63 (s.field? "default_length" 2)
      attempts := ← numberOr? usual.attempts bound32 (s.field? "create_attempts" 3) }
  else none

/-- The fields of the section on rotation, in order. -/
def rotationFields : List String :=
  ["paging_threshold", "page_size", "parallel_threshold", "batch_size", "workers", "queue_depth"]

/-- The section on rotation. -/
def rotationRules? (s : Section) : Option RotationRules := do
  let usual : RotationRules := {}
  if s.fits rotationFields then
    return {
      pagingAbove := ← numberOr? usual.pagingAbove bound63 (s.field? "paging_threshold" 0)
      pageSize := ← numberOr? usual.pageSize bound63 (s.field? "page_size" 1)
      parallelAbove := ← numberOr? usual.parallelAbove bound63 (s.field? "parallel_threshold" 2)
      batchSize := ← numberOr? usual.batchSize bound63 (s.field? "batch_size" 3)
      workers := ← numberOr? usual.workers bound63 (s.field? "workers" 4)
      queueDepth := ← numberOr? usual.queueDepth bound63 (s.field? "queue_depth" 5) }
  else none

/-! ### Whole documents -/

/-- The names of the sections. -/
def sectionNames : List String := ["codec", "tokens", "rotation"]

/-- The section that the definition of a whole section gives. -/
def ofValue? : Value → Option Section
  | .array items => some (.listed items)
  | .table members => some (.named members)
  | _ => none

/-- The name of the section that a header begins. -/
def headerName? (h : Toml.Header) : Option String :=
  match h.path with
  | [name] => if h.isArray then none else some name
  | _ => none

/-- The sections that the definitions before all headers give: whole ones, and those that dotted
keys fill. -/
def leadingSections? (members : Members) : Option (List (String × Section)) :=
  let whole := members.filter fun m => m.1.length == 1
  let dotted := members.filter fun m => m.1.length != 1
  let names := (dotted.filterMap (·.1.head?)).eraseDups
  let filled := names.map fun name =>
    (name, Section.named ((dotted.filter (·.1.head? == some name)).map fun m => (m.1.drop 1, m.2)))
  (whole.mapM fun m => (ofValue? m.2).map fun s => (m.1.headD "", s)).map (· ++ filled)

/-- The sections of a document; none if it has anything else, or one of them twice. -/
def sections? (blocks : List Block) : Option (List (String × Section)) := do
  let lists ← blocks.mapM fun b =>
    match b.header with
    | none => leadingSections? b.members
    | some h => (headerName? h).map fun name => [(name, Section.named b.members)]
  let sections := lists.flatten
  let names := sections.map (·.1)
  if names.all sectionNames.contains ∧ names.Nodup then some sections else none

/-- The sections of a document by their fields. -/
def read? (s : String) : Option (LockSection × TokenRules × RotationRules) := do
  let sections ← sections? (← Toml.read? s)
  let sectionOf := fun name => ((sections.find? (·.1 == name)).map (·.2)).getD (.named [])
  return (← lockSection? (sectionOf "codec"), ← tokenRules? (sectionOf "tokens"),
    ← rotationRules? (sectionOf "rotation"))

/-- The settings of a document. -/
def ofToml (s : String) : Except SettingsError Settings := do
  match read? s with
  | none => throw .malformed
  | some (lock, tokens, rotation) =>
    let settings := { lock := ← lock.params, tokens, rotation }
    settings.check
    return settings

/-! ### Files -/

/-- What is found at the place of a file. -/
inductive FileContent where
  | missing
  | folder
  | bytes (b : Bytes)

/-- The settings of a file, which has to be there. -/
def load : FileContent → Except SettingsError Settings
  | .bytes b =>
    match b.toText? with
    | some text => ofToml text
    | none => .error .io
  | _ => .error .io

/-- The settings of a file, or the usual ones if it is missing. -/
def loadIfPresent : FileContent → Except SettingsError Settings
  | .missing => .ok {}
  | content => load content

end Strongbox.Settings

import Strongbox.Entry
import Strongbox.Json
import Strongbox.Lock.Params
import Strongbox.Time.Loose

/-!
# Entries — JSON documents

The JSON form of entries and of the values in settings that have one.  A structure is written as an
object and read from an object, where other members are ignored, or from a list of all its fields
in order.  A case that carries nothing is written as its name.
-/

namespace Strongbox

/-! ### Entries -/

/-- The names of an entry's fields, in order. -/
def Entry.fieldNames : List String :=
  ["id", "token", "encrypted_value", "created_at", "updated_at", "expires_at", "soft_deleted_at"]

/-- An instant in a document. -/
def Instant.ofJson? (j : Json) : Option Instant :=
  j.text?.bind Instant.Loose.read?

/-- An instant that may be null. -/
def Instant.optionOfJson? : Json → Option (Option Instant)
  | .null => some none
  | j => (Instant.ofJson? j).map some

/-- The entry that a document describes. -/
def Entry.ofJson? (j : Json) : Option Entry := do
  match ← j.fields? Entry.fieldNames with
  | [some id, some token, some locked, some created, some updated, expires, hidden] =>
    return {
      id := ← id.text?.bind Uuid.read?
      token := ← token.text?
      locked := ← locked.text?
      created := ← Instant.ofJson? created
      updated := ← Instant.ofJson? updated
      expires := ← Instant.optionOfJson? (expires.getD .null)
      hidden := ← Instant.optionOfJson? (hidden.getD .null) }
  | _ => none

/-- The document of an entry. -/
def Entry.toJson (e : Entry) : Json :=
  .object [
    ("id", .text e.id.text), ("token", .text e.token), ("encrypted_value", .text e.locked),
    ("created_at", .text e.created.text), ("updated_at", .text e.updated.text),
    ("expires_at", .ofText? (e.expires.map Instant.text)),
    ("soft_deleted_at", .ofText? (e.hidden.map Instant.text))]

/-- The document of what may be told of an entry. -/
def EntryInfo.toJson (i : EntryInfo) : Json :=
  .object [
    ("token", .text i.token),
    ("created_at", .text i.created.text), ("updated_at", .text i.updated.text),
    ("expires_at", .ofText? (i.expires.map Instant.text)),
    ("soft_deleted_at", .ofText? (i.hidden.map Instant.text)),
    ("format", .ofText? (i.format.map Lock.Format.name))]

/-! ### Parameters and cases -/

namespace Lock

/-- The names of the parameters, in order. -/
def Params.fieldNames : List String :=
  ["iterations", "memory_kib", "parallelism", "key_len", "salt_len", "nonce_len"]

/-- The parameters that a document describes. -/
def Params.ofJson? (j : Json) : Option Params := do
  match ← j.fields? Params.fieldNames with
  | [some iterations, some memory, some lanes, some key, some salt, some nonce] =>
    return {
      iterations := ← iterations.natBelow? (1 <<< 32)
      memoryKib := ← memory.natBelow? (1 <<< 32)
      parallelism := ← lanes.natBelow? (1 <<< 32)
      keyLength := ← key.natBelow? (1 <<< 64)
      saltLength := ← salt.natBelow? (1 <<< 64)
      nonceLength := ← nonce.natBelow? (1 <<< 64) }
  | _ => none

/-- The document of parameters. -/
def Params.toJson (p : Params) : Json :=
  .object [
    ("iterations", .int p.iterations), ("memory_kib", .int p.memoryKib),
    ("parallelism", .int p.parallelism), ("key_len", .int p.keyLength),
    ("salt_len", .int p.saltLength), ("nonce_len", .int p.nonceLength)]

/-- The preset that a document names. -/
def Preset.ofJson? (j : Json) : Option Preset :=
  j.caseName?.bind Preset.ofName?

/-- The format that a document names. -/
def Format.ofJson? (j : Json) : Option Format :=
  j.caseName?.bind Format.ofName?

end Lock

end Strongbox

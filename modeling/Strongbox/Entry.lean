import Strongbox.Lock.Format
import Strongbox.Time.Instant
import Strongbox.Uuid

/-!
# Entries

An entry is a locked secret in the store.  It is found by its token and known to the store by its
id.  An entry with an expiry is expired when the expiry has passed; an entry that was hidden stays
in the store but is not active.
-/

namespace Strongbox

/-- A locked secret. -/
structure Entry where
  id : Uuid
  token : String
  locked : String
  created : Instant
  updated : Instant
  expires : Option Instant
  hidden : Option Instant
  deriving DecidableEq

/-- A field of an entry that an update can write. -/
inductive Field where
  | locked
  | updated
  | expires
  | hidden
  deriving DecidableEq

namespace Entry

/-- A new active entry. -/
def fresh (id : Uuid) (token locked : String) (expires : Option Instant) (now : Instant) : Entry :=
  ⟨id, token, locked, now, now, expires, none⟩

/-- The expiry lies before an instant. -/
def isExpired (e : Entry) (now : Instant) : Bool :=
  e.expires.any (·.before now)

/-- The entry was hidden. -/
def isHidden (e : Entry) : Bool :=
  e.hidden.isSome

/-- The entry with one field taken from another. -/
def setField (e source : Entry) : Field → Entry
  | .locked => { e with locked := source.locked }
  | .updated => { e with updated := source.updated }
  | .expires => { e with expires := source.expires }
  | .hidden => { e with hidden := source.hidden }

/-- The entry with some fields taken from another. -/
def setFields (e source : Entry) (fields : List Field) : Entry :=
  fields.foldl (fun e f => e.setField source f) e

/-- The entry with its instants cut to whole microseconds. -/
def floorMicros (e : Entry) : Entry :=
  { e with
    created := e.created.floorMicros
    updated := e.updated.floorMicros
    expires := e.expires.map Instant.floorMicros
    hidden := e.hidden.map Instant.floorMicros }

end Entry

/-- What may be told of an entry without its password. -/
structure EntryInfo where
  token : String
  created : Instant
  updated : Instant
  expires : Option Instant
  hidden : Option Instant
  format : Option Lock.Format
  deriving DecidableEq

/-- What may be told of the entry. -/
def Entry.info (e : Entry) : EntryInfo :=
  ⟨e.token, e.created, e.updated, e.expires, e.hidden, Lock.Format.of? e.locked⟩

end Strongbox

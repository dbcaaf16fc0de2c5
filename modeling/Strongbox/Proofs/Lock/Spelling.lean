import Strongbox.Lock.Basic
import Strongbox.Proofs.Text.Bytes

/-!
# Lock — the spelling of locked texts

A locked text in the current format has one spelling for each choice of the random bytes, and only
these spellings open.

* `lockFault?_eq_none_iff`: the sizes with which a text can be locked.
* `Fits`: random bytes, a text and a password from which a locked text is made.
* `Current.lock_of_unlock`: what opens is what the same parameters and password write.
* `unlock_lock`: whatever the random bytes, a locked text opens to the text it was made from.
* `unlock_current_iff`: a text with the current tag opens to a plain text exactly when it is that
  text locked.  Every other text with the tag is damaged, unless no key can be stretched at all,
  and a text with neither tag has no format.
-/

namespace Strongbox.Lock

open Bytes

/-! ### Tags -/

/-- The text begins with the tag of a format. -/
def Format.Leads (f : Format) (locked : String) : Prop :=
  f.tag.toList <+: locked.toList

theorem Format.leads_append (f : Format) (payload : List Char) :
    f.Leads (f.tag ++ String.ofList payload) :=
  ⟨payload, by simp⟩

theorem Format.split?_append (f : Format) (payload : List Char) :
    split? (f.tag ++ String.ofList payload) = some (f, payload) := by
  cases f <;> simp [split?, tag]

/-- The format of a text and the rest of it are those of its tag. -/
theorem Format.eq_of_split? {locked : String} {f : Format} {payload : List Char}
    (h : split? locked = some (f, payload)) : locked = f.tag ++ String.ofList payload := by
  have key : locked.toList = f.tag.toList ++ payload := by
    simp only [split?] at h
    split at h
    · rename_i e; cases h; exact e
    · rename_i e; cases h; exact e
    · cases h
  rw [← String.toList_inj, key]
  simp

theorem Format.split?_of_leads {f : Format} {locked : String} (h : f.Leads locked) :
    ∃ payload, split? locked = some (f, payload) := by
  obtain ⟨payload, e⟩ := h
  refine ⟨payload, ?_⟩
  have : locked = f.tag ++ String.ofList payload := by
    rw [← String.toList_inj, ← e]
    simp
  rw [this, Format.split?_append]

theorem Format.split?_eq_none {locked : String} (hl : ¬ legacy.Leads locked)
    (hc : ¬ current.Leads locked) : split? locked = none := by
  cases h : split? locked with
  | none => rfl
  | some p =>
      obtain ⟨f, payload⟩ := p
      have hf : f.Leads locked := Format.eq_of_split? h ▸ Format.leads_append f payload
      cases f with
      | legacy => exact absurd hf hl
      | current => exact absurd hf hc

/-! ### Sizes -/

/-- Sound parameters take twelve random bytes beside the salt, which is not too short. -/
theorem sound_sizes (l : Lock) :
    l.headLength = l.params.saltLength + 12 ∧ Argon2id.leastSalt ≤ l.params.saltLength := by
  have h := l.sound.1
  simp only [Params.fault?] at h
  split at h
  · cases h
  · split at h
    · cases h
    · split at h
      · cases h
      · rename_i hnonce hsalt
        exact ⟨by rw [headLength, Decidable.of_not_not hnonce, nonceLength], Nat.not_lt.1 hsalt⟩

theorem headLength_eq (l : Lock) : l.headLength = l.params.saltLength + 12 :=
  l.sound_sizes.1

theorem Current.stretchFault?_eq_none_iff {p : Params} {password : String} :
    stretchFault? p password = none ↔ password.utf8ByteSize ≤ Argon2id.mostBytes ∧
      Argon2id.leastSalt ≤ p.saltLength ∧ p.saltLength ≤ Argon2id.mostBytes := by
  rw [stretchFault?, Option.map_eq_none_iff, Argon2id.refusal?]
  grind

/-- A password of too many bytes is refused before all else. -/
theorem Current.stretchFault?_of_long {p : Params} {password : String}
    (h : Argon2id.mostBytes < password.utf8ByteSize) :
    stretchFault? p password = some (.keyDerivation "Argon2 failed: password is too long") := by
  rw [stretchFault?, Argon2id.refusal?, if_pos h]
  rfl

theorem Current.stretchFault?_of_lockFault? {p : Params} {text password : String}
    (h : lockFault? p text password = none) :
    stretchFault? p password = none ∧ text.utf8ByteSize ≤ Gcm.mostText := by
  simp only [lockFault?] at h
  split at h
  · cases h
  · rename_i hstretch
    exact ⟨hstretch, by simpa using h⟩

/-- **The sizes with which a text can be locked**: the key stretching takes the password and the
salt, and the cipher the text. -/
theorem lockFault?_eq_none_iff {l : Lock} {text password : String} :
    l.lockFault? text password = none ↔ password.utf8ByteSize ≤ Argon2id.mostBytes ∧
      l.params.saltLength ≤ Argon2id.mostBytes ∧ text.utf8ByteSize ≤ Gcm.mostText := by
  constructor
  · intro h
    obtain ⟨hstretch, htext⟩ := Current.stretchFault?_of_lockFault? h
    obtain ⟨hpassword, -, hsalt⟩ := Current.stretchFault?_eq_none_iff.1 hstretch
    exact ⟨hpassword, hsalt, htext⟩
  · rintro ⟨hpassword, hsalt, htext⟩
    have hstretch : Current.stretchFault? l.params password = none :=
      Current.stretchFault?_eq_none_iff.2 ⟨hpassword, l.sound_sizes.2, hsalt⟩
    rw [lockFault?, Current.lockFault?, hstretch]
    exact if_neg (Nat.not_lt.2 htext)

/-- Under a password of too many bytes no text can be locked. -/
theorem lockFault?_of_long {l : Lock} {text password : String}
    (h : Argon2id.mostBytes < password.utf8ByteSize) :
    l.lockFault? text password
      = some (.keyDerivation "Argon2 failed: password is too long") := by
  rw [lockFault?, Current.lockFault?, Current.stretchFault?_of_long h]

/-- Four gibibytes are too many for a password. -/
theorem mostBytes_lt_letters : Argon2id.mostBytes < (letters 4294967296).utf8ByteSize := by
  rw [size_letters]
  decide

/-- The random bytes are as many as locking takes, and the text can be locked under the
password. -/
structure Fits (l : Lock) (text password : String) (head : Bytes) : Prop where
  length : head.length = l.headLength
  fault : l.lockFault? text password = none

theorem tryLock_of_fault {l : Lock} {text password : String} {error : LockError}
    (h : l.lockFault? text password = some error) (head : Bytes) :
    l.tryLock text password head = .error error := by
  rw [tryLock, h]

theorem tryLock_eq_ok_iff {l : Lock} {text password locked : String} {head : Bytes} :
    l.tryLock text password head = .ok locked ↔
      l.lockFault? text password = none ∧ locked = l.lock text password head := by
  cases h : l.lockFault? text password with
  | some error => simp [tryLock_of_fault h]
  | none => simp [tryLock, h, eq_comm]

theorem Fits.tryLock {l : Lock} {text password : String} {head : Bytes}
    (h : l.Fits text password head) :
    l.tryLock text password head = .ok (l.lock text password head) :=
  tryLock_eq_ok_iff.2 ⟨h.fault, rfl⟩

/-! ### The current format -/

namespace Current

variable {p : Params} {password text : String}

theorem parts?_encode {head encrypted : Bytes} (h : head.length = p.saltLength + p.nonceLength)
    (he : Gcm.tagLength ≤ encrypted.length) :
    parts? p (Base64.encode (head ++ encrypted)) = some (head, encrypted) := by
  have hlen : ¬ (head ++ encrypted).length < head.length + Gcm.tagLength := by
    rw [List.length_append]
    omega
  simp only [parts?, Base64.decode_encode, Option.bind_eq_bind, Option.bind_some, ← h, if_neg hlen,
    List.take_left, List.drop_left]
  rfl

theorem parts?_eq_some {payload : List Char} {head encrypted : Bytes}
    (h : parts? p payload = some (head, encrypted)) :
    head.length = p.saltLength + p.nonceLength ∧ Gcm.tagLength ≤ encrypted.length ∧
      payload = Base64.encode (head ++ encrypted) := by
  simp only [parts?, Option.bind_eq_bind, Option.bind_eq_some_iff] at h
  obtain ⟨raw, hraw, h⟩ := h
  split at h
  · cases h
  · obtain ⟨rfl, rfl⟩ := Prod.mk.inj (Option.some.inj h)
    refine ⟨?_, ?_, ?_⟩
    · rw [List.length_take]
      omega
    · rw [List.length_drop]
      omega
    · rw [List.take_append_drop, Base64.encode_of_decode hraw]

/-- Salt and nonce are read back, and with them the key. -/
theorem unlock_lock {head : Bytes} (h : head.length = p.saltLength + p.nonceLength)
    (hf : lockFault? p text password = none) :
    unlock p (lock p text password head) password = .ok (ofText text) := by
  obtain ⟨hstretch, htext⟩ := stretchFault?_of_lockFault? hf
  rw [unlock, lock, parts?_encode h (by simp)]
  simp only [hstretch]
  rw [Gcm.decrypt?_encrypt _ _ (by rwa [size_ofText])]
  rfl

/-- What opens is in two parts, and its tag is right. -/
theorem unlock_eq_ok_iff {payload : List Char} {b : Bytes} :
    unlock p payload password = .ok b ↔ ∃ head encrypted,
      parts? p payload = some (head, encrypted) ∧ stretchFault? p password = none ∧
        Gcm.decrypt? (stretch p password (head.take p.saltLength)) (head.drop p.saltLength)
          encrypted = some b := by
  constructor
  · intro h
    simp only [unlock] at h
    split at h
    · cases h
    · rename_i head encrypted hparts
      split at h
      · cases h
      · exact ⟨head, encrypted, hparts, ‹_›, LockError.orDamaged_eq_ok.1 h⟩
  · rintro ⟨head, encrypted, hparts, hstretch, hdecrypt⟩
    simp only [unlock, hparts, hstretch, hdecrypt, LockError.orDamaged]

/-- What opens is what the same parameters and password write. -/
theorem lock_of_unlock {payload : List Char}
    (h : unlock p payload password = .ok (ofText text)) :
    ∃ head : Bytes, head.length = p.saltLength + p.nonceLength ∧
      lockFault? p text password = none ∧ payload = lock p text password head := by
  obtain ⟨head, encrypted, hparts, hstretch, hdecrypt⟩ := unlock_eq_ok_iff.1 h
  obtain ⟨hlen, -, rfl⟩ := parts?_eq_some hparts
  refine ⟨head, hlen, ?_, by rw [lock, ← Gcm.encrypt_of_decrypt? hdecrypt]⟩
  have htext := Gcm.length_le_of_decrypt? hdecrypt
  rw [size_ofText] at htext
  rw [lockFault?, hstretch]
  exact if_neg (Nat.not_lt.2 htext)

/-- Bytes that open are salt and nonce, and what was encrypted. -/
theorem parts_of_unlock {raw b : Bytes} (h : unlock p (Base64.encode raw) password = .ok b) :
    ∃ head encrypted, raw = head ++ encrypted ∧ head.length = p.saltLength + p.nonceLength ∧
      Gcm.decrypt? (stretch p password (head.take p.saltLength)) (head.drop p.saltLength)
        encrypted = some b := by
  obtain ⟨head, encrypted, hparts, -, hdecrypt⟩ := unlock_eq_ok_iff.1 h
  obtain ⟨hlen, -, heq⟩ := parts?_eq_some hparts
  have hdecode := congrArg Base64.decode heq
  rw [Base64.decode_encode, Base64.decode_encode] at hdecode
  exact ⟨head, encrypted, Option.some.inj hdecode, hlen, hdecrypt⟩

/-- What opens is determined by all of its bytes but the tag. -/
theorem eq_of_unlock {raw raw' b b' : Bytes} (hlen : raw'.length = raw.length)
    (hsame : raw'.take (raw.length - Gcm.tagLength) = raw.take (raw.length - Gcm.tagLength))
    (h : unlock p (Base64.encode raw) password = .ok b)
    (h' : unlock p (Base64.encode raw') password = .ok b') : raw' = raw := by
  obtain ⟨head, encrypted, rfl, hhead, hdecrypt⟩ := parts_of_unlock h
  obtain ⟨head', encrypted', rfl, hhead', hdecrypt'⟩ := parts_of_unlock h'
  have htag := Gcm.tagLength_le_of_decrypt? hdecrypt
  have hlen' : head'.length = head.length := hhead'.trans hhead.symm
  have hcut : (head ++ encrypted).length - Gcm.tagLength
      = head.length + (encrypted.length - Gcm.tagLength) := by
    rw [List.length_append]
    omega
  rw [List.length_append, List.length_append, hlen', Nat.add_left_cancel_iff] at hlen
  rw [hcut, List.take_length_add_append, ← hlen', List.take_length_add_append] at hsame
  -- one head means one key and one nonce, so the bodies are told apart by their tags alone
  obtain ⟨rfl, hbody⟩ := List.append_inj hsame hlen'
  rw [Gcm.eq_of_decrypt? hdecrypt' hdecrypt (by rwa [hlen])]

end Current

/-! ### Locks -/

variable {l : Lock} {password text : String}

/-- **Reading back.**  Whatever the random bytes, a locked text opens to its plain text. -/
theorem unlock_lock {head : Bytes} (h : l.Fits text password head) :
    l.unlock (l.lock text password head) password = .ok text := by
  simp only [unlock, lock, Format.split?_append, Current.unlock_lock h.length h.fault,
    toText?_ofText, LockError.orDamaged]

/-- A text with the current tag opens only if it was locked under the password. -/
theorem lock_of_unlock {locked : String} (ht : Format.current.Leads locked)
    (h : l.unlock locked password = .ok text) :
    ∃ head : Bytes, l.Fits text password head ∧ locked = l.lock text password head := by
  obtain ⟨payload, hs⟩ := Format.split?_of_leads ht
  simp only [unlock, hs] at h
  split at h
  · cases h
  · rename_i bytes hu
    -- no two byte strings spell one text, so the bytes are those of the text
    rw [ofText_of_toText? (LockError.orDamaged_eq_ok.1 h)] at hu
    obtain ⟨head, hlen, hf, rfl⟩ := Current.lock_of_unlock hu
    exact ⟨head, ⟨hlen, hf⟩, Format.eq_of_split? hs⟩

/-- Under a password of too many bytes no text in the current format opens. -/
theorem unlock_lock_of_long {text' long : String} {head : Bytes}
    (h : Argon2id.mostBytes < long.utf8ByteSize) :
    l.unlock (l.lock text password head) long ≠ .ok text' := by
  intro hu
  obtain ⟨_, hfits, -⟩ := lock_of_unlock (Format.leads_append .current _) hu
  exact nomatch (lockFault?_of_long h).symm.trans hfits.fault

theorem unlock_of_unlock {payload : List Char}
    (h : l.unlock (Format.current.tag ++ String.ofList payload) password = .ok text) :
    ∃ b, Current.unlock l.params payload password = .ok b := by
  simp only [unlock, Format.split?_append] at h
  split at h
  · cases h
  · exact ⟨_, ‹_›⟩

/-- What does not open is damaged, unless no key can be stretched. -/
theorem Current.unlock_error {p : Params} {payload : List Char} {error : LockError}
    (h : Current.unlock p payload password = .error error) :
    error = .decryption ∨ Current.stretchFault? p password = some error := by
  simp only [Current.unlock] at h
  split at h
  · exact .inl (Except.error.inj h).symm
  · split at h
    · rename_i hstretch
      exact .inr (by rw [hstretch, Except.error.inj h])
    · exact .inl (LockError.eq_of_orDamaged h)

/-- A text with a tag opens, or else it is damaged, or it has the current tag and no key can be
stretched. -/
theorem unlock_cases (l : Lock) (password : String) {f : Format} {locked : String}
    (ht : f.Leads locked) :
    (∃ text, l.unlock locked password = .ok text) ∨
      l.unlock locked password = .error .decryption ∨
      f = .current ∧ ∃ error, Current.stretchFault? l.params password = some error ∧
        l.unlock locked password = .error error := by
  obtain ⟨payload, hs⟩ := Format.split?_of_leads ht
  cases h : l.unlock locked password with
  | ok text => exact .inl ⟨text, rfl⟩
  | error error =>
      right
      cases f with
      | legacy =>
          simp only [unlock, hs] at h
          exact .inl (by rw [LockError.eq_of_orDamaged h])
      | current =>
          simp only [unlock, hs] at h
          split at h
          · rename_i hu
            obtain rfl := Except.error.inj h
            rcases Current.unlock_error hu with rfl | hstretch
            · exact .inl rfl
            · exact .inr ⟨rfl, _, hstretch, rfl⟩
          · exact .inl (by rw [LockError.eq_of_orDamaged h])

/-- **One spelling for each choice of the random bytes.**  A text with the current tag opens to a
plain text exactly when it is that text, locked with some random bytes in place of salt and nonce.
If it is no locked text under the password it is damaged, unless no key can be stretched from the
password and a salt at all, and then that may be the answer.  What opens with another tag at its
end is damaged too; and a text with neither tag has no known format. -/
theorem unlock_current_iff (l : Lock) (locked password : String) :
    (Format.current.Leads locked →
      (∀ text, l.unlock locked password = .ok text ↔
        ∃ head : Bytes, head.length = l.params.saltLength + 12 ∧
          l.tryLock text password head = .ok locked) ∧
      ((¬ ∃ (text : String) (head : Bytes), head.length = l.params.saltLength + 12 ∧
          l.tryLock text password head = .ok locked) →
        l.unlock locked password = .error .decryption ∨
          ∃ error, Current.stretchFault? l.params password = some error ∧
            l.unlock locked password = .error error)) ∧
    (∀ (raw raw' : Bytes) (text : String),
      l.unlock (Format.current.tag ++ String.ofList (Base64.encode raw)) password = .ok text →
      raw'.length = raw.length → raw'.take (raw.length - 16) = raw.take (raw.length - 16) →
      raw' ≠ raw →
      l.unlock (Format.current.tag ++ String.ofList (Base64.encode raw')) password
        = .error .decryption) ∧
    (¬ Format.legacy.Leads locked → ¬ Format.current.Leads locked →
      l.unlock locked password = .error .unknownVersion) := by
  have hopen : ∀ {text}, Format.current.Leads locked → (l.unlock locked password = .ok text ↔
      ∃ head : Bytes, head.length = l.params.saltLength + 12 ∧
        l.tryLock text password head = .ok locked) := by
    intro text ht
    rw [← headLength_eq]
    constructor
    · intro h
      obtain ⟨head, hfits, e⟩ := lock_of_unlock ht h
      exact ⟨head, hfits.length, tryLock_eq_ok_iff.2 ⟨hfits.fault, e⟩⟩
    · rintro ⟨head, hlen, e⟩
      obtain ⟨hfault, rfl⟩ := tryLock_eq_ok_iff.1 e
      exact unlock_lock ⟨hlen, hfault⟩
  refine ⟨fun ht => ⟨fun text => hopen ht, fun hno => ?_⟩,
    fun raw raw' text h hlen hsame hne => ?_, fun hl hc => ?_⟩
  · rcases unlock_cases l password ht with ⟨text, h⟩ | h | ⟨-, h⟩
    · exact absurd ⟨text, (hopen ht).1 h⟩ hno
    · exact .inl h
    · exact .inr h
  · obtain ⟨b, hb⟩ := unlock_of_unlock h
    obtain ⟨-, -, -, hstretch, -⟩ := Current.unlock_eq_ok_iff.1 hb
    rcases unlock_cases l password
      (Format.leads_append .current (Base64.encode raw')) with ⟨text', h'⟩ | h' | ⟨-, _, hs, -⟩
    · obtain ⟨b', hb'⟩ := unlock_of_unlock h'
      exact absurd (Current.eq_of_unlock hlen hsame hb hb') hne
    · exact h'
    · exact absurd (hstretch.symm.trans hs) (by simp)
  · simp only [unlock, Format.split?_eq_none hl hc]

end Strongbox.Lock

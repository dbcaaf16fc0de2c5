import Strongbox.Proofs.Lock.Spelling

/-!
# Lock — the legacy format

A locked text in the legacy format carries its salt, and has one spelling for each salt.  Its body
is not authenticated: with the right salt and check bytes any body opens that uncovers to a text.
Still, what opens is what the same password and salt write.

* `Legacy.getElem?_cover`: the pad is made of blocks of thirty-two bytes, numbered from zero.
* `Legacy.unlock?_parts`: what comes of the three parts of a locked text.
* `Legacy.Damaged`: the four ways in which a text with the legacy tag fails to open.
* `unlock_legacy_iff`: a text with the legacy tag opens to a plain text exactly when it is that
  text locked with the salt that it carries, whatever the parameters of the lock.
-/

namespace Strongbox.Lock

open Bytes

namespace Legacy

/-! ### The pad -/

@[simp] theorem length_pad (key : Bytes) (counter n : Nat) :
    (pad key counter n).length = 32 * n := by
  induction n generalizing counter with
  | zero => rfl
  | succ n ih =>
      rw [pad, List.length_append, Sha256.length_digest, ih]
      omega

@[simp] theorem length_cover (key data : Bytes) : (cover key data).length = data.length := by
  rw [cover, length_xor, length_pad]
  omega

/-- Covering twice uncovers, whatever is left over after the last whole block. -/
theorem cover_cover (key data : Bytes) : cover key (cover key data) = data := by
  rw [cover, length_cover, cover]
  refine xor_xor ?_
  rw [length_pad]
  omega

@[simp] theorem length_check (key : Bytes) : (check key).length = checkLength := by
  rw [check, List.length_take, Sha256.length_digest]
  rfl

/-- The byte of the pad at a place: one of the block that the place lies in. -/
def padByte (key : Bytes) (place : Nat) : UInt8 :=
  (Sha256.digest (key ++ big64 (UInt64.ofNat (place / 32)))).getD (place % 32) 0

theorem getElem?_pad (key : Bytes) {counter n i : Nat} (h : i < 32 * n) :
    (pad key counter n)[i]? = some (padByte key (32 * counter + i)) := by
  induction n generalizing counter i with
  | zero => omega
  | succ n ih =>
      rw [pad]
      by_cases hi : i < 32
      · have hdiv : (32 * counter + i) / 32 = counter := by omega
        have hmod : (32 * counter + i) % 32 = i := by omega
        have hlen : i < (Sha256.digest (key ++ big64 (UInt64.ofNat counter))).length := by
          rwa [Sha256.length_digest]
        rw [List.getElem?_append_left hlen, padByte, hdiv, hmod, List.getD_eq_getElem?_getD,
          List.getElem?_eq_getElem hlen, Option.getD_some]
      · -- the place lies in a later block, and the rest of the pad counts from one higher
        have hnext : 32 * (counter + 1) + (i - 32) = 32 * counter + i := by omega
        rw [List.getElem?_append_right (by rw [Sha256.length_digest]; omega),
          Sha256.length_digest, ih (by omega), hnext]

/-- **The byte of covered data at a place** is that of the data, with the byte of the pad added. -/
theorem getElem?_cover (key data : Bytes) (i : Nat) :
    (cover key data)[i]? = data[i]?.map (· ^^^ padByte key i) := by
  by_cases h : i < data.length
  · have hpad : (pad key 0 ((data.length + 31) / 32))[i]? = some (padByte key (32 * 0 + i)) :=
      getElem?_pad key (by omega)
    rw [Nat.mul_zero, Nat.zero_add] at hpad
    rw [cover, Bytes.xor, List.getElem?_zipWith', hpad, List.getElem?_eq_getElem h]
    rfl
  · rw [List.getElem?_eq_none (by rw [length_cover]; omega), List.getElem?_eq_none (by omega)]
    rfl

/-! ### The parts of a locked text -/

/-- The key for a password and a salt. -/
abbrev keyOf (password : String) (salt : Bytes) : Bytes :=
  stretch (ofText password) salt

variable {password text : String} {salt : Bytes}

/-- **What comes of the three parts of a locked text**: salt, check bytes and body. -/
theorem unlock?_parts {found body : Bytes} (hs : salt.length = saltLength)
    (hf : found.length = checkLength) :
    unlock? (Base64.encode (salt ++ (found ++ body))) password
      = if found = check (keyOf password salt) then some (cover (keyOf password salt) body)
        else none := by
  have hlen : ¬ (salt ++ (found ++ body)).length < saltLength + checkLength := by
    simp only [List.length_append, hs, hf]
    omega
  have hbody : (salt ++ (found ++ body)).drop (saltLength + checkLength) = body := by
    rw [← List.drop_drop, List.drop_left' hs, List.drop_left' hf]
  simp only [unlock?, Base64.decode_encode, Option.bind_eq_bind, Option.bind_some, if_neg hlen,
    List.take_left' hs, List.drop_left' hs, List.take_left' hf, hbody]

/-- Bytes that are enough for salt and check bytes fall into the three parts. -/
theorem exists_parts {raw : Bytes} (h : ¬ raw.length < saltLength + checkLength) :
    ∃ salt found body : Bytes, salt.length = saltLength ∧ found.length = checkLength ∧
      raw = salt ++ (found ++ body) := by
  refine ⟨raw.take saltLength, (raw.drop saltLength).take checkLength,
    (raw.drop saltLength).drop checkLength, ?_, ?_, ?_⟩
  · rw [List.length_take]
    omega
  · rw [List.length_take, List.length_drop]
    omega
  · rw [List.take_append_drop, List.take_append_drop]

/-- The spelling of a locked text by its parts. -/
theorem lock_eq (text password : String) (salt : Bytes) :
    lock text password salt = Base64.encode
      (salt ++ (check (keyOf password salt) ++ cover (keyOf password salt) (ofText text))) := by
  rw [lock, List.append_assoc]

theorem unlock?_lock (h : salt.length = saltLength) :
    unlock? (lock text password salt) password = some (ofText text) := by
  rw [lock_eq, unlock?_parts h (length_check _), if_pos rfl, cover_cover]

/-- What opens is what the same password and salt write. -/
theorem lock_of_unlock? {payload : List Char}
    (h : unlock? payload password = some (ofText text)) :
    ∃ salt : Bytes, salt.length = saltLength ∧ payload = lock text password salt := by
  cases hraw : Base64.decode payload with
  | none => simp [unlock?, hraw] at h
  | some raw =>
      obtain rfl := Base64.encode_of_decode hraw
      by_cases hlen : raw.length < saltLength + checkLength
      · simp [unlock?, hraw, hlen] at h
      · obtain ⟨salt, found, body, hs, hf, rfl⟩ := exists_parts hlen
        rw [unlock?_parts hs hf] at h
        split at h
        · rename_i hcheck
          obtain hbody := Option.some.inj h
          exact ⟨salt, hs, by rw [lock_eq, ← hbody, cover_cover, hcheck]⟩
        · cases h

/-- The four ways in which what follows the tag fails to open: it is no base 64 in its one
spelling; it has too few bytes for salt and check bytes; the check bytes are not those of the key;
or the body uncovers to bytes that are no text. -/
inductive Damaged (password : String) (payload : List Char) : Prop where
  | spelling (h : Base64.decode payload = none)
  | short {raw : Bytes} (h : Base64.decode payload = some raw) (hlen : raw.length < 12)
  | check {salt found body : Bytes}
      (h : Base64.decode payload = some (salt ++ (found ++ body))) (hs : salt.length = 8)
      (hf : found.length = 4) (hne : found ≠ check (keyOf password salt))
  | text {salt found body : Bytes}
      (h : Base64.decode payload = some (salt ++ (found ++ body))) (hs : salt.length = 8)
      (hf : found.length = 4) (hno : toText? (cover (keyOf password salt) body) = none)

/-- What is damaged does not open to a text, and all else does. -/
theorem damaged_iff {payload : List Char} :
    Damaged password payload ↔ (unlock? payload password).bind toText? = none := by
  constructor
  · rintro (h | ⟨h, hlen⟩ | ⟨h, hs, hf, hne⟩ | ⟨h, hs, hf, hno⟩)
    · simp [unlock?, h]
    · have hlen' : _ < saltLength + checkLength := hlen
      simp [unlock?, h, hlen']
    · obtain rfl := Base64.encode_of_decode h
      rw [unlock?_parts hs hf, if_neg hne]
      rfl
    · obtain rfl := Base64.encode_of_decode h
      rw [unlock?_parts hs hf]
      split
      · exact hno
      · rfl
  · intro h
    cases hraw : Base64.decode payload with
    | none => exact .spelling hraw
    | some raw =>
        by_cases hlen : raw.length < saltLength + checkLength
        · exact .short hraw hlen
        · obtain ⟨salt, found, body, hs, hf, rfl⟩ := exists_parts hlen
          obtain rfl := Base64.encode_of_decode hraw
          rw [unlock?_parts hs hf] at h
          by_cases hcheck : found = Legacy.check (keyOf password salt)
          · rw [if_pos hcheck] at h
            exact .text hraw hs hf h
          · exact .check hraw hs hf hcheck

/-- The text has the legacy tag and carries the salt. -/
def Carries (locked : String) (salt : Bytes) : Prop :=
  salt.length = saltLength ∧
    ∃ rest, locked = Format.legacy.tag ++ String.ofList (Base64.encode (salt ++ rest))

theorem carries_lockLegacy (h : salt.length = saltLength) :
    Carries (lockLegacy text password salt) salt :=
  ⟨h, _, by rw [lockLegacy, lock_eq]⟩

end Legacy

/-! ### Locks -/

variable {l : Lock} {password text : String}

/-- **Reading back.**  Whatever the salt, a legacy text opens to its plain text. -/
theorem unlock_lockLegacy {salt : Bytes} (h : salt.length = Legacy.saltLength) :
    l.unlock (lockLegacy text password salt) password = .ok text := by
  simp only [unlock, lockLegacy, Format.split?_append, Legacy.unlock?_lock h, Option.bind_some,
    toText?_ofText, LockError.orDamaged]

/-- A text with the legacy tag opens only if it was locked under the password. -/
theorem lockLegacy_of_unlock {locked : String} (ht : Format.legacy.Leads locked)
    (h : l.unlock locked password = .ok text) :
    ∃ salt : Bytes, salt.length = Legacy.saltLength ∧
      locked = lockLegacy text password salt := by
  obtain ⟨payload, hs⟩ := Format.split?_of_leads ht
  simp only [unlock, hs] at h
  obtain ⟨bytes, hu, hb⟩ := Option.bind_eq_some_iff.1 (LockError.orDamaged_eq_ok.1 h)
  rw [ofText_of_toText? hb] at hu
  obtain ⟨salt, hlen, rfl⟩ := Legacy.lock_of_unlock? hu
  exact ⟨salt, hlen, Format.eq_of_split? hs⟩

/-- **One spelling for each salt.**  A text with the legacy tag opens to a plain text exactly when
it is that text locked with the salt that it carries.  All others are damaged, which comes about in
four ways.  Every lock gives the same answer, so that the parameters do not matter.  Each salt of
eight bytes is carried by the text locked with it, which therefore opens to what it was made from;
its body covers the text with a pad in blocks of thirty-two bytes, of which the last one may be cut
off anywhere. -/
theorem unlock_legacy_iff (l : Lock) {locked : String} (password : String)
    (ht : Format.legacy.Leads locked) :
    (∀ text, l.unlock locked password = .ok text ↔
      ∃ salt : Bytes, Legacy.Carries locked salt ∧ locked = lockLegacy text password salt) ∧
    ((¬ ∃ (text : String) (salt : Bytes), Legacy.Carries locked salt ∧
        locked = lockLegacy text password salt) →
      l.unlock locked password = .error .decryption) ∧
    (∀ payload, locked = Format.legacy.tag ++ String.ofList payload →
      (l.unlock locked password = .error .decryption ↔ Legacy.Damaged password payload)) ∧
    (∀ l' : Lock, l'.unlock locked password = l.unlock locked password) ∧
    ∀ (text : String) (salt : Bytes), salt.length = 8 →
      Legacy.Carries (lockLegacy text password salt) salt ∧
      l.unlock (lockLegacy text password salt) password = .ok text ∧
      ∃ body : Bytes, lockLegacy text password salt = Format.legacy.tag ++ String.ofList
          (Base64.encode (salt ++ (Legacy.check (Legacy.keyOf password salt) ++ body))) ∧
        body.length = (ofText text).length ∧
        ∀ i : Nat, body[i]? =
          (ofText text)[i]?.map (· ^^^ Legacy.padByte (Legacy.keyOf password salt) i) := by
  have hopen : ∀ text, l.unlock locked password = .ok text ↔
      ∃ salt : Bytes, Legacy.Carries locked salt ∧ locked = lockLegacy text password salt := by
    intro text
    constructor
    · intro h
      obtain ⟨salt, hlen, rfl⟩ := lockLegacy_of_unlock ht h
      exact ⟨salt, Legacy.carries_lockLegacy hlen, rfl⟩
    · rintro ⟨salt, hsalt, rfl⟩
      exact unlock_lockLegacy hsalt.1
  refine ⟨hopen, fun hno => ?_, ?_, fun l' => ?_, fun text salt hs =>
    ⟨Legacy.carries_lockLegacy hs, unlock_lockLegacy hs, _, ?_, Legacy.length_cover _ _,
      Legacy.getElem?_cover _ _⟩⟩
  · rcases l.unlock_cases password ht with ⟨text, h⟩ | h | ⟨h, -⟩
    · exact absurd ⟨text, (hopen text).1 h⟩ hno
    · exact h
    · cases h
  · rintro payload rfl
    rw [Legacy.damaged_iff]
    simp only [unlock, Format.split?_append]
    cases (Legacy.unlock? payload password).bind toText? <;> simp [LockError.orDamaged]
  · obtain ⟨payload, hsplit⟩ := Format.split?_of_leads ht
    simp only [unlock, hsplit]
  · rw [lockLegacy, Legacy.lock_eq]

/-- A text of forty-four bytes, which takes the pad over one whole block and into the next. -/
def legacySample : String :=
  lockLegacy "The quick brown fox jumps over the lazy dog." "password" (List.replicate 8 7)

theorem unlock_legacy_iff_legacySample :
    Format.legacy.Leads legacySample ∧
      ∃ l : Lock, l.unlock legacySample "password"
        = .ok "The quick brown fox jumps over the lazy dog." := by
  have ht : Format.legacy.Leads legacySample := Format.leads_append .legacy _
  refine ⟨ht, ⟨Preset.default.params, by decide⟩, ?_⟩
  exact ((unlock_legacy_iff _ "password" ht).1 _).2 ⟨_, Legacy.carries_lockLegacy rfl, rfl⟩

end Strongbox.Lock

import Mathlib.Algebra.Ring.Nat
import Strongbox.Settings.Document
import Strongbox.Vault.Basic

/-!
# Vault — which settings make a vault

Settings are looked at twice.  The check of settings asks for enough memory for the lanes that the
key stretching works on, and for at least one pass and one lane.  The key stretching has a look of
its own when a vault is made: it asks for the same and, besides, for no more lanes than it can
number.  Whatever settings a document or a file gives have passed the check, so they make a vault
unless they have too many lanes.

* `Argon2id.Takes`: the costs that the key stretching takes.
* `Settings.Given`: settings that a document or a file gives; `Settings.Given.check`: they pass.
* `Vault.ofSettings_told`: the settings that make a vault, and why others do not.
* `Vault.exists_checked_refused`: settings of a document that make no vault.
-/

namespace Strongbox

/-- The costs and the length of a key that the key stretching takes. -/
structure Argon2id.Takes (c : Cost) (size : Nat) : Prop where
  memory : max 8 (8 * c.lanes) ≤ c.memory
  passes : 1 ≤ c.passes
  someLane : 1 ≤ c.lanes
  fewLanes : c.lanes ≤ 2 ^ 24 - 1
  size : 4 ≤ size

namespace Lock.Params

variable {p : Params}

/-- What the key stretching is asked for. -/
def cost (p : Params) : Argon2id.Cost :=
  ⟨p.memoryKib, p.iterations, p.parallelism⟩

theorem check_eq_ok : p.check = .ok () ↔ p.fault? = none := by
  rw [check]
  cases p.fault? <;> simp

theorem laneFault?_eq_none : p.laneFault? = none ↔ p.parallelism ≤ mostLanes := by
  simp only [laneFault?, ite_eq_right_iff, reduceCtorEq, imp_false, Nat.not_lt]

/-- Parameters that break no rule ask for enough memory, some work, and a key of the full length. -/
theorem sound_work (h : p.fault? = none) :
    p.keyLength = Lock.keyLength ∧ p.iterations ≠ 0 ∧ p.parallelism ≠ 0 ∧
      8 * p.parallelism ≤ p.memoryKib := by
  simp only [fault?] at h
  repeat (split at h; · cases h)
  rename_i hkey _ _ hwork hmemory
  exact ⟨Decidable.not_not.1 hkey, fun h => hwork (.inl h), fun h => hwork (.inr h),
    Nat.not_lt.1 hmemory⟩

/-- **The key stretching takes** what breaks no rule, up to its number of lanes. -/
theorem takes_iff (h : p.fault? = none) :
    Argon2id.Takes p.cost p.keyLength ↔ p.parallelism ≤ mostLanes := by
  obtain ⟨hkey, hpasses, hlanes, hmemory⟩ := sound_work h
  constructor
  · intro htakes
    exact htakes.fewLanes
  · intro hfew
    have hsize : 4 ≤ p.keyLength := by
      rw [hkey]
      decide
    have hleast : 8 ≤ 8 * p.parallelism := Nat.le_mul_of_pos_right 8 (Nat.pos_of_ne_zero hlanes)
    exact {
      memory := Nat.max_le.2 ⟨Nat.le_trans hleast hmemory, hmemory⟩
      passes := Nat.pos_of_ne_zero hpasses
      someLane := Nat.pos_of_ne_zero hlanes
      fewLanes := hfew
      size := hsize }

end Lock.Params

namespace Settings

variable {s : Settings}

theorem check_eq_ok : s.check = .ok () ↔ s.fault? = none := by
  rw [check]
  cases s.fault? <;> simp

/-- The lock of settings that break no rule breaks none. -/
theorem lock_sound (h : s.fault? = none) : s.lock.fault? = none := by
  rw [fault?] at h
  cases hlock : s.lock.check with
  | ok => exact Lock.Params.check_eq_ok.1 hlock
  | error error => rw [hlock] at h; cases h

/-! ### Where settings come from -/

/-- A document or a file gives the settings, or a missing file leaves the usual ones. -/
inductive Given (s : Settings) : Prop
  | document (text : String) (h : ofToml text = .ok s)
  | file (content : FileContent) (h : load content = .ok s)
  | place (content : FileContent) (h : loadIfPresent content = .ok s)

/-- The settings of a document have passed the check. -/
theorem check_of_ofToml {text : String} (h : ofToml text = .ok s) : s.check = .ok () := by
  rw [ofToml] at h
  split at h
  · cases h
  · rename_i lock tokens rotation _
    cases hp : lock.params with
    | error error => rw [hp] at h; cases h
    | ok params =>
        cases hc : check { lock := params, tokens, rotation } with
        | error error => simp only [hp, hc, bind, Except.bind, reduceCtorEq] at h
        | ok =>
            simp only [hp, hc, bind, Except.bind, pure, Except.pure, Except.ok.injEq] at h
            exact h ▸ hc

theorem check_of_load {content : FileContent} (h : load content = .ok s) : s.check = .ok () := by
  cases content with
  | missing | folder => cases h
  | bytes b =>
      rw [load] at h
      split at h
      · exact check_of_ofToml h
      · cases h

/-- **Settings that are given have passed the check.** -/
theorem Given.check (h : s.Given) : s.check = .ok () := by
  cases h with
  | document text h => exact check_of_ofToml h
  | file content h => exact check_of_load h
  | place content h =>
      cases content with
      | missing =>
          obtain rfl := Except.ok.inj h
          rfl
      | folder => cases h
      | bytes b =>
          have hload : load (.bytes b) = .ok s := h
          exact check_of_load hload

end Settings

namespace Vault

variable {s : Settings}

/-- Settings that break a rule are refused with the rule that the check reports. -/
theorem ofSettings_of_check_error {error : SettingsError} (h : s.check = .error error) :
    ofSettings s = .error (.settings error) := by
  rw [Settings.check] at h
  split at h
  · rename_i fault hfault
    obtain rfl := Except.error.inj h
    rw [ofSettings]
    split
    · rename_i fault' hfault'
      obtain rfl := Option.some.inj (hfault.symm.trans hfault')
      rfl
    · rename_i hnone
      exact absurd (hfault.symm.trans hnone) nofun
  · cases h

/-- Settings with too many lanes are refused, though they break no rule of the check. -/
theorem ofSettings_of_lanes (h : s.check = .ok ())
    (hmany : Lock.mostLanes < s.lock.parallelism) :
    ofSettings s = .error (.settings (.invalid (.lock (.invalidParams .lanes)))) := by
  have hsound := Settings.check_eq_ok.1 h
  have hfault : s.lock.laneFault? = some .lanes := if_pos hmany
  rw [ofSettings]
  split
  · rename_i fault hfault
    exact absurd (hsound.symm.trans hfault) nofun
  · split
    · rename_i fault hfault'
      obtain rfl := Option.some.inj (hfault.symm.trans hfault')
      rfl
    · rename_i hnone
      exact absurd (hfault.symm.trans hnone) nofun

/-- Settings that break no rule and have not too many lanes make a vault. -/
theorem ofSettings_of_sound (h : s.check = .ok ())
    (hfew : s.lock.parallelism ≤ Lock.mostLanes) :
    ∃ v, ofSettings s = .ok v ∧ v.settings = s := by
  have hsound := Settings.check_eq_ok.1 h
  have hlanes := Lock.Params.laneFault?_eq_none.2 hfew
  rw [ofSettings]
  split
  · rename_i fault hfault
    exact absurd (hsound.symm.trans hfault) nofun
  · split
    · rename_i fault hfault
      exact absurd (hlanes.symm.trans hfault) nofun
    · exact ⟨_, rfl, rfl⟩

/-- Settings make a vault if they pass the check and have not too many lanes. -/
theorem ofSettings_ok_iff :
    (∃ v, ofSettings s = .ok v) ↔ s.check = .ok () ∧ s.lock.parallelism ≤ Lock.mostLanes := by
  cases hc : s.check with
  | error error => simp [ofSettings_of_check_error hc]
  | ok =>
      by_cases hfew : s.lock.parallelism ≤ Lock.mostLanes
      · obtain ⟨v, hv, -⟩ := ofSettings_of_sound hc hfew
        exact ⟨fun _ => ⟨rfl, hfew⟩, fun _ => ⟨v, hv⟩⟩
      · rw [ofSettings_of_lanes hc (Nat.not_le.1 hfew)]
        exact ⟨nofun, fun h => absurd h.2 hfew⟩

/-- **The settings that make a vault.**  They pass the check and have no more lanes than the key
stretching can number, which is to say that the check passes and the key stretching takes them; the
vault is set up with them.  Others are refused with what the check reports, or with the words of the
key stretching on their lanes.  Settings that are given make a vault unless they have too many
lanes. -/
theorem ofSettings_told (s : Settings) :
    ((∃ v, ofSettings s = .ok v) ↔ s.check = .ok () ∧ s.lock.parallelism ≤ 2 ^ 24 - 1) ∧
      ((∃ v, ofSettings s = .ok v) ↔
        s.check = .ok () ∧ Argon2id.Takes s.lock.cost s.lock.keyLength) ∧
      (∀ v, ofSettings s = .ok v → v.settings = s) ∧
      (∀ error, s.check = .error error → ofSettings s = .error (.settings error)) ∧
      (s.check = .ok () → 2 ^ 24 - 1 < s.lock.parallelism →
        ofSettings s = .error (.settings (.invalid (.lock (.invalidParams .lanes))))) ∧
      (s.Given → ((∃ v, ofSettings s = .ok v) ↔ s.lock.parallelism ≤ 2 ^ 24 - 1)) := by
  refine ⟨ofSettings_ok_iff, ?_, ?_, fun _ => ofSettings_of_check_error, ofSettings_of_lanes, ?_⟩
  · -- after the check the lanes are all that the key stretching still asks about
    rw [ofSettings_ok_iff]
    refine and_congr_right fun hc => (Lock.Params.takes_iff ?_).symm
    exact Settings.lock_sound (Settings.check_eq_ok.1 hc)
  · intro v hv
    obtain ⟨hc, hfew⟩ := ofSettings_ok_iff.1 ⟨v, hv⟩
    obtain ⟨v', hv', hs⟩ := ofSettings_of_sound hc hfew
    rwa [Except.ok.inj (hv.symm.trans hv')]
  · intro hgiven
    rw [ofSettings_ok_iff]
    exact and_iff_right hgiven.check

/-- A document that asks for one lane more than the key stretching can number. -/
def wideDocument : String :=
  "[codec]\nparallelism = 16777216\nmemory_kib = 134217728"

/-- The settings that the document gives. -/
def wideSettings : Settings :=
  { lock := { Lock.Preset.default.params with parallelism := 2 ^ 24, memoryKib := 2 ^ 27 } }

/-- Settings that a document gives pass the check, and the key stretching has no room for their
lanes. -/
theorem exists_checked_refused :
    8 * wideSettings.lock.parallelism < 2 ^ 32 ∧
      Settings.ofToml wideDocument = .ok wideSettings ∧
      ofSettings wideSettings = .error (.settings (.invalid (.lock (.invalidParams .lanes)))) ∧
      ¬ (wideSettings.check = .ok () ↔ ∃ v, ofSettings wideSettings = .ok v) := by
  have hcheck : wideSettings.check = .ok () := rfl
  have hrefused := ofSettings_of_lanes hcheck (by decide)
  refine ⟨by decide, by decide +kernel, hrefused, ?_⟩
  intro h
  obtain ⟨v, hv⟩ := h.1 hcheck
  exact nomatch hrefused.symm.trans hv

end Vault

end Strongbox

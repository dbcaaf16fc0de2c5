import Strongbox.Vault.Basic

/-!
# Settings — what sound settings ensure

* `Settings.tokens_sound`: the bounds on tokens are in order, and the usual length lies within.
* `Settings.rotation_pos`: no size that divides work is zero.
* `Vault.generator_bounds`: the generator of a vault takes the bounds as they are set.
-/

namespace Strongbox

namespace Settings

variable {s : Settings}

theorem parts_sound (h : s.fault? = none) : s.tokens.fault? = none ∧ s.rotation.fault? = none := by
  simp only [fault?] at h
  split at h
  · cases h
  · cases ht : s.tokens.fault? with
    | none => rw [ht] at h; exact ⟨rfl, h⟩
    | some fault => rw [ht] at h; cases h

/-- The bounds on tokens are in order, the usual length lies within, and tokens are drawn at all. -/
theorem tokens_sound (h : s.fault? = none) :
    Token.floor ≤ s.tokens.least ∧ s.tokens.least ≤ s.tokens.most ∧
      (s.tokens.least ≤ s.tokens.usual ∧ s.tokens.usual ≤ s.tokens.most) ∧
      0 < s.tokens.attempts := by
  have ht := (parts_sound h).1
  simp only [TokenRules.fault?] at ht
  repeat (split at ht; · cases ht)
  omega

/-- No size that divides work is zero. -/
theorem rotation_pos (h : s.fault? = none) :
    0 < s.rotation.pageSize ∧ 0 < s.rotation.batchSize ∧ 0 < s.rotation.workers ∧
      0 < s.rotation.queueDepth := by
  have hr := (parts_sound h).2
  simp only [RotationRules.fault?] at hr
  repeat (split at hr; · cases hr)
  omega

end Settings

/-- The generator of a vault takes the bounds as they are set. -/
theorem Vault.generator_bounds (v : Vault) :
    v.generator.least = v.settings.tokens.least ∧ v.generator.most = v.settings.tokens.most := by
  obtain ⟨hfloor, hmost, -⟩ := Settings.tokens_sound v.sound
  exact ⟨Nat.max_eq_left hfloor,
    Nat.max_eq_left (Nat.max_le.2 ⟨hmost, Nat.le_trans hfloor hmost⟩)⟩

end Strongbox

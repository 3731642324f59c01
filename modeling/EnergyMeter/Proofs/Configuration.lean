import EnergyMeter.Proofs.History

/-!
The configuration of a meter.  The last setting of each kind decides what is
built, and what is built stays for the life of the handle: it is the clock of
every session and the scale of every current.
-/

namespace EnergyMeter

namespace Config

/-- The clock that a setting chooses, if it chooses one. -/
def Setting.speedHz? : Setting → Option UInt32
  | .speedHz hz => some hz
  | .currentScale _ => none

/-- The scale that a setting chooses, if it chooses one. -/
def Setting.currentScale? : Setting → Option CurrentScale
  | .speedHz _ => none
  | .currentScale scale => some scale

/-- A part of the configuration that one kind of setting replaces is the last
choice of that kind, or what it was before the first one. -/
theorem apply_eq_last {γ : Type} (part : Config → γ) (choice? : Setting → Option γ)
    (hset : ∀ config setting, part (config.set setting) = (choice? setting).getD (part config))
    (config : Config) (settings : List Setting) :
    part (config.apply settings) = (settings.filterMap choice?).getLastD (part config) := by
  induction settings generalizing config with
  | nil => rfl
  | cons setting rest ih =>
      have hrest := ih (config.set setting)
      rw [hset] at hrest
      cases hchoice : choice? setting with
      | none =>
          rw [hchoice] at hrest
          rw [List.filterMap_cons_none hchoice]
          exact hrest
      | some value =>
          rw [hchoice] at hrest
          rw [List.filterMap_cons_some hchoice, List.getLastD_cons]
          exact hrest

theorem speedHz_apply (config : Config) (settings : List Setting) :
    (config.apply settings).speedHz =
      (settings.filterMap Setting.speedHz?).getLastD config.speedHz := by
  apply apply_eq_last speedHz Setting.speedHz?
  intro config setting
  cases setting <;> rfl

theorem currentScale_apply (config : Config) (settings : List Setting) :
    (config.apply settings).currentScale =
      (settings.filterMap Setting.currentScale?).getLastD config.currentScale := by
  apply apply_eq_last currentScale Setting.currentScale?
  intro config setting
  cases setting <;> rfl

end Config

variable {β ε η : Type} [Bus β ε η]

/-- Wherever building begins, the last clock and the last scale that were chosen
are built, and the defaults where none was.  Whatever is then asked of a meter
with this configuration, and however its bus takes it, the meter shows and
releases the same configuration, every session is given its clock, and every
current is counted in its scale. -/
theorem configuration_for_life (settings : List Config.Setting) (bus : β)
    (operations : List Operation) :
    let config := Config.ofSettings settings
    let meter := Meter.fresh bus config
    let last := meter.after operations
    (∀ builder ∈ [Config.new, .new, .default], (builder.chooseAll settings).build = config) ∧
    config.speedHz = (settings.filterMap Config.Setting.speedHz?).getLastD 15625 ∧
    config.currentScale =
      (settings.filterMap Config.Setting.currentScale?).getLastD .documented ∧
    last.config = config ∧
    last.release = (last.bus, config) ∧
    (∀ clock result, .configure clock result ∈ calls (meter.journal operations) →
      clock = config.speedHz) ∧
    last.irmsAmps = last.irmsRaw.map fun count =>
      Float32.ofNat count.toNat / Float32.ofNat config.currentScale.countsPerAmp := by
  intro config meter last
  have hkept : last.config = config := meter.config_after operations
  refine ⟨?built, Config.default.speedHz_apply settings,
    Config.default.currentScale_apply settings, hkept, ?released, ?clock, ?scale⟩
  case built =>
    intro builder hbuilder
    have hnew : builder = .new := by
      simpa [Config.new, Config.Builder.default] using hbuilder
    rw [hnew]
    exact Config.Builder.build_chooseAll .new settings
  case released =>
    rw [Meter.release, hkept]
  case clock =>
    intro clock result hmem
    exact (meter.configure_mem_journal operations hmem).1
  case scale =>
    rw [← hkept]
    rfl

end EnergyMeter

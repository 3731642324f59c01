import EnergyMeter.Text.Labelled

/-!
The configuration of a meter handle: the bus clock and the scale of the
current register.  A configuration is built setting by setting, and the last setting
of each kind decides.
-/

namespace EnergyMeter

/-- How counts of the current register relate to amperes. -/
inductive CurrentScale where
  /-- A count is a milliampere. -/
  | documented
  /-- A count is ten milliamperes, for boards that read ten times too low. -/
  | boosted
deriving DecidableEq, Repr

namespace CurrentScale

/-- Counts of the current register for one ampere. -/
def countsPerAmp : CurrentScale → Nat
  | documented => 1000
  | boosted => 100

/-- The name under which a scale is shown. -/
def text : CurrentScale → String
  | documented => "Documented"
  | boosted => "Boosted"

end CurrentScale

/-- What a meter handle is built with. -/
structure Config where
  /-- The bus clock in hertz. -/
  speedHz : UInt32 := 15625
  /-- The scale of the current register. -/
  currentScale : CurrentScale := .documented
deriving DecidableEq, Repr

namespace Config

/-- The configuration before any setting. -/
def default : Config :=
  {}

/-- One choice made while a configuration is built. -/
inductive Setting where
  | speedHz (hz : UInt32)
  | currentScale (scale : CurrentScale)
deriving DecidableEq, Repr

/-- The configuration with one choice replaced. -/
def set (config : Config) : Setting → Config
  | .speedHz hz => { config with speedHz := hz }
  | .currentScale scale => { config with currentScale := scale }

/-- The configuration after some settings, in the order they are made. -/
def apply (config : Config) (settings : List Setting) : Config :=
  settings.foldl set config

/-- The configuration built from the default one. -/
def ofSettings (settings : List Setting) : Config :=
  default.apply settings

/-- A configuration while it is built, one choice after the other. -/
structure Builder where
  config : Config
deriving DecidableEq, Repr

namespace Builder

/-- A builder before any choice. -/
def new : Builder :=
  ⟨Config.default⟩

def default : Builder :=
  new

/-- The builder after one more choice. -/
def choose (builder : Builder) (setting : Setting) : Builder :=
  ⟨builder.config.set setting⟩

/-- The builder after some choices, in the order they are made. -/
def chooseAll (builder : Builder) (settings : List Setting) : Builder :=
  settings.foldl choose builder

def build (builder : Builder) : Config :=
  builder.config

/-- Choosing and building at the end is applying the choices as settings. -/
theorem build_chooseAll (builder : Builder) (settings : List Setting) :
    (builder.chooseAll settings).build = builder.build.apply settings := by
  induction settings generalizing builder with
  | nil => rfl
  | cons setting rest ih => exact ih (builder.choose setting)

end Builder

/-- Begin building a configuration. -/
def new : Builder :=
  .new

/-- Why a configuration cannot be used. -/
inductive Invalid where
  | zeroSpeed
deriving DecidableEq, Repr

/-- A configuration is usable unless its bus clock stands still. -/
def validate (config : Config) : Except Invalid Unit :=
  if config.speedHz = 0 then .error .zeroSpeed else .ok ()

theorem validate_eq_ok_iff {config : Config} :
    config.validate = .ok () ↔ config.speedHz ≠ 0 := by
  by_cases h : config.speedHz = 0 <;> simp [validate, h]

/-- A configuration, as it is shown. -/
def text (config : Config) : String :=
  Text.labelled "Config"
    [("speed_hz", toString config.speedHz.toNat), ("current_scale", config.currentScale.text)]

end Config

end EnergyMeter

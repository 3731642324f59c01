import EnergyMeter.Proofs.History

/-!
Two buses that answer alike.  When a second bus answers every call of a session
as the first one does, up to a translation of its faults, then a meter cannot
tell them apart: every operation makes the same calls, ends alike and leaves the
same lifecycle state on both.
-/

namespace EnergyMeter

variable {φ ψ ε ζ η α γ : Type}

/-- An outcome with its failure and its value translated. -/
def Outcome.bimap (failing : φ → ψ) (value : α → γ) : Outcome φ η α → Outcome ψ η γ
  | .ok a => .ok (value a)
  | .failed failure => .failed (failing failure)
  | .halted cause => .halted cause

@[simp]
theorem Outcome.bimap_ok (failing : φ → ψ) (value : α → γ) (a : α) :
    (.ok a : Outcome φ η α).bimap failing value = .ok (value a) := rfl

@[simp]
theorem Outcome.bimap_failed (failing : φ → ψ) (value : α → γ) (failure : φ) :
    (.failed failure : Outcome φ η α).bimap failing value = .failed (failing failure) := rfl

@[simp]
theorem Outcome.bimap_halted (failing : φ → ψ) (value : α → γ) (cause : η) :
    (.halted cause : Outcome φ η α).bimap failing value = .halted cause := rfl

theorem State.afterStart_bimap (gain : CurrentGain) (failing : φ → ψ)
    (outcome : Outcome φ η Unit) :
    afterStart gain (outcome.bimap failing id) = afterStart gain outcome := by
  cases outcome <;> rfl

section

variable (fault : ε → ζ)

/-- The same error over another bus. -/
def Error.mapFault : Error ε → Error ζ
  | .connectFailed cause => .connectFailed (fault cause)
  | .configRejected cause => .configRejected (fault cause)
  | .invalidConfig => .invalidConfig
  | .interface cause => .interface (fault cause)
  | .shortTransfer expected actual => .shortTransfer expected actual
  | .notInitialized => .notInitialized
  | .invalidArgument => .invalidArgument

/-- The same call over another bus. -/
def Call.mapFault : Call ε η → Call ζ η
  | .connect result => .connect (result.mapError fault)
  | .configure speedHz result => .configure speedHz (result.mapError fault)
  | .transfer sent size result => .transfer sent size (result.bimap fault id)
  | .write sent result => .write sent (result.bimap fault id)
  | .disconnect result => .disconnect (result.mapError fault)

def DumpItem.mapFault (item : DumpItem ε) : DumpItem ζ :=
  ⟨item.register, item.result.mapError (Error.mapFault fault)⟩

/-- The same answer over another bus. -/
def Answer.mapFault : Answer ε → Answer ζ
  | .nothing => .nothing
  | .word value => .word value
  | .count value => .count value
  | .quantity value => .quantity value
  | .status value => .status value
  | .items read left hint => .items (read.map (DumpItem.mapFault fault)) left hint

end

section

variable (result : Except ε α) (outcome : Outcome φ η α)

@[simp]
theorem Except.mapError_id : result.mapError id = result := by
  cases result <;> rfl

@[simp]
theorem Outcome.bimap_id : outcome.bimap id id = outcome := by
  cases outcome <;> rfl

theorem Error.mapFault_id : Error.mapFault id = (id : Error ε → Error ε) := by
  funext error
  cases error <;> rfl

theorem Call.mapFault_id : Call.mapFault id = (id : Call ε η → Call ε η) := by
  funext call
  cases call <;> simp [mapFault]

theorem DumpItem.mapFault_id : DumpItem.mapFault id = (id : DumpItem ε → DumpItem ε) := by
  funext item
  simp [mapFault, Error.mapFault_id]

theorem Answer.mapFault_id : Answer.mapFault id = (id : Answer ε → Answer ε) := by
  funext answer
  cases answer <;> simp [mapFault, DumpItem.mapFault_id]

end

/-- The second run makes the calls of the first, ends as it does, and the states
they leave belong together. -/
structure Simulated {σ τ : Type} (fault : ε → ζ) (related : σ → τ → Prop) (value : α → γ)
    (first : Run σ ε η α) (second : Run τ ζ η γ) : Prop where
  outcome : second.outcome = first.outcome.bimap (Error.mapFault fault) value
  calls : calls second.journal = (calls first.journal).map (Call.mapFault fault)
  state : related first.state second.state

namespace Simulated

variable {σ τ α' γ' : Type} {fault : ε → ζ} {related : σ → τ → Prop} {value : α → γ}
  {first : Run σ ε η α} {second : Run τ ζ η γ}

theorem pure (a : α) {state : σ} {other : τ} (h : related state other) :
    Simulated fault related value (Run.pure a state : Run σ ε η α)
      (Run.pure (value a) other : Run τ ζ η γ) :=
  ⟨rfl, rfl, h⟩

theorem refuse (error : Error ε) {state : σ} {other : τ} (h : related state other) :
    Simulated fault related value (Run.refuse error state : Run σ ε η α)
      (Run.refuse (error.mapFault fault) other : Run τ ζ η γ) :=
  ⟨rfl, rfl, h⟩

theorem map {f : α → α'} {g : γ → γ'} {value' : α' → γ'}
    (h : Simulated fault related value first second) (hvalue : ∀ a, g (value a) = value' (f a)) :
    Simulated fault related value' (first.map f) (second.map g) := by
  obtain ⟨houtcome, hcalls, hstate⟩ := h
  refine ⟨?_, hcalls, hstate⟩
  simp only [Run.map, houtcome]
  cases first.outcome with
  | ok a => simp [hvalue]
  | failed error => rfl
  | halted cause => rfl

/-- Values that need no translation may be replaced on both sides alike. -/
theorem convert {second : Run τ ζ η α} (h : Simulated fault related id first second) (f : α → α') :
    Simulated fault related id (first.map f) (second.map f) :=
  h.map fun _ => rfl

theorem within {σ' τ' : Type} {related' : σ' → τ' → Prop} {place : σ → σ'} {place' : τ → τ'}
    (h : Simulated fault related value first second)
    (hplace : ∀ state other, related state other → related' (place state) (place' other)) :
    Simulated fault related' value (first.within place) (second.within place') :=
  ⟨h.outcome, h.calls, hplace _ _ h.state⟩

theorem andThen {value' : α' → γ'} {next : α → σ → Run σ ε η α'} {next' : γ → τ → Run τ ζ η γ'}
    (h : Simulated fault related value first second)
    (hnext : ∀ a state other, related state other →
      Simulated fault related value' (next a state) (next' (value a) other)) :
    Simulated fault related value' (first.andThen next) (second.andThen next') := by
  obtain ⟨outcome, state, journal⟩ := first
  obtain ⟨outcome', state', journal'⟩ := second
  obtain ⟨houtcome, hcalls, hstate⟩ := h
  simp only at houtcome hcalls hstate
  subst houtcome
  cases outcome with
  | ok a =>
      have hrest := hnext a state state' hstate
      refine ⟨hrest.outcome, ?_, hrest.state⟩
      simp only [Run.andThen, Outcome.bimap, calls_append, List.map_append, hcalls, hrest.calls]
  | failed error => exact ⟨rfl, hcalls, hstate⟩
  | halted cause => exact ⟨rfl, hcalls, hstate⟩

end Simulated

/-- A second bus that answers every call of a session as the first does, up to a
translation of faults.  The flag tells whether a session is open. -/
structure Simulation (β γ : Type) {ε ζ η : Type} [Bus β ε η] [Bus γ ζ η] (fault : ε → ζ) where
  related : Bool → β → γ → Prop
  connect {bus : β} {other : γ} (h : related false bus other) :
    let first := Bus.connect bus
    let second := Bus.connect other
    second.result = first.result.mapError fault ∧
      related first.result.toBool first.bus second.bus
  configure {bus : β} {other : γ} (h : related true bus other) (speedHz : UInt32) :
    let first := Bus.configure bus speedHz
    let second := Bus.configure other speedHz
    second.1 = first.1.mapError fault ∧ related true first.2 second.2
  transfer {bus : β} {other : γ} (h : related true bus other) (sent : List Byte) (size : Nat) :
    let first := Bus.transfer bus sent size
    let second := Bus.transfer other sent size
    second.1 = first.1.bimap fault id ∧ related true first.2 second.2
  write {bus : β} {other : γ} (h : related true bus other) (sent : List Byte) :
    let first := Bus.write bus sent
    let second := Bus.write other sent
    second.1 = first.1.bimap fault id ∧ related true first.2 second.2
  disconnect {session : Bool} {bus : β} {other : γ} (h : related session bus other) :
    let first := Bus.disconnect bus
    let second := Bus.disconnect other
    second.result = first.result.mapError fault ∧ related false first.bus second.bus

theorem Meter.calls_giveUp {β : Type} [Bus β ε η] (meter : Meter β) (cause : ε) (bus : β) :
    EnergyMeter.calls (meter.giveUp cause bus : Run (Meter β) ε η Unit).journal =
      [.disconnect (Bus.disconnect bus).result] := by
  simp only [giveUp, calls_append, calls_ofLink]
  cases (Bus.disconnect bus).result with
  | ok value => rfl
  | error cause => rfl

namespace Simulation

variable {β κ : Type} [Bus β ε η] [Bus κ ζ η] {fault : ε → ζ} (sim : Simulation β κ fault)
  {bus : β} {other : κ}

theorem readRegister (h : sim.related true bus other) (address : Address) :
    Simulated fault (sim.related true) id (EnergyMeter.readRegister address bus)
      (EnergyMeter.readRegister address other) := by
  obtain ⟨hresult, hafter⟩ := sim.transfer h (Frame.readHeader address) 2
  refine ⟨?_, ?_, hafter⟩
  · simp only [EnergyMeter.readRegister, hresult]
    cases (Bus.transfer bus (Frame.readHeader address) 2).1 with
    | ok received =>
        by_cases hcount : received.count = 2 <;> simp [hcount, Error.mapFault]
    | failed cause => rfl
    | halted cause => rfl
  · simp only [calls_readRegister, hresult, List.map_cons, List.map_nil, Call.mapFault]

theorem writeRegister (h : sim.related true bus other) (address : Address) (word : Word) :
    Simulated fault (sim.related true) id (EnergyMeter.writeRegister address word bus)
      (EnergyMeter.writeRegister address word other) := by
  obtain ⟨hresult, hafter⟩ := sim.write h (Frame.write address word)
  refine ⟨?_, ?_, ?_⟩
  · simp only [EnergyMeter.writeRegister, hresult]
    cases (Bus.write bus (Frame.write address word)).1 with
    | ok count => by_cases hcount : count = 3 <;> simp [hcount, Error.mapFault]
    | failed cause => rfl
    | halted cause => rfl
  · simp only [calls_writeRegister, hresult, List.map_cons, List.map_nil, Call.mapFault]
  · rw [writeRegister_state, writeRegister_state]
    exact hafter

/-- A program cannot tell the buses apart. -/
theorem run (program : Program α) (h : sim.related true bus other) :
    Simulated fault (sim.related true) id (program.run bus) (program.run other) := by
  -- Words are not translated, so both runs go on with the same branch.
  induction program generalizing bus other with
  | done value => exact .pure value h
  | read address next ih =>
      apply (sim.readRegister h address).andThen
      intro word state state' hstate
      exact ih word hstate
  | write address word next ih =>
      apply (sim.writeRegister h address word).andThen
      intro _ state state' hstate
      exact ih hstate
  | note record next ih =>
      obtain ⟨houtcome, hcalls, hstate⟩ := ih h
      exact ⟨houtcome, hcalls, hstate⟩

theorem runSteps (steps : List (StartupStep × Program Unit)) (h : sim.related true bus other) :
    Simulated fault (sim.related true) id (EnergyMeter.runSteps steps bus)
      (EnergyMeter.runSteps steps other) := by
  induction steps generalizing bus other with
  | nil => exact .pure () h
  | cons step rest ih =>
      obtain ⟨name, program⟩ := step
      obtain ⟨houtcome, hcalls, hstate⟩ := sim.run program h
      have hrest := ih hstate
      simp only [EnergyMeter.runSteps, houtcome]
      cases (program.run bus).outcome with
      | ok value =>
          refine ⟨hrest.outcome, ?_, hrest.state⟩
          simp [hcalls, hrest.calls]
      | failed error => exact ⟨rfl, by simp [hcalls], hstate⟩
      | halted cause => exact ⟨rfl, by simp [hcalls], hstate⟩

/-- Meters that differ in their buses only. -/
structure Meters (first : Meter β) (second : Meter κ) : Prop where
  config : second.config = first.config
  state : second.state = first.state
  bus : sim.related first.isInitialized first.bus second.bus

/-- Dumps that differ in their buses only. -/
structure Dumps (first : Dump β) (second : Dump κ) : Prop where
  meter : sim.Meters first.meter second.meter
  remaining : second.remaining = first.remaining

variable {sim} {meter : Meter β} {twin : Meter κ}

namespace Meters

theorem isInitialized_eq (h : sim.Meters meter twin) :
    twin.isInitialized = meter.isInitialized := by
  rw [Meter.isInitialized, Meter.isInitialized, h.state]

theorem onBus (h : sim.Meters meter twin) {bus : β} {other : κ}
    (hbus : sim.related meter.isInitialized bus other) :
    sim.Meters (meter.onBus bus) (twin.onBus other) :=
  ⟨h.config, h.state, hbus⟩

theorem execute (h : sim.Meters meter twin) (program : Program α) :
    Simulated fault sim.Meters id (meter.execute program) (twin.execute program) := by
  have hbus := h.bus
  rw [Meter.execute, Meter.execute, h.isInitialized_eq]
  cases hsession : meter.isInitialized with
  | false => exact .refuse .notInitialized h
  | true =>
      rw [hsession] at hbus
      apply (sim.run program hbus).within
      intro state other hstate
      exact h.onBus (hsession ▸ hstate)

theorem executeAt (h : sim.Meters meter twin) (address : Byte) (program : Address → Program α) :
    Simulated fault sim.Meters id (meter.executeAt address program)
      (twin.executeAt address program) := by
  rw [Meter.executeAt, Meter.executeAt, h.isInitialized_eq]
  cases Address.ofByte? address with
  | some target => exact h.execute (program target)
  | none =>
      cases meter.isInitialized with
      | false => exact .refuse .notInitialized h
      | true => exact .refuse .invalidArgument h

theorem start (h : sim.Meters meter twin) (gain : CurrentGain) (sagVolts : Float32) :
    Simulated fault sim.Meters id (meter.start gain sagVolts) (twin.start gain sagVolts) := by
  have hbus := h.bus
  have htwin := h.isInitialized_eq
  cases hsession : meter.isInitialized with
  | false =>
      rw [hsession] at htwin
      simp only [Meter.start, hsession, htwin]
      exact .refuse .notInitialized h
  | true =>
      rw [hsession] at hbus htwin
      cases hcounts : Quantity.sagCounts? sagVolts with
      | none =>
          simp only [Meter.start, hsession, htwin, hcounts]
          exact .refuse .invalidArgument h
      | some sagCounts =>
          obtain ⟨houtcome, hcalls, hstate⟩ :=
            sim.runSteps (startupSteps gain sagCounts) hbus
          obtain ⟨hended, hlast, hmade⟩ := Meter.start_accepted gain hsession hcounts
          obtain ⟨hended', hlast', hmade'⟩ := Meter.start_accepted gain htwin hcounts
          refine ⟨?_, ?_, ?_⟩
          · rw [hended', hended, houtcome]
          · rw [hmade', hmade, hcalls]
          · rw [hlast', hlast, houtcome, State.afterStart_bimap]
            refine ⟨h.config, rfl, ?_⟩
            rwa [Meter.isInitialized, State.afterStart_ne]

theorem giveUp (h : sim.Meters meter twin) (hidle : meter.isInitialized = false) (cause : ε)
    {bus : β} {other : κ} (hbus : sim.related true bus other) :
    Simulated fault sim.Meters id (meter.giveUp cause bus) (twin.giveUp (fault cause) other) := by
  obtain ⟨hclosed, hlast⟩ := sim.disconnect hbus
  refine ⟨rfl, ?_, h.onBus (hidle ▸ hlast)⟩
  rw [Meter.calls_giveUp, Meter.calls_giveUp, hclosed]
  rfl

theorem configure (h : sim.Meters meter twin) (hidle : meter.isInitialized = false) {bus : β}
    {other : κ} (hbus : sim.related true bus other) :
    Simulated fault sim.Meters id (meter.configure bus) (twin.configure other) := by
  obtain ⟨hresult, hafter⟩ := sim.configure hbus meter.config.speedHz
  rcases hfirst : Bus.configure bus meter.config.speedHz with ⟨cause | value, configured⟩
  · rw [hfirst] at hresult hafter
    obtain ⟨houtcome, hcalls, hstate⟩ := h.giveUp hidle cause hafter
    simp only [Meter.configure, h.config, hfirst, hresult, Except.mapError]
    exact ⟨houtcome, by simp [hcalls, Call.mapFault, Except.mapError], hstate⟩
  · rw [hfirst] at hresult hafter
    simp only [Meter.configure, h.config, hfirst, hresult, Except.mapError]
    exact ⟨rfl, rfl, rfl, rfl, hafter⟩

theorem init (h : sim.Meters meter twin) :
    Simulated fault sim.Meters id meter.init twin.init := by
  have hbus := h.bus
  have htwin := h.isInitialized_eq
  by_cases hspeed : meter.config.speedHz = 0
  · simp only [Meter.init, h.config, Config.validate, hspeed, if_true]
    exact .refuse .invalidConfig h
  · have hvalid := Config.validate_eq_ok_iff.mpr hspeed
    cases hsession : meter.isInitialized with
    | true =>
        rw [hsession] at htwin
        simp only [Meter.init, h.config, hvalid, hsession, htwin, if_true]
        exact .pure () h
    | false =>
        rw [hsession] at hbus htwin
        obtain ⟨hresult, hafter⟩ := sim.connect hbus
        rcases hfirst : Bus.connect meter.bus with ⟨cause | value, connected, notices⟩
        · rw [hfirst] at hresult hafter
          simp only [Meter.init, h.config, hvalid, hsession, htwin, hfirst, hresult,
            Except.mapError, Bool.false_eq_true, if_false]
          exact ⟨rfl, by simp [Call.mapFault, Except.mapError], h.onBus (hsession ▸ hafter)⟩
        · rw [hfirst] at hresult hafter
          have hrest := h.configure hsession hafter
          simp only [Meter.init, h.config, hvalid, hsession, htwin, hfirst, hresult,
            Except.mapError, Bool.false_eq_true, if_false]
          exact ⟨hrest.outcome, by simp [hrest.calls, Call.mapFault, Except.mapError], hrest.state⟩

theorem deinit (h : sim.Meters meter twin) :
    Simulated fault sim.Meters id meter.deinit twin.deinit := by
  obtain ⟨hclosed, hlast⟩ := sim.disconnect h.bus
  refine ⟨?_, ?_, h.config, rfl, hlast⟩
  · simp only [Meter.deinit, hclosed]
    cases (Bus.disconnect meter.bus).result with
    | ok value => rfl
    | error cause => rfl
  · simp [Meter.calls_deinit, hclosed, Call.mapFault]

end Meters

namespace Dumps

variable {dump : Dump β} {twin : Dump κ}

theorem next (h : sim.Dumps dump twin) {register : Register.Descriptor}
    {rest : List Register.Descriptor} (hremaining : dump.remaining = register :: rest) :
    ∃ first second, dump.next? = some first ∧ twin.next? = some second ∧
      Simulated fault sim.Dumps (DumpItem.mapFault fault) first second := by
  have hread := h.meter.executeAt register.address.toByte .verifiedRead
  refine ⟨_, _, by rw [Dump.next?, hremaining], by rw [Dump.next?, h.remaining, hremaining], ?_⟩
  refine ⟨?_, hread.calls, hread.state, rfl⟩
  simp only [Meter.verifiedReadRegister, hread.outcome]
  cases (dump.meter.executeAt register.address.toByte .verifiedRead).outcome with
  | ok word => rfl
  | failed error => rfl
  | halted cause => rfl

theorem take (h : sim.Dumps dump twin) (count : Nat) :
    Simulated fault sim.Dumps (List.map (DumpItem.mapFault fault)) (dump.take count)
      (twin.take count) := by
  induction count generalizing dump twin with
  | zero => exact .pure [] h
  | succ count ih =>
      cases hremaining : dump.remaining with
      | nil =>
          simp only [Dump.take, Dump.next?, h.remaining, hremaining]
          exact .pure [] h
      | cons register rest =>
          obtain ⟨first, second, hfirst, hsecond, hitem⟩ := h.next hremaining
          simp only [Dump.take, hfirst, hsecond]
          apply hitem.andThen
          intro item state other hstate
          exact (ih hstate).map fun _ => rfl

end Dumps

/-- A meter cannot tell the buses apart, whatever it is asked to do. -/
theorem Meters.perform (h : sim.Meters meter twin) (operation : Operation) :
    Simulated fault sim.Meters (Answer.mapFault fault) (meter.perform operation)
      (twin.perform operation) := by
  cases operation with
  | init => exact h.init.map fun _ => rfl
  | deinit => exact h.deinit.map fun _ => rfl
  | softReset => exact (h.execute .softReset).map fun _ => rfl
  | write address word =>
      exact (h.executeAt address fun target => .store target word).map fun _ => rfl
  | rawRead address => exact (h.executeAt address .fetch).map fun _ => rfl
  | verifiedRead address => exact (h.executeAt address .verifiedRead).map fun _ => rfl
  | start gain sagVolts => exact (h.start gain sagVolts).map fun _ => rfl
  | startWithGainFactor factor sagVolts =>
      simp only [Meter.perform, Meter.startWithGainFactor]
      cases CurrentGain.ofFactor? factor with
      | some gain => exact (h.start gain sagVolts).map fun _ => rfl
      | none => exact ⟨rfl, rfl, h⟩
  | irmsRaw => exact (h.execute (.verifiedRead Register.irms)).map fun _ => rfl
  | irmsAmps =>
      have hirms := h.execute (.verifiedRead Register.irms)
      simp only [Meter.perform, Meter.irmsAmps, h.config]
      exact (hirms.convert _).map fun _ => rfl
  | vrmsRaw => exact (h.execute (.verifiedRead Register.urms)).map fun _ => rfl
  | vrmsVolts => exact ((h.execute (.verifiedRead Register.urms)).convert _).map fun _ => rfl
  | powerRaw => exact ((h.execute (.fetch Register.pmean)).convert _).map fun _ => rfl
  | powerWatts => exact ((h.execute (.fetch Register.pmean)).convert _).map fun _ => rfl
  | lineFrequencyHz =>
      exact ((h.execute (.verifiedRead Register.freq)).convert _).map fun _ => rfl
  | systemStatus => exact (h.execute (.verifiedRead Register.sysStatus)).map fun _ => rfl
  | dump items =>
      have hdumps : sim.Dumps meter.dumpRegisters twin.dumpRegisters := ⟨h, rfl⟩
      have htaken := hdumps.take items
      have hleft := htaken.state.remaining
      simp only [Meter.perform, Dump.sizeHint, Dump.length, hleft]
      refine (htaken.map ?_).within ?_
      · intro read
        rfl
      · intro dump other hdump
        exact hdump.meter

/-- What a history leaves on the two buses differs in the buses only. -/
theorem Meters.after (h : sim.Meters meter twin) (operations : List Operation) :
    sim.Meters (meter.after operations) (twin.after operations) := by
  induction operations using List.reverseRecOn with
  | nil => exact h
  | append_singleton operations operation ih =>
      rw [Meter.after_concat, Meter.after_concat]
      exact (ih.perform operation).state

/-- A history makes the same calls on the two buses. -/
theorem Meters.calls_journal (h : sim.Meters meter twin) (operations : List Operation) :
    EnergyMeter.calls (twin.journal operations) =
      (EnergyMeter.calls (meter.journal operations)).map (Call.mapFault fault) := by
  induction operations using List.reverseRecOn with
  | nil => rfl
  | append_singleton operations operation ih =>
      rw [Meter.journal_concat, Meter.journal_concat, calls_append, calls_append, ih,
        List.map_append, ((h.after operations).perform operation).calls]

end Simulation

end EnergyMeter

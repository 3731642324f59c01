import EnergyMeter.Proofs.ChipAccess
import EnergyMeter.Proofs.Configured

/-!
The register accesses that an operation asks for.  An access is named by the
address and the word that are passed for it, before a frame is made of them.  On
every bus the frames that are sent decode to just these accesses, and a run halts
exactly if one of its calls does.
-/

namespace EnergyMeter

variable {σ τ β φ ε η α γ : Type}

namespace Command

/-- The access that a frame of the right shape makes. -/
def access? : Command → Option Access
  | .transfer sent size =>
      match Bench.checkRead sent size with
      | .ok address => some (.read address)
      | .error _ => none
  | .write sent =>
      match Bench.checkWrite sent with
      | .ok (header, word) => some (.write (Frame.address header) word)
      | .error _ => none
  | .connect | .configure _ | .disconnect => none

/-- The command sends no frame of a wrong shape. -/
def WellFormed : Command → Prop
  | transfer sent size => ((transfer sent size).access?).isSome = true
  | write sent => ((write sent).access?).isSome = true
  | connect | configure _ | disconnect => True

end Command

/-- A frame decodes to the access that it was made of. -/
@[simp]
theorem Access.access?_command (access : Access) : access.command.access? = some access := by
  cases access with
  | read address =>
      simp [command, Command.access?, Bench.checkRead, Frame.readHeader, Frame.isRead_marked,
        Frame.address_marked]
  | write address word =>
      simp [command, Command.access?, Bench.checkWrite, Frame.write, Frame.isRead_toByte,
        Frame.address_toByte, Word.ofBytes_high_low]

theorem Access.wellFormed_command (access : Access) : access.command.WellFormed := by
  have hdecoded := congrArg Option.isSome access.access?_command
  cases access with
  | read address => exact hdecoded
  | write address word => exact hdecoded

/-- Why an outcome halted, if it did. -/
def Outcome.cause? : Outcome φ η α → Option η
  | halted cause => some cause
  | ok _ | failed _ => none

section

variable (value : α) (failure : φ) (cause : η)

@[simp]
theorem Outcome.cause?_ok : (ok value : Outcome φ η α).cause? = none := rfl

@[simp]
theorem Outcome.cause?_failed : (failed failure : Outcome φ η α).cause? = none := rfl

@[simp]
theorem Outcome.cause?_halted : (halted cause : Outcome φ η α).cause? = some cause := rfl

end

/-- Why a call halted, if it did. -/
def Call.cause? : Call ε η → Option η
  | transfer _ _ result => result.cause?
  | write _ result => result.cause?
  | connect _ | configure .. | disconnect _ => none

/-- A trace whose frames make some accesses and whose calls halt for some causes. -/
structure TraceOf (asked : List Access) (causes : List η) (trace : List (Call ε η)) : Prop where
  wellFormed : ∀ call ∈ trace, call.command.WellFormed
  accesses : trace.filterMap (fun call => call.command.access?) = asked
  causes : trace.filterMap Call.cause? = causes

namespace TraceOf

variable {asked more : List Access} {causes later : List η} {trace rest : List (Call ε η)}

theorem nil : TraceOf [] [] ([] : List (Call ε η)) :=
  ⟨by simp, rfl, rfl⟩

theorem append (h : TraceOf asked causes trace) (hrest : TraceOf more later rest) :
    TraceOf (asked ++ more) (causes ++ later) (trace ++ rest) where
  wellFormed := List.forall_mem_append.mpr ⟨h.wellFormed, hrest.wellFormed⟩
  accesses := by rw [List.filterMap_append, h.accesses, hrest.accesses]
  causes := by rw [List.filterMap_append, h.causes, hrest.causes]

/-- A call that makes an access. -/
theorem access {call : Call ε η} {access : Access} (h : call.command = access.command) :
    TraceOf [access] call.cause?.toList [call] where
  wellFormed := by simpa [h] using access.wellFormed_command
  accesses := by simp [h]
  causes := by cases hcause : call.cause? <;> simp [hcause]

end TraceOf

namespace Run

/-- Why a run halted, if it did. -/
def cause? (run : Run σ ε η α) : Option η :=
  run.outcome.cause?

@[simp]
theorem cause?_map (run : Run σ ε η α) (f : α → γ) : (run.map f).cause? = run.cause? := by
  rcases run with ⟨value | error | cause, state, journal⟩ <;> rfl

/-- A run that makes some accesses, and halts as the one call that halts. -/
def Asks (asked : List Access) (run : Run σ ε η α) : Prop :=
  TraceOf asked run.cause?.toList (calls run.journal)

/-- What is asked for after a run that ended well. -/
def onward (run : Run σ ε η α) (next : α → σ → List Access) : List Access :=
  match run.outcome with
  | .ok value => next value run.state
  | .failed _ | .halted _ => []

namespace Asks

variable {asked : List Access} {run : Run σ ε η α}

theorem map (h : run.Asks asked) (f : α → γ) : (run.map f).Asks asked := by
  rw [Asks, cause?_map]
  exact h

theorem within (h : run.Asks asked) (place : σ → τ) : (run.within place).Asks asked := h

theorem andThen {next : α → σ → Run σ ε η γ} {more : α → σ → List Access} (h : run.Asks asked)
    (hnext : ∀ value state, (next value state).Asks (more value state)) :
    (run.andThen next).Asks (asked ++ run.onward more) := by
  rcases run with ⟨value | error | cause, state, journal⟩
  · have hboth := TraceOf.append h (hnext value state)
    simpa only [Asks, cause?, Run.andThen, onward, calls_append, Outcome.cause?_ok,
      Option.toList_none, List.nil_append] using hboth
  · simpa only [Asks, cause?, Run.andThen, onward, Outcome.cause?_failed, List.append_nil] using h
  · simpa only [Asks, cause?, Run.andThen, onward, Outcome.cause?_halted, List.append_nil] using h

end Asks

end Run

variable [Bus β ε η]

namespace Program

/-- The accesses that a program asks for on a bus. -/
def asks : Program α → β → List Access
  | .done _, _ => []
  | .read address next, bus =>
      .read address :: (readRegister address bus).onward fun word => (next word).asks
  | .write address word next, bus =>
      .write address word :: (writeRegister address word bus).onward fun _ => next.asks
  | .note _ next, bus => next.asks bus

end Program

/-- The accesses that named steps ask for, up to the first that fails. -/
def stepsAsk : List (StartupStep × Program Unit) → β → List Access
  | [], _ => []
  | (_, program) :: rest, bus =>
      program.asks bus ++ (program.run bus).onward fun _ => stepsAsk rest

namespace Meter

/-- The accesses that a program asks for on a meter. -/
def asksFor (meter : Meter β) (program : Program α) : List Access :=
  if meter.isInitialized then program.asks meter.bus else []

/-- The accesses that a program at a byte address asks for on a meter. -/
def asksAt (meter : Meter β) (address : Byte) (program : Address → Program α) : List Access :=
  match Address.ofByte? address with
  | some address => meter.asksFor (program address)
  | none => []

/-- The accesses that a start asks for. -/
def startAsks (meter : Meter β) (gain : CurrentGain) (sagVolts : Float32) : List Access :=
  if meter.isInitialized then
    match Quantity.sagCounts? sagVolts with
    | some sagCounts => stepsAsk (startupSteps gain sagCounts) meter.bus
    | none => []
  else []

end Meter

namespace Dump

/-- The accesses that the next item of a dump asks for. -/
def nextAsks (dump : Dump β) : List Access :=
  match dump.remaining with
  | [] => []
  | register :: _ => dump.meter.asksAt register.address.toByte .verifiedRead

/-- The accesses that some items of a dump ask for. -/
def asks (dump : Dump β) : Nat → List Access
  | 0 => []
  | count + 1 =>
      match dump.next? with
      | none => []
      | some first => dump.nextAsks ++ first.onward fun _ dump => dump.asks count

end Dump

namespace Meter

/-- The accesses that an operation asks for. -/
def asks (meter : Meter β) : Operation → List Access
  | .init | .deinit => []
  | .softReset => meter.asksFor .softReset
  | .write address word => meter.asksAt address fun address => .store address word
  | .rawRead address => meter.asksAt address .fetch
  | .verifiedRead address => meter.asksAt address .verifiedRead
  | .start gain sagVolts => meter.startAsks gain sagVolts
  | .startWithGainFactor factor sagVolts =>
      match CurrentGain.ofFactor? factor with
      | some gain => meter.startAsks gain sagVolts
      | none => []
  | .irmsRaw | .irmsAmps => meter.asksFor (.verifiedRead Register.irms)
  | .vrmsRaw | .vrmsVolts => meter.asksFor (.verifiedRead Register.urms)
  | .powerRaw | .powerWatts => meter.asksFor (.fetch Register.pmean)
  | .lineFrequencyHz => meter.asksFor (.verifiedRead Register.freq)
  | .systemStatus => meter.asksFor (.verifiedRead Register.sysStatus)
  | .dump items => meter.dumpRegisters.asks items

/-- The accesses that some operations ask for, in order. -/
def asked (meter : Meter β) : List Operation → List Access
  | [] => []
  | operation :: rest => meter.asks operation ++ (meter.perform operation).state.asked rest

end Meter

end EnergyMeter

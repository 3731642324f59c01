import EnergyMeter.Operation
import EnergyMeter.Proofs.Exchange

/-!
One lemma for each kind of operation.  Beginning and ending a session and
starting the chip are kinds of their own; every other operation is register
work that leaves the lifecycle state and the configuration alone.
-/

namespace EnergyMeter

variable {β ε η α : Type}

/-- The registers that a start writes, in this order. -/
def startupRegisters : List Address :=
  [Register.softReset, Register.mMode, Register.calStart, Register.adjStart, Register.igainL,
    Register.cs2, Register.sagTh, Register.funcEn]

theorem startupSteps_writesOnly (gain : CurrentGain) (sagCounts : Word) :
    ∀ step ∈ startupSteps gain sagCounts, step.2.WritesOnly (· ∈ startupRegisters) := by
  simp only [startupSteps, List.forall_mem_cons, List.not_mem_nil, false_imp_iff, implies_true,
    and_true]
  refine ⟨⟨?_, trivial⟩, Program.writesOnly_modify ?_ _, ⟨?_, trivial⟩, ⟨?_, trivial⟩,
    ⟨?_, trivial⟩, ⟨?_, trivial⟩, ⟨?_, trivial⟩, Program.writesOnly_modify ?_ _⟩
  all_goals decide

/-- What an operation means for the life of a meter. -/
inductive OperationKind where
  | init
  | deinit
  | start (gain : CurrentGain) (sagVolts : Float32)
  | access
deriving DecidableEq

namespace Operation

/-- A start by an unsupported factor is refused, so it is an access to nothing. -/
def kind : Operation → OperationKind
  | init => .init
  | deinit => .deinit
  | start gain sagVolts => .start gain sagVolts
  | startWithGainFactor factor sagVolts =>
      match CurrentGain.ofFactor? factor with
      | some gain => .start gain sagVolts
      | none => .access
  | _ => .access

/-- The register that an access may write. -/
def written? : Operation → Option Address
  | softReset => some Register.softReset
  | write address _ => Address.ofByte? address
  | _ => none

/-- An access may write this register. -/
def Writes (operation : Operation) (address : Address) : Prop :=
  operation.written? = some address

end Operation

/-- The lifecycle state that a start leaves. -/
def State.afterStart {φ : Type} (gain : CurrentGain) : Outcome φ η Unit → State
  | .ok () => running gain
  | .failed _ | .halted _ => initialized

theorem State.afterStart_of_ne {φ : Type} {outcome : Outcome φ η Unit} (h : outcome ≠ .ok ())
    (gain : CurrentGain) : afterStart gain outcome = .initialized := by
  cases outcome with
  | ok value => exact absurd rfl h
  | failed failure => rfl
  | halted cause => rfl

theorem State.afterStart_ne {φ : Type} (gain : CurrentGain) (outcome : Outcome φ η Unit) :
    (afterStart gain outcome != .uninitialized) = true := by
  cases outcome <;> rfl

/-- The three ways in which a session is asked for: the calls, how it ended, and
the lifecycle state. -/
inductive Opening (speedHz : UInt32) :
    List (Call ε η) → Outcome (Error ε) η Unit → State → Prop where
  | unconnected (fault : ε) :
      Opening speedHz [.connect (.error fault)] (.failed (.connectFailed fault)) .uninitialized
  | rejected (fault : ε) (closed : Except ε Unit) :
      Opening speedHz
        [.connect (.ok ()), .configure speedHz (.error fault), .disconnect closed]
        (.failed (.configRejected fault)) .uninitialized
  | opened :
      Opening speedHz [.connect (.ok ()), .configure speedHz (.ok ())] (.ok ()) .initialized

theorem Opening.configure_mem {speedHz clock : UInt32} {made : List (Call ε η)}
    {outcome : Outcome (Error ε) η Unit} {state : State} {result : Except ε Unit}
    (h : Opening speedHz made outcome state) (hmem : .configure clock result ∈ made) :
    clock = speedHz := by
  cases h with
  | unconnected fault => simp at hmem
  | rejected fault closed => simp_all
  | opened => simp_all

variable [Bus β ε η]

/-- Register work on a meter, with its journal and the meter it leaves. -/
structure Accesses (writes : Address → Prop) (meter : Meter β) (journal : List (Entry ε η))
    (last : Meter β) : Prop where
  config : last.config = meter.config
  state : last.state = meter.state
  exchanges : Exchanges writes meter.bus journal last.bus
  idle : meter.isInitialized = false → journal = []

namespace Accesses

variable {writes : Address → Prop} {meter middle last : Meter β} {first second : List (Entry ε η)}

theorem isInitialized_eq (h : Accesses writes meter first last) :
    last.isInitialized = meter.isInitialized := by
  simp only [Meter.isInitialized, h.state]

theorem none (meter : Meter β) : Accesses writes meter [] meter :=
  ⟨rfl, rfl, .done meter.bus, fun _ => rfl⟩

theorem trans (hfirst : Accesses writes meter first middle)
    (hsecond : Accesses writes middle second last) :
    Accesses writes meter (first ++ second) last where
  config := hsecond.config.trans hfirst.config
  state := hsecond.state.trans hfirst.state
  exchanges := hfirst.exchanges.trans hsecond.exchanges
  idle hidle := by
    have hmiddle := hfirst.isInitialized_eq.trans hidle
    rw [hfirst.idle hidle, hsecond.idle hmiddle, List.append_nil]

end Accesses

namespace Meter

variable {writes : Address → Prop}

theorem isInitialized_eq_false_iff {meter : Meter β} :
    meter.isInitialized = false ↔ meter.state = .uninitialized := by
  simp [isInitialized]

theorem isInitialized_eq_true_iff {meter : Meter β} :
    meter.isInitialized = true ↔ meter.state ≠ .uninitialized := by
  simp [isInitialized]

/-- The byte of an address is never refused. -/
theorem executeAt_eq_execute (meter : Meter β) (address : Address)
    (program : Address → Program α) :
    meter.executeAt address.toByte program = meter.execute (program address) := by
  rw [executeAt, Address.ofByte?_toByte]

theorem executeAt_toByte {meter : Meter β} (hsession : meter.isInitialized = true)
    (address : Address) (program : Address → Program α) :
    meter.executeAt address.toByte program =
      ((program address).run meter.bus).within meter.onBus := by
  rw [executeAt_eq_execute]
  exact if_pos hsession

theorem executeAt_of_lt {meter : Meter β} (hsession : meter.isInitialized = true)
    {byte : Byte} (hrange : 0x7F < byte.toNat) (program : Address → Program α) :
    meter.executeAt byte program = (.refuse .invalidArgument meter : Run (Meter β) ε η α) := by
  have hnone := Address.ofByte?_eq_none_iff.mpr hrange
  simp only [executeAt, hnone, hsession, if_true]

theorem execute_accesses {program : Program α} (hprogram : program.WritesOnly writes)
    (meter : Meter β) :
    Accesses writes meter (meter.execute program).journal (meter.execute program).state := by
  cases hsession : meter.isInitialized with
  | false =>
      simp only [execute, hsession, Bool.false_eq_true, if_false]
      exact .none meter
  | true =>
      simp only [execute, hsession, if_true]
      exact ⟨rfl, rfl, program.exchanges_run hprogram meter.bus, by simp [hsession]⟩

theorem executeAt_accesses {program : Address → Program α} (meter : Meter β) (address : Byte)
    (hprogram : ∀ target, Address.ofByte? address = some target →
      (program target).WritesOnly writes) :
    Accesses writes meter (meter.executeAt address program).journal
      (meter.executeAt address program).state := by
  cases htarget : Address.ofByte? address with
  | none =>
      simp only [executeAt, htarget]
      exact .none meter
  | some target =>
      simp only [executeAt, htarget]
      exact execute_accesses (hprogram target htarget) meter

theorem dump_accesses (dump : Dump β) (count : Nat) :
    Accesses writes dump.meter (dump.take count).journal (dump.take count).state.meter := by
  induction count generalizing dump with
  | zero => exact .none dump.meter
  | succ count ih =>
      obtain ⟨meter, remaining⟩ := dump
      cases remaining with
      | nil => exact .none meter
      | cons register remaining =>
          have hread : Accesses writes meter
              (meter.verifiedReadRegister register.address.toByte).journal
              (meter.verifiedReadRegister register.address.toByte).state :=
            executeAt_accesses meter _ fun target _ => Program.writesOnly_verifiedRead target
          rcases hrun : meter.verifiedReadRegister register.address.toByte with
            ⟨word | error | cause, state, journal⟩ <;> rw [hrun] at hread
          · simpa [Dump.take, Dump.next?, hrun, Run.andThen, Run.map] using
              hread.trans (ih ⟨state, remaining⟩)
          · simpa [Dump.take, Dump.next?, hrun, Run.andThen, Run.map] using
              hread.trans (ih ⟨state, remaining⟩)
          · simpa [Dump.take, Dump.next?, hrun, Run.andThen, Run.map] using hread

/-- Every operation but `init`, `deinit` and the starts is register work. -/
theorem perform_accesses (meter : Meter β) {operation : Operation}
    (hkind : operation.kind = .access) :
    Accesses operation.Writes meter (meter.perform operation).journal
      (meter.perform operation).state := by
  cases operation with
  | init => simp [Operation.kind] at hkind
  | deinit => simp [Operation.kind] at hkind
  | start gain sagVolts => simp [Operation.kind] at hkind
  | startWithGainFactor factor sagVolts =>
      cases hgain : CurrentGain.ofFactor? factor with
      | some gain => simp [Operation.kind, hgain] at hkind
      | none =>
          simp only [perform, startWithGainFactor, hgain, Run.refuse, Run.map]
          exact .none meter
  | softReset =>
      have hwrites : Operation.softReset.Writes Register.softReset := rfl
      exact execute_accesses (Program.writesOnly_store hwrites _) meter
  | write address word =>
      exact executeAt_accesses meter address fun target htarget =>
        Program.writesOnly_store htarget word
  | rawRead address =>
      exact executeAt_accesses meter address fun target _ => Program.writesOnly_fetch target
  | verifiedRead address =>
      exact executeAt_accesses meter address fun target _ =>
        Program.writesOnly_verifiedRead target
  | dump items => exact dump_accesses meter.dumpRegisters items
  | powerRaw | powerWatts => exact execute_accesses (Program.writesOnly_fetch _) meter
  | irmsRaw | irmsAmps | vrmsRaw | vrmsVolts | lineFrequencyHz | systemStatus =>
      exact execute_accesses (Program.writesOnly_verifiedRead _) meter

theorem perform_start (meter : Meter β) {operation : Operation} {gain : CurrentGain}
    {sagVolts : Float32} (hkind : operation.kind = .start gain sagVolts) :
    meter.perform operation = (meter.start gain sagVolts).map fun _ => .nothing := by
  cases operation with
  | start gain' sagVolts' =>
      simp only [Operation.kind, OperationKind.start.injEq] at hkind
      obtain ⟨rfl, rfl⟩ := hkind
      rfl
  | startWithGainFactor factor sagVolts' =>
      cases hgain : CurrentGain.ofFactor? factor with
      | none => simp [Operation.kind, hgain] at hkind
      | some gain' =>
          simp only [Operation.kind, hgain, OperationKind.start.injEq] at hkind
          obtain ⟨rfl, rfl⟩ := hkind
          simp only [perform, startWithGainFactor, hgain]
  | _ => simp [Operation.kind] at hkind

/-- A start is refused, or there is a session and the threshold has a count. -/
theorem start_refused_or_accepted (meter : Meter β) (gain : CurrentGain) (sagVolts : Float32) :
    (∃ error, meter.start gain sagVolts = (.refuse error meter : Run (Meter β) ε η Unit)) ∨
      meter.isInitialized = true ∧
        ∃ sagCounts, Quantity.sagCounts? sagVolts = some sagCounts := by
  cases hsession : meter.isInitialized with
  | false => exact .inl ⟨.notInitialized, by simp [start, hsession]⟩
  | true =>
      cases hcounts : Quantity.sagCounts? sagVolts with
      | none => exact .inl ⟨.invalidArgument, by simp [start, hsession, hcounts]⟩
      | some sagCounts => exact .inr ⟨rfl, sagCounts, rfl⟩

/-- An accepted start comes to what its steps come to. -/
theorem start_accepted {meter : Meter β} (gain : CurrentGain) {sagVolts : Float32}
    {sagCounts : Word} (hsession : meter.isInitialized = true)
    (hcounts : Quantity.sagCounts? sagVolts = some sagCounts) :
    let steps : Run β ε η Unit := runSteps (startupSteps gain sagCounts) meter.bus
    (meter.start gain sagVolts).outcome = steps.outcome ∧
      (meter.start gain sagVolts).state =
        { meter with bus := steps.state, state := .afterStart gain steps.outcome } ∧
      calls (meter.start gain sagVolts).journal = calls steps.journal := by
  rcases hrun : runSteps (startupSteps gain sagCounts) meter.bus with
    ⟨value | error | cause, state, journal⟩ <;>
    simp [start, hsession, hcounts, hrun, State.afterStart]

theorem start_state {meter : Meter β} (gain : CurrentGain) {sagVolts : Float32} {sagCounts : Word}
    (hsession : meter.isInitialized = true)
    (hcounts : Quantity.sagCounts? sagVolts = some sagCounts) :
    (meter.start gain sagVolts).state.state =
      .afterStart gain (meter.start gain sagVolts).outcome := by
  obtain ⟨houtcome, hstate, -⟩ := start_accepted gain hsession hcounts
  rw [hstate, houtcome]

theorem start_isInitialized {meter : Meter β} (gain : CurrentGain) {sagVolts : Float32}
    {sagCounts : Word} (hsession : meter.isInitialized = true)
    (hcounts : Quantity.sagCounts? sagVolts = some sagCounts) :
    (meter.start gain sagVolts).state.isInitialized = true := by
  rw [isInitialized, start_state gain hsession hcounts]
  exact State.afterStart_ne gain _

theorem start_config (meter : Meter β) (gain : CurrentGain) (sagVolts : Float32) :
    (meter.start gain sagVolts).state.config = meter.config := by
  rcases meter.start_refused_or_accepted gain sagVolts with
    ⟨error, hrefused⟩ | ⟨hsession, sagCounts, hcounts⟩
  · rw [hrefused, Run.refuse]
  · rw [(start_accepted gain hsession hcounts).2.1]

/-- A start only exchanges, and writes only its registers. -/
theorem start_exchanges (meter : Meter β) (gain : CurrentGain) (sagVolts : Float32) :
    Exchanges (· ∈ startupRegisters) meter.bus (meter.start gain sagVolts).journal
      (meter.start gain sagVolts).state.bus := by
  rcases meter.start_refused_or_accepted gain sagVolts with
    ⟨error, hrefused⟩ | ⟨hsession, sagCounts, hcounts⟩
  · rw [hrefused]
    exact .done meter.bus
  · have hsteps := runSteps_exchanges (startupSteps_writesOnly gain sagCounts) meter.bus
    rcases hrun : runSteps (startupSteps gain sagCounts) meter.bus with
      ⟨value | error | cause, state, journal⟩ <;> rw [hrun] at hsteps
    · simpa [start, hsession, hcounts, hrun] using
        hsteps.trans (.note (.running gain) (.done state))
    · simpa [start, hsession, hcounts, hrun] using hsteps
    · simpa [start, hsession, hcounts, hrun] using hsteps

/-- Within a session, and with a clock that stands still, `init` does nothing. -/
theorem init_idle {meter : Meter β}
    (h : meter.config.speedHz = 0 ∨ meter.isInitialized = true) :
    calls meter.init.journal = [] ∧ meter.init.state = meter := by
  by_cases hspeed : meter.config.speedHz = 0
  · simp [init, Config.validate, hspeed, Run.refuse]
  · have hsession := h.resolve_left hspeed
    have hvalid := Config.validate_eq_ok_iff.mpr hspeed
    simp [init, hvalid, hsession, Run.pure]

/-- Otherwise `init` has three ends, and the configuration stays. -/
theorem init_opening {meter : Meter β} (hspeed : meter.config.speedHz ≠ 0)
    (hidle : meter.isInitialized = false) :
    Opening meter.config.speedHz (calls meter.init.journal) meter.init.outcome
        meter.init.state.state ∧
      meter.init.state.config = meter.config ∧
      Replays meter.bus (calls meter.init.journal) meter.init.state.bus := by
  have hstate := isInitialized_eq_false_iff.mp hidle
  have hvalid := Config.validate_eq_ok_iff.mpr hspeed
  rcases hconnect : Bus.connect meter.bus with ⟨fault | _, opened, notices⟩
  · simp only [init, hvalid, hidle, hconnect, onBus, hstate, calls_ofLink, Bool.false_eq_true,
      if_false]
    exact ⟨.unconnected fault, trivial, by
      simp [Replays, Bus.performAll, Bus.perform, Call.command, hconnect]⟩
  · rcases hconfigure : Bus.configure opened meter.config.speedHz with ⟨fault | _, configured⟩
    · have hcalls : calls meter.init.journal =
          [.connect (.ok ()), .configure meter.config.speedHz (.error fault),
            .disconnect (Bus.disconnect configured).result] := by
        cases hclosed : (Bus.disconnect configured).result <;>
          simp [init, hvalid, hidle, hconnect, configure, hconfigure, giveUp, hclosed]
      rw [hcalls]
      simp only [init, hvalid, hidle, hconnect, configure, hconfigure, giveUp, onBus, hstate,
        Bool.false_eq_true, if_false]
      exact ⟨.rejected fault _, trivial, by
        simp [Replays, Bus.performAll, Bus.perform, Call.command, hconnect, hconfigure]⟩
    · simp only [init, hvalid, hidle, hconnect, configure, hconfigure, calls_append, calls_ofLink,
        calls_call, calls_record, calls_nil, List.singleton_append, Bool.false_eq_true, if_false]
      exact ⟨.opened, trivial, by
        simp [Replays, Bus.performAll, Bus.perform, Call.command, hconnect, hconfigure]⟩

theorem init_config (meter : Meter β) : meter.init.state.config = meter.config := by
  by_cases hspeed : meter.config.speedHz = 0
  · rw [(init_idle (.inl hspeed)).2]
  · cases hsession : meter.isInitialized with
    | true => rw [(init_idle (.inr hsession)).2]
    | false => exact (init_opening hspeed hsession).2.1

theorem init_replays (meter : Meter β) :
    Replays meter.bus (calls meter.init.journal) meter.init.state.bus := by
  by_cases hidle : meter.config.speedHz = 0 ∨ meter.isInitialized = true
  · rw [(init_idle hidle).1, (init_idle hidle).2]
    exact .nil meter.bus
  · rw [not_or, Bool.not_eq_true] at hidle
    exact (init_opening hidle.1 hidle.2).2.2

theorem calls_deinit (meter : Meter β) :
    calls (meter.deinit : Run (Meter β) ε η Unit).journal =
      [.disconnect (Bus.disconnect meter.bus).result] := by
  simp [deinit]

theorem deinit_replays (meter : Meter β) :
    Replays meter.bus (calls meter.deinit.journal) meter.deinit.state.bus := by
  rw [calls_deinit]
  exact Replays.perform meter.bus .disconnect

theorem perform_init (meter : Meter β) {operation : Operation} (hkind : operation.kind = .init) :
    meter.perform operation = meter.init.map fun _ => .nothing := by
  cases operation with
  | init => rfl
  | startWithGainFactor factor sagVolts =>
      cases hgain : CurrentGain.ofFactor? factor <;> simp [Operation.kind, hgain] at hkind
  | _ => simp [Operation.kind] at hkind

theorem perform_deinit (meter : Meter β) {operation : Operation}
    (hkind : operation.kind = .deinit) :
    meter.perform operation = meter.deinit.map fun _ => .nothing := by
  cases operation with
  | deinit => rfl
  | startWithGainFactor factor sagVolts =>
      cases hgain : CurrentGain.ofFactor? factor <;> simp [Operation.kind, hgain] at hkind
  | _ => simp [Operation.kind] at hkind

/-- Apart from `init` and `deinit`, no operation begins or ends a session, and
without one no operation calls the bus. -/
theorem perform_within (meter : Meter β) {operation : Operation}
    (hinit : operation.kind ≠ .init) (hdeinit : operation.kind ≠ .deinit) :
    (meter.perform operation).state.isInitialized = meter.isInitialized ∧
      (∀ call ∈ calls (meter.perform operation).journal, call.IsExchange) ∧
      (meter.isInitialized = false → calls (meter.perform operation).journal = []) := by
  cases hkind : operation.kind with
  | init => exact absurd hkind hinit
  | deinit => exact absurd hkind hdeinit
  | access =>
      have haccess := meter.perform_accesses hkind
      exact ⟨haccess.isInitialized_eq, haccess.exchanges.isExchange, fun hidle => by
        rw [haccess.idle hidle, calls_nil]⟩
  | start gain sagVolts =>
      rw [meter.perform_start hkind]
      have hmoves := (meter.start_exchanges gain sagVolts).isExchange
      rcases meter.start_refused_or_accepted gain sagVolts with
        ⟨error, hrefused⟩ | ⟨hsession, sagCounts, hcounts⟩
      · rw [hrefused] at hmoves ⊢
        exact ⟨rfl, hmoves, fun _ => rfl⟩
      · refine ⟨?_, hmoves, fun hidle => absurd (hsession.symm.trans hidle) nofun⟩
        exact (start_isInitialized gain hsession hcounts).trans hsession.symm

/-- The calls of an operation are what the bus made of them. -/
theorem perform_replays (meter : Meter β) (operation : Operation) :
    Replays meter.bus (calls (meter.perform operation).journal)
      (meter.perform operation).state.bus := by
  cases hkind : operation.kind with
  | init =>
      rw [meter.perform_init hkind]
      exact meter.init_replays
  | deinit =>
      rw [meter.perform_deinit hkind]
      exact meter.deinit_replays
  | start gain sagVolts =>
      rw [meter.perform_start hkind]
      exact (meter.start_exchanges gain sagVolts).replays
  | access => exact (meter.perform_accesses hkind).exchanges.replays

end Meter

end EnergyMeter

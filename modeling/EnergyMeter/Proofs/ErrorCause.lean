import EnergyMeter.Proofs.StartTrace

/-!
Where an error comes from.  An operation that needs a session is refused without
one, and within a session it is refused for unusable arguments only.  Any other
end is that of its last exchange, and every exchange before that one moved its
whole frame, so no failure of the bus is lost.
-/

namespace EnergyMeter

variable {β ε η α γ : Type}

namespace Call

/-- The call reads a register in two bytes or writes one in three. -/
def IsAccess : Call ε η → Prop
  | .transfer sent size _ => ∃ address, sent = Frame.readHeader address ∧ size = 2
  | .write sent _ => ∃ address word, sent = Frame.write address word
  | .connect _ | .configure .. | .disconnect _ => False

/-- The exchange received exactly two bytes or sent exactly three. -/
def IsComplete : Call ε η → Prop
  | .transfer _ _ (.ok received) => received.count = 2
  | .write _ (.ok count) => count = 3
  | _ => False

theorem IsAccess.ending_eq_ok_iff {call : Call ε η} (h : call.IsAccess) :
    call.ending = .ok () ↔ call.IsComplete := by
  cases call with
  | connect result => exact h.elim
  | configure speedHz result => exact h.elim
  | disconnect result => exact h.elim
  | transfer sent size result =>
      obtain ⟨address, rfl, rfl⟩ := h
      cases result <;> simp [ending, IsComplete]
  | write sent result =>
      obtain ⟨address, word, rfl⟩ := h
      cases result with
      | ok count => by_cases hcount : count = 3 <;> simp [ending, IsComplete, hcount]
      | failed fault => simp [ending, IsComplete]
      | halted cause => simp [ending, IsComplete]

/-- An access fails by the fault of the bus or by a wrong number of bytes. -/
theorem IsAccess.isTransferFailure {call : Call ε η} (h : call.IsAccess) {error : Error ε}
    (hending : call.ending = .failed error) : error.isTransferFailure = true := by
  cases call with
  | connect result => exact h.elim
  | configure speedHz result => exact h.elim
  | disconnect result => exact h.elim
  | transfer sent size result =>
      cases result with
      | ok received =>
          by_cases hcount : received.count = size <;> simp [ending, hcount] at hending
          exact hending ▸ rfl
      | failed fault =>
          simp only [ending, Outcome.failed.injEq] at hending
          exact hending ▸ rfl
      | halted cause => simp [ending] at hending
  | write sent result =>
      cases result with
      | ok count =>
          by_cases hcount : count = sent.length <;> simp [ending, hcount] at hending
          exact hending ▸ rfl
      | failed fault =>
          simp only [ending, Outcome.failed.injEq] at hending
          exact hending ▸ rfl
      | halted cause => simp [ending] at hending

end Call

/-- Register work that ends as its exchanges do: well if all of them are
complete, and otherwise as the last one, which is the first that is not. -/
structure Settled (trace : List (Call ε η)) (ending : Outcome (Error ε) η Unit) : Prop where
  accesses : ∀ call ∈ trace, call.IsAccess
  ok_iff : ending = .ok () ↔ ∀ call ∈ trace, call.IsComplete
  last : ending ≠ .ok () →
    ∃ done last, trace = done ++ [last] ∧ (∀ call ∈ done, call.IsComplete) ∧
      last.ending = ending
  transferFailure : ∀ error, ending = .failed error → error.isTransferFailure = true

/-- A full run settles well, and one that breaks off settles with its last call. -/
theorem Settled.of_follows {σ : Type} {run : Run σ ε η α} {full : α → List (Call ε η) → Prop}
    (haccess : ∀ call ∈ calls run.journal, call.IsAccess)
    (hfine : ∀ value trace, full value trace → ∀ call ∈ trace, call.ending = .ok ())
    (h : run.Follows full) : Settled (calls run.journal) run.outcome.ending := by
  rcases h with ⟨value, hok, hfull⟩ | hbroken
  · rw [hok]
    refine ⟨haccess, ?_, fun hne => absurd rfl hne, fun _ hfailed => nomatch hfailed⟩
    simp only [Outcome.ending, true_iff]
    intro call hcall
    apply (haccess call hcall).ending_eq_ok_iff.mp
    exact hfine value _ hfull call hcall
  · generalize calls run.journal = trace at haccess hbroken ⊢
    obtain ⟨done, good, last, rest, rfl, ⟨value, hfull⟩, -, hending, hne⟩ := hbroken
    have hlast : last.IsAccess := haccess last (by simp)
    refine ⟨haccess, ⟨?_, ?_⟩, fun _ => ⟨done, last, rfl, ?_, hending⟩, ?_⟩
    · intro hok
      exact absurd hok hne
    · intro hcomplete
      have hfinal := hlast.ending_eq_ok_iff.mpr (hcomplete last (by simp))
      exact absurd (hending.symm.trans hfinal) hne
    · intro call hcall
      apply (haccess call (List.mem_append_left _ hcall)).ending_eq_ok_iff.mp
      exact hfine value _ hfull call (List.mem_append_left _ hcall)
    · intro error herror
      exact hlast.isTransferFailure (hending.trans herror)

theorem Program.FullRun.ending_mem {program : Program α} {trace : List (Call ε η)} {value : α}
    (h : program.FullRun trace value) : ∀ call ∈ trace, call.ending = .ok () := by
  induction h with
  | done value => simp
  | read word rest ih => simpa using ih
  | write rest ih => simpa using ih
  | note rest ih => exact ih

/-- How register work on a meter ends.  A refusal makes no call and leaves no
record, and the meter stays as it was. -/
structure Meter.Classified (meter : Meter β) (closedError : Error ε) (usable : Prop)
    (run : Run (Meter β) ε η α) : Prop where
  closed : meter.state = .uninitialized → run = .refuse closedError meter
  refused : meter.state ≠ .uninitialized → ¬ usable → run = .refuse .invalidArgument meter
  invalid_iff : meter.state ≠ .uninitialized →
    (run.outcome = .failed .invalidArgument ↔ ¬ usable)
  settled : meter.state ≠ .uninitialized → usable →
    Settled (calls run.journal) run.outcome.ending

namespace Meter.Classified

variable {meter : Meter β} {closedError : Error ε} {usable : Prop} {run : Run (Meter β) ε η α}

theorem of_settled (hclosed : meter.isInitialized = false → run = .refuse closedError meter)
    (hrefused : meter.isInitialized = true → ¬ usable → run = .refuse .invalidArgument meter)
    (hsettled : meter.isInitialized = true → usable →
      Settled (calls run.journal) run.outcome.ending) :
    meter.Classified closedError usable run := by
  simp only [isInitialized_eq_true_iff, isInitialized_eq_false_iff] at hclosed hrefused hsettled
  refine ⟨hclosed, hrefused, ?_, hsettled⟩
  intro hsession
  constructor
  · intro hinvalid husable
    -- An error that settles is a transfer failure, and this one is none.
    have htransfer := (hsettled hsession husable).transferFailure .invalidArgument
    exact Bool.false_ne_true (htransfer (congrArg Outcome.ending hinvalid))
  · intro hunusable
    rw [hrefused hsession hunusable]
    rfl

theorem map (h : meter.Classified closedError usable run) (f : α → γ) :
    meter.Classified closedError usable (run.map f) := by
  apply of_settled
  · intro hidle
    rw [h.closed (isInitialized_eq_false_iff.mp hidle)]
    rfl
  · intro hsession hunusable
    rw [h.refused (isInitialized_eq_true_iff.mp hsession) hunusable]
    rfl
  · intro hsession husable
    rw [Run.ending_map]
    exact h.settled (isInitialized_eq_true_iff.mp hsession) husable

end Meter.Classified

variable [Bus β ε η]

theorem Exchanges.isAccess {writes : Address → Prop} {bus last : β} {journal : List (Entry ε η)}
    (h : Exchanges writes bus journal last) : ∀ call ∈ calls journal, call.IsAccess := by
  induction h with
  | done bus => simp
  | read address rest ih =>
      rw [calls_append, calls_readRegister, List.singleton_append, List.forall_mem_cons]
      exact ⟨⟨address, rfl, rfl⟩, ih⟩
  | @write bus last journal address allowed word rest ih =>
      rw [calls_append, calls_writeRegister, List.singleton_append, List.forall_mem_cons]
      exact ⟨⟨address, word, rfl⟩, ih⟩
  | note record rest ih => exact ih

theorem Program.run_settled (program : Program α) (bus : β) :
    Settled (calls (program.run bus).journal) (program.run bus).outcome.ending := by
  have hwrites : program.WritesOnly fun _ => True := by
    induction program with
    | done value => trivial
    | read address next ih => exact ih
    | write address word next ih => exact ⟨trivial, ih⟩
    | note record next ih => exact ih
  have haccess := (program.exchanges_run hwrites bus).isAccess
  exact Settled.of_follows haccess (fun _ _ hfull => hfull.ending_mem) (program.run_follows bus)

namespace Operation

/-- The operation is refused without a session. -/
def NeedsSession : Operation → Prop
  | init | deinit | dump _ => False
  | _ => True

/-- The arguments of the operation are within their ranges. -/
def Usable : Operation → Prop
  | write address _ | rawRead address | verifiedRead address => address.toNat ≤ 0x7F
  | start _ sagVolts => (Quantity.sagCounts? sagVolts).isSome = true
  | startWithGainFactor factor sagVolts =>
      factor ∈ ([1, 4, 8, 16, 24] : List Byte) ∧ (Quantity.sagCounts? sagVolts).isSome = true
  | _ => True

/-- Why the operation is refused without a session.  Only a gain factor is looked
at before that. -/
def closedError : Operation → Error ε
  | startWithGainFactor factor _ =>
      if factor ∈ ([1, 4, 8, 16, 24] : List Byte) then .notInitialized else .invalidArgument
  | _ => .notInitialized

end Operation

theorem CurrentGain.ofFactor?_eq_none_iff {factor : Byte} :
    ofFactor? factor = none ↔ factor ∉ ([1, 4, 8, 16, 24] : List Byte) := by
  revert factor
  decide

namespace Meter

variable {meter : Meter β}

theorem execute_classified (meter : Meter β) (program : Program α) :
    meter.Classified .notInitialized True (meter.execute program) := by
  apply Classified.of_settled
  · intro hidle
    simp [execute, hidle]
  · intro _ hunusable
    exact absurd trivial hunusable
  · intro hsession _
    simp only [execute, hsession, if_true]
    exact program.run_settled meter.bus

theorem executeAt_classified (meter : Meter β) (address : Byte) (program : Address → Program α) :
    meter.Classified .notInitialized (address.toNat ≤ 0x7F) (meter.executeAt address program) := by
  cases htarget : Address.ofByte? address with
  | none =>
      have hrange := Address.ofByte?_eq_none_iff.mp htarget
      apply Classified.of_settled
      · intro hidle
        simp [executeAt, htarget, hidle]
      · intro hsession _
        exact executeAt_of_lt hsession hrange program
      · intro _ husable
        omega
  | some target =>
      have hsmall : address.toNat ≤ 0x7F := by
        apply Nat.le_of_not_lt
        intro hrange
        simp [Address.ofByte?_eq_none_iff.mpr hrange] at htarget
      have hexecute := meter.execute_classified (program target)
      simpa only [executeAt, htarget, hsmall] using hexecute

theorem start_classified (meter : Meter β) (gain : CurrentGain) (sagVolts : Float32) :
    meter.Classified .notInitialized ((Quantity.sagCounts? sagVolts).isSome = true)
      (meter.start gain sagVolts) := by
  apply Classified.of_settled
  · intro hidle
    simp [start, hidle]
  · intro hsession hunusable
    simp only [Bool.not_eq_true, Option.isSome_eq_false_iff, Option.isNone_iff_eq_none] at hunusable
    simp [start, hsession, hunusable]
  · intro hsession husable
    obtain ⟨sagCounts, hcounts⟩ := Option.isSome_iff_exists.mp husable
    have haccess := (meter.start_exchanges gain sagVolts).isAccess
    exact Settled.of_follows haccess (fun _ _ hfull => hfull.ending_mem)
      (start_follows gain hsession hcounts)

theorem startWithGainFactor_classified (meter : Meter β) (factor : Byte) (sagVolts : Float32) :
    let operation := Operation.startWithGainFactor factor sagVolts
    meter.Classified operation.closedError operation.Usable
      (meter.startWithGainFactor factor sagVolts) := by
  simp only [Operation.closedError, Operation.Usable, startWithGainFactor]
  cases hgain : CurrentGain.ofFactor? factor with
  | none =>
      have hunsupported := CurrentGain.ofFactor?_eq_none_iff.mp hgain
      simp only [if_neg hunsupported]
      apply Classified.of_settled
      · intro _
        rfl
      · intro _ _
        rfl
      · intro _ husable
        exact absurd husable.1 hunsupported
  | some gain =>
      have hsupported : factor ∈ ([1, 4, 8, 16, 24] : List Byte) := by
        apply Decidable.of_not_not
        intro hunsupported
        simp [CurrentGain.ofFactor?_eq_none_iff.mpr hunsupported] at hgain
      simpa only [hsupported, if_true, true_and] using meter.start_classified gain sagVolts

/-- Every operation that needs a session. -/
theorem perform_classified (meter : Meter β) {operation : Operation}
    (hneeds : operation.NeedsSession) :
    meter.Classified operation.closedError operation.Usable (meter.perform operation) := by
  cases operation with
  | init => exact hneeds.elim
  | deinit => exact hneeds.elim
  | dump items => exact hneeds.elim
  | softReset => exact (meter.execute_classified _).map _
  | write address word => exact (meter.executeAt_classified address _).map _
  | rawRead address => exact (meter.executeAt_classified address _).map _
  | verifiedRead address => exact (meter.executeAt_classified address _).map _
  | start gain sagVolts => exact (meter.start_classified gain sagVolts).map _
  | startWithGainFactor factor sagVolts =>
      exact (meter.startWithGainFactor_classified factor sagVolts).map _
  | irmsRaw | vrmsRaw | systemStatus => exact (meter.execute_classified _).map _
  | irmsAmps | vrmsVolts | powerRaw | powerWatts | lineFrequencyHz =>
      exact ((meter.execute_classified _).map _).map _

end Meter

namespace Dump

/-- The reading behind a step of a dump, with the error of its item as its own. -/
def reading (step : Run (Dump β) ε η (DumpItem ε)) : Run (Meter β) ε η Word where
  outcome :=
    match step.outcome with
    | .ok ⟨_, .ok word⟩ => .ok word
    | .ok ⟨_, .error error⟩ => .failed error
    | .failed error => .failed error
    | .halted cause => .halted cause
  state := step.state.meter
  journal := step.journal

/-- A step of a dump is a verified read, and it never fails by itself. -/
theorem next_reading {dump : Dump β} {step : Run (Dump β) ε η (DumpItem ε)}
    (hstep : dump.next? = some step) :
    (∃ address : Address,
        reading step = dump.meter.verifiedReadRegister address.toByte) ∧
      ∀ error, step.outcome ≠ .failed error := by
  obtain ⟨meter, remaining⟩ := dump
  cases remaining with
  | nil => simp [next?] at hstep
  | cons register remaining =>
      obtain rfl := Option.some.inj hstep
      rcases hread : meter.verifiedReadRegister register.address.toByte with
        ⟨word | error | cause, state, journal⟩ <;>
        exact ⟨⟨register.address, by simp [reading, hread]⟩, by simp⟩

theorem next_classified {dump : Dump β} {step : Run (Dump β) ε η (DumpItem ε)}
    (hstep : dump.next? = some step) :
    dump.meter.Classified .notInitialized True (reading step) := by
  obtain ⟨⟨address, hreading⟩, -⟩ := next_reading hstep
  have hsmall : address.toByte.toNat ≤ 0x7F := by
    rw [Address.toNat_toByte]
    omega
  have hread := dump.meter.executeAt_classified address.toByte Program.verifiedRead
  simp only [hsmall] at hread
  rwa [hreading]

end Dump

namespace Meter

/-- Every operation that needs a session, and every step of a dump, is refused
without one, and within one exactly for an address, a threshold or a gain factor
out of range.  Otherwise it succeeds exactly if each of its exchanges was
complete, and its error is the transfer failure of its last exchange.  What
beginning and ending a session come to is told by the same calls. -/
theorem errors_classified (meter : Meter β) :
    (∀ operation, operation.NeedsSession →
      meter.Classified operation.closedError operation.Usable (meter.perform operation)) ∧
    (∀ (dump : Dump β) step, dump.next? = some step →
      dump.meter.Classified .notInitialized True (Dump.reading step) ∧
        ∀ error, step.outcome ≠ .failed error) ∧
    (meter.config.speedHz = 0 → meter.init = .refuse .invalidConfig meter) ∧
    (meter.config.speedHz ≠ 0 → meter.state ≠ .uninitialized → meter.init = .pure () meter) ∧
    (meter.config.speedHz ≠ 0 → meter.state = .uninitialized →
      Opening meter.config.speedHz (calls meter.init.journal) meter.init.outcome
        meter.init.state.state) ∧
    ∃ ended, calls meter.deinit.journal = [.disconnect ended] ∧
      meter.deinit.outcome = (Call.disconnect ended : Call ε η).ending := by
  refine ⟨fun operation => meter.perform_classified, ?_, ?_, ?_, ?_, ?_⟩
  · intro dump step hstep
    exact ⟨Dump.next_classified hstep, (Dump.next_reading hstep).2⟩
  · intro hspeed
    simp [init, Config.validate, hspeed]
  · intro hspeed hsession
    have hvalid := Config.validate_eq_ok_iff.mpr hspeed
    simp [init, hvalid, isInitialized_eq_true_iff.mpr hsession]
  · intro hspeed hidle
    exact (init_opening hspeed (isInitialized_eq_false_iff.mpr hidle)).1
  · refine ⟨_, meter.calls_deinit, ?_⟩
    cases hended : (Bus.disconnect meter.bus).result <;> simp [deinit, hended, Call.ending]

end Meter

end EnergyMeter

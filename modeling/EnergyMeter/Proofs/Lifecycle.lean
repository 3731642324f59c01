import EnergyMeter.Proofs.Configured
import EnergyMeter.Proofs.Session

/-!
The lifecycle state as a function of the history.  A meter has a session since
an `init` that succeeded and was not followed by a `deinit`, and it runs since a
start that succeeded and was not followed by a `deinit` or by another start with
usable arguments.  Nothing else changes the state.
-/

namespace EnergyMeter

variable {β ε η : Type}

namespace Operation

/-- A start, whatever its arguments. -/
def IsStart : Operation → Prop
  | start .. | startWithGainFactor .. => True
  | _ => False

/-- No earlier start counts after this operation: it ends the session, or it is
itself a start with a usable gain and threshold. -/
def Supersedes (operation : Operation) : Prop :=
  operation = .deinit ∨ operation.setup?.isSome = true

theorem kind_eq_init_iff {operation : Operation} :
    operation.kind = .init ↔ operation = .init := by
  cases operation with
  | startWithGainFactor factor sagVolts =>
      cases hgain : CurrentGain.ofFactor? factor <;> simp [kind, hgain]
  | _ => simp [kind]

theorem kind_eq_deinit_iff {operation : Operation} :
    operation.kind = .deinit ↔ operation = .deinit := by
  cases operation with
  | startWithGainFactor factor sagVolts =>
      cases hgain : CurrentGain.ofFactor? factor <;> simp [kind, hgain]
  | _ => simp [kind]

theorem kind_eq_access {operation : Operation} (hstart : ¬ operation.IsStart)
    (hinit : operation ≠ .init) (hdeinit : operation ≠ .deinit) : operation.kind = .access := by
  cases operation with
  | init => exact absurd rfl hinit
  | deinit => exact absurd rfl hdeinit
  | start gain sagVolts => exact absurd trivial hstart
  | startWithGainFactor factor sagVolts => exact absurd trivial hstart
  | _ => rfl

theorem supersedes_iff_of_start {operation : Operation} {gain : CurrentGain} {sagVolts : Float32}
    (hkind : operation.kind = .start gain sagVolts) :
    operation.Supersedes ↔ (Quantity.sagCounts? sagVolts).isSome = true := by
  have hne : operation ≠ .deinit := by
    rintro rfl
    simp [kind] at hkind
  simp [Supersedes, hne, setup?, hkind]

theorem not_supersedes_of_init {operation : Operation} (hkind : operation.kind = .init) :
    ¬ operation.Supersedes := by
  obtain rfl := kind_eq_init_iff.mp hkind
  simp [Supersedes, setup?, kind]

theorem not_supersedes_of_access {operation : Operation} (hkind : operation.kind = .access) :
    ¬ operation.Supersedes := by
  have hne : operation ≠ .deinit := by
    rintro rfl
    simp [kind] at hkind
  simp [Supersedes, hne, setup?, hkind]

end Operation

/-- A session was asked for with success exactly when there is one. -/
theorem Opening.ok_iff {speedHz : UInt32} {made : List (Call ε η)}
    {outcome : Outcome (Error ε) η Unit} {state : State}
    (h : Opening speedHz made outcome state) : outcome = .ok () ↔ state ≠ .uninitialized := by
  cases h with
  | unconnected fault => simp
  | rejected fault closed => simp
  | opened => simp

theorem State.afterStart_eq_running_iff {φ : Type} {gain other : CurrentGain}
    {outcome : Outcome φ η Unit} :
    afterStart gain outcome = running other ↔ outcome = .ok () ∧ gain = other := by
  cases outcome with
  | ok value => simp [afterStart]
  | failed failure => simp [afterStart]
  | halted cause => simp [afterStart]

variable [Bus β ε η]

namespace Meter

/-- This operation begins a session. -/
def Begins (meter : Meter β) (operation : Operation) : Prop :=
  operation = .init ∧ (meter.init : Run (Meter β) ε η Unit).outcome = .ok ()

/-- This operation is a start with this gain, and it succeeds. -/
def StartsWith (gain : CurrentGain) (meter : Meter β) (operation : Operation) : Prop :=
  (∃ sagVolts, operation.kind = .start gain sagVolts) ∧
    ∃ answer, (meter.perform operation).outcome = .ok answer

/-- Some operation of a history happened in a given way, and none after it
undoes that. -/
def Since (meter : Meter β) (happens : Meter β → Operation → Prop) (undoes : Operation → Prop)
    (operations : List Operation) : Prop :=
  ∃ before operation later, operations = before ++ operation :: later ∧
    happens (meter.after before) operation ∧ ∀ other ∈ later, ¬ undoes other

section

variable {happens : Meter β → Operation → Prop} {undoes : Operation → Prop}

theorem not_since_nil (meter : Meter β) : ¬ meter.Since happens undoes [] := by
  rintro ⟨before, operation, later, heq, -, -⟩
  simp at heq

/-- The last operation decides, or it leaves the matter to the others. -/
theorem since_concat (meter : Meter β) (operations : List Operation) (operation : Operation) :
    meter.Since happens undoes (operations ++ [operation]) ↔
      happens (meter.after operations) operation ∨
        meter.Since happens undoes operations ∧ ¬ undoes operation := by
  constructor
  · rintro ⟨before, first, later, heq, hhappens, hkept⟩
    -- Either it happened in the last operation, or that one is the last to undo it.
    cases later using List.reverseRecOn with
    | nil =>
        obtain ⟨rfl, hlast⟩ := List.append_inj' heq rfl
        obtain rfl := List.singleton_inj.mp hlast
        exact .inl hhappens
    | append_singleton later last _ =>
        rw [← List.cons_append, ← List.append_assoc] at heq
        obtain ⟨rfl, hlast⟩ := List.append_inj' heq rfl
        obtain rfl := List.singleton_inj.mp hlast
        refine .inr ⟨⟨before, first, later, rfl, hhappens, ?_⟩, hkept _ (by simp)⟩
        exact fun other hother => hkept other (List.mem_append_left _ hother)
  · rintro (hhappens | ⟨⟨before, first, later, rfl, hhappens, hkept⟩, hlast⟩)
    · exact ⟨operations, operation, [], rfl, hhappens, by simp⟩
    · refine ⟨before, first, later ++ [operation], by simp, hhappens, ?_⟩
      intro other hother
      rcases List.mem_append.mp hother with hother | hother
      · exact hkept other hother
      · exact List.mem_singleton.mp hother ▸ hlast

end

theorem startsWith_iff {meter : Meter β} {operation : Operation} {asked gain : CurrentGain}
    {sagVolts : Float32} (hkind : operation.kind = .start asked sagVolts) :
    meter.StartsWith gain operation ↔
      (meter.start asked sagVolts).outcome = .ok () ∧ asked = gain := by
  have hperform := meter.perform_start hkind
  rcases hrun : meter.start asked sagVolts with ⟨value | error | cause, state, journal⟩ <;>
    simp [StartsWith, hkind, hperform, hrun, Run.map]

/-- What an `init` comes to tells whether there is a session. -/
theorem init_ok_iff {meter : Meter β} (hidle : meter.state = .uninitialized) :
    (meter.init : Run (Meter β) ε η Unit).outcome = .ok () ↔
      (meter.init : Run (Meter β) ε η Unit).state.state ≠ .uninitialized := by
  by_cases hspeed : meter.config.speedHz = 0
  · simp [init, Config.validate, hspeed, Run.refuse, hidle]
  · exact (init_opening hspeed (isInitialized_eq_false_iff.mpr hidle)).1.ok_iff

/-- There is a session after an operation that begins one, or if there was one
that the operation does not end. -/
theorem perform_session_iff (meter : Meter β) (operation : Operation) :
    (meter.perform operation).state.state ≠ .uninitialized ↔
      meter.Begins operation ∨ meter.state ≠ .uninitialized ∧ operation ≠ .deinit := by
  by_cases hinit : operation.kind = .init
  · rw [meter.perform_init hinit]
    obtain rfl := Operation.kind_eq_init_iff.mp hinit
    by_cases hidle : meter.state = .uninitialized
    · simp only [Begins, init_ok_iff hidle, hidle, Run.map]
      simp
    · have hsession : meter.isInitialized = true := by simpa [isInitialized] using hidle
      simp [Run.map, (init_idle (.inr hsession)).2, hidle]
  · have hbegins : ¬ meter.Begins operation :=
      fun hbegins => hinit (Operation.kind_eq_init_iff.mpr hbegins.1)
    by_cases hdeinit : operation.kind = .deinit
    · obtain rfl := Operation.kind_eq_deinit_iff.mp hdeinit
      simp [perform, Run.map, deinit, hbegins]
    · have hne : operation ≠ .deinit := fun heq => hdeinit (Operation.kind_eq_deinit_iff.mpr heq)
      have hsame := (meter.perform_within hinit hdeinit).1
      rw [Ne, Ne, ← isInitialized_eq_false_iff, ← isInitialized_eq_false_iff, hsame]
      simp [hbegins, hne]

/-- A meter runs after a start that succeeds, or if it ran and the operation
leaves it running. -/
theorem perform_running_iff (meter : Meter β) (operation : Operation) (gain : CurrentGain) :
    (meter.perform operation).state.state = .running gain ↔
      meter.StartsWith gain operation ∨ meter.state = .running gain ∧ ¬ operation.Supersedes := by
  cases hkind : operation.kind with
  | init =>
      have hnot : ¬ meter.StartsWith gain operation := by simp [StartsWith, hkind]
      rw [meter.perform_init hkind]
      by_cases hidle : meter.config.speedHz = 0 ∨ meter.isInitialized = true
      · simp [Run.map, (init_idle hidle).2, hnot, Operation.not_supersedes_of_init hkind]
      · rw [not_or, Bool.not_eq_true] at hidle
        have hopening := (init_opening hidle.1 hidle.2).1
        have hstate := isInitialized_eq_false_iff.mp hidle.2
        simp [Run.map, hopening.state_ne_running gain, hnot, hstate]
  | deinit =>
      have hnot : ¬ meter.StartsWith gain operation := by simp [StartsWith, hkind]
      obtain rfl := Operation.kind_eq_deinit_iff.mp hkind
      simp [perform, Run.map, deinit, hnot, Operation.Supersedes]
  | access =>
      have hnot : ¬ meter.StartsWith gain operation := by simp [StartsWith, hkind]
      rw [(meter.perform_accesses hkind).state]
      simp [hnot, Operation.not_supersedes_of_access hkind]
  | start asked sagVolts =>
      rw [meter.perform_start hkind, startsWith_iff hkind, Operation.supersedes_iff_of_start hkind]
      cases hsession : meter.isInitialized with
      | false =>
          have hstate := isInitialized_eq_false_iff.mp hsession
          simp [Run.map, start, hsession, Run.refuse, hstate]
      | true =>
          cases hcounts : Quantity.sagCounts? sagVolts with
          | none => simp [Run.map, start, hsession, hcounts, Run.refuse]
          | some sagCounts =>
              -- An accepted start takes the old gain away even when it fails.
              have hlast := start_state asked hsession hcounts
              simp [Run.map, hlast, State.afterStart_eq_running_iff]

theorem after_session_iff (bus : β) (config : Config) (operations : List Operation) :
    ((Meter.fresh bus config).after operations).state ≠ .uninitialized ↔
      (Meter.fresh bus config).Since Begins (· = .deinit) operations := by
  induction operations using List.reverseRecOn with
  | nil => simp [not_since_nil, fresh]
  | append_singleton operations operation ih =>
      rw [after_concat, perform_session_iff, since_concat, ih]

theorem after_running_iff (bus : β) (config : Config) (operations : List Operation)
    (gain : CurrentGain) :
    ((Meter.fresh bus config).after operations).state = .running gain ↔
      (Meter.fresh bus config).Since (StartsWith gain) Operation.Supersedes operations := by
  induction operations using List.reverseRecOn with
  | nil => simp [not_since_nil, fresh]
  | append_singleton operations operation ih =>
      rw [after_concat, perform_running_iff, since_concat, ih]

/-- A start with an unusable gain or threshold is refused before anything
happens. -/
theorem perform_rejected (meter : Meter β) {operation : Operation} (hstart : operation.IsStart)
    (hsetup : operation.setup? = none) :
    ∃ error, meter.perform operation = .refuse error meter ∧
      (meter.isInitialized = true → error = .invalidArgument) := by
  cases hkind : operation.kind with
  | init =>
      obtain rfl := Operation.kind_eq_init_iff.mp hkind
      exact hstart.elim
  | deinit =>
      obtain rfl := Operation.kind_eq_deinit_iff.mp hkind
      exact hstart.elim
  | access =>
      cases operation with
      | startWithGainFactor factor sagVolts =>
          cases hgain : CurrentGain.ofFactor? factor with
          | some gain => simp [Operation.kind, hgain] at hkind
          | none =>
              refine ⟨.invalidArgument, ?_, fun _ => rfl⟩
              simp [perform, startWithGainFactor, hgain, Run.refuse, Run.map]
      | start gain sagVolts => simp [Operation.kind] at hkind
      | _ => exact hstart.elim
  | start gain sagVolts =>
      have hcounts : Quantity.sagCounts? sagVolts = none := by
        simpa [Operation.setup?, hkind] using hsetup
      rw [meter.perform_start hkind]
      cases hsession : meter.isInitialized with
      | false => exact ⟨.notInitialized, by simp [start, hsession, Run.refuse, Run.map], by simp⟩
      | true =>
          refine ⟨.invalidArgument, ?_, fun _ => rfl⟩
          simp [start, hsession, hcounts, Run.refuse, Run.map]

/-- Within a session another `init` does nothing. -/
theorem init_again (bus : β) (config : Config) (operations : List Operation)
    (hsession : ((Meter.fresh bus config).after operations).state ≠ .uninitialized) :
    let last := (Meter.fresh bus config).after operations
    last.init = (.pure () last : Run (Meter β) ε η Unit) := by
  intro last
  obtain ⟨hconfig, hplace⟩ := fresh_followsSessions bus config operations
  have hspeed := (hplace.resolve_left fun hclosed => hsession hclosed.1).2.1
  rw [← hconfig] at hspeed
  have hvalid : last.config.validate = .ok () := Config.validate_eq_ok_iff.mpr hspeed
  have hopen : last.isInitialized = true := by simpa [isInitialized] using hsession
  simp [init, hvalid, hopen]

theorem next_state {dump : Dump β} {step : Run (Dump β) ε η (DumpItem ε)}
    (hstep : dump.next? = some step) : step.state.meter.state = dump.meter.state := by
  obtain ⟨meter, remaining⟩ := dump
  cases remaining with
  | nil => simp [Dump.next?] at hstep
  | cons register remaining =>
      have hread : Accesses (fun _ => False) meter
          (meter.verifiedReadRegister register.address.toByte).journal
          (meter.verifiedReadRegister register.address.toByte).state :=
        executeAt_accesses meter _ fun target _ => Program.writesOnly_verifiedRead target
      obtain rfl := Option.some.inj hstep
      exact hread.state

/-- A meter has a session since an `init` that succeeded and until a `deinit`,
whatever that comes to, and it runs since a start that succeeded and until a
`deinit` or another start with usable arguments.  So no access changes the state,
an `init` within a session does nothing, and neither does a start with an
unusable gain or threshold. -/
theorem state_of_history (bus : β) (config : Config) (operations : List Operation) :
    let meter := Meter.fresh bus config
    let last := meter.after operations
    (last.state ≠ .uninitialized ↔ meter.Since Begins (· = .deinit) operations) ∧
      (∀ gain, last.state = .running gain ↔
        meter.Since (StartsWith gain) Operation.Supersedes operations) ∧
      (∀ operation, ¬ operation.IsStart → operation ≠ .init → operation ≠ .deinit →
        (last.perform operation).state.state = last.state) ∧
      (∀ items step, (last.dumpRegisters.take items).state.next? = some step →
        step.state.meter.state = last.state) ∧
      (last.state ≠ .uninitialized → last.init = .pure () last) ∧
      (∀ operation, operation.IsStart → operation.setup? = none →
        ∃ error, last.perform operation = .refuse error last ∧
          (last.isInitialized = true → error = .invalidArgument)) := by
  intro meter last
  refine ⟨after_session_iff bus config operations, after_running_iff bus config operations, ?_, ?_,
    init_again bus config operations, fun _ => last.perform_rejected⟩
  · intro operation hstart hinit hdeinit
    exact (last.perform_accesses (Operation.kind_eq_access hstart hinit hdeinit)).state
  · intro items step hstep
    have hdump : Accesses (fun _ => False) last (last.dumpRegisters.take items).journal
        (last.dumpRegisters.take items).state.meter :=
      dump_accesses last.dumpRegisters items
    exact (next_state hstep).trans hdump.state

end Meter

end EnergyMeter

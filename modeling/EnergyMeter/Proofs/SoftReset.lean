import EnergyMeter.Proofs.Lifecycle
import EnergyMeter.Proofs.StartTrace

/-!
Soft resets of a running meter.  A start resets the chip before it sets it up,
but a reset that is asked for on its own leaves the lifecycle state as it is.  So
a meter can be running although the chip was reset behind its start: as often as
a soft reset succeeded since, and never by anything else.
-/

namespace EnergyMeter

variable {β ε η α : Type}

/-- The bus acknowledged a reset command. -/
def Call.isReset : Call ε η → Bool
  | .write sent (.ok count) =>
      sent = Frame.write Register.softReset Register.softResetCommand ∧ count = 3
  | _ => false

@[simp]
theorem Call.isReset_stored :
    (stored Register.softReset Register.softResetCommand : Call ε η).isReset = true := by
  simp [stored, isReset]

theorem Call.isReset_write_of_ne {address : Address} (h : address ≠ Register.softReset)
    (word : Word) (result : Outcome ε η Nat) :
    (Call.write (Frame.write address word) result : Call ε η).isReset = false := by
  have hframe : Frame.write address word ≠
      Frame.write Register.softReset Register.softResetCommand := by
    intro heq
    have hheader := congrArg Frame.address (List.cons.inj heq).1
    rw [Frame.address_toByte, Frame.address_toByte] at hheader
    exact h hheader
  cases result with
  | ok count => simp [isReset, hframe]
  | failed fault => rfl
  | halted cause => rfl

/-- A call that is not fine is no reset. -/
theorem Call.isReset_of_ending_ne {call : Call ε η} (h : call.ending ≠ .ok ()) :
    call.isReset = false := by
  unfold isReset
  split
  · rename_i sent count
    by_cases hreset : sent = Frame.write Register.softReset Register.softResetCommand ∧ count = 3
    · obtain ⟨rfl, rfl⟩ := hreset
      exact absurd rfl h
    · exact decide_eq_false hreset
  · rfl

theorem Call.isReset_of_not_isExchange {call : Call ε η} (h : ¬ call.IsExchange) :
    call.isReset = false := by
  cases call with
  | transfer sent size result => rfl
  | write sent result => exact absurd trivial h
  | connect result => rfl
  | configure speedHz result => rfl
  | disconnect result => rfl

def Operation.isSoftReset : Operation → Bool
  | softReset => true
  | _ => false

/-- Without a direct write to it, only a soft reset writes the reset register. -/
theorem Operation.not_writes_reset {operation : Operation} (hreset : operation ≠ .softReset)
    (hdirect : ∀ word, operation ≠ .write Register.softReset.toByte word) :
    ¬ operation.Writes Register.softReset := by
  intro hwrites
  cases operation with
  | softReset => exact hreset rfl
  | write address word =>
      obtain rfl := Address.ofByte?_eq_some_iff.mp hwrites
      exact hdirect word rfl
  | _ => exact nomatch hwrites

/-- The run of a soft reset that succeeded. -/
def Run.resets {σ : Type} (operation : Operation) (run : Run σ ε η α) : Bool :=
  match run.outcome with
  | .ok _ => operation.isSoftReset
  | .failed _ | .halted _ => false

@[simp]
theorem Run.resets_map {σ γ : Type} (operation : Operation) (f : α → γ) (run : Run σ ε η α) :
    (run.map f).resets operation = run.resets operation := by
  rcases run with ⟨value | error | cause, state, journal⟩ <;> rfl

/-- Only the run of a soft reset counts. -/
theorem Run.resets_of_ne {σ : Type} {operation : Operation} (h : operation ≠ .softReset)
    (run : Run σ ε η α) : run.resets operation = false := by
  rcases run with ⟨value | error | cause, state, journal⟩
  · cases operation with
    | softReset => exact absurd rfl h
    | _ => rfl
  · rfl
  · rfl

theorem Run.resets_of_ending_ne {σ : Type} {run : Run σ ε η α} (h : run.outcome.ending ≠ .ok ())
    (operation : Operation) : run.resets operation = false := by
  rcases run with ⟨value | error | cause, state, journal⟩
  · exact absurd rfl h
  · rfl
  · rfl

variable [Bus β ε η]

theorem Exchanges.isReset_of_not_writes {writes : Address → Prop} {bus last : β}
    {journal : List (Entry ε η)} (hwrites : ¬ writes Register.softReset)
    (h : Exchanges writes bus journal last) : ∀ call ∈ calls journal, call.isReset = false := by
  induction h with
  | done bus => simp
  | read address rest ih =>
      rw [calls_append, calls_readRegister, List.singleton_append, List.forall_mem_cons]
      exact ⟨rfl, ih⟩
  | @write bus last journal address allowed word rest ih =>
      have hne : address ≠ Register.softReset := fun heq => hwrites (heq ▸ allowed)
      rw [calls_append, calls_writeRegister, List.singleton_append, List.forall_mem_cons]
      exact ⟨Call.isReset_write_of_ne hne word _, ih⟩
  | note record rest ih => exact ih

/-- A soft reset sends one reset if it succeeds and none otherwise. -/
theorem Meter.countP_isReset_softReset (meter : Meter β) :
    (calls (meter.perform .softReset).journal).countP Call.isReset =
      ((meter.perform .softReset).resets .softReset).toNat := by
  cases hsession : meter.isInitialized with
  | false =>
      simp [perform, softReset, execute, hsession, Run.refuse, Run.map, Run.resets]
  | true =>
      have hrun : meter.perform .softReset =
          (((Program.softReset.run meter.bus).within meter.onBus).map fun _ => .nothing :
            Run (Meter β) ε η (Answer ε)) := by
        rw [perform, softReset, execute, if_pos hsession]
      rw [hrun, Run.resets_map, Program.softReset, Program.run_store]
      rcases writeRegister_cases Register.softReset Register.softResetCommand meter.bus with
        ⟨hok, hcalls⟩ | ⟨call, hcalls, -, hending, hne⟩
      · simp [Run.map, Run.within, hcalls, hok, Run.resets, Operation.isSoftReset]
      · have hrefused := Run.resets_of_ending_ne (hending ▸ hne) .softReset
        simp only [Run.map, Run.within, hcalls, List.countP_singleton,
          Call.isReset_of_ending_ne hne]
        exact (congrArg Bool.toNat hrefused).symm

/-- Whatever a meter is asked for that keeps its last start, each soft reset that
succeeds sends one reset, and nothing else does. -/
theorem Meter.countP_isReset_perform (meter : Meter β) {operation : Operation}
    (hkeeps : ¬ operation.Supersedes)
    (hdirect : ∀ word, operation ≠ .write Register.softReset.toByte word) :
    (calls (meter.perform operation).journal).countP Call.isReset =
      ((meter.perform operation).resets operation).toNat := by
  by_cases hreset : operation = .softReset
  · subst hreset
    exact meter.countP_isReset_softReset
  · rw [Run.resets_of_ne hreset, Bool.toNat_false, List.countP_eq_zero]
    intro call hcall
    rw [Bool.not_eq_true]
    cases hkind : operation.kind with
    | init =>
        rw [meter.perform_init hkind] at hcall
        by_cases hidle : meter.config.speedHz = 0 ∨ meter.isInitialized = true
        · simp [Run.map, (init_idle hidle).1] at hcall
        · rw [not_or, Bool.not_eq_true] at hidle
          have hopening := (init_opening hidle.1 hidle.2).1
          exact Call.isReset_of_not_isExchange (hopening.not_isExchange call hcall)
    | deinit => exact absurd (.inl (Operation.kind_eq_deinit_iff.mp hkind)) hkeeps
    | start gain sagVolts =>
        rw [meter.perform_start hkind] at hcall
        rcases meter.start_refused_or_accepted gain sagVolts with
          ⟨error, hrefused⟩ | ⟨-, sagCounts, hcounts⟩
        · simp [Run.map, hrefused, Run.refuse] at hcall
        · rw [Operation.supersedes_iff_of_start hkind, hcounts] at hkeeps
          exact absurd rfl hkeeps
    | access =>
        have haccess := meter.perform_accesses hkind
        exact haccess.exchanges.isReset_of_not_writes (Operation.not_writes_reset hreset hdirect)
          call hcall

/-- The resets behind a start that still counts are the soft resets that
succeeded. -/
theorem Meter.countP_isReset_journal (meter : Meter β) {operations : List Operation}
    (hkeeps : ∀ operation ∈ operations, ¬ operation.Supersedes)
    (hdirect : ∀ operation ∈ operations, ∀ word,
      operation ≠ .write Register.softReset.toByte word) :
    (calls (meter.journal operations)).countP Call.isReset =
      (operations.zip (meter.performAll operations)).countP fun made => made.2.resets made.1 := by
  induction operations generalizing meter with
  | nil => rfl
  | cons operation rest ih =>
      obtain ⟨hfirst, hrest⟩ := List.forall_mem_cons.mp hkeeps
      obtain ⟨hplain, hothers⟩ := List.forall_mem_cons.mp hdirect
      rw [journal_cons, calls_append, List.countP_append, ih _ hrest hothers,
        meter.countP_isReset_perform hfirst hplain, performAll, List.zip_cons_cons,
        List.countP_cons, Nat.add_comm]
      cases (meter.perform operation).resets operation <;> rfl

/-- A meter that runs was started, and nothing behind that start took its gain
away.  A soft reset does not take it away either: behind the start the bus
acknowledged as many resets as there were soft resets that succeeded, and the
meter was running throughout. -/
theorem resets_while_running (bus : β) (config : Config) {operations : List Operation}
    {gain : CurrentGain}
    (hdirect : ∀ operation ∈ operations, ∀ word,
      operation ≠ .write Register.softReset.toByte word)
    (hrunning : ((Meter.fresh bus config).after operations).state = .running gain) :
    let meter := Meter.fresh bus config
    let last := meter.after operations
    (last.softReset : Run (Meter β) ε η Unit).state.state = .running gain ∧
      ∃ before start later, operations = before ++ start :: later ∧
        (meter.after before).StartsWith gain start ∧
        let started := meter.after (before ++ [start])
        (∀ passed, passed <+: later → (started.after passed).state = .running gain) ∧
          (calls (started.journal later)).countP Call.isReset =
            (later.zip (started.performAll later)).countP fun made => made.2.resets made.1 := by
  intro meter last
  have hreset : last.softReset.state.state = last.state :=
    (last.perform_accesses (rfl : Operation.softReset.kind = .access)).state
  obtain ⟨before, start, later, rfl, hstart, hkeeps⟩ :=
    (Meter.after_running_iff bus config operations gain).mp hrunning
  refine ⟨hreset.trans hrunning, before, start, later, rfl, hstart, ?_, ?_⟩
  · intro passed hpassed
    have hsince : (Meter.fresh bus config).Since (Meter.StartsWith gain) Operation.Supersedes
        (before ++ start :: passed) :=
      ⟨before, start, passed, rfl, hstart, fun other hother => hkeeps other (hpassed.subset hother)⟩
    rw [← Meter.after_append, List.append_assoc, List.singleton_append]
    exact (Meter.after_running_iff bus config _ gain).mpr hsince
  · apply Meter.countP_isReset_journal _ hkeeps
    intro operation hoperation
    exact hdirect operation (by simp [hoperation])

/-- Two soft resets behind a start, and between them a start that is refused. -/
theorem resets_while_running_on_rig :
    let rig : Rig := { words := some fun _ => 0 }
    let operations : List Operation :=
      [.init, .start .x24 20, .softReset, .start .x4 (-1), .write 0x02 1, .softReset]
    ((Meter.fresh rig {}).after operations).state = .running .x24 ∧
      ((Meter.fresh rig {}).after operations).softReset.state.state = .running .x24 ∧
      ∃ before start later, operations = before ++ start :: later ∧
        let started := (Meter.fresh rig {}).after (before ++ [start])
        (calls (started.journal later)).countP Call.isReset =
          (later.zip (started.performAll later)).countP fun made => made.2.resets made.1 := by
  intro rig operations
  have hdirect : ∀ operation ∈ operations, ∀ word,
      operation ≠ .write Register.softReset.toByte word := by
    simp [operations, Register.softReset, Address.toByte]
  have hrunning : ((Meter.fresh rig {}).after operations).state = .running .x24 := by
    decide +kernel
  obtain ⟨hreset, before, start, later, hsplit, -, -, hcount⟩ :=
    resets_while_running rig {} hdirect hrunning
  exact ⟨hrunning, hreset, before, start, later, hsplit, hcount⟩

/-- Resetting a chip behind its start leaves the meter running. -/
theorem running_after_soft_reset :
    let meter : Meter Rig := .fresh { replies := [.value 0, .value 0, .value 0, .value 0] } {}
    let running := meter.after [.init, .start .x24 20]
    running.state = .running .x24 ∧ running.softReset.outcome = .ok () ∧
      (calls running.softReset.journal).countP Call.isReset = 1 ∧
      running.softReset.state.state = .running .x24 := by
  decide

end EnergyMeter

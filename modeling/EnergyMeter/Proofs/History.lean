import EnergyMeter.Proofs.Operation
import Mathlib.Data.List.Induction

/-!
Histories of a meter.  A history is a list of operations tried one after the
other; what holds at its beginning and is kept by every operation holds at its
end.
-/

namespace EnergyMeter

variable {β ε η α γ : Type}

/-- A meter that was never asked for a session. -/
def Meter.fresh (bus : β) (config : Config) : Meter β :=
  { bus, config }

variable [Bus β ε η]

namespace Meter

/-- The meter that some operations leave. -/
def after (meter : Meter β) (operations : List Operation) : Meter β :=
  operations.foldl (fun meter operation => (meter.perform operation).state) meter

/-- The journal of some operations. -/
def journal (meter : Meter β) (operations : List Operation) : List (Entry ε η) :=
  (meter.performAll operations).flatMap Run.journal

@[simp]
theorem after_nil (meter : Meter β) : meter.after [] = meter := rfl

@[simp]
theorem after_concat (meter : Meter β) (operations : List Operation) (operation : Operation) :
    meter.after (operations ++ [operation]) =
      ((meter.after operations).perform operation).state := by
  simp [after]

theorem after_append (meter : Meter β) (earlier later : List Operation) :
    meter.after (earlier ++ later) = (meter.after earlier).after later :=
  List.foldl_append

theorem performAll_concat (meter : Meter β) (operations : List Operation)
    (operation : Operation) :
    meter.performAll (operations ++ [operation]) =
      meter.performAll operations ++ [(meter.after operations).perform operation] := by
  induction operations generalizing meter with
  | nil => rfl
  | cons first rest ih =>
      simp only [List.cons_append, performAll, ih]
      rfl

@[simp]
theorem journal_nil (meter : Meter β) : meter.journal [] = [] := rfl

theorem journal_cons (meter : Meter β) (operation : Operation) (rest : List Operation) :
    meter.journal (operation :: rest) =
      (meter.perform operation).journal ++ (meter.perform operation).state.journal rest := rfl

theorem journal_append (meter : Meter β) (earlier later : List Operation) :
    meter.journal (earlier ++ later) =
      meter.journal earlier ++ (meter.after earlier).journal later := by
  induction earlier generalizing meter with
  | nil => rfl
  | cons operation rest ih =>
      rw [List.cons_append, journal_cons, journal_cons, ih, List.append_assoc]
      rfl

@[simp]
theorem journal_concat (meter : Meter β) (operations : List Operation) (operation : Operation) :
    meter.journal (operations ++ [operation]) =
      meter.journal operations ++ ((meter.after operations).perform operation).journal := by
  simp [journal, performAll_concat]

/-- What holds of a meter before any operation and is kept by every operation
holds after any history. -/
theorem history_induction (meter : Meter β) (holds : Meter β → List (Call ε η) → Prop)
    (initial : holds meter [])
    (step : ∀ current trace operation, holds current trace →
      holds (current.perform operation).state
        (trace ++ calls (current.perform operation).journal))
    (operations : List Operation) :
    holds (meter.after operations) (calls (meter.journal operations)) := by
  induction operations using List.reverseRecOn with
  | nil => exact initial
  | append_singleton operations operation ih =>
      rw [after_concat, journal_concat, calls_append]
      exact step _ _ operation ih

theorem perform_config (meter : Meter β) (operation : Operation) :
    (meter.perform operation).state.config = meter.config := by
  cases hkind : operation.kind with
  | init =>
      rw [meter.perform_init hkind]
      exact meter.init_config
  | deinit =>
      rw [meter.perform_deinit hkind]
      rfl
  | start gain sagVolts =>
      rw [meter.perform_start hkind]
      exact meter.start_config gain sagVolts
  | access => exact (meter.perform_accesses hkind).config

/-- No operation changes the configuration. -/
theorem config_after (meter : Meter β) (operations : List Operation) :
    (meter.after operations).config = meter.config := by
  induction operations using List.reverseRecOn with
  | nil => rfl
  | append_singleton operations operation ih =>
      rw [after_concat, perform_config, ih]

theorem perform_configure (meter : Meter β) (operation : Operation) {clock : UInt32}
    {result : Except ε Unit}
    (hmem : .configure clock result ∈ calls (meter.perform operation).journal) :
    clock = meter.config.speedHz ∧ clock ≠ 0 := by
  by_cases hinit : operation.kind = .init
  · rw [meter.perform_init hinit] at hmem
    by_cases hidle : meter.config.speedHz = 0 ∨ meter.isInitialized = true
    · simp [Run.map, (init_idle hidle).1] at hmem
    · rw [not_or, Bool.not_eq_true] at hidle
      have hclock := (init_opening hidle.1 hidle.2).1.configure_mem hmem
      exact ⟨hclock, hclock ▸ hidle.1⟩
  · by_cases hdeinit : operation.kind = .deinit
    · simp [meter.perform_deinit hdeinit, Run.map, calls_deinit] at hmem
    · exact absurd ((meter.perform_within hinit hdeinit).2.1 _ hmem) id

/-- The clock that is set is the configured one, and it never stands still. -/
theorem configure_mem_journal (meter : Meter β) (operations : List Operation) {clock : UInt32}
    {result : Except ε Unit} (hmem : .configure clock result ∈ calls (meter.journal operations)) :
    clock = meter.config.speedHz ∧ clock ≠ 0 := by
  induction operations using List.reverseRecOn with
  | nil => simp at hmem
  | append_singleton operations operation ih =>
      rw [journal_concat, calls_append, List.mem_append] at hmem
      rcases hmem with hmem | hmem
      · exact ih hmem
      · have hclock := perform_configure _ _ hmem
        rwa [config_after] at hclock

/-- The calls of a history are what the bus made of them. -/
theorem replays_after (meter : Meter β) (operations : List Operation) :
    Replays meter.bus (calls (meter.journal operations)) (meter.after operations).bus := by
  apply meter.history_induction fun last trace => Replays meter.bus trace last.bus
  · exact .nil meter.bus
  · intro current trace operation htrace
    exact htrace.append (current.perform_replays operation)

end Meter

/-- A run that is some history of a meter. -/
def Run.IsHistory (meter : Meter β) (run : Run (Meter β) ε η α) : Prop :=
  ∃ operations, run.state = meter.after operations ∧ run.journal = meter.journal operations

namespace Run.IsHistory

variable {meter : Meter β} {run : Run (Meter β) ε η α}

theorem perform (operation : Operation) (f : α → Answer ε)
    (h : meter.perform operation = run.map f) : run.IsHistory meter := by
  have hstate := congrArg Run.state h
  have hjournal := congrArg Run.journal h
  refine ⟨[operation], hstate.symm, ?_⟩
  rw [Meter.journal_cons, Meter.journal_nil, List.append_nil, hjournal]
  rfl

theorem map (h : run.IsHistory meter) (f : α → γ) : (run.map f).IsHistory meter := h

theorem andThen {next : α → Meter β → Run (Meter β) ε η γ} (h : run.IsHistory meter)
    (hnext : ∀ value, (next value run.state).IsHistory run.state) :
    (run.andThen next).IsHistory meter := by
  obtain ⟨earlier, hstate, hjournal⟩ := h
  rcases run with ⟨value | error | cause, state, journal⟩
  · obtain ⟨later, hlast, hmade⟩ := hnext value
    simp only at hstate hjournal
    refine ⟨earlier ++ later, ?_, ?_⟩
    · rw [Meter.after_append, ← hstate]
      exact hlast
    · rw [Meter.journal_append, ← hstate, ← hjournal]
      exact congrArg (journal ++ ·) hmade
  · exact ⟨earlier, hstate, hjournal⟩
  · exact ⟨earlier, hstate, hjournal⟩

end Run.IsHistory

end EnergyMeter

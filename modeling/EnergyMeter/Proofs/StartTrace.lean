import EnergyMeter.Proofs.FullRun
import EnergyMeter.Proofs.Operation
import EnergyMeter.Sim.Rig

/-!
The calls of a start.  A start that succeeds makes the calls of all eight steps,
and each written word is made from what the run itself has read.  Any other
accepted start makes the same calls up to the first that fails.
-/

namespace EnergyMeter

variable {β ε η : Type}

/-- The reads of a verified read and the word they bring. -/
inductive VerifiedTrace (address : Address) : Word → List (Call ε η) → Prop where
  | agreed (word : Word) :
      VerifiedTrace address word [.fetched address word, .fetched Register.lastData word]
  | disputed {target shadow : Word} (differ : target ≠ shadow) (word : Word) :
      VerifiedTrace address word
        [.fetched address target, .fetched Register.lastData shadow,
          .fetched Register.lastData word]

open Register in
/-- The calls of a start that succeeds. -/
def StartTrace (gain : CurrentGain) (sagCounts : Word) (trace : List (Call ε η)) : Prop :=
  ∃ mode functions modeReads functionReads,
    VerifiedTrace mMode mode modeReads ∧ VerifiedTrace funcEn functions functionReads ∧
      trace = [.stored softReset 0x789A] ++ modeReads ++
        [.stored mMode ((mode &&& (0x1FFF : Word)) ||| (gain.bits.setWidth 16 <<< 13)),
          .stored calStart 0x5678, .stored adjStart 0x5678, .stored igainL 0x21C1,
          .stored cs2 0xE20E, .stored sagTh sagCounts] ++ functionReads ++
        [.stored funcEn (functions ||| 0x30)]

namespace VerifiedTrace

variable {address : Address} {word : Word} {trace : List (Call ε η)}

theorem of_fullRun (h : (Program.verifiedRead address).FullRun trace word) :
    VerifiedTrace address word trace := by
  rw [Program.verifiedRead_eq] at h
  cases h with
  | read target hshadow =>
      cases hshadow with
      | read shadow hrest =>
          by_cases hagree : target = shadow
          · simp only [if_pos hagree] at hrest
            subst hagree
            cases hrest
            exact .agreed word
          · simp only [if_neg hagree] at hrest
            cases hrest with
            | note hagain =>
                obtain rfl := hagain.fetch_inv
                exact .disputed hagree word

theorem ending_mem (h : VerifiedTrace address word trace) :
    ∀ call ∈ trace, call.ending = .ok () := by
  cases h with
  | agreed word => simp
  | disputed differ word => simp

end VerifiedTrace

theorem Program.FullRun.modify_inv {address : Address} {change : Word → Word}
    {trace : List (Call ε η)} (h : (modify address change).FullRun trace ()) :
    ∃ word reads, VerifiedTrace address word reads ∧
      trace = reads ++ [.stored address (change word)] := by
  rw [modify_eq] at h
  obtain ⟨reads, word, written, rfl, hreads, hwritten⟩ := h.bind_inv
  exact ⟨word, reads, .of_fullRun hreads, by rw [hwritten.store_inv]⟩

/-- The calls of steps that all run to their end. -/
def FullSteps : List (StartupStep × Program Unit) → List (Call ε η) → Prop
  | [], trace => trace = []
  | (_, program) :: rest, trace =>
      ∃ first second, trace = first ++ second ∧ program.FullRun first () ∧ FullSteps rest second

theorem FullSteps.exists_trace (steps : List (StartupStep × Program Unit)) :
    ∃ trace : List (Call ε η), FullSteps steps trace := by
  induction steps with
  | nil => exact ⟨[], rfl⟩
  | cons step rest ih =>
      obtain ⟨second, hsecond⟩ := ih
      obtain ⟨first, value, hfirst⟩ :
          ∃ (first : List (Call ε η)) (value : Unit), step.2.FullRun first value :=
        Program.FullRun.exists_trace step.2
      exact ⟨first ++ second, first, second, rfl, hfirst, hsecond⟩

/-- A start-up whose steps all run to their end makes the calls of a start. -/
theorem StartTrace.of_fullSteps {gain : CurrentGain} {sagCounts : Word} {trace : List (Call ε η)}
    (h : FullSteps (startupSteps gain sagCounts) trace) : StartTrace gain sagCounts trace := by
  obtain ⟨reset, rest, rfl, hreset, modeTrace, rest, rfl, hmode, cal, rest, rfl, hcal,
    adj, rest, rfl, hadj, igain, rest, rfl, higain, checksum, rest, rfl, hchecksum,
    sag, rest, rfl, hsag, arm, rest, rfl, harm, rfl⟩ := h
  obtain ⟨mode, modeReads, hmodeReads, rfl⟩ := hmode.modify_inv
  obtain ⟨functions, functionReads, hfunctionReads, rfl⟩ := harm.modify_inv
  refine ⟨mode, functions, modeReads, functionReads, hmodeReads, hfunctionReads, ?_⟩
  rw [Program.FullRun.store_inv hreset, hcal.store_inv, hadj.store_inv, higain.store_inv,
    hchecksum.store_inv, hsag.store_inv, MeterMode.withGain_eq, FunctionEnable.withSagArmed_eq]
  simp [Register.softResetCommand, Register.startWithoutChecksum, Register.defaultIgainL,
    Register.defaultCs2]

/-- Every call of a start that succeeds is fine. -/
theorem StartTrace.ending_mem {gain : CurrentGain} {sagCounts : Word} {trace : List (Call ε η)}
    (h : StartTrace gain sagCounts trace) : ∀ call ∈ trace, call.ending = .ok () := by
  obtain ⟨mode, functions, modeReads, functionReads, hmode, hfunctions, rfl⟩ := h
  have hmodeReads := hmode.ending_mem
  have hfunctionReads := hfunctions.ending_mem
  intro call hcall
  simp only [List.mem_append, List.mem_cons, List.not_mem_nil, or_false] at hcall
  rcases hcall with
    (((rfl | hcall) | rfl | rfl | rfl | rfl | rfl | rfl) | hcall) | rfl
  all_goals first | rfl | exact hmodeReads _ hcall | exact hfunctionReads _ hcall

variable [Bus β ε η]

section

variable {program : Program Unit} {bus : β}

theorem runSteps_cons_of_ok (h : (program.run bus).outcome = .ok ()) (step : StartupStep)
    (rest : List (StartupStep × Program Unit)) :
    let remaining : Run β ε η Unit := runSteps rest (program.run bus).state
    (runSteps ((step, program) :: rest) bus).outcome = remaining.outcome ∧
      (runSteps ((step, program) :: rest) bus).state = remaining.state ∧
      calls (runSteps ((step, program) :: rest) bus).journal =
        calls (program.run bus).journal ++ calls remaining.journal := by
  simp [runSteps, h]

theorem runSteps_cons_of_not_ok (h : (program.run bus).outcome ≠ .ok ()) (step : StartupStep)
    (rest : List (StartupStep × Program Unit)) :
    (runSteps ((step, program) :: rest) bus).outcome = (program.run bus).outcome ∧
      (runSteps ((step, program) :: rest) bus).state = (program.run bus).state ∧
      calls (runSteps ((step, program) :: rest) bus).journal =
        calls (program.run bus).journal := by
  rcases hrun : program.run bus with ⟨value | error | cause, state, journal⟩
  · exact absurd (congrArg Run.outcome hrun) h
  · simp [runSteps, hrun]
  · simp [runSteps, hrun]

end

/-- Steps run to their end or break off. -/
theorem runSteps_full_or_breaksOff (steps : List (StartupStep × Program Unit)) (bus : β) :
    ((runSteps steps bus).outcome = .ok () ∧
        FullSteps steps (calls (runSteps steps bus).journal)) ∨
      BreaksOff (FullSteps steps) (calls (runSteps steps bus).journal)
        (runSteps steps bus).outcome := by
  induction steps generalizing bus with
  | nil => exact .inl ⟨rfl, rfl⟩
  | cons step rest ih =>
      obtain ⟨name, program⟩ := step
      rcases program.run_follows bus with ⟨value, hok, hfull⟩ | hbroken
      · obtain ⟨houtcome, -, hcalls⟩ := runSteps_cons_of_ok hok name rest
        rw [houtcome, hcalls]
        rcases ih (program.run bus).state with ⟨hrest, hsteps⟩ | hrest
        · exact .inl ⟨hrest, _, _, rfl, hfull, hsteps⟩
        · exact .inr (hrest.append _ fun trace hsteps => ⟨_, trace, rfl, hfull, hsteps⟩)
      · rw [Outcome.ending_unit] at hbroken
        obtain ⟨houtcome, -, hcalls⟩ := runSteps_cons_of_not_ok hbroken.ending_ne name rest
        obtain ⟨second, hsecond⟩ : ∃ trace : List (Call ε η), FullSteps rest trace :=
          FullSteps.exists_trace rest
        rw [houtcome, hcalls]
        refine .inr (hbroken.extend ?_)
        rintro first ⟨value, hfirst⟩
        exact ⟨second, first, second, rfl, hfirst, hsecond⟩

namespace Meter

theorem start_full_or_breaksOff {meter : Meter β} (gain : CurrentGain) {sagVolts : Float32}
    {sagCounts : Word} (hsession : meter.isInitialized = true)
    (hcounts : Quantity.sagCounts? sagVolts = some sagCounts) :
    ((meter.start gain sagVolts).outcome = .ok () ∧
        StartTrace gain sagCounts (calls (meter.start gain sagVolts).journal)) ∨
      BreaksOff (StartTrace gain sagCounts) (calls (meter.start gain sagVolts).journal)
        (meter.start gain sagVolts).outcome := by
  obtain ⟨houtcome, -, hcalls⟩ := start_accepted gain hsession hcounts
  rw [houtcome, hcalls]
  rcases runSteps_full_or_breaksOff (startupSteps gain sagCounts) meter.bus with
    ⟨hok, hfull⟩ | hbroken
  · exact .inl ⟨hok, .of_fullSteps hfull⟩
  · exact .inr (hbroken.mono fun trace => StartTrace.of_fullSteps)

theorem start_follows {meter : Meter β} (gain : CurrentGain) {sagVolts : Float32}
    {sagCounts : Word} (hsession : meter.isInitialized = true)
    (hcounts : Quantity.sagCounts? sagVolts = some sagCounts) :
    (meter.start gain sagVolts).Follows fun _ trace => StartTrace gain sagCounts trace := by
  rcases start_full_or_breaksOff gain hsession hcounts with ⟨hok, hfull⟩ | hbroken
  · exact .inl ⟨(), hok, hfull⟩
  · right
    rw [Outcome.ending_unit]
    exact hbroken.mono fun trace hfull => ⟨(), hfull⟩

/-- An accepted start makes the calls of all its steps and then runs, or it makes
them up to the first that is not fine, comes to what that call came to, and
leaves the meter without a completed start. -/
theorem start_trace (meter : Meter β) (gain : CurrentGain) {sagVolts : Float32} {sagCounts : Word}
    (hsession : meter.isInitialized = true)
    (hcounts : Quantity.sagCounts? sagVolts = some sagCounts) :
    let run : Run (Meter β) ε η Unit := meter.start gain sagVolts
    let trace := calls run.journal
    Replays meter.bus trace run.state.bus ∧
      (run.outcome = .ok () ↔ StartTrace gain sagCounts trace) ∧
      (run.outcome = .ok () → run.state.state = .running gain) ∧
      (run.outcome ≠ .ok () →
        BreaksOff (StartTrace gain sagCounts) trace run.outcome ∧
          run.state.state = .initialized) := by
  intro run trace
  have hlast : run.state.state = .afterStart gain run.outcome :=
    start_state gain hsession hcounts
  refine ⟨(meter.start_exchanges gain sagVolts).replays, ?_, ?_, ?_⟩
  · rcases start_full_or_breaksOff gain hsession hcounts with ⟨hok, hfull⟩ | hbroken
    · exact ⟨fun _ => hfull, fun _ => hok⟩
    · refine ⟨fun hok => absurd hok hbroken.ending_ne, fun hfull => ?_⟩
      obtain ⟨call, hcall, hne⟩ := hbroken.exists_mem
      exact absurd (hfull.ending_mem call hcall) hne
  · intro hok
    rw [hlast, hok, State.afterStart]
  · intro hne
    rcases start_full_or_breaksOff gain hsession hcounts with ⟨hok, hfull⟩ | hbroken
    · exact absurd hok hne
    · exact ⟨hbroken, hlast.trans (State.afterStart_of_ne hne gain)⟩

/-- On one rig all steps succeed; on another the fourth is refused. -/
theorem start_trace_on_rigs :
    let replies := [.value 0x1422, .value 0x1422, .value 0x000C, .value 0x000C]
    let sound : Meter Rig := ⟨{ replies }, {}, .initialized⟩
    let faulty : Meter Rig :=
      ⟨{ replies, writeFaults := [(Register.adjStart.toByte, .fail 7)] }, {}, .running .x1⟩
    (StartTrace .x24 2000 (calls (sound.start .x24 20).journal) ∧
        (sound.start .x24 20).state.state = .running .x24) ∧
      BreaksOff (StartTrace .x24 2000) (calls (faulty.start .x24 20).journal)
          (.failed (.interface ⟨7⟩)) ∧
        (faulty.start .x24 20).state.state = .initialized := by
  intro replies sound faulty
  have hcounts : Quantity.sagCounts? 20 = some 2000 := by decide
  have hok : (sound.start .x24 20).outcome = .ok () := by decide
  have hfailed : (faulty.start .x24 20).outcome = .failed (.interface ⟨7⟩) := by decide
  obtain ⟨-, hfull, hrunning, -⟩ := sound.start_trace .x24 rfl hcounts
  obtain ⟨-, -, -, hbroken⟩ := faulty.start_trace .x24 rfl hcounts
  obtain ⟨hbreaks, hinitialized⟩ := hbroken (by simp [hfailed])
  rw [hfailed] at hbreaks
  exact ⟨⟨hfull.mp hok, hrunning hok⟩, hbreaks, hinitialized⟩

end Meter

end EnergyMeter

import EnergyMeter.Proofs.StartEffect

/-!
A verified read as a vote.  The register and its shadow are asked for one word
each, and the shadow for another one when they disagree.  The read follows the
exchanges of a verified read, so it ends at the first exchange that is not fine,
and one wrong word among three is always outvoted.
-/

namespace EnergyMeter

variable {β ε η : Type}

/-- The commands of a verified read that has to ask three times. -/
def ballots (address : Address) : List Command :=
  [.transfer (Frame.readHeader address) 2, .transfer (Frame.readHeader Register.lastData) 2,
    .transfer (Frame.readHeader Register.lastData) 2]

namespace VerifiedTrace

variable {address : Address} {word : Word} {trace : List (Call ε η)}

theorem commands_prefix (h : VerifiedTrace address word trace) :
    trace.map Call.command <+: ballots address := by
  cases h with
  | agreed word => exact ⟨[_], rfl⟩
  | disputed differ word => exact ⟨[], rfl⟩

/-- The last exchange brings the word. -/
theorem getLast?_eq (h : VerifiedTrace address word trace) :
    ∃ target, trace.getLast? = some (.fetched target word) := by
  cases h with
  | agreed word => exact ⟨_, rfl⟩
  | disputed differ word => exact ⟨_, rfl⟩

end VerifiedTrace

/-- A trace that breaks off asks for no more than a full one. -/
theorem BreaksOff.commands_prefix {full : List (Call ε η) → Prop} {trace : List (Call ε η)}
    {ending : Outcome (Error ε) η Unit} {commands : List Command}
    (hfull : ∀ trace, full trace → trace.map Call.command <+: commands)
    (h : BreaksOff full trace ending) : trace.map Call.command <+: commands := by
  obtain ⟨done, good, last, rest, rfl, hgood, hcommand, -⟩ := h
  have hlonger := hfull _ hgood
  have hshorter : (done ++ [last]).map Call.command <+: (done ++ good :: rest).map Call.command :=
    ⟨rest.map Call.command, by simp [hcommand]⟩
  exact hshorter.trans hlonger

variable [Bus β ε η]

/-- The words that a bus brings to a vote.  The third is only asked for when the
first two differ. -/
structure Votes (address : Address) (bus : β) (votes : Fin 3 → Word) : Prop where
  target : (readRegister address bus).outcome = .ok (votes 0)
  shadow :
    (readRegister Register.lastData (readRegister address bus).state).outcome = .ok (votes 1)
  again (differ : votes 0 ≠ votes 1) :
    let middle := (readRegister Register.lastData (readRegister address bus).state).state
    (readRegister Register.lastData middle).outcome = .ok (votes 2)

section

variable {α : Type}

theorem Program.outcome_run_note (record : Record) (next : Program α) (bus : β) :
    ((Program.note record next).run bus).outcome = (next.run bus).outcome := rfl

theorem Program.calls_run_note (record : Record) (next : Program α) (bus : β) :
    calls ((Program.note record next).run bus).journal = calls (next.run bus).journal := rfl

end

namespace Votes

variable {address : Address} {bus : β} {votes : Fin 3 → Word}

theorem run_of_agree (h : Votes address bus votes) (hagree : votes 0 = votes 1) :
    let run := (Program.verifiedRead address).run bus
    run.outcome = .ok (votes 0) ∧ (calls run.journal).length = 2 := by
  simp only [Program.verifiedRead_eq, Program.outcome_run_read h.target,
    Program.calls_run_read h.target, Program.outcome_run_read h.shadow,
    Program.calls_run_read h.shadow, if_pos hagree]
  exact ⟨rfl, rfl⟩

theorem run_of_differ (h : Votes address bus votes) (hdiffer : votes 0 ≠ votes 1) :
    let run := (Program.verifiedRead address).run bus
    run.outcome = .ok (votes 2) ∧ (calls run.journal).length = 3 := by
  simp only [Program.verifiedRead_eq, Program.outcome_run_read h.target,
    Program.calls_run_read h.target, Program.outcome_run_read h.shadow,
    Program.calls_run_read h.shadow, if_neg hdiffer, Program.outcome_run_note,
    Program.calls_run_note, Program.run_fetch]
  exact ⟨h.again hdiffer, rfl⟩

/-- A word that all votes but one are for is the result. -/
theorem run_of_majority (h : Votes address bus votes) {spoiled : Fin 3} {word : Word}
    (hword : ∀ other ≠ spoiled, votes other = word) :
    ((Program.verifiedRead address).run bus).outcome = .ok word := by
  by_cases hagree : votes 0 = votes 1
  · obtain ⟨hok, -⟩ := h.run_of_agree hagree
    -- One of the two that agree is no spoiled one.
    have hfirst : votes 0 = word := by
      by_cases hspoiled : spoiled = 0
      · rw [hagree]
        exact hword 1 (by simp [hspoiled])
      · exact hword 0 (Ne.symm hspoiled)
    rw [hok, hfirst]
  · obtain ⟨hok, -⟩ := h.run_of_differ hagree
    -- The spoiled one is among the two that differ.
    have hthird : votes 2 = word := by
      apply hword
      rintro rfl
      exact hagree ((hword 0 (by decide)).trans (hword 1 (by decide)).symm)
    rw [hok, hthird]

end Votes

/-- A verified read on an open meter is a bounded vote. It asks for the register
and at most twice for its shadow, and nothing of the meter but its bus moves on.
Either all its exchanges are fine and it brings the word of the last one, or it
ends as the first one did that is not.  Words that agree are the result after
two exchanges, others after a third that brings the result, and one wrong word
changes nothing. -/
theorem verified_read_vote (meter : Meter β) (hsession : meter.isInitialized = true)
    (address : Address) :
    let run : Run (Meter β) ε η Word := meter.verifiedReadRegister address.toByte
    let trace := calls run.journal
    run.state = meter.onBus run.state.bus ∧
      Replays meter.bus trace run.state.bus ∧
      trace.map Call.command <+: ballots address ∧
      run.Follows (VerifiedTrace address) ∧
      (∀ word, run.outcome = .ok word →
        ∃ target, trace.getLast? = some (.fetched target word)) ∧
      ∀ votes, Votes address meter.bus votes →
        (votes 0 = votes 1 → run.outcome = .ok (votes 0) ∧ trace.length = 2) ∧
        (votes 0 ≠ votes 1 → run.outcome = .ok (votes 2) ∧ trace.length = 3) ∧
        ∀ spoiled word, (∀ other ≠ spoiled, votes other = word) → run.outcome = .ok word := by
  intro run trace
  have hrun : run = ((Program.verifiedRead address).run meter.bus).within meter.onBus :=
    Meter.executeAt_toByte hsession address Program.verifiedRead
  have hfollows : run.Follows (VerifiedTrace address) := by
    rw [hrun]
    exact ((Program.verifiedRead address).run_follows meter.bus).mono fun _ _ =>
      VerifiedTrace.of_fullRun
  have hexchanges : Exchanges (fun _ => False) meter.bus run.journal run.state.bus := by
    rw [hrun]
    exact (Program.verifiedRead address).exchanges_run
      (Program.writesOnly_verifiedRead address) meter.bus
  refine ⟨by rw [hrun]; rfl, hexchanges.replays, ?_, hfollows, ?_, ?_⟩
  · rcases hfollows with ⟨word, -, hfull⟩ | hbroken
    · exact hfull.commands_prefix
    · apply hbroken.commands_prefix
      rintro trace ⟨word, hfull⟩
      exact hfull.commands_prefix
  · intro word hok
    rcases hfollows with ⟨value, hvalue, hfull⟩ | hbroken
    · obtain rfl := Outcome.ok.inj (hok.symm.trans hvalue)
      exact hfull.getLast?_eq
    · exact absurd (congrArg Outcome.ending hok) hbroken.ending_ne
  · intro votes hvotes
    have houtcome : run.outcome = ((Program.verifiedRead address).run meter.bus).outcome := by
      rw [hrun]
      rfl
    have hcalls : trace = calls ((Program.verifiedRead address).run meter.bus).journal := by
      simp only [trace, hrun]
      rfl
    rw [houtcome, hcalls]
    exact ⟨hvotes.run_of_agree, hvotes.run_of_differ, fun _ _ => hvotes.run_of_majority⟩

/-- A disturbed look at the shadow is outvoted, and one that stops short is not. -/
theorem verified_read_vote_on_rigs :
    let address : Address := 0x31
    let votes : Fin 3 → Word := fun i => if i = 1 then 9 else 5
    let disturbed : Meter Rig := ⟨{ replies := [.value 5, .value 9, .value 5] }, {}, .running .x24⟩
    let cut : Meter Rig := ⟨{ replies := [.value 5, .short 1, .value 5] }, {}, .initialized⟩
    (Votes address disturbed.bus votes ∧
        (disturbed.verifiedReadRegister address.toByte).outcome = .ok 5 ∧
        (calls (disturbed.verifiedReadRegister address.toByte).journal).length = 3) ∧
      BreaksOff (fun trace => ∃ word, VerifiedTrace address word trace)
        (calls (cut.verifiedReadRegister address.toByte).journal)
        (.failed (.shortTransfer 2 1)) := by
  intro address votes disturbed cut
  have hvotes : Votes address disturbed.bus votes :=
    ⟨by decide, by decide, fun _ => by decide⟩
  have hothers : ∀ other ≠ (1 : Fin 3), votes other = 5 := by decide
  have hcut : (cut.verifiedReadRegister address.toByte).outcome =
      .failed (.shortTransfer 2 1) := by
    decide
  obtain ⟨-, -, -, -, -, hcount⟩ := verified_read_vote disturbed rfl address
  obtain ⟨-, hdiffer, hmajority⟩ := hcount votes hvotes
  obtain ⟨-, -, -, hfollows, -⟩ := verified_read_vote cut rfl address
  refine ⟨⟨hvotes, hmajority 1 5 hothers, (hdiffer (by decide)).2⟩, ?_⟩
  rcases hfollows with ⟨word, hok, -⟩ | hbroken
  · exact absurd (hcut.symm.trans hok) nofun
  · rwa [hcut] at hbroken

end EnergyMeter

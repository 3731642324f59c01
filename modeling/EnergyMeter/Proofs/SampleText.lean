import EnergyMeter.Proofs.Accessors
import EnergyMeter.Proofs.FixedText
import EnergyMeter.Proofs.SampleRun
import EnergyMeter.Proofs.StartEffect
import EnergyMeter.Proofs.Transport

/-!
The line of a sample.  It shows the words that were read, to the last digit, and on a chip
that accepts its start these are the words of the chip.
-/

namespace EnergyMeter

variable {β ε η α : Type}

section

variable [Bus β ε η] {refuses : Address → Bool}

/-- A session on a chip that holds these words, with currents in the boosted scale. -/
structure Chip.Shows (chip : Chip β refuses) (words : Address → Word) (meter : Meter β) :
    Prop where
  sound : chip.sound meter.bus
  words : (chip.file meter.bus).words = words
  session : meter.isInitialized = true
  scale : meter.config.currentScale = .boosted

namespace Chip.Shows

variable {chip : Chip β refuses} {words : Address → Word} {meter : Meter β}

theorem holds (h : chip.Shows words meter) : chip.Holds words meter :=
  ⟨h.sound, h.words, h.session⟩

theorem verifiedRead (h : chip.Shows words meter) (address : Address) :
    chip.Shows words (meter.execute (.verifiedRead address)).state := by
  have haccess : Accesses (fun _ => False) meter
      (meter.execute (.verifiedRead address)).journal
      (meter.execute (.verifiedRead address)).state :=
    Meter.execute_accesses (Program.writesOnly_verifiedRead address) meter
  obtain ⟨hsound, hwords, hsession⟩ := h.holds.accesses haccess fun _ => id
  exact ⟨hsound, hwords, hsession, haccess.config ▸ h.scale⟩

theorem irmsAmps (h : chip.Shows words meter) :
    meter.irmsAmps.outcome = .ok (Quantity.amps .boosted (words Register.irms)) ∧
      chip.Shows words meter.irmsAmps.state := by
  have hread := h.holds.irmsAmps
  rw [h.scale] at hread
  exact ⟨hread, h.verifiedRead Register.irms⟩

theorem vrmsVolts (h : chip.Shows words meter) :
    meter.vrmsVolts.outcome = .ok (Quantity.volts (words Register.urms)) ∧
      chip.Shows words meter.vrmsVolts.state :=
  ⟨h.holds.vrmsVolts, h.verifiedRead Register.urms⟩

/-- The start of a sample leaves the registers that it does not write. -/
theorem start (h : chip.Shows words meter)
    (haccepts : ∀ address ∈ startupRegisters, refuses address = false) :
    (meter.start .x24 20).outcome = .ok () ∧
      ∃ after : Address → Word, chip.Shows after (meter.start .x24 20).state ∧
        ∀ address, address ∉ startupRegisters → after address = words address := by
  have hcounts : Quantity.sagCounts? 20 = some 2000 := by decide
  obtain ⟨hsound, hwords, hok⟩ := chip.start_spec h.sound .x24 h.session hcounts
  rw [h.words] at hwords
  refine ⟨hok.mpr haccepts, _, ⟨hsound, hwords, ?_, ?_⟩, ?_⟩
  · exact Meter.start_isInitialized .x24 h.session hcounts
  · rw [Meter.start_config]
    exact h.scale
  · intro address haddress
    apply writeAll_of_not_mem
    rw [← startupWrites_address .x24 2000 words] at haddress
    exact fun hmem => haddress (((List.takeWhile_sublist _).map _).mem hmem)

end Chip.Shows

namespace Sampler

/-- The sample with these counts. -/
def sampleOf (irms urms pmean : Word) : Sample :=
  ⟨Quantity.amps .boosted irms, Quantity.volts urms, Quantity.watts pmean⟩

/-- On a chip that accepts the start, a sample has the words of the chip. -/
theorem measure_of_shows {chip : Chip β refuses} {words : Address → Word} {meter : Meter β}
    (h : chip.Shows words meter)
    (haccepts : ∀ address ∈ startupRegisters, refuses address = false) :
    (measure meter).outcome =
      .ok (sampleOf (words Register.irms) (words Register.urms) (words Register.pmean)) := by
  obtain ⟨hstarted, after, hafter, hkept⟩ := h.start haccepts
  obtain ⟨hamps, hcurrent⟩ := hafter.irmsAmps
  obtain ⟨hvolts, hvoltage⟩ := hcurrent.vrmsVolts
  have hwatts := hvoltage.holds.powerWatts
  rw [hkept _ (by decide)] at hamps hvolts hwatts
  rw [measure, (Run.andThen_of_ok hstarted _).1, (Run.andThen_of_ok hamps _).1,
    (Run.andThen_of_ok hvolts _).1]
  exact Run.outcome_map_of_ok hwatts _

end Sampler

end

/-- The chip of a rig without faults, behind a device node that is open. -/
def NodeBus.playedChip : Chip (NodeBus Rig Fault) (Rig.refuses []) where
  sound bus := bus.isOpen = true ∧ Rig.Plays [] bus.host
  file bus := bus.host.chip.getD .empty
  read bus address h := by
    obtain ⟨hopen, hplays⟩ := h
    have hrig := (Rig.playedChip [] nofun).read bus.host address hplays
    rw [Rig.transfer_eq] at hrig
    have hnode := NodeBus.transfer_eq hopen (Frame.readHeader address) 2
    rcases hread : bus.host.read (Frame.readHeader address) 2 with ⟨fault | received, last⟩
    · rw [hread] at hrig
      exact nomatch hrig.1
    · have hexchange : NodeHost.exchange bus.host (Frame.readHeader address) 2 =
          (.ok received.bytes, last) := by
        simp only [NodeHost.exchange, hread, Except.map]
      rw [hread] at hrig
      obtain ⟨hanswer, hafter, hfile⟩ := hrig
      obtain rfl := Outcome.ok.inj hanswer
      rw [hexchange] at hnode
      rw [hnode]
      exact ⟨rfl, ⟨hopen, hafter⟩, hfile⟩
  accept bus address word h haccepts := by
    obtain ⟨hopen, hplays⟩ := h
    have hrig := (Rig.playedChip [] nofun).accept bus.host address word hplays haccepts
    rw [Rig.write_eq] at hrig
    have hnode := NodeBus.write_eq hopen (Frame.write address word)
    rcases hwrite : bus.host.write (Frame.write address word) with ⟨fault | count, last⟩
    · rw [hwrite] at hrig
      exact nomatch hrig.1
    · have hhost : NodeHost.write bus.host (Frame.write address word) = (.ok count, last) := hwrite
      rw [hwrite] at hrig
      obtain ⟨hanswer, hafter, hfile⟩ := hrig
      obtain rfl := Outcome.ok.inj hanswer
      rw [hhost] at hnode
      rw [hnode]
      exact ⟨rfl, ⟨hopen, hafter⟩, hfile⟩
  refuse _ _ _ _ hrefuses := nomatch hrefuses

namespace Sampler

/-- The line that shows three counts. -/
def countsLine (irms urms pmean : Word) : String :=
  "irms=" ++ Text.hundredths irms.toNat ++ "0 A vrms=" ++ Text.hundredths urms.toNat ++
    " V power=" ++ toString pmean.signed ++ " W"

theorem line_sampleOf (irms urms pmean : Word) :
    (sampleOf irms urms pmean).line = countsLine irms urms pmean := by
  rw [Sample.line, sampleOf, Text.fixed_amps, Text.fixed_volts, Text.fixed_watts, countsLine]
  simp only [String.append_assoc]
  rfl

/-- The calls of a sample that brings these words. -/
def CountsTrace (irms urms pmean : Word) (trace : List (Call ε η)) : Prop :=
  ∃ started current voltage, StartTrace .x24 2000 started ∧
    VerifiedTrace Register.irms irms current ∧ VerifiedTrace Register.urms urms voltage ∧
    trace = .connect (.ok ()) :: .configure config.speedHz (.ok ()) ::
      (started ++ (current ++ (voltage ++ [.fetched Register.pmean pmean])) ++
        [.disconnect (.ok ())])

section

variable {κ : Type} [NodeHost κ ε]

/-- A sample that is taken is made of the words that were read for it. -/
theorem sample_counts {path : String} {host : κ} {taken : Sample}
    (h : (sample (meterAt path host : Meter (NodeBus κ ε))).outcome = .ok taken) :
    ∃ irms urms pmean, taken = sampleOf irms urms pmean ∧
      CountsTrace irms urms pmean
        (calls (sample (meterAt path host : Meter (NodeBus κ ε))).journal) := by
  obtain ⟨-, body, closing, hmade, hreleased, hcomes⟩ :=
    @sample_released _ _ _ (Meter.fresh ({ path, host } : NodeBus κ ε) config) rfl rfl
  rcases hcomes with ⟨other, hother, hsample⟩ | hbroken
  · obtain rfl := Outcome.ok.inj (h.symm.trans hother)
    obtain ⟨-, ⟨started, readings, hstarted, hreadings, rfl⟩, rfl⟩ := hsample
    obtain ⟨irms, urms, pmean, current, voltage, hcurrent, hvoltage, rfl, rfl⟩ := hreadings
    cases hreleased
    exact ⟨irms, urms, pmean, rfl, started, current, voltage, hstarted, hcurrent, hvoltage, hmade⟩
  · exact absurd (congrArg Outcome.ending h) hbroken.ending_ne

end

/-- A sample on a rig whose chip holds these words. -/
theorem sample_on_rig (path : String) (words : Address → Word) (mirror : Word) :
    let meter : Meter (NodeBus Rig Fault) := meterAt path { words := some words, mirror }
    (sample meter).outcome =
      .ok (sampleOf (words Register.irms) (words Register.urms) (words Register.pmean)) := by
  intro meter
  have hopened : meter.init.outcome = .ok () := rfl
  have hshows : NodeBus.playedChip.Shows words meter.init.state :=
    ⟨⟨rfl, rfl, ⟨words, rfl⟩, rfl⟩, rfl, rfl, rfl⟩
  rw [sample, (Run.andThen_of_ok hopened _).1, (release_node _).1]
  exact measure_of_shows hshows fun _ _ => rfl

/-- The line of the sampler shows the counts that were read, digit by digit: hundredths of an
ampere with a third place that is zero, hundredths of a volt, and signed watts that are never a
negative zero.  On a chip without faults a line is printed whatever the counts are. -/
theorem run_prints_counts :
    (∀ irms urms pmean : Word,
      Sample.line ⟨Quantity.amps .boosted irms, Quantity.volts urms, Quantity.watts pmean⟩ =
          countsLine irms urms pmean ∧ toString pmean.signed ≠ "-0") ∧
    (∀ {κ ε : Type} [NodeHost κ ε] [ToString (NodeFault ε)] (arguments : List String) (host : κ),
      let sampled : Run (Meter (NodeBus κ ε)) (NodeFault ε) Empty Sample :=
        sample (meterAt (arguments.headD defaultPath) host)
      ∀ taken, sampled.outcome = .ok taken → ∃ irms urms pmean,
        CountsTrace irms urms pmean (calls sampled.journal) ∧
          run arguments host = ⟨0, [countsLine irms urms pmean], [], sampled.state.bus⟩) ∧
    ∀ (arguments : List String) (words : Address → Word) (mirror : Word),
      let report := run arguments ({ words := some words, mirror } : Rig)
      report.exitCode = 0 ∧ report.output =
        [countsLine (words Register.irms) (words Register.urms) (words Register.pmean)] := by
  refine ⟨?_, ?_, ?_⟩
  · intro irms urms pmean
    exact ⟨line_sampleOf irms urms pmean, Text.toString_ne_negative_zero _⟩
  · intro κ ε _ _ arguments host sampled taken htaken
    obtain ⟨irms, urms, pmean, rfl, hcounts⟩ := sample_counts htaken
    refine ⟨irms, urms, pmean, hcounts, ?_⟩
    rw [← line_sampleOf]
    simp only [run, sampled, htaken]
  · intro arguments words mirror report
    have htaken := sample_on_rig (arguments.headD defaultPath) words mirror
    simp only [report, run, htaken, line_sampleOf, and_self]

end Sampler

end EnergyMeter

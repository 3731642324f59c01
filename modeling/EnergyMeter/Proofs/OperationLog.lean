import EnergyMeter.Proofs.FullRun
import EnergyMeter.Proofs.Listener
import EnergyMeter.Proofs.Operation

/-!
What an operation leaves in the journal.  A write that ends well leaves its call and then
the record of its own address and word, and any other write its call alone.  A verified
read leaves a warning between its second and its third exchange, and a start announces
each step before the first exchange of that step.  Work that is made of other work leaves
what its parts leave, up to the part that does not end well.
-/

namespace EnergyMeter

variable {β ε η α : Type}

/-- What reading a register once leaves.  It is never recorded. -/
inductive ReadLog (address : Address) :
    Outcome (Error ε) η Word → List (Entry ε η) → Prop where
  | arrived (word : Word) : ReadLog address (.ok word) [.call (.fetched address word)]
  | lost {call : Call ε η} {outcome : Outcome (Error ε) η Word}
      (hcommand : call.command = .transfer (Frame.readHeader address) 2)
      (hending : call.ending = outcome.ending) (hne : outcome.ending ≠ .ok ()) :
      ReadLog address outcome [.call call]

/-- What writing a register leaves. -/
inductive WriteLog (address : Address) (word : Word) :
    Outcome (Error ε) η Unit → List (Entry ε η) → Prop where
  | wrote :
      WriteLog address word (.ok ())
        [.call (.stored address word), .record (.wrote address word)]
  | lost {call : Call ε η} {outcome : Outcome (Error ε) η Unit}
      (hcommand : call.command = .write (Frame.write address word))
      (hending : call.ending = outcome) (hne : outcome ≠ .ok ()) :
      WriteLog address word outcome [.call call]

/-- What a verified read leaves. -/
inductive VerifiedLog (address : Address) :
    Outcome (Error ε) η Word → List (Entry ε η) → Prop where
  | unread {outcome : Outcome (Error ε) η Word} {first : List (Entry ε η)}
      (hfirst : ReadLog address outcome first) (hne : outcome.ending ≠ .ok ()) :
      VerifiedLog address outcome first
  | unchecked (target : Word) {outcome : Outcome (Error ε) η Word} {second : List (Entry ε η)}
      (hsecond : ReadLog Register.lastData outcome second) (hne : outcome.ending ≠ .ok ()) :
      VerifiedLog address outcome (.call (.fetched address target) :: second)
  | agreed (word : Word) :
      VerifiedLog address (.ok word)
        [.call (.fetched address word), .call (.fetched Register.lastData word)]
  | disputed {target shadow : Word} (differ : target ≠ shadow)
      {outcome : Outcome (Error ε) η Word} {third : List (Entry ε η)}
      (hthird : ReadLog Register.lastData outcome third) :
      VerifiedLog address outcome
        (.call (.fetched address target) :: .call (.fetched Register.lastData shadow) ::
          .record (.mismatch address target shadow) :: third)

/-- What replacing a register's word leaves. -/
inductive ModifyLog (address : Address) (change : Word → Word) :
    Outcome (Error ε) η Unit → List (Entry ε η) → Prop where
  | unread {outcome : Outcome (Error ε) η Word} {reads : List (Entry ε η)}
      (hread : VerifiedLog address outcome reads) (hne : outcome.ending ≠ .ok ()) :
      ModifyLog address change outcome.ending reads
  | read {word : Word} {outcome : Outcome (Error ε) η Unit} {reads written : List (Entry ε η)}
      (hread : VerifiedLog address (.ok word) reads)
      (hwrite : WriteLog address (change word) outcome written) :
      ModifyLog address change outcome (reads ++ written)

open Register in
/-- What a step of a start leaves. -/
def StepLog (gain : CurrentGain) (sagCounts : Word) :
    StartupStep → Outcome (Error ε) η Unit → List (Entry ε η) → Prop
  | .softReset => WriteLog softReset 0x789A
  | .currentGain =>
      ModifyLog mMode fun mode => (mode &&& (0x1FFF : Word)) ||| (gain.bits.setWidth 16 <<< 13)
  | .calibrationStart => WriteLog calStart 0x5678
  | .adjustmentStart => WriteLog adjStart 0x5678
  | .currentGainCalibration => WriteLog igainL 0x21C1
  | .adjustmentChecksum => WriteLog cs2 0xE20E
  | .sagThreshold => WriteLog sagTh sagCounts
  | .sagEnable => ModifyLog funcEn fun functions => functions ||| 0x30

/-- What some steps of a start leave.  The one that fails is named again. -/
inductive StepsLog (gain : CurrentGain) (sagCounts : Word) :
    List StartupStep → Outcome (Error ε) η Unit → List (Entry ε η) → Prop where
  | finished : StepsLog gain sagCounts [] (.ok ()) []
  | next {step : StartupStep} {later : List StartupStep} {outcome : Outcome (Error ε) η Unit}
      {first rest : List (Entry ε η)} (hfirst : StepLog gain sagCounts step (.ok ()) first)
      (hrest : StepsLog gain sagCounts later outcome rest) :
      StepsLog gain sagCounts (step :: later) outcome
        (.record (.stepStarted step) :: (first ++ rest))
  | aborted {step : StartupStep} {later : List StartupStep} {error : Error ε}
      {first : List (Entry ε η)} (hfirst : StepLog gain sagCounts step (.failed error) first) :
      StepsLog gain sagCounts (step :: later) (.failed error)
        (.record (.stepStarted step) :: (first ++ [.record (.stepAborted step)]))
  | stopped {step : StartupStep} {later : List StartupStep} {cause : η}
      {first : List (Entry ε η)} (hfirst : StepLog gain sagCounts step (.halted cause) first) :
      StepsLog gain sagCounts (step :: later) (.halted cause)
        (.record (.stepStarted step) :: first)

/-- What a start leaves: nothing if it is refused. -/
inductive StartLog (session : Bool) (gain : CurrentGain) (sagCounts? : Option Word) :
    Outcome (Error ε) η Unit → List (Entry ε η) → Prop where
  | closed (hsession : session = false) :
      StartLog session gain sagCounts? (.failed .notInitialized) []
  | unusable (hsession : session = true) (hcounts : sagCounts? = none) :
      StartLog session gain sagCounts? (.failed .invalidArgument) []
  | running {sagCounts : Word} {journal : List (Entry ε η)} (hsession : session = true)
      (hcounts : sagCounts? = some sagCounts)
      (hsteps : StepsLog gain sagCounts StartupStep.sequence (.ok ()) journal) :
      StartLog session gain sagCounts? (.ok ()) (journal ++ [.record (.running gain)])
  | broken {sagCounts : Word} {outcome : Outcome (Error ε) η Unit} {journal : List (Entry ε η)}
      (hsession : session = true) (hcounts : sagCounts? = some sagCounts)
      (hsteps : StepsLog gain sagCounts StartupStep.sequence outcome journal)
      (hne : outcome ≠ .ok ()) : StartLog session gain sagCounts? outcome journal

/-- What work at an address leaves: nothing if there is no session or no address. -/
inductive AccessLog (session : Bool) (address? : Option Address)
    (log : Address → Outcome (Error ε) η α → List (Entry ε η) → Prop) :
    Outcome (Error ε) η Unit → List (Entry ε η) → Prop where
  | closed (hsession : session = false) :
      AccessLog session address? log (.failed .notInitialized) []
  | outside (hsession : session = true) (haddress : address? = none) :
      AccessLog session address? log (.failed .invalidArgument) []
  | reached {address : Address} {outcome : Outcome (Error ε) η α} {journal : List (Entry ε η)}
      (hsession : session = true) (haddress : address? = some address)
      (hlog : log address outcome journal) :
      AccessLog session address? log outcome.ending journal

/-- What dumping some registers leaves.  Only a halt ends it early. -/
inductive DumpLog (session : Bool) :
    List Register.Descriptor → Outcome (Error ε) η Unit → List (Entry ε η) → Prop where
  | finished : DumpLog session [] (.ok ()) []
  | item {register : Register.Descriptor} {later : List Register.Descriptor}
      {ending outcome : Outcome (Error ε) η Unit} {first rest : List (Entry ε η)}
      (hfirst : AccessLog session (some register.address) VerifiedLog ending first)
      (hgoes : ∀ cause, ending ≠ .halted cause) (hrest : DumpLog session later outcome rest) :
      DumpLog session (register :: later) outcome (first ++ rest)
  | stopped {register : Register.Descriptor} {later : List Register.Descriptor} {cause : η}
      {first : List (Entry ε η)}
      (hfirst : AccessLog session (some register.address) VerifiedLog (.halted cause) first) :
      DumpLog session (register :: later) (.halted cause) first

/-- What beginning a session leaves. -/
inductive InitLog (session : Bool) (speedHz : UInt32) :
    Outcome (Error ε) η Unit → List (Entry ε η) → Prop where
  | unusable (hspeed : speedHz = 0) : InitLog session speedHz (.failed .invalidConfig) []
  | idle (hspeed : speedHz ≠ 0) (hsession : session = true) : InitLog session speedHz (.ok ()) []
  | unconnected (hspeed : speedHz ≠ 0) (hsession : session = false) (fault : ε)
      (notices : List Notice) :
      InitLog session speedHz (.failed (.connectFailed fault))
        (Entry.ofLink (.connect (.error fault)) notices)
  | opened (hspeed : speedHz ≠ 0) (hsession : session = false) (notices : List Notice) :
      InitLog session speedHz (.ok ())
        (Entry.ofLink (.connect (.ok ())) notices ++
          [.call (.configure speedHz (.ok ())), .record (.initialized speedHz)])
  | disconnected (hspeed : speedHz ≠ 0) (hsession : session = false) (refused : ε)
      (notices more : List Notice) :
      InitLog session speedHz (.failed (.configRejected refused))
        (Entry.ofLink (.connect (.ok ())) notices ++
          .call (.configure speedHz (.error refused)) ::
            Entry.ofLink (.disconnect (.ok ())) more)
  | unclosed (hspeed : speedHz ≠ 0) (hsession : session = false) (refused fault : ε)
      (notices more : List Notice) :
      InitLog session speedHz (.failed (.configRejected refused))
        (Entry.ofLink (.connect (.ok ())) notices ++
          .call (.configure speedHz (.error refused)) ::
            (Entry.ofLink (.disconnect (.error fault)) more ++ [.record .closeFailed]))

/-- What ending a session leaves. -/
inductive DeinitLog : Outcome (Error ε) η Unit → List (Entry ε η) → Prop where
  | closed (result : Except ε Unit) (notices : List Notice) :
      DeinitLog (Call.disconnect result).ending
        (Entry.ofLink (.disconnect result) notices ++ [.record .deinitialized])

/-- What an operation leaves in the journal of a meter, and how it ends then. -/
def Operation.Log (meter : Meter β) :
    Operation → Outcome (Error ε) η Unit → List (Entry ε η) → Prop
  | init => InitLog meter.isInitialized meter.config.speedHz
  | deinit => DeinitLog
  | softReset =>
      AccessLog meter.isInitialized (some Register.softReset) fun address =>
        WriteLog address 0x789A
  | write address word =>
      AccessLog meter.isInitialized (Address.ofByte? address) fun address =>
        WriteLog address word
  | rawRead address => AccessLog meter.isInitialized (Address.ofByte? address) ReadLog
  | verifiedRead address => AccessLog meter.isInitialized (Address.ofByte? address) VerifiedLog
  | start gain sagVolts => StartLog meter.isInitialized gain (Quantity.sagCounts? sagVolts)
  | startWithGainFactor factor sagVolts =>
      match CurrentGain.ofFactor? factor with
      | some gain => StartLog meter.isInitialized gain (Quantity.sagCounts? sagVolts)
      | none => fun outcome journal => outcome = .failed .invalidArgument ∧ journal = []
  | irmsRaw | irmsAmps => AccessLog meter.isInitialized (some Register.irms) VerifiedLog
  | vrmsRaw | vrmsVolts => AccessLog meter.isInitialized (some Register.urms) VerifiedLog
  | powerRaw | powerWatts => AccessLog meter.isInitialized (some Register.pmean) ReadLog
  | lineFrequencyHz => AccessLog meter.isInitialized (some Register.freq) VerifiedLog
  | systemStatus => AccessLog meter.isInitialized (some Register.sysStatus) VerifiedLog
  | dump items => DumpLog meter.isInitialized (Register.map.take items)

theorem Outcome.ending_failed_ne {φ : Type} (failure : φ) :
    (failed failure : Outcome φ η α).ending ≠ .ok () := by
  simp [ending]

theorem Outcome.ending_halted_ne {φ : Type} (cause : η) :
    (halted cause : Outcome φ η α).ending ≠ .ok () := by
  simp [ending]

theorem ReadLog.journal_eq {address : Address} {word : Word} {journal : List (Entry ε η)}
    (h : ReadLog address (.ok word) journal) : journal = [.call (.fetched address word)] := by
  cases h with
  | arrived word => rfl
  | lost hcommand hending hne => exact absurd rfl hne

variable [Bus β ε η]

theorem readRegister_log (address : Address) (bus : β) :
    let run : Run β ε η Word := readRegister address bus
    ReadLog address run.outcome run.journal := by
  intro run
  have hjournal : run.journal = (calls run.journal).map .call := rfl
  rw [hjournal]
  rcases readRegister_cases (ε := ε) (η := η) address bus with
    ⟨word, hok, hcalls⟩ | ⟨call, hcalls, hcommand, hending, hne⟩
  · rw [hok, hcalls]
    exact .arrived word
  · rw [hcalls]
    exact .lost hcommand hending (hending ▸ hne)

theorem writeRegister_log (address : Address) (word : Word) (bus : β) :
    let run : Run β ε η Unit := writeRegister address word bus
    WriteLog address word run.outcome run.journal := by
  rcases hwrite : Bus.write bus (Frame.write address word) with ⟨count | fault | cause, last⟩
  · by_cases hcount : count = 3
    · subst hcount
      simp only [writeRegister, hwrite, if_true]
      exact .wrote
    · simp only [writeRegister, hwrite, hcount, if_false]
      exact .lost rfl (if_neg hcount) (by simp)
  · simp only [writeRegister, hwrite]
    exact .lost rfl rfl (by simp)
  · simp only [writeRegister, hwrite]
    exact .lost rfl rfl (by simp)

namespace Program

theorem verifiedRead_log (address : Address) (bus : β) :
    let run : Run β ε η Word := (verifiedRead address).run bus
    VerifiedLog address run.outcome run.journal := by
  have hfirst := readRegister_log (ε := ε) (η := η) address bus
  simp only [verifiedRead_eq, run]
  rcases hread : (readRegister address bus : Run β ε η Word) with
    ⟨target | error | cause, middle, first⟩ <;> rw [hread] at hfirst
  · have hsecond := readRegister_log (ε := ε) (η := η) Register.lastData middle
    obtain rfl := hfirst.journal_eq
    simp only [Run.andThen]
    rcases hshadow : (readRegister Register.lastData middle : Run β ε η Word) with
      ⟨shadow | error | cause, last, second⟩ <;> rw [hshadow] at hsecond
    · obtain rfl := hsecond.journal_eq
      by_cases hagree : target = shadow
      · subst hagree
        simp only [if_true, run, Run.pure]
        exact .agreed target
      · simp only [hagree, if_false, run, run_fetch]
        exact .disputed hagree (readRegister_log Register.lastData last)
    · exact .unchecked target hsecond (Outcome.ending_failed_ne error)
    · exact .unchecked target hsecond (Outcome.ending_halted_ne cause)
  · exact .unread hfirst (Outcome.ending_failed_ne error)
  · exact .unread hfirst (Outcome.ending_halted_ne cause)

theorem modify_log (address : Address) (change : Word → Word) (bus : β) :
    let run : Run β ε η Unit := (modify address change).run bus
    ModifyLog address change run.outcome run.journal := by
  have hread := verifiedRead_log (ε := ε) (η := η) address bus
  simp only [modify_eq, run_bind]
  rcases hrun : ((verifiedRead address).run bus : Run β ε η Word) with
    ⟨word | error | cause, state, reads⟩ <;> rw [hrun] at hread
  · simp only [Run.andThen, run_store]
    exact .read hread (writeRegister_log address (change word) state)
  · exact .unread hread (Outcome.ending_failed_ne error)
  · exact .unread hread (Outcome.ending_halted_ne cause)

theorem store_log (address : Address) (word : Word) (bus : β) :
    let run : Run β ε η Unit := (store address word).run bus
    WriteLog address word run.outcome run.journal := by
  simp only [run_store]
  exact writeRegister_log address word bus

theorem fetch_log (address : Address) (bus : β) :
    let run : Run β ε η Word := (fetch address).run bus
    ReadLog address run.outcome run.journal := by
  simp only [run_fetch]
  exact readRegister_log address bus

theorem startupStep_log (gain : CurrentGain) (sagCounts : Word) :
    ∀ step ∈ startupSteps gain sagCounts, ∀ bus : β,
      let run : Run β ε η Unit := step.2.run bus
      StepLog gain sagCounts step.1 run.outcome run.journal := by
  have hmode : MeterMode.withGain gain =
      fun mode => (mode &&& (0x1FFF : Word)) ||| (gain.bits.setWidth 16 <<< 13) :=
    funext (MeterMode.withGain_eq gain)
  have hfunctions : FunctionEnable.withSagArmed = fun functions => functions ||| 0x30 :=
    funext FunctionEnable.withSagArmed_eq
  simp only [startupSteps, hmode, hfunctions, List.forall_mem_cons, List.not_mem_nil,
    false_imp_iff, implies_true, and_true]
  exact ⟨store_log _ _, modify_log _ _, store_log _ _, store_log _ _, store_log _ _,
    store_log _ _, store_log _ _, modify_log _ _⟩

end Program

theorem runSteps_log {gain : CurrentGain} {sagCounts : Word}
    {steps : List (StartupStep × Program Unit)}
    (hsteps : ∀ step ∈ steps, ∀ bus : β,
      let run : Run β ε η Unit := step.2.run bus
      StepLog gain sagCounts step.1 run.outcome run.journal) (bus : β) :
    let run : Run β ε η Unit := runSteps steps bus
    StepsLog gain sagCounts (steps.map Prod.fst) run.outcome run.journal := by
  induction steps generalizing bus with
  | nil => exact .finished
  | cons step rest ih =>
      obtain ⟨name, program⟩ := step
      obtain ⟨hfirst, hrest⟩ := List.forall_mem_cons.mp hsteps
      have hfirst := hfirst bus
      simp only [runSteps]
      rcases hrun : (program.run bus : Run β ε η Unit) with
        ⟨⟨⟩ | error | cause, state, journal⟩ <;> simp only [hrun] at hfirst
      · exact .next hfirst (ih hrest state)
      · exact .aborted hfirst
      · exact .stopped hfirst

namespace Meter

theorem start_log (meter : Meter β) (gain : CurrentGain) (sagVolts : Float32) :
    let run : Run (Meter β) ε η Unit := meter.start gain sagVolts
    StartLog meter.isInitialized gain (Quantity.sagCounts? sagVolts) run.outcome run.journal := by
  cases hsession : meter.isInitialized with
  | false =>
      simp only [start, hsession, Bool.false_eq_true, if_false]
      exact .closed rfl
  | true =>
      cases hcounts : Quantity.sagCounts? sagVolts with
      | none =>
          simp only [start, hsession, hcounts, if_true]
          exact .unusable rfl rfl
      | some sagCounts =>
          have hsteps := runSteps_log (Program.startupStep_log (ε := ε) gain sagCounts) meter.bus
          simp only [start, hsession, hcounts, if_true]
          rcases hrun : (runSteps (startupSteps gain sagCounts) meter.bus : Run β ε η Unit) with
            ⟨⟨⟩ | error | cause, state, journal⟩ <;> simp only [hrun] at hsteps
          · exact .running rfl rfl hsteps
          · exact .broken rfl rfl hsteps (by simp)
          · exact .broken rfl rfl hsteps (by simp)

section

variable {log : Address → Outcome (Error ε) η α → List (Entry ε η) → Prop}

theorem executeAt_log {program : Address → Program α}
    (hprogram : ∀ (address : Address) (bus : β),
      log address ((program address).run bus).outcome ((program address).run bus).journal)
    (meter : Meter β) (byte : Byte) :
    let run : Run (Meter β) ε η α := meter.executeAt byte program
    AccessLog meter.isInitialized (Address.ofByte? byte) log run.outcome.ending run.journal := by
  simp only [executeAt, execute]
  cases hsession : meter.isInitialized with
  | false =>
      cases Address.ofByte? byte with
      | none => exact .closed rfl
      | some address => exact .closed rfl
  | true =>
      cases Address.ofByte? byte with
      | none => exact .outside rfl rfl
      | some address => exact .reached rfl rfl (hprogram address meter.bus)

theorem execute_log {program : Address → Program α}
    (hprogram : ∀ (address : Address) (bus : β),
      log address ((program address).run bus).outcome ((program address).run bus).journal)
    (meter : Meter β) (address : Address) :
    let run : Run (Meter β) ε η α := meter.execute (program address)
    AccessLog meter.isInitialized (some address) log run.outcome.ending run.journal := by
  have hlog := executeAt_log hprogram meter address.toByte
  rwa [executeAt_eq_execute, Address.ofByte?_toByte] at hlog

end

theorem dump_log (dump : Dump β) (count : Nat) :
    let run : Run (Dump β) ε η (List (DumpItem ε)) := dump.take count
    DumpLog dump.meter.isInitialized (dump.remaining.take count) run.outcome.ending
      run.journal := by
  induction count generalizing dump with
  | zero => exact .finished
  | succ count ih =>
      obtain ⟨meter, remaining⟩ := dump
      cases remaining with
      | nil => exact .finished
      | cons register remaining =>
          have hread := executeAt_log (ε := ε) (η := η) Program.verifiedRead_log meter
            register.address.toByte
          have haccess : Accesses (fun _ => False) meter _ _ :=
            executeAt_accesses meter register.address.toByte fun target _ =>
              Program.writesOnly_verifiedRead target
          have hkept := haccess.isInitialized_eq
          rw [Address.ofByte?_toByte] at hread
          simp only [Dump.take, Dump.next?, verifiedReadRegister, List.take_succ_cons]
          rcases hrun : (meter.executeAt register.address.toByte Program.verifiedRead :
            Run (Meter β) ε η Word) with ⟨word | error | cause, state, journal⟩ <;>
            simp only [hrun] at hread hkept
          · have hrest := ih ⟨state, remaining⟩
            simp only [hkept] at hrest
            simp only [Run.andThen, Run.ending_map]
            exact .item hread (by simp [Outcome.ending]) hrest
          · have hrest := ih ⟨state, remaining⟩
            simp only [hkept] at hrest
            simp only [Run.andThen, Run.ending_map]
            exact .item hread (by simp [Outcome.ending]) hrest
          · exact .stopped hread

theorem init_log (meter : Meter β) :
    let run : Run (Meter β) ε η Unit := meter.init
    InitLog meter.isInitialized meter.config.speedHz run.outcome run.journal := by
  by_cases hspeed : meter.config.speedHz = 0
  · simpa [init, Config.validate, hspeed, Run.refuse] using InitLog.unusable rfl
  · have hvalid := Config.validate_eq_ok_iff.mpr hspeed
    cases hsession : meter.isInitialized with
    | true => simpa [init, hvalid, hsession, Run.pure] using InitLog.idle hspeed rfl
    | false =>
        rcases hconnect : Bus.connect meter.bus with ⟨fault | _, opened, notices⟩
        · simpa [init, hvalid, hsession, hconnect] using
            InitLog.unconnected hspeed rfl fault notices
        · rcases hconfigure : Bus.configure opened meter.config.speedHz with
            ⟨refused | _, configured⟩
          · rcases hclosed : Bus.disconnect configured with ⟨fault | _, last, more⟩
            · simpa [init, hvalid, hsession, hconnect, configure, hconfigure, giveUp, hclosed] using
                InitLog.unclosed hspeed rfl refused fault notices more
            · simpa [init, hvalid, hsession, hconnect, configure, hconfigure, giveUp, hclosed] using
                InitLog.disconnected hspeed rfl refused notices more
          · simpa [init, hvalid, hsession, hconnect, configure, hconfigure] using
              InitLog.opened hspeed rfl notices

theorem deinit_log (meter : Meter β) :
    let run : Run (Meter β) ε η Unit := meter.deinit
    DeinitLog run.outcome run.journal := by
  simp only [deinit]
  have hlog : DeinitLog _ _ :=
    .closed (η := η) (Bus.disconnect meter.bus).result (Bus.disconnect meter.bus).notices
  cases hresult : (Bus.disconnect meter.bus).result with
  | ok value => rwa [hresult] at hlog
  | error fault => rwa [hresult] at hlog

/-- Every operation leaves its log, on every bus. -/
theorem perform_log (meter : Meter β) (operation : Operation) :
    let run : Run (Meter β) ε η (Answer ε) := meter.perform operation
    operation.Log meter run.outcome.ending run.journal := by
  cases operation with
  | init =>
      simp only [perform, Run.ending_map, Outcome.ending_unit]
      exact meter.init_log
  | deinit =>
      simp only [perform, Run.ending_map, Outcome.ending_unit]
      exact meter.deinit_log
  | softReset =>
      simp only [perform, Run.ending_map]
      exact execute_log (fun address => Program.store_log address _) meter Register.softReset
  | write address word =>
      simp only [perform, Run.ending_map]
      exact executeAt_log (fun target => Program.store_log target word) meter address
  | rawRead address =>
      simp only [perform, Run.ending_map]
      exact executeAt_log Program.fetch_log meter address
  | verifiedRead address =>
      simp only [perform, Run.ending_map]
      exact executeAt_log Program.verifiedRead_log meter address
  | start gain sagVolts =>
      simp only [perform, Run.ending_map, Outcome.ending_unit]
      exact meter.start_log gain sagVolts
  | startWithGainFactor factor sagVolts =>
      simp only [perform, Run.ending_map, Outcome.ending_unit, startWithGainFactor, Operation.Log]
      cases CurrentGain.ofFactor? factor with
      | some gain => exact meter.start_log gain sagVolts
      | none => exact ⟨rfl, rfl⟩
  | dump items =>
      simp only [perform, Run.within, Run.ending_map]
      exact dump_log meter.dumpRegisters items
  | powerRaw | powerWatts =>
      simp only [perform, Run.ending_map, powerRaw, powerWatts]
      exact execute_log Program.fetch_log meter Register.pmean
  | irmsRaw | irmsAmps | vrmsRaw | vrmsVolts | lineFrequencyHz | systemStatus =>
      simp only [perform, Run.ending_map, irmsAmps, vrmsVolts, lineFrequencyHz]
      exact execute_log Program.verifiedRead_log meter _

end Meter

end EnergyMeter

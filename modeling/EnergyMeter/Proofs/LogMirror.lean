import EnergyMeter.Proofs.History
import EnergyMeter.Proofs.OperationLog
import EnergyMeter.Proofs.StartEffect

/-!
The log as a mirror of the bus.  What register work leaves in the journal is what a
listener tells from its calls, and so the log of an operation holds neither more nor less
than what the bus did.
-/

namespace EnergyMeter

variable {β ε η α : Type}

/-- The writes of a run that ends with its only one. -/
def Outcome.made {φ : Type} : Outcome φ η α → Nat
  | .ok _ => 1
  | .failed _ | .halted _ => 0

theorem Outcome.made_of_ne {φ : Type} {outcome : Outcome φ η Unit} (h : outcome ≠ .ok ()) :
    outcome.made = 0 := by
  cases outcome with
  | ok value => exact absurd rfl h
  | failed failure => rfl
  | halted cause => rfl

section

variable {address : Address} {word : Word} {call : Call ε η}

theorem Call.written?_stored : (stored address word : Call ε η).written? = some (address, word) :=
  written?_write address word

theorem Call.arrived?_fetched :
    (fetched address word : Call ε η).arrived? = some (address, word) := by
  rw [fetched, arrived?_read, Received.count_ofWord, if_pos rfl, Received.word_ofWord]

/-- A read that lost a byte brings no word. -/
theorem Call.silent_read (hcommand : call.command = .transfer (Frame.readHeader address) 2)
    (hne : call.ending ≠ .ok ()) : call.written? = none ∧ call.arrived? = none := by
  cases call with
  | transfer sent size result =>
      simp only [command, Command.transfer.injEq] at hcommand
      obtain ⟨rfl, rfl⟩ := hcommand
      cases result with
      | ok received =>
          have hcount : received.count ≠ 2 := fun hcount => hne (if_pos hcount)
          exact ⟨rfl, (arrived?_read address received).trans (if_neg hcount)⟩
      | failed fault => exact ⟨rfl, rfl⟩
      | halted cause => exact ⟨rfl, rfl⟩
  | _ => cases hcommand

/-- A write that lost a byte is no finished one. -/
theorem Call.silent_write (hcommand : call.command = .write (Frame.write address word))
    (hne : call.ending ≠ .ok ()) : call.written? = none ∧ call.arrived? = none := by
  cases call with
  | write sent result =>
      simp only [command, Command.write.injEq] at hcommand
      obtain rfl := hcommand
      cases result with
      | ok count =>
          have hcount : count ≠ 3 := fun hcount => hne (if_pos hcount)
          exact ⟨by simp [written?, Frame.write, hcount], rfl⟩
      | failed fault => exact ⟨rfl, rfl⟩
      | halted cause => exact ⟨rfl, rfl⟩
  | _ => cases hcommand

end

section

variable {address : Address} {word : Word} {journal : List (Entry ε η)}

theorem ReadLog.single {outcome : Outcome (Error ε) η Word} (h : ReadLog address outcome journal) :
    ∃ call : Call ε η, journal = [.call call] ∧ call.written? = none ∧
      (outcome.ending ≠ .ok () → call.arrived? = none) := by
  cases h with
  | arrived word => exact ⟨_, rfl, rfl, fun hne => absurd rfl hne⟩
  | lost hcommand hending hne =>
      obtain ⟨hwritten, harrived⟩ := Call.silent_read hcommand (hending ▸ hne)
      exact ⟨_, rfl, hwritten, fun _ => harrived⟩

/-- A listener says nothing to a first read. -/
theorem ReadLog.narrated {outcome : Outcome (Error ε) η Word}
    (h : ReadLog address outcome journal) : Narrated journal := by
  obtain ⟨call, rfl, hwritten, -⟩ := h.single
  cases harrived : call.arrived? <;>
    simp [Narrated, Listener.narrate, Listener.hear, Listener.idle, hwritten, harrived]

theorem WriteLog.heard {outcome : Outcome (Error ε) η Unit}
    (h : WriteLog address word outcome journal) : Heard outcome.made journal := by
  cases h with
  | wrote => exact .noted Call.written?_stored
  | lost hcommand hending hne =>
      obtain ⟨hwritten, harrived⟩ := Call.silent_write hcommand (hending ▸ hne)
      rw [Outcome.made_of_ne hne]
      exact .silent hwritten harrived

/-- The record of a write goes with its good end. -/
theorem WriteLog.records_eq {outcome : Outcome (Error ε) η Unit}
    (h : WriteLog address word outcome journal) :
    (outcome = .ok () → records journal = [.wrote address word]) ∧
      (outcome ≠ .ok () → records journal = []) := by
  cases h with
  | wrote => exact ⟨fun _ => rfl, fun hne => absurd rfl hne⟩
  | lost hcommand hending hne => exact ⟨fun hok => absurd hok hne, fun _ => rfl⟩

theorem VerifiedLog.heard {outcome : Outcome (Error ε) η Word}
    (h : VerifiedLog address outcome journal) : Heard 0 journal := by
  cases h with
  | unread hfirst hne =>
      obtain ⟨call, rfl, hwritten, harrived⟩ := hfirst.single
      exact .silent hwritten (harrived hne)
  | unchecked target hsecond hne =>
      obtain ⟨call, rfl, hwritten, harrived⟩ := hsecond.single
      exact .cut rfl Call.arrived?_fetched hwritten (harrived hne)
  | agreed word => exact .agreed rfl Call.arrived?_fetched rfl Call.arrived?_fetched rfl
  | disputed differ hthird =>
      obtain ⟨call, rfl, hwritten, -⟩ := hthird.single
      exact .disputed rfl Call.arrived?_fetched rfl Call.arrived?_fetched hwritten differ

theorem ReadLog.warned {outcome : Outcome (Error ε) η Word}
    (h : ReadLog address outcome journal) : Warned journal := by
  obtain ⟨call, rfl, -⟩ := h.single
  rfl

theorem WriteLog.warned {outcome : Outcome (Error ε) η Unit}
    (h : WriteLog address word outcome journal) : Warned journal := by
  cases h with
  | wrote => rfl
  | lost hcommand hending hne => rfl

theorem VerifiedLog.warned {outcome : Outcome (Error ε) η Word}
    (h : VerifiedLog address outcome journal) : Warned journal := by
  cases h with
  | unread hfirst hne => exact hfirst.warned
  | unchecked target hsecond hne =>
      obtain ⟨call, rfl, -, harrived⟩ := hsecond.single
      simp [Warned, disputes, Call.arrived?_fetched, harrived hne]
  | agreed word => simp [Warned, disputes, Call.arrived?_fetched]
  | disputed differ hthird =>
      obtain ⟨call, rfl, -⟩ := hthird.single
      simp [Warned, disputes, Call.arrived?_fetched, differ, recordsAt_record, Record.level]

theorem ModifyLog.heard {change : Word → Word} {outcome : Outcome (Error ε) η Unit}
    (h : ModifyLog address change outcome journal) : Heard outcome.made journal := by
  cases h with
  | unread hread hne =>
      rw [Outcome.made_of_ne hne]
      exact hread.heard
  | read hread hwrite => exact hread.heard.append hwrite.heard

/-- Every step of a start makes one write if it ends well, and it ends with it. -/
theorem StepLog.heard {gain : CurrentGain} {sagCounts : Word} {step : StartupStep}
    {outcome : Outcome (Error ε) η Unit} (h : StepLog gain sagCounts step outcome journal) :
    Heard outcome.made journal := by
  cases step with
  | currentGain | sagEnable => exact ModifyLog.heard h
  | _ => exact WriteLog.heard h

end

/-- A start that announces its first step and then, after each write, the next one, and
gives up the step in which it fails. -/
structure Announced (name : StartupStep) (later : List StartupStep)
    (outcome : Outcome (Error ε) η Unit) (journal : List (Entry ε η)) : Prop where
  told :
    journal =
      .record (.stepStarted name) :: (Listener.idle later).narrate (calls journal) ++
        (aborted (name :: later) ((calls journal).filterMap Call.written?).length outcome).map
          .record
  reached (error : Error ε) (h : outcome = .failed error) :
    ((calls journal).filterMap Call.written?).length ≤ later.length
  finished (h : outcome = .ok ()) :
    ((calls journal).filterMap Call.written?).length = later.length + 1

namespace Announced

variable {name second : StartupStep} {later : List StartupStep} {journal : List (Entry ε η)}

theorem last (h : Heard 1 journal) :
    Announced name [] (.ok ()) (.record (.stepStarted name) :: journal) where
  told := by
    rw [calls_record, h.narrated]
    exact (List.append_nil _).symm
  reached := nofun
  finished _ := h.written

theorem givenUp (h : Heard 0 journal) (error : Error ε) :
    Announced name later (.failed error)
      (.record (.stepStarted name) :: (journal ++ [.record (.stepAborted name)])) where
  told := by
    have hnone : announcements (later.take 0) = ([] : List (Entry ε η)) := rfl
    rw [calls_record, calls_append, calls_record, calls_nil, List.append_nil, h.told, h.written,
      hnone, List.append_nil]
    rfl
  reached := by simp [h.written]
  finished := nofun

theorem stopped (h : Heard 0 journal) (cause : η) :
    Announced name later (.halted cause : Outcome (Error ε) η Unit)
      (.record (.stepStarted name) :: journal) where
  told := by
    have hnone : announcements (later.take 0) = ([] : List (Entry ε η)) := rfl
    rw [calls_record, h.told, hnone, List.append_nil]
    exact (List.append_nil _).symm
  reached := nofun
  finished := nofun

theorem cons {outcome : Outcome (Error ε) η Unit} {rest : List (Entry ε η)} (h : Heard 1 journal)
    (hrest : Announced second later outcome rest) :
    Announced name (second :: later) outcome
      (.record (.stepStarted name) :: (journal ++ rest)) := by
  have hwritten : ((calls (.record (.stepStarted name) :: (journal ++ rest))).filterMap
      Call.written?).length = ((calls rest).filterMap Call.written?).length + 1 := by
    rw [calls_record, calls_append, List.filterMap_append, List.length_append, h.written,
      Nat.add_comm]
  refine ⟨?_, fun error herror => ?_, fun hok => ?_⟩
  · have hnext : announcements ((second :: later).take 1) =
        [(.record (.stepStarted second) : Entry ε η)] := rfl
    rw [hwritten, aborted_cons, calls_record, calls_append, Listener.narrate_append, h.told,
      h.settled, hnext, List.drop_one, List.tail_cons]
    refine (congrArg (fun made => .record (.stepStarted name) :: (journal ++ made))
      hrest.told).trans ?_
    simp only [List.cons_append, List.append_assoc, List.nil_append]
  · rw [hwritten]
    exact Nat.succ_le_succ (hrest.reached error herror)
  · rw [hwritten, hrest.finished hok]
    rfl

end Announced

theorem StepsLog.announced {gain : CurrentGain} {sagCounts : Word} {name : StartupStep}
    {later : List StartupStep} {outcome : Outcome (Error ε) η Unit} {journal : List (Entry ε η)}
    (h : StepsLog gain sagCounts (name :: later) outcome journal) :
    Announced name later outcome journal := by
  induction later generalizing name journal with
  | nil =>
      cases h with
      | next hfirst hrest =>
          cases hrest
          rw [List.append_nil]
          exact .last hfirst.heard
      | aborted hfirst => exact .givenUp hfirst.heard _
      | stopped hfirst => exact .stopped hfirst.heard _
  | cons second later ih =>
      cases h with
      | next hfirst hrest => exact .cons hfirst.heard (ih hrest)
      | aborted hfirst => exact .givenUp hfirst.heard _
      | stopped hfirst => exact .stopped hfirst.heard _

/-- What a start that is not refused says before its end. -/
def startNarration (trace : List (Call ε η)) : List (Entry ε η) :=
  .record (.stepStarted .softReset) :: (Listener.idle StartupStep.sequence.tail).narrate trace

theorem started_startNarration (trace : List (Call ε η)) :
    (records (startNarration trace)).filterMap Record.started? =
      StartupStep.sequence.take ((trace.filterMap Call.written?).length + 1) := by
  have hfirst : Record.started? (.stepStarted .softReset) = some .softReset := rfl
  rw [startNarration, records_record, List.filterMap_cons_some hfirst, Listener.started_narrate]
  rfl

theorem recordsAt_trace_startNarration (trace : List (Call ε η)) :
    recordsAt .trace (startNarration trace) = recorded (trace.filterMap Call.written?) :=
  (Listener.idle StartupStep.sequence.tail).recordsAt_trace_narrate trace

theorem isClosing_startNarration (trace : List (Call ε η)) :
    ∀ record ∈ records (startNarration trace), record.isClosing = false :=
  List.forall_mem_cons.mpr ⟨rfl, Listener.isClosing_narrate _ trace⟩

/-- The log of a start that is not refused.  Its writes are the first ones of a start, and
all of them if it ends well.  The steps are announced up to the one that it came to, and
behind what a listener tells stands the record of its end alone. -/
structure StartMirrored (gain : CurrentGain) (sagCounts : Word)
    (outcome : Outcome (Error ε) η Unit) (journal : List (Entry ε η)) : Prop where
  writes : ∃ words,
    recordsAt .trace journal <+: recorded (startupWrites gain sagCounts words)
  started :
    (records journal).filterMap Record.started? =
      StartupStep.sequence.take ((recordsAt .trace journal).length + 1)
  running (h : outcome = .ok ()) :
    (recordsAt .trace journal).length = StartupStep.sequence.length ∧
      journal = startNarration (calls journal) ++ [.record (.running gain)]
  aborted (error : Error ε) (h : outcome = .failed error) :
    ∃ step, StartupStep.sequence[(recordsAt .trace journal).length]? = some step ∧
      journal = startNarration (calls journal) ++ [.record (.stepAborted step)] ∧
      recordsAt .warn journal =
        recordsAt .warn (startNarration (calls journal)) ++ [.stepAborted step]
  stopped (cause : η) (h : outcome = .halted cause) : journal = startNarration (calls journal)
  closing : ∀ record ∈ records (startNarration (calls journal)), record.isClosing = false

/-- The records that end a start with a number of writes. -/
def startClosing (gain : CurrentGain) (made : Nat) (outcome : Outcome (Error ε) η Unit) :
    List Record :=
  match outcome with
  | .ok _ => [.running gain]
  | .failed _ | .halted _ => aborted StartupStep.sequence made outcome

theorem isClosing_startClosing {gain : CurrentGain} {made : Nat}
    {outcome : Outcome (Error ε) η Unit} {record : Record}
    (h : record ∈ startClosing gain made outcome) : record.isClosing = true := by
  cases outcome with
  | ok value =>
      obtain rfl := List.mem_singleton.mp h
      rfl
  | failed error =>
      obtain ⟨step, -, rfl⟩ := List.mem_map.mp h
      rfl
  | halted cause => cases h

namespace StartLog

variable {gain : CurrentGain} {sagCounts : Word} {outcome : Outcome (Error ε) η Unit}
  {journal : List (Entry ε η)}

theorem refused {session : Bool} {sagCounts? : Option Word}
    (h : StartLog session gain sagCounts? outcome journal)
    (hrefused : session = false ∨ sagCounts? = none) : journal = [] := by
  cases h with
  | closed | unusable => rfl
  | running hsession hcounts | broken hsession hcounts =>
      rw [hsession, hcounts] at hrefused
      exact absurd hrefused (by simp)

/-- A start that is not refused announces its steps, and says that it runs if they end
well. -/
theorem announced (h : StartLog true gain (some sagCounts) outcome journal) :
    ∃ steps, Announced .softReset StartupStep.sequence.tail outcome steps ∧
      calls journal = calls steps ∧
      (outcome = .ok () ∧ journal = steps ++ [.record (.running gain)] ∨
        outcome ≠ .ok () ∧ journal = steps) := by
  cases h with
  | closed hsession => cases hsession
  | unusable hsession hcounts => cases hcounts
  | running hsession hcounts hsteps =>
      exact ⟨_, hsteps.announced, by simp, .inl ⟨rfl, rfl⟩⟩
  | broken hsession hcounts hsteps hne => exact ⟨_, hsteps.announced, rfl, .inr ⟨hne, rfl⟩⟩

theorem told (h : StartLog true gain (some sagCounts) outcome journal) :
    journal =
      startNarration (calls journal) ++
        (startClosing gain ((calls journal).filterMap Call.written?).length outcome).map
          .record := by
  obtain ⟨steps, hsteps, hcalls, ⟨rfl, hjournal⟩ | ⟨hne, rfl⟩⟩ := h.announced
  · rw [hcalls, hjournal]
    exact congrArg (· ++ [.record (.running gain)]) (hsteps.told.trans (List.append_nil _))
  · cases outcome with
    | ok value => exact absurd rfl hne
    | failed error => exact hsteps.told
    | halted cause => exact hsteps.told

theorem reached {error : Error ε}
    (h : StartLog true gain (some sagCounts) (.failed error) journal) :
    ((calls journal).filterMap Call.written?).length < StartupStep.sequence.length := by
  obtain ⟨steps, hsteps, hcalls, -⟩ := h.announced
  rw [hcalls]
  exact Nat.lt_succ_of_le (hsteps.reached error rfl)

theorem finished (h : StartLog true gain (some sagCounts) (.ok ()) journal) :
    ((calls journal).filterMap Call.written?).length = StartupStep.sequence.length := by
  obtain ⟨steps, hsteps, hcalls, -⟩ := h.announced
  rw [hcalls]
  exact hsteps.finished rfl

theorem traces (h : StartLog true gain (some sagCounts) outcome journal) :
    recordsAt .trace journal = recorded ((calls journal).filterMap Call.written?) := by
  have hnone : (startClosing gain ((calls journal).filterMap Call.written?).length outcome).filter
      (fun record => record.level = .trace) = [] := by
    rw [List.filter_eq_nil_iff]
    intro record hrecord
    simpa using Record.level_of_isClosing (isClosing_startClosing hrecord)
  rw [← recordsAt_trace_startNarration]
  refine (congrArg (recordsAt .trace) h.told).trans ?_
  rw [recordsAt_append, recordsAt_map_record, hnone, List.append_nil]

theorem started (h : StartLog true gain (some sagCounts) outcome journal) :
    (records journal).filterMap Record.started? =
      StartupStep.sequence.take (((calls journal).filterMap Call.written?).length + 1) := by
  have hnone :
      (startClosing gain ((calls journal).filterMap Call.written?).length outcome).filterMap
        Record.started? = [] := by
    rw [List.filterMap_eq_nil_iff]
    intro record hrecord
    exact Record.started?_of_isClosing (isClosing_startClosing hrecord)
  rw [← started_startNarration]
  refine (congrArg (fun made => (records made).filterMap Record.started?) h.told).trans ?_
  rw [records_append, records_map_record, List.filterMap_append, hnone, List.append_nil]

theorem mirrored (h : StartLog true gain (some sagCounts) outcome journal)
    (hwrites : ∃ words,
      (calls journal).filterMap Call.written? <+: startupWrites gain sagCounts words) :
    StartMirrored gain sagCounts outcome journal := by
  have hlength : (recordsAt .trace journal).length =
      ((calls journal).filterMap Call.written?).length := by
    rw [h.traces, recorded, List.length_map]
  have htold := h.told
  refine ⟨?_, ?_, ?_, ?_, ?_, isClosing_startNarration _⟩
  · obtain ⟨words, hprefix⟩ := hwrites
    rw [h.traces]
    exact ⟨words, hprefix.map _⟩
  · rw [hlength]
    exact h.started
  · rintro rfl
    exact ⟨hlength.trans h.finished, htold⟩
  · rintro error rfl
    rw [startClosing, aborted_failed h.reached] at htold
    rw [hlength]
    refine ⟨_, List.getElem?_eq_getElem h.reached, htold, ?_⟩
    exact (congrArg (recordsAt .warn) htold).trans (recordsAt_append ..)
  · rintro cause rfl
    exact htold.trans (List.append_nil _)

end StartLog

/-- A finished write is fine. -/
theorem Call.ending_of_written? {call : Call ε η} {made : Address × Word}
    (h : call.written? = some made) : call.ending = .ok () := by
  unfold written? at h
  split at h
  · rfl
  · cases h

theorem VerifiedTrace.written? {address : Address} {word : Word} {trace : List (Call ε η)}
    (h : VerifiedTrace address word trace) : trace.filterMap Call.written? = [] := by
  cases h with
  | agreed word => rfl
  | disputed differ word => rfl

theorem StartTrace.written? {gain : CurrentGain} {sagCounts : Word} {trace : List (Call ε η)}
    (h : StartTrace gain sagCounts trace) :
    ∃ words, trace.filterMap Call.written? = startupWrites gain sagCounts words := by
  obtain ⟨mode, functions, modeReads, functionReads, hmode, hfunctions, rfl⟩ := h
  refine ⟨fun address => if address = Register.mMode then mode else functions, ?_⟩
  have hne : Register.funcEn ≠ Register.mMode := by decide
  simp [List.filterMap_append, hmode.written?, hfunctions.written?, Call.written?_stored,
    startupWrites, hne]

section

variable {session : Bool} {address? : Option Address} {outcome : Outcome (Error ε) η Unit}
  {journal : List (Entry ε η)}

/-- What holds of nothing and of what the work leaves holds of what an access leaves. -/
theorem AccessLog.keeps {log : Address → Outcome (Error ε) η α → List (Entry ε η) → Prop}
    (h : AccessLog session address? log outcome journal) (holds : List (Entry ε η) → Prop)
    (hnil : holds [])
    (hlog : ∀ {address outcome journal}, log address outcome journal → holds journal) :
    holds journal := by
  cases h with
  | closed | outside => exact hnil
  | reached hsession haddress hreached => exact hlog hreached

theorem AccessLog.records_eq {word : Word}
    (h : AccessLog session address? (fun address => WriteLog address word) outcome journal) :
    (outcome = .ok () →
        ∃ address, address? = some address ∧ records journal = [.wrote address word]) ∧
      (outcome ≠ .ok () → records journal = []) := by
  cases h with
  | closed | outside => exact ⟨nofun, fun _ => rfl⟩
  | reached hsession haddress hreached =>
      rw [Outcome.ending_unit]
      obtain ⟨hok, hne⟩ := hreached.records_eq
      exact ⟨fun h => ⟨_, haddress, hok h⟩, hne⟩

theorem DumpLog.heard {registers : List Register.Descriptor}
    (h : DumpLog session registers outcome journal) : Heard 0 journal := by
  induction h with
  | finished => exact .nil
  | item hfirst hgoes hrest ih => exact (hfirst.keeps (Heard 0) .nil VerifiedLog.heard).append ih
  | stopped hfirst => exact hfirst.keeps (Heard 0) .nil VerifiedLog.heard

end

namespace Operation

/-- The address and the word that a write passes. -/
def write? : Operation → Option (Byte × Word)
  | softReset => some (Register.softReset.toByte, 0x789A)
  | write address word => some (address, word)
  | _ => none

variable {meter : Meter β} {operation : Operation} {outcome : Outcome (Error ε) η Unit}
  {journal : List (Entry ε η)}

/-- The record of a write goes with its good end and has its own address and word. -/
theorem Log.records_eq {byte : Byte} {word : Word} (h : operation.Log meter outcome journal)
    (hwrite : operation.write? = some (byte, word)) :
    (outcome = .ok () →
        ∃ address, Address.ofByte? byte = some address ∧
          records journal = [.wrote address word]) ∧
      (outcome ≠ .ok () → records journal = []) := by
  cases operation with
  | softReset =>
      obtain ⟨rfl, rfl⟩ := Prod.mk.inj (Option.some.inj hwrite)
      rw [Address.ofByte?_toByte]
      exact AccessLog.records_eq h
  | write address passed =>
      obtain ⟨rfl, rfl⟩ := Prod.mk.inj (Option.some.inj hwrite)
      exact AccessLog.records_eq h
  | _ => cases hwrite

/-- A start by an unsupported factor leaves nothing. -/
theorem Log.refused {factor : Byte} {sagVolts : Float32}
    (h : (startWithGainFactor factor sagVolts).Log meter outcome journal)
    (hkind : (startWithGainFactor factor sagVolts).kind = .access) : journal = [] := by
  simp only [kind, Log] at hkind h
  cases hgain : CurrentGain.ofFactor? factor with
  | some gain => simp [hgain] at hkind
  | none =>
      rw [hgain] at h
      exact h.2

/-- The journal of register work is what a listener tells. -/
theorem Log.narrated (h : operation.Log meter outcome journal) (hkind : operation.kind = .access) :
    Narrated journal := by
  cases operation with
  | init => cases hkind
  | deinit => cases hkind
  | start gain sagVolts => cases hkind
  | startWithGainFactor factor sagVolts =>
      rw [h.refused hkind]
      rfl
  | softReset | write => exact AccessLog.keeps h Narrated rfl fun hlog => hlog.heard.narrated
  | dump items => exact (DumpLog.heard h).narrated
  | rawRead | powerRaw | powerWatts => exact AccessLog.keeps h Narrated rfl ReadLog.narrated
  | verifiedRead | irmsRaw | irmsAmps | vrmsRaw | vrmsVolts | lineFrequencyHz | systemStatus =>
      exact AccessLog.keeps h Narrated rfl fun hlog => hlog.heard.narrated

/-- An access that is no dump warns of two first replies that differ. -/
theorem Log.warned (h : operation.Log meter outcome journal) (hkind : operation.kind = .access)
    (hdump : ∀ items, operation ≠ .dump items) : Warned journal := by
  cases operation with
  | init => cases hkind
  | deinit => cases hkind
  | start gain sagVolts => cases hkind
  | startWithGainFactor factor sagVolts =>
      rw [h.refused hkind]
      rfl
  | softReset | write => exact AccessLog.keeps h Warned rfl WriteLog.warned
  | dump items => exact absurd rfl (hdump items)
  | rawRead | powerRaw | powerWatts => exact AccessLog.keeps h Warned rfl ReadLog.warned
  | verifiedRead | irmsRaw | irmsAmps | vrmsRaw | vrmsVolts | lineFrequencyHz | systemStatus =>
      exact AccessLog.keeps h Warned rfl VerifiedLog.warned

end Operation

namespace Meter

variable [Bus β ε η]

/-- The finished writes of an accepted start are the first ones of a start. -/
theorem start_writes {meter : Meter β} (gain : CurrentGain) {sagVolts : Float32}
    {sagCounts : Word} (hsession : meter.isInitialized = true)
    (hcounts : Quantity.sagCounts? sagVolts = some sagCounts) :
    ∃ words,
      (calls (meter.start gain sagVolts).journal).filterMap Call.written? <+:
        startupWrites gain sagCounts words := by
  rcases start_full_or_breaksOff gain hsession hcounts with ⟨-, hfull⟩ | hbroken
  · obtain ⟨words, hwrites⟩ := hfull.written?
    exact ⟨words, [], by rw [List.append_nil, hwrites]⟩
  · obtain ⟨done, good, last, rest, htrace, hfull, -, hending, hne⟩ := hbroken
    obtain ⟨words, hwrites⟩ := hfull.written?
    have hlast : last.written? = none := by
      rw [Option.eq_none_iff_forall_ne_some]
      intro made hmade
      exact hne (hending.symm.trans (Call.ending_of_written? hmade))
    rw [htrace, List.filterMap_append, List.filterMap_cons_none hlast, List.filterMap_nil,
      List.append_nil]
    exact ⟨words, (good :: rest).filterMap Call.written?, by rw [← List.filterMap_append, hwrites]⟩

theorem start_mirrored {meter : Meter β} (gain : CurrentGain) {sagVolts : Float32}
    {sagCounts : Word} (hsession : meter.isInitialized = true)
    (hcounts : Quantity.sagCounts? sagVolts = some sagCounts) :
    StartMirrored gain sagCounts (meter.start gain sagVolts).outcome
      (meter.start gain sagVolts).journal := by
  have hlog := meter.start_log gain sagVolts
  rw [hsession, hcounts] at hlog
  exact hlog.mirrored (start_writes gain hsession hcounts)

end Meter

theorem recordsAt_ofLink {level : Level} (h : level ≠ .debug) (made : Call ε η)
    (notices : List Notice) : recordsAt level (Entry.ofLink made notices) = [] := by
  rw [recordsAt, Entry.ofLink, records_call, List.filter_eq_nil_iff]
  intro record hrecord
  obtain ⟨entry, hentry, hrecord⟩ := List.mem_filterMap.mp hrecord
  obtain ⟨notice, -, rfl⟩ := List.mem_map.mp hentry
  obtain rfl := Option.some.inj hrecord
  simp [Record.level, Ne.symm h]

section

variable {session : Bool} {speedHz : UInt32} {outcome : Outcome (Error ε) η Unit}
  {journal : List (Entry ε η)}

theorem InitLog.traces (h : InitLog session speedHz outcome journal) :
    recordsAt .trace journal = [] ∧ (calls journal).filterMap Call.written? = [] := by
  cases h <;>
    simp [recordsAt_ofLink, recordsAt_record, Record.level, Call.written?]

theorem InitLog.warnings (h : InitLog session speedHz outcome journal) :
    (recordsAt .warn journal = [] ∨ recordsAt .warn journal = [.closeFailed]) ∧
      (recordsAt .warn journal = [.closeFailed] ↔
        ∃ refused unclosed, calls journal =
          [.connect (.ok ()), .configure speedHz (.error refused),
            .disconnect (.error unclosed)]) := by
  cases h <;> simp [recordsAt_ofLink, recordsAt_record, Record.level]

theorem DeinitLog.traces (h : DeinitLog outcome journal) :
    recordsAt .trace journal = [] ∧ (calls journal).filterMap Call.written? = [] := by
  cases h
  simp [recordsAt_ofLink, recordsAt_record, Record.level, Call.written?]

theorem DeinitLog.warnings (h : DeinitLog outcome journal) : recordsAt .warn journal = [] := by
  cases h
  simp [recordsAt_ofLink, recordsAt_record, Record.level]

end

variable [Bus β ε η]

namespace Meter

/-- The trace of an operation tells its writes. -/
theorem perform_traces (meter : Meter β) (operation : Operation) :
    let run : Run (Meter β) ε η (Answer ε) := meter.perform operation
    recordsAt .trace run.journal = recorded ((calls run.journal).filterMap Call.written?) := by
  intro run
  cases hkind : operation.kind with
  | init =>
      simp only [run, meter.perform_init hkind, Run.map]
      obtain ⟨htraces, hwritten⟩ := meter.init_log.traces (ε := ε) (η := η)
      rw [htraces, hwritten]
      rfl
  | deinit =>
      simp only [run, meter.perform_deinit hkind, Run.map]
      obtain ⟨htraces, hwritten⟩ := meter.deinit_log.traces (ε := ε) (η := η)
      rw [htraces, hwritten]
      rfl
  | start gain sagVolts =>
      simp only [run, meter.perform_start hkind, Run.map]
      rcases meter.start_refused_or_accepted gain sagVolts with
        ⟨error, hrefused⟩ | ⟨hsession, sagCounts, hcounts⟩
      · rw [hrefused]
        rfl
      · have hlog := meter.start_log (ε := ε) (η := η) gain sagVolts
        rw [hsession, hcounts] at hlog
        exact hlog.traces
  | access =>
      have hnarrated : Narrated run.journal := (meter.perform_log operation).narrated hkind
      rw [← Listener.recordsAt_trace_narrate (.idle [])]
      exact congrArg (recordsAt .trace) hnarrated.symm

theorem journal_traces (meter : Meter β) (operations : List Operation) :
    recordsAt .trace (meter.journal operations) =
      recorded ((calls (meter.journal operations)).filterMap Call.written?) := by
  induction operations generalizing meter with
  | nil => rfl
  | cons operation rest ih =>
      rw [journal_cons, recordsAt_append, perform_traces, ih, calls_append, List.filterMap_append]
      exact List.map_append.symm

end Meter

/-- The log mirrors the bus.  Every operation leaves its log: after each write that ended
well the record of its own address and word, after a second reply that differs from the
first one the warning, whatever the third comes to, and before each step of a start its
name.  So a write is recorded if it ends well and not otherwise, and the trace of any
history holds the writes that moved their whole frame, in order, and no other.  An
operation that only reaches registers leaves the journal that a listener tells from its
calls, and unless it is a dump it warns of two first replies that differ and of nothing
else.  A start that is refused leaves nothing.  Any other records the first writes of a
start, all eight if it ends well, announces its steps up to the one it came to, and closes
with the record of its end: that it runs, or that it was aborted in the last step.
Beginning a session warns of a failed disconnect just when the bus refused its clock and
then failed to disconnect. -/
theorem log_mirrors_bus (meter : Meter β) :
    (∀ operations : List Operation,
      recordsAt .trace (meter.journal operations) =
        recorded ((calls (meter.journal operations)).filterMap Call.written?)) ∧
    ∀ operation : Operation,
      let run : Run (Meter β) ε η (Answer ε) := meter.perform operation
      let trace := calls run.journal
      operation.Log meter run.outcome.ending run.journal ∧
      (∀ byte word, operation.write? = some (byte, word) →
        (run.outcome.ending = .ok () →
          ∃ address, Address.ofByte? byte = some address ∧
            records run.journal = [.wrote address word]) ∧
        (run.outcome.ending ≠ .ok () → records run.journal = [])) ∧
      (operation.kind = .access → run.journal = (Listener.idle []).narrate trace) ∧
      (operation.kind = .access → (∀ items, operation ≠ .dump items) →
        recordsAt .warn run.journal = disputes trace) ∧
      (∀ gain sagVolts, operation.kind = .start gain sagVolts →
        (meter.isInitialized = false ∨ Quantity.sagCounts? sagVolts = none → run.journal = []) ∧
        ∀ sagCounts, meter.isInitialized = true → Quantity.sagCounts? sagVolts = some sagCounts →
          StartMirrored gain sagCounts run.outcome.ending run.journal) ∧
      (operation.kind = .init →
        (recordsAt .warn run.journal = [] ∨ recordsAt .warn run.journal = [.closeFailed]) ∧
        (recordsAt .warn run.journal = [.closeFailed] ↔
          ∃ refused unclosed, trace =
            [.connect (.ok ()), .configure meter.config.speedHz (.error refused),
              .disconnect (.error unclosed)])) ∧
      (operation.kind = .deinit → recordsAt .warn run.journal = []) := by
  refine ⟨meter.journal_traces, fun operation => ?_⟩
  intro run trace
  have hlog : operation.Log meter run.outcome.ending run.journal := meter.perform_log operation
  refine ⟨hlog, fun byte word => hlog.records_eq, fun hkind => (hlog.narrated hkind).symm,
    hlog.warned, fun gain sagVolts hkind => ?start, fun hkind => ?init, fun hkind => ?deinit⟩
  case start =>
    have hstart : run = (meter.start gain sagVolts).map fun _ => .nothing :=
      meter.perform_start hkind
    rw [hstart, Run.ending_map, Outcome.ending_unit]
    exact ⟨(meter.start_log gain sagVolts).refused, fun sagCounts => Meter.start_mirrored gain⟩
  case init =>
    simp only [trace, run, meter.perform_init hkind]
    exact meter.init_log.warnings
  case deinit =>
    simp only [run, meter.perform_deinit hkind]
    exact meter.deinit_log.warnings

-- a register that the line disturbed is told before the third exchange
example :
    let rig : Rig := { replies := [.value 5, .value 9, .fail 3] }
    let meter : Meter Rig := ⟨rig, {}, .initialized⟩
    records (meter.perform (.verifiedRead 0x31)).journal = [.mismatch 0x31 5 9] := by
  decide

end EnergyMeter

import EnergyMeter.Sampler
import EnergyMeter.Proofs.ErrorCause
import EnergyMeter.Proofs.NodeHandle

/-!
The one-shot sampler on a device node.  A sample is taken exactly if every call
for it is fine, and the first call that is not ends the work.  Either way a node
that was opened is dropped once, after everything else.
-/

namespace EnergyMeter

variable {β ε η α γ : Type}

/-- Work within a session: the session stays open, every call moves bytes, and the
run is a full one or breaks off. -/
structure Meter.Works (meter : Meter β) (full : α → List (Call ε η) → Prop)
    (run : Run (Meter β) ε η α) : Prop where
  config : run.state.config = meter.config
  session : run.state.isInitialized = true
  exchanges : ∀ call ∈ calls run.journal, call.IsExchange
  follows : run.Follows full

namespace Meter

namespace Works

variable {meter : Meter β} {full other : α → List (Call ε η) → Prop} {run : Run (Meter β) ε η α}

theorem mono (hmore : ∀ value trace, full value trace → other value trace)
    (h : meter.Works full run) : meter.Works other run :=
  { h with follows := h.follows.mono hmore }

theorem map {full : γ → List (Call ε η) → Prop} (f : α → γ)
    (h : meter.Works (fun value => full (f value)) run) : meter.Works full (run.map f) :=
  ⟨h.config, h.session, h.exchanges, h.follows.map f⟩

/-- Work goes on with the same configuration, within the same session. -/
theorem andThen {more : α → γ → List (Call ε η) → Prop} {next : α → Meter β → Run (Meter β) ε η γ}
    (h : meter.Works full run)
    (hnext : ∀ value (last : Meter β), last.config = meter.config → last.isInitialized = true →
      last.Works (more value) (next value last))
    (hmore : ∀ value, ∃ trace last, more value last trace) :
    meter.Works (fun last trace => ∃ value first second, full value first ∧
      more value last second ∧ trace = first ++ second) (run.andThen next) := by
  have hrest value := hnext value run.state h.config h.session
  have hfollows := h.follows.andThen (fun value => (hrest value).follows) hmore
  rcases run with ⟨value | error | cause, state, journal⟩
  · refine ⟨(hrest value).config.trans h.config, (hrest value).session, ?_, hfollows⟩
    simp only [Run.andThen, calls_append, List.forall_mem_append]
    exact ⟨h.exchanges, (hrest value).exchanges⟩
  · exact ⟨h.config, h.session, h.exchanges, hfollows⟩
  · exact ⟨h.config, h.session, h.exchanges, hfollows⟩

end Works

end Meter

variable [Bus β ε η]

namespace Meter

namespace Works

variable {meter : Meter β} {full : α → List (Call ε η) → Prop} {run : Run (Meter β) ε η α}

theorem of_perform (operation : Operation) (f : α → Answer ε) (hinit : operation.kind ≠ .init)
    (hdeinit : operation.kind ≠ .deinit) (hsession : meter.isInitialized = true)
    (hperform : meter.perform operation = run.map f) (hfollows : run.Follows full) :
    meter.Works full run := by
  obtain ⟨hstays, hmoves, -⟩ := meter.perform_within hinit hdeinit
  have hconfig := meter.perform_config operation
  rw [hperform] at hstays hmoves hconfig
  exact ⟨hconfig, hstays.trans hsession, hmoves, hfollows⟩

end Works

variable {meter : Meter β}

theorem start_works (hsession : meter.isInitialized = true) (gain : CurrentGain)
    {sagVolts : Float32} {sagCounts : Word}
    (hcounts : Quantity.sagCounts? sagVolts = some sagCounts) :
    meter.Works (fun _ trace => StartTrace gain sagCounts trace) (meter.start gain sagVolts) :=
  .of_perform (.start gain sagVolts) (fun _ => .nothing) nofun nofun hsession rfl
    (start_follows gain hsession hcounts)

theorem execute_follows (hsession : meter.isInitialized = true) (program : Program α) :
    (meter.execute program).Follows fun value trace => program.FullRun trace value := by
  rw [execute, if_pos hsession]
  exact program.run_follows meter.bus

theorem verifiedRead_follows (hsession : meter.isInitialized = true) (address : Address)
    (f : Word → γ) :
    ((meter.execute (.verifiedRead address)).map f).Follows fun value trace =>
      ∃ word, VerifiedTrace address word trace ∧ value = f word := by
  apply Run.Follows.map
  apply (execute_follows hsession _).mono
  intro word trace hfull
  exact ⟨word, .of_fullRun hfull, rfl⟩

end Meter

theorem StartTrace.exists_trace (gain : CurrentGain) (sagCounts : Word) :
    ∃ trace : List (Call ε η), StartTrace gain sagCounts trace := by
  obtain ⟨trace, hfull⟩ :
      ∃ trace : List (Call ε η), FullSteps (startupSteps gain sagCounts) trace :=
    FullSteps.exists_trace _
  exact ⟨trace, .of_fullSteps hfull⟩

/-- A call to a bus that was connected. -/
def Call.IsUse : Call ε η → Prop
  | .configure .. | .transfer .. | .write .. => True
  | .connect _ | .disconnect _ => False

theorem Call.IsExchange.isUse {call : Call ε η} (h : call.IsExchange) : call.IsUse := by
  cases call with
  | connect result => exact h.elim
  | disconnect result => exact h.elim
  | _ => trivial

/-- The two ways in which work on a bus ends: the bus was not connected, or it is
disconnected after everything else. -/
inductive Released : List (Call ε η) → List (Call ε η) → Prop where
  | unopened (fault : ε) : Released [.connect (.error fault)] []
  | opened {uses : List (Call ε η)} (h : ∀ call ∈ uses, call.IsUse) :
      Released (.connect (.ok ()) :: uses) [.disconnect (.ok ())]

theorem Opening.of_ok {speedHz : UInt32} {made : List (Call ε η)} {state : State}
    (h : Opening speedHz made (.ok ()) state) :
    made = [.connect (.ok ()), .configure speedHz (.ok ())] ∧ state = .initialized := by
  cases h
  exact ⟨rfl, rfl⟩

namespace Sampler

/-- The calls that read the power, the last quantity of a sample. -/
def PowerTrace (amps volts : Float32) (sample : Sample) (trace : List (Call ε η)) : Prop :=
  ∃ power, trace = [.fetched Register.pmean power] ∧
    sample = ⟨amps, volts, Quantity.watts power⟩

/-- The calls that read the voltage and the power. -/
def VoltageTrace (amps : Float32) (sample : Sample) (trace : List (Call ε η)) : Prop :=
  ∃ voltage power reads, VerifiedTrace Register.urms voltage reads ∧
    trace = reads ++ [.fetched Register.pmean power] ∧
    sample = ⟨amps, Quantity.volts voltage, Quantity.watts power⟩

/-- The calls that read the three quantities. -/
def ReadingTrace (sample : Sample) (trace : List (Call ε η)) : Prop :=
  ∃ current voltage power currentReads voltageReads,
    VerifiedTrace Register.irms current currentReads ∧
    VerifiedTrace Register.urms voltage voltageReads ∧
    trace = currentReads ++ (voltageReads ++ [.fetched Register.pmean power]) ∧
    sample = ⟨Quantity.amps .boosted current, Quantity.volts voltage, Quantity.watts power⟩

/-- The calls that bring a sample, once there is a session. -/
def MeasureTrace (sample : Sample) (trace : List (Call ε η)) : Prop :=
  ∃ started readings, StartTrace .x24 2000 started ∧ ReadingTrace sample readings ∧
    trace = started ++ readings

variable {meter : Meter β}

theorem power_works (hsession : meter.isInitialized = true) (amps volts : Float32) :
    meter.Works (PowerTrace amps volts)
      (meter.powerWatts.map fun watts => ⟨amps, volts, watts⟩) := by
  apply Meter.Works.map
  apply Meter.Works.of_perform .powerWatts .quantity nofun nofun hsession rfl
  apply Run.Follows.map
  apply (Meter.execute_follows hsession _).mono
  intro word trace hfull
  exact ⟨word, hfull.fetch_inv, rfl⟩

theorem voltage_works (hsession : meter.isInitialized = true) (amps : Float32) :
    meter.Works (VoltageTrace amps)
      (meter.vrmsVolts.andThen fun volts meter =>
        meter.powerWatts.map fun watts => ⟨amps, volts, watts⟩) := by
  have hread := Meter.verifiedRead_follows hsession Register.urms Quantity.volts
  have hvolts := Meter.Works.of_perform .vrmsVolts .quantity nofun nofun hsession rfl hread
  have hboth := hvolts.andThen (fun volts _ _ hlast => power_works hlast amps volts)
    fun volts => ⟨_, _, 0, rfl, rfl⟩
  apply hboth.mono
  rintro sample trace ⟨-, reads, -, ⟨voltage, hreads, rfl⟩, ⟨power, rfl, rfl⟩, rfl⟩
  exact ⟨voltage, power, reads, hreads, rfl, rfl⟩

theorem reading_works (hsession : meter.isInitialized = true)
    (hscale : meter.config.currentScale = .boosted) :
    meter.Works ReadingTrace
      (meter.irmsAmps.andThen fun amps meter =>
        meter.vrmsVolts.andThen fun volts meter =>
          meter.powerWatts.map fun watts => ⟨amps, volts, watts⟩) := by
  have hread := Meter.verifiedRead_follows hsession Register.irms
    (Quantity.amps meter.config.currentScale)
  have hamps := Meter.Works.of_perform .irmsAmps .quantity nofun nofun hsession rfl hread
  have hboth := hamps.andThen (fun amps _ _ hlast => voltage_works hlast amps)
    fun amps => ⟨_, _, 0, 0, _, .agreed 0, rfl, rfl⟩
  apply hboth.mono
  rintro sample trace
    ⟨-, reads, -, ⟨current, hreads, rfl⟩, ⟨voltage, power, more, hmore, rfl, rfl⟩, rfl⟩
  rw [hscale]
  exact ⟨current, voltage, power, reads, more, hreads, hmore, rfl, rfl⟩

theorem MeasureTrace.exists_trace :
    ∃ (sample : Sample) (trace : List (Call ε η)), MeasureTrace sample trace := by
  obtain ⟨started, hstarted⟩ : ∃ trace : List (Call ε η), StartTrace .x24 2000 trace :=
    StartTrace.exists_trace .x24 2000
  exact ⟨_, _, started, _, hstarted, ⟨0, 0, 0, _, _, .agreed 0, .agreed 0, rfl, rfl⟩, rfl⟩

theorem measure_works (hsession : meter.isInitialized = true)
    (hscale : meter.config.currentScale = .boosted) :
    meter.Works MeasureTrace (measure meter) := by
  have hcounts : Quantity.sagCounts? 20 = some 2000 := by decide
  have hstart := Meter.start_works hsession .x24 hcounts
  have hboth := hstart.andThen
    (fun _ _ hconfig hlast => reading_works hlast (hconfig ▸ hscale))
    fun _ => ⟨_, _, 0, 0, 0, _, _, .agreed 0, .agreed 0, rfl, rfl⟩
  apply hboth.mono
  rintro sample trace ⟨-, started, readings, hstarted, hreadings, rfl⟩
  exact ⟨started, readings, hstarted, hreadings, rfl⟩

/-- The calls that bring a sample. -/
def SampleTrace (sample : Sample) (trace : List (Call ε η)) : Prop :=
  ∃ measured, MeasureTrace sample measured ∧
    trace = .connect (.ok ()) :: .configure config.speedHz (.ok ()) :: measured

theorem SampleTrace.exists_trace :
    ∃ (sample : Sample) (measured : List (Call ε η)),
      SampleTrace sample (.connect (.ok ()) :: .configure config.speedHz (.ok ()) :: measured) := by
  obtain ⟨sample, measured, hmeasured⟩ :
      ∃ (sample : Sample) (trace : List (Call ε η)), MeasureTrace sample trace :=
    MeasureTrace.exists_trace
  exact ⟨sample, measured, measured, hmeasured, rfl⟩

theorem SampleTrace.ending_mem {sample : Sample} {trace : List (Call ε η)}
    (h : SampleTrace sample trace) : ∀ call ∈ trace, call.ending = .ok () := by
  obtain ⟨measured, ⟨started, readings, hstarted, hreadings, rfl⟩, rfl⟩ := h
  obtain ⟨current, voltage, power, reads, more, hreads, hmore, rfl, -⟩ := hreadings
  simp only [List.forall_mem_cons, List.forall_mem_append]
  exact ⟨rfl, rfl, hstarted.ending_mem, hreads.ending_mem, hmore.ending_mem, rfl, by simp⟩

/-- A session that does not come about is released, and the sample breaks off. -/
theorem released_of_opening {made : List (Call ε η)} {error : Error ε} {state : State}
    (h : Opening config.speedHz made (.failed error) state)
    (hclosed : ∀ closed, .disconnect closed ∈ made → closed = .ok ()) :
    state = .uninitialized ∧ ∃ body closing, made = body ++ closing ∧ Released body closing ∧
      BreaksOff (fun trace => ∃ taken, SampleTrace taken trace) body (.failed error) := by
  obtain ⟨taken, measured, hsample⟩ :
      ∃ (taken : Sample) (measured : List (Call ε η)),
        SampleTrace taken (.connect (.ok ()) :: .configure config.speedHz (.ok ()) :: measured) :=
    SampleTrace.exists_trace
  cases h with
  | unconnected fault =>
      refine ⟨rfl, [.connect (.error fault)], [], rfl, .unopened fault, ?_⟩
      exact .single ⟨taken, hsample⟩ rfl nofun
  | rejected fault closed =>
      obtain rfl := hclosed closed (by simp)
      refine ⟨rfl, [.connect (.ok ()), .configure config.speedHz (.error fault)],
        [.disconnect (.ok ())], rfl, .opened (by simp [Call.IsUse]), ?_⟩
      exact ⟨[.connect (.ok ())], _, _, measured, rfl, ⟨taken, hsample⟩, rfl, rfl, nofun⟩

theorem release_history {run : Run (Meter β) ε η α} (h : run.IsHistory meter) :
    (release run).IsHistory meter := by
  obtain ⟨operations, hstate, hjournal⟩ := h
  rcases run with ⟨value | error | cause, state, journal⟩
  · refine ⟨operations ++ [.deinit], ?_, ?_⟩
    · rw [Meter.after_concat, ← hstate]
      rfl
    · rw [Meter.journal_concat, ← hstate, ← hjournal]
      rfl
  · refine ⟨operations ++ [.deinit], ?_, ?_⟩
    · rw [Meter.after_concat, ← hstate]
      rfl
    · rw [Meter.journal_concat, ← hstate, ← hjournal]
      rfl
  · exact ⟨operations, hstate, hjournal⟩

theorem measure_history (meter : Meter β) : (measure meter).IsHistory meter := by
  have hstart : (meter.start .x24 20).IsHistory meter :=
    .perform (.start .x24 20) (fun _ => .nothing) rfl
  apply hstart.andThen
  intro _
  have hamps (last : Meter β) : last.irmsAmps.IsHistory last :=
    .perform .irmsAmps .quantity rfl
  apply (hamps _).andThen
  intro amps
  have hvolts (last : Meter β) : last.vrmsVolts.IsHistory last :=
    .perform .vrmsVolts .quantity rfl
  apply (hvolts _).andThen
  intro volts
  have hwatts (last : Meter β) : last.powerWatts.IsHistory last :=
    .perform .powerWatts .quantity rfl
  exact (hwatts _).map _

theorem sample_history (meter : Meter β) : (sample meter).IsHistory meter := by
  have hinit : meter.init.IsHistory meter := .perform .init (fun _ => .nothing) rfl
  apply hinit.andThen
  intro _
  exact release_history (measure_history _)

section

variable {κ : Type} [NodeHost κ ε]

/-- A node that is given up keeps what the run came to. -/
theorem release_node (run : Run (Meter (NodeBus κ ε)) (NodeFault ε) Empty α) :
    (release run).outcome = run.outcome ∧ (release run).state.state = .uninitialized ∧
      calls (release run).journal = calls run.journal ++ [.disconnect (.ok ())] := by
  rcases run with ⟨value | error | cause, state, journal⟩
  · refine ⟨rfl, rfl, ?_⟩
    simp only [release, Run.map, calls_append, Meter.calls_deinit]
    rfl
  · refine ⟨rfl, rfl, ?_⟩
    simp only [release, calls_append, Meter.calls_deinit]
    rfl
  · exact cause.elim

/-- A node never fails to disconnect. -/
theorem disconnect_of_replays {bus last : NodeBus κ ε} {trace : List (Call (NodeFault ε) Empty)}
    (hreplays : Replays bus trace last) {closed : Except (NodeFault ε) Unit}
    (hmem : .disconnect closed ∈ trace) : closed = .ok () := by
  induction trace generalizing bus with
  | nil => simp at hmem
  | cons call rest ih =>
      obtain ⟨hcall, hrest⟩ := hreplays.uncons
      rcases List.mem_cons.mp hmem with rfl | hmem
      · exact (Call.disconnect.inj hcall).symm
      · exact ih hrest hmem

/-- What a sample comes to, call by call. -/
theorem sample_released {meter : Meter (NodeBus κ ε)} (hconfig : meter.config = config)
    (hidle : meter.isInitialized = false) :
    let run : Run (Meter (NodeBus κ ε)) (NodeFault ε) Empty Sample := sample meter
    run.state.state = .uninitialized ∧
      ∃ body closing, calls run.journal = body ++ closing ∧ Released body closing ∧
        ((∃ taken, run.outcome = .ok taken ∧ SampleTrace taken body) ∨
          BreaksOff (fun trace => ∃ taken, SampleTrace taken trace) body run.outcome.ending) := by
  intro run
  have hspeed : meter.config.speedHz ≠ 0 := by
    rw [hconfig]
    decide
  obtain ⟨hopening, hkeeps, hreplays⟩ := Meter.init_opening hspeed hidle
  rw [hconfig] at hopening hkeeps
  have hrun : run = meter.init.andThen fun _ meter => release (measure meter) := rfl
  cases houtcome : meter.init.outcome with
  | halted cause => exact cause.elim
  | failed error =>
      rw [houtcome] at hopening
      obtain ⟨hstate, hreleased⟩ := released_of_opening hopening fun closed =>
        disconnect_of_replays hreplays
      have hne : meter.init.outcome.ending ≠ .ok () := by simp [houtcome, Outcome.ending]
      obtain ⟨hending, hlast, hjournal⟩ :=
        Run.andThen_of_not_ok hne fun _ meter => release (measure meter)
      rw [hrun, hending, hlast, hjournal, houtcome]
      refine ⟨hstate, ?_⟩
      obtain ⟨body, closing, hmade, hends, hbroken⟩ := hreleased
      exact ⟨body, closing, hmade, hends, .inr hbroken⟩
  | ok value =>
      rw [houtcome] at hopening
      obtain ⟨hmade, hstate⟩ := hopening.of_ok
      have hsession : meter.init.state.isInitialized = true :=
        Meter.isInitialized_eq_true_iff.mpr (by simp [hstate])
      have hworks := measure_works hsession (by rw [hkeeps]; rfl)
      obtain ⟨hended, hlast, hcalls⟩ :=
        Run.andThen_of_ok houtcome fun _ meter => release (measure meter)
      obtain ⟨hkept, hclosed, hclosing⟩ := release_node (measure meter.init.state)
      rw [hrun, hended, hlast, hcalls, hmade, hkept, hclosing]
      refine ⟨hclosed, .connect (.ok ()) :: .configure config.speedHz (.ok ()) ::
        calls (measure meter.init.state).journal, [.disconnect (.ok ())], rfl, ?_, ?_⟩
      · apply Released.opened
        rw [List.forall_mem_cons]
        exact ⟨trivial, fun call hcall => (hworks.exchanges call hcall).isUse⟩
      · rcases hworks.follows with ⟨taken, hok, hfull⟩ | hbroken
        · exact .inl ⟨taken, hok, _, hfull, rfl⟩
        · right
          apply hbroken.append [.connect (.ok ()), .configure config.speedHz (.ok ())]
          rintro trace ⟨taken, hfull⟩
          exact ⟨taken, trace, hfull, rfl⟩

end

end Sampler

/-- Something that is done through an open handle. -/
def NodeEvent.IsUse : NodeEvent ε → Prop
  | configured .. | exchanged .. | wrote .. => True
  | opened .. | dropped => False

/-- The ways in which work on a node ends: it was not opened, or its handle is
dropped after everything else. -/
def DropsHandle (path : String) (events : List (NodeEvent ε)) : Prop :=
  (∃ fault, events = [.opened path (.error fault)]) ∨
    ∃ uses, events = .opened path (.ok ()) :: (uses ++ [.dropped]) ∧ ∀ event ∈ uses, event.IsUse

section

variable {path : String}

theorem Call.IsUse.nodeEvents {call : Call ε Empty} (h : call.IsUse) (isOpen : Bool) :
    (∀ event ∈ call.nodeEvents path isOpen, event.IsUse) ∧ call.leavesOpen isOpen = isOpen := by
  cases call with
  | connect result => exact h.elim
  | disconnect result => exact h.elim
  | _ => exact ⟨by simp [Call.nodeEvents, NodeEvent.IsUse], rfl⟩

theorem nodeHistory_uses {uses : List (Call ε Empty)} (h : ∀ call ∈ uses, call.IsUse)
    (closed : Except ε Unit) :
    ∃ events, nodeHistory path true (uses ++ [.disconnect closed]) = events ++ [.dropped] ∧
      ∀ event ∈ events, event.IsUse := by
  induction uses with
  | nil => exact ⟨[], rfl, by simp⟩
  | cons call rest ih =>
      obtain ⟨hcall, hrest⟩ := List.forall_mem_cons.mp h
      obtain ⟨hevents, hopen⟩ := hcall.nodeEvents true
      obtain ⟨events, hlater, huses⟩ := ih hrest
      refine ⟨call.nodeEvents path true ++ events, ?_, ?_⟩
      · rw [List.cons_append, nodeHistory, hopen, hlater, List.append_assoc]
      · exact List.forall_mem_append.mpr ⟨hevents, huses⟩

theorem Call.eq_connect_of_mapFault {call : Call ε Empty} {result : Except (NodeFault ε) Unit}
    (h : call.mapFault .host = .connect result) :
    ∃ answered, call = .connect answered ∧ answered.mapError .host = result := by
  cases call with
  | connect answered => exact ⟨answered, rfl, Call.connect.inj h⟩
  | _ => nomatch h

theorem Call.eq_disconnect_of_mapFault {call : Call ε Empty}
    {result : Except (NodeFault ε) Unit} (h : call.mapFault .host = .disconnect result) :
    ∃ closed, call = .disconnect closed := by
  cases call with
  | disconnect closed => exact ⟨closed, rfl⟩
  | _ => nomatch h

theorem Call.isUse_mapFault (call : Call ε Empty) :
    (call.mapFault NodeFault.host).IsUse ↔ call.IsUse := by
  cases call <;> rfl

theorem dropsHandle_of_released {body closing : List (Call (NodeFault ε) Empty)}
    (h : Released body closing) {trace : List (Call ε Empty)}
    (htrace : trace.map (.mapFault .host) = body ++ closing) :
    DropsHandle path (nodeHistory path false trace) := by
  cases h with
  | unopened fault =>
      obtain ⟨call, rest, rfl, hcall, hrest⟩ := List.map_eq_cons_iff.mp htrace
      obtain rfl := List.map_eq_nil_iff.mp hrest
      obtain ⟨answered, rfl, hanswered⟩ := Call.eq_connect_of_mapFault hcall
      cases answered with
      | ok value => nomatch hanswered
      | error fault => exact .inl ⟨fault, rfl⟩
  | opened huses =>
      obtain ⟨call, rest, rfl, hcall, hrest⟩ := List.map_eq_cons_iff.mp htrace
      obtain ⟨uses, closing, rfl, hmap, hclosing⟩ := List.map_eq_append_iff.mp hrest
      obtain ⟨last, after, rfl, hlast, hafter⟩ := List.map_eq_cons_iff.mp hclosing
      obtain rfl := List.map_eq_nil_iff.mp hafter
      obtain ⟨answered, rfl, hanswered⟩ := Call.eq_connect_of_mapFault hcall
      cases answered with
      | error fault => nomatch hanswered
      | ok value =>
          right
          have huses' : ∀ call ∈ uses, call.IsUse := by
            intro call hmem
            rw [← Call.isUse_mapFault]
            exact huses _ (hmap ▸ List.mem_map_of_mem hmem)
          obtain ⟨closed, rfl⟩ := Call.eq_disconnect_of_mapFault hlast
          obtain ⟨events, hlater, hall⟩ := nodeHistory_uses huses' closed
          refine ⟨events, ?_, hall⟩
          rw [nodeHistory]
          exact congrArg (_ :: ·) hlater

end

namespace Sampler

variable {κ : Type} [NodeHost κ ε]

/-- A sample begins as opening its node does. -/
theorem sample_meterAt (path : String) (host : κ) :
    (sample (meterAt path host) : Run (Meter (NodeBus κ ε)) (NodeFault ε) Empty Sample) =
      (Meter.openNode path config host).andThen fun _ meter => release (measure meter) := by
  rw [Meter.openNode_eq]
  rfl

/-- Whatever the host answers, a node that was opened for a sample is dropped once,
as the last thing that happens to it, and one that could not be opened is left
alone.  The sample is taken exactly if every call for it is fine, and it holds the
quantities of the words that were read.  Otherwise the first call that is not fine
ends the work, and its error is the one that is reported. -/
theorem sample_drops_handle (path : String) (host : κ) :
    let run : Run (Meter (NodeBus κ ε)) (NodeFault ε) Empty Sample := sample (meterAt path host)
    let made := calls run.journal
    let events := run.state.bus.history
    DropsHandle path events ∧ run.state.bus.isOpen = false ∧
      (∃ trace, made = trace.map (.mapFault .host) ∧ events = nodeHistory path false trace) ∧
      ((∃ taken, run.outcome = .ok taken) ↔
        ∃ taken body, SampleTrace taken body ∧ made = body ++ [.disconnect (.ok ())]) ∧
      (∀ taken, run.outcome = .ok taken →
        ∃ body, SampleTrace taken body ∧ made = body ++ [.disconnect (.ok ())]) ∧
      ∀ error, run.outcome = .failed error →
        ∃ body closing, made = body ++ closing ∧ Released body closing ∧
          BreaksOff (fun trace => ∃ taken, SampleTrace taken trace) body (.failed error) := by
  intro run made events
  obtain ⟨hended, body, closing, hmade, hreleased, hcomes⟩ :=
    @sample_released _ _ _ (Meter.fresh ({ path, host } : NodeBus κ ε) config) rfl rfl
  obtain ⟨operations, hstate, hjournal⟩ :=
    sample_history (Meter.fresh ({ path, host } : NodeBus κ ε) config)
  obtain ⟨trace, hcalls, hevents⟩ := Meter.nodeHistory_after path host config operations
  have hopen := (Meter.handle_after path host config operations).1
  rw [← hjournal] at hcalls
  rw [← hstate] at hevents hopen
  replace hmade : made = body ++ closing := hmade
  replace hevents : events = nodeHistory path false trace := hevents
  have htaken : ∀ taken, run.outcome = .ok taken →
      ∃ body, SampleTrace taken body ∧ made = body ++ [.disconnect (.ok ())] := by
    intro taken hok
    rcases hcomes with ⟨other, hother, hsample⟩ | hbroken
    · obtain rfl := Outcome.ok.inj (hok.symm.trans hother)
      refine ⟨body, hsample, ?_⟩
      obtain ⟨measured, -, rfl⟩ := hsample
      cases hreleased
      exact hmade
    · exact absurd (congrArg Outcome.ending hok) hbroken.ending_ne
  refine ⟨?_, ?_, ⟨trace, hcalls, hevents⟩, ⟨?_, ?_⟩, htaken, ?_⟩
  · rw [hevents]
    exact dropsHandle_of_released hreleased (hcalls.symm.trans hmade)
  · exact hopen.trans (Meter.isInitialized_eq_false_iff.mpr hended)
  · rintro ⟨taken, hok⟩
    exact ⟨taken, htaken taken hok⟩
  · rintro ⟨taken, full, hsample, hfull⟩
    rcases hcomes with ⟨other, hother, -⟩ | hbroken
    · exact ⟨other, hother⟩
    · -- No call of a whole sample fails, and one of the broken one does.
      obtain ⟨call, hcall, hne⟩ := hbroken.exists_mem
      have hmem : call ∈ made := by
        rw [hmade]
        exact List.mem_append_left _ hcall
      rw [hfull, List.mem_append, List.mem_singleton] at hmem
      rcases hmem with hmem | rfl
      · exact absurd (hsample.ending_mem call hmem) hne
      · exact absurd rfl hne
  · intro error hfailed
    rcases hcomes with ⟨other, hother, -⟩ | hbroken
    · exact nomatch hfailed.symm.trans hother
    · have hending : run.outcome.ending = .failed error := congrArg Outcome.ending hfailed
      exact ⟨body, closing, hmade, hreleased, hending ▸ hbroken⟩

end Sampler

end EnergyMeter

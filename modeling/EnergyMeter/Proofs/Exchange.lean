import EnergyMeter.Dump
import EnergyMeter.Startup

/-!
Register work as a sequence of single exchanges.  A program, a start-up
sequence and a dump may differ in what they do after a failure, but each of
them only reads and writes registers one after the other.  Facts about single
exchanges carry over to all of them by induction on the sequence.
-/

namespace EnergyMeter

variable {β ε η α γ : Type}

/-- A call that moves bytes. -/
def Call.IsExchange : Call ε η → Prop
  | .transfer .. | .write .. => True
  | .connect _ | .configure .. | .disconnect _ => False

/-- A program that writes to some registers only, whatever it reads. -/
def Program.WritesOnly (writes : Address → Prop) : Program α → Prop
  | .done _ => True
  | .read _ next => ∀ word, (next word).WritesOnly writes
  | .write address _ next => writes address ∧ next.WritesOnly writes
  | .note _ next => next.WritesOnly writes

namespace Program

variable {writes : Address → Prop}

theorem writesOnly_bind {program : Program α} {next : α → Program γ}
    (hprogram : program.WritesOnly writes) (hnext : ∀ value, (next value).WritesOnly writes) :
    (program.bind next).WritesOnly writes := by
  induction program with
  | done value => exact hnext value
  | read address rest ih => exact fun word => ih word (hprogram word)
  | write address word rest ih => exact ⟨hprogram.1, ih hprogram.2⟩
  | note record rest ih => exact ih hprogram

theorem writesOnly_fetch (address : Address) : (fetch address).WritesOnly writes :=
  fun _ => trivial

theorem writesOnly_store {address : Address} (haddress : writes address) (word : Word) :
    (store address word).WritesOnly writes :=
  ⟨haddress, trivial⟩

theorem writesOnly_verifiedRead (address : Address) :
    (verifiedRead address).WritesOnly writes := by
  rw [verifiedRead_eq]
  intro target shadow
  by_cases hagree : target = shadow
  · simp only [hagree, if_true, WritesOnly]
  · simp only [hagree, if_false, WritesOnly]
    exact writesOnly_fetch Register.lastData

theorem writesOnly_modify {address : Address} (haddress : writes address) (change : Word → Word) :
    (modify address change).WritesOnly writes := by
  rw [modify_eq]
  exact writesOnly_bind (writesOnly_verifiedRead address) fun word =>
    writesOnly_store haddress (change word)

end Program

variable [Bus β ε η]

/-- What every command keeps, any commands keep. -/
theorem Bus.performAll_keeps (holds : β → Prop)
    (hstep : ∀ bus command, holds bus → holds (Bus.perform bus command).bus)
    (commands : List Command) {bus : β} (h : holds bus) :
    holds (Bus.performAll bus commands).2 := by
  induction commands generalizing bus with
  | nil => exact h
  | cons command rest ih => exact ih (hstep bus command h)

/-- The calls are what a bus makes of their commands, and it ends in the last
state. -/
def Replays (bus : β) (trace : List (Call ε η)) (last : β) : Prop :=
  Bus.performAll bus (trace.map Call.command) = (trace, last)

theorem Replays.nil (bus : β) : Replays bus [] bus := rfl

theorem Replays.eq_of_nil {bus last : β} (h : Replays bus ([] : List (Call ε η)) last) :
    bus = last :=
  congrArg Prod.snd h

theorem Replays.uncons {bus last : β} {call : Call ε η} {rest : List (Call ε η)}
    (h : Replays bus (call :: rest) last) :
    (Bus.perform bus call.command).call = call ∧
      Replays (Bus.perform bus call.command).bus rest last := by
  simp only [Replays, List.map_cons, Bus.performAll, Prod.mk.injEq, List.cons.injEq] at h
  obtain ⟨⟨hcall, hrest⟩, hlast⟩ := h
  exact ⟨hcall, Prod.ext hrest hlast⟩

theorem Replays.append {bus middle last : β} {first second : List (Call ε η)}
    (hfirst : Replays bus first middle) (hsecond : Replays middle second last) :
    Replays bus (first ++ second) last := by
  induction first generalizing bus with
  | nil =>
      obtain rfl := hfirst.eq_of_nil
      exact hsecond
  | cons call rest ih =>
      obtain ⟨hcall, hrest⟩ := hfirst.uncons
      have htail := ih hrest
      simp only [Replays] at htail
      rw [Replays, List.cons_append, List.map_cons, Bus.performAll, htail, hcall]

/-- Calls that were made one after the other can be cut anywhere. -/
theorem Replays.split {bus last : β} {first second : List (Call ε η)}
    (h : Replays bus (first ++ second) last) :
    let middle := (Bus.performAll bus (first.map Call.command)).2
    Replays bus first middle ∧ Replays middle second last := by
  induction first generalizing bus with
  | nil => exact ⟨.nil bus, h⟩
  | cons call rest ih =>
      obtain ⟨hcall, hrest⟩ := h.uncons
      obtain ⟨hdone, htail⟩ := ih hrest
      refine ⟨?_, htail⟩
      simp only [Replays] at hdone
      rw [Replays, List.map_cons, Bus.performAll, hdone, hcall]

theorem Replays.perform (bus : β) (command : Command) :
    Replays bus [(Bus.perform bus command).call] (Bus.perform bus command).bus := by
  simp [Replays, Bus.performAll, Bus.command_perform]

/-- Single register exchanges in sequence, with the journal they leave.  Only
the given registers are written. -/
inductive Exchanges (writes : Address → Prop) : β → List (Entry ε η) → β → Prop where
  | done (bus : β) : Exchanges writes bus [] bus
  | read {bus last : β} {journal : List (Entry ε η)} (address : Address)
      (rest : Exchanges writes (readRegister address bus).state journal last) :
      Exchanges writes bus ((readRegister address bus).journal ++ journal) last
  | write {bus last : β} {journal : List (Entry ε η)} {address : Address}
      (allowed : writes address) (word : Word)
      (rest : Exchanges writes (writeRegister address word bus).state journal last) :
      Exchanges writes bus ((writeRegister address word bus).journal ++ journal) last
  | note {bus last : β} {journal : List (Entry ε η)} (record : Record)
      (rest : Exchanges writes bus journal last) :
      Exchanges writes bus (.record record :: journal) last

@[simp]
theorem readRegister_state (address : Address) (bus : β) :
    (readRegister address bus : Run β ε η Word).state =
      (Bus.transfer bus (Frame.readHeader address) 2).2 := rfl

@[simp]
theorem calls_readRegister (address : Address) (bus : β) :
    calls (readRegister address bus : Run β ε η Word).journal =
      [.transfer (Frame.readHeader address) 2
        (Bus.transfer bus (Frame.readHeader address) 2).1] := rfl

@[simp]
theorem writeRegister_state (address : Address) (word : Word) (bus : β) :
    (writeRegister address word bus : Run β ε η Unit).state =
      (Bus.write bus (Frame.write address word)).2 := by
  rcases hwrite : Bus.write bus (Frame.write address word) with ⟨count | fault | cause, after⟩
  · by_cases hcount : count = 3 <;> simp [writeRegister, hwrite, hcount]
  · simp [writeRegister, hwrite]
  · simp [writeRegister, hwrite]

@[simp]
theorem calls_writeRegister (address : Address) (word : Word) (bus : β) :
    calls (writeRegister address word bus : Run β ε η Unit).journal =
      [.write (Frame.write address word) (Bus.write bus (Frame.write address word)).1] := by
  rcases hwrite : Bus.write bus (Frame.write address word) with ⟨count | fault | cause, after⟩
  · by_cases hcount : count = 3 <;> simp [writeRegister, hwrite, hcount]
  · simp [writeRegister, hwrite]
  · simp [writeRegister, hwrite]

theorem Program.run_fetch (address : Address) (bus : β) :
    (fetch address).run bus = readRegister address bus :=
  Run.andThen_pure (readRegister address bus)

theorem Program.run_store (address : Address) (word : Word) (bus : β) :
    (store address word).run bus = writeRegister address word bus :=
  Run.andThen_pure (writeRegister address word bus)

namespace Exchanges

variable {writes more : Address → Prop} {bus middle last : β} {first second : List (Entry ε η)}

theorem trans (hfirst : Exchanges writes bus first middle)
    (hsecond : Exchanges writes middle second last) :
    Exchanges writes bus (first ++ second) last := by
  induction hfirst with
  | done bus => exact hsecond
  | read address rest ih =>
      rw [List.append_assoc]
      exact .read address (ih hsecond)
  | write allowed word rest ih =>
      rw [List.append_assoc]
      exact .write allowed word (ih hsecond)
  | note record rest ih => exact .note record (ih hsecond)

theorem mono (hmore : ∀ address, writes address → more address)
    (h : Exchanges writes bus first last) : Exchanges more bus first last := by
  induction h with
  | done bus => exact .done bus
  | read address rest ih => exact .read address ih
  | write allowed word rest ih => exact .write (hmore _ allowed) word ih
  | note record rest ih => exact .note record ih

theorem single_read (address : Address) (bus : β) :
    Exchanges writes bus (readRegister address bus).journal (readRegister address bus).state := by
  have h : Exchanges writes bus ((readRegister address bus).journal ++ [])
      (readRegister address bus).state :=
    read address (done _)
  rwa [List.append_nil] at h

theorem single_write {address : Address} (allowed : writes address) (word : Word) (bus : β) :
    Exchanges writes bus (writeRegister address word bus).journal
      (writeRegister address word bus).state := by
  have h : Exchanges writes bus ((writeRegister address word bus).journal ++ [])
      (writeRegister address word bus).state :=
    write allowed word (done _)
  rwa [List.append_nil] at h

theorem andThen {run : Run β ε η α} {next : α → β → Run β ε η γ}
    (hrun : Exchanges writes bus run.journal run.state)
    (hnext : ∀ value state,
      Exchanges writes state (next value state).journal (next value state).state) :
    Exchanges writes bus (run.andThen next).journal (run.andThen next).state := by
  rcases run with ⟨value | error | cause, state, journal⟩
  · exact hrun.trans (hnext value state)
  · exact hrun
  · exact hrun

/-- Every call of the journal moves bytes. -/
theorem isExchange (h : Exchanges writes bus first last) :
    ∀ call ∈ calls first, call.IsExchange := by
  induction h with
  | done bus => simp
  | read address rest ih => simpa [Call.IsExchange] using ih
  | write allowed word rest ih => simpa [Call.IsExchange] using ih
  | note record rest ih => simpa using ih

/-- The journal tells what the bus did. -/
theorem replays (h : Exchanges writes bus first last) : Replays bus (calls first) last := by
  induction h with
  | done bus => exact .nil bus
  | @read bus last journal address rest ih =>
      rw [calls_append, calls_readRegister]
      exact (Replays.perform bus (.transfer (Frame.readHeader address) 2)).append ih
  | @write bus last journal address allowed word rest ih =>
      rw [calls_append, calls_writeRegister]
      rw [writeRegister_state] at ih
      exact (Replays.perform bus (.write (Frame.write address word))).append ih
  | note record rest ih => simpa using ih

end Exchanges

variable {writes : Address → Prop}

theorem Program.exchanges_run {program : Program α} (hprogram : program.WritesOnly writes)
    (bus : β) : Exchanges writes bus (program.run bus).journal (program.run bus).state := by
  induction program generalizing bus with
  | done value => exact .done bus
  | read address next ih =>
      exact (Exchanges.single_read address bus).andThen fun word state =>
        ih word (hprogram word) state
  | write address word next ih =>
      exact (Exchanges.single_write hprogram.1 word bus).andThen fun _ state =>
        ih hprogram.2 state
  | note record next ih => exact .note record (ih hprogram bus)

theorem runSteps_exchanges {steps : List (StartupStep × Program Unit)}
    (hsteps : ∀ step ∈ steps, step.2.WritesOnly writes) (bus : β) :
    Exchanges writes bus (runSteps steps bus).journal (runSteps steps bus).state := by
  induction steps generalizing bus with
  | nil => exact .done bus
  | cons step rest ih =>
      obtain ⟨name, program⟩ := step
      have hfirst := Program.exchanges_run (hsteps _ List.mem_cons_self) bus
      have hrest := ih fun step hstep => hsteps step (List.mem_cons_of_mem _ hstep)
      rcases hrun : program.run bus with ⟨value | error | cause, state, journal⟩
      · simp only [hrun] at hfirst
        simpa [runSteps, hrun] using Exchanges.note _ (hfirst.trans (hrest state))
      · simp only [hrun] at hfirst
        simpa [runSteps, hrun] using
          Exchanges.note _ (hfirst.trans (.note (.stepAborted name) (.done state)))
      · simp only [hrun] at hfirst
        simpa [runSteps, hrun] using Exchanges.note (.stepStarted name) hfirst

end EnergyMeter

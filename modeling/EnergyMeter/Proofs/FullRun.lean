import EnergyMeter.Proofs.Exchange
import EnergyMeter.Sim.Reply

/-!
Full runs of a register program.  A full run follows one branch of the program
to its end, and every exchange on the way moves its whole frame.  Any other run
follows a full run up to its first exchange that does not, and ends as that
exchange did.
-/

namespace EnergyMeter

variable {β φ ε η α γ : Type}

/-- An outcome without its value. -/
def Outcome.ending : Outcome φ η α → Outcome φ η Unit
  | .ok _ => .ok ()
  | .failed failure => .failed failure
  | .halted cause => .halted cause

theorem Outcome.ending_unit (outcome : Outcome φ η Unit) : outcome.ending = outcome := by
  cases outcome <;> rfl

/-- What a call comes to.  An exchange is fine only if every byte was moved. -/
def Call.ending : Call ε η → Outcome (Error ε) η Unit
  | .connect (.ok ()) | .configure _ (.ok ()) | .disconnect (.ok ()) => .ok ()
  | .connect (.error fault) => .failed (.connectFailed fault)
  | .configure _ (.error fault) => .failed (.configRejected fault)
  | .disconnect (.error fault) => .failed (.interface fault)
  | .transfer _ size (.ok received) =>
      if received.count = size then .ok () else .failed (.shortTransfer size received.count)
  | .write sent (.ok count) =>
      if count = sent.length then .ok () else .failed (.shortTransfer sent.length count)
  | .transfer _ _ (.failed fault) | .write _ (.failed fault) => .failed (.interface fault)
  | .transfer _ _ (.halted cause) | .write _ (.halted cause) => .halted cause

/-- The exchange that reads a word. -/
def Call.fetched (address : Address) (word : Word) : Call ε η :=
  .transfer (Frame.readHeader address) 2 (.ok (.ofWord 2 word))

/-- The exchange that writes a word. -/
def Call.stored (address : Address) (word : Word) : Call ε η :=
  .write (Frame.write address word) (.ok 3)

/-- The calls of a full run and the value it ends with. -/
inductive Program.FullRun : Program α → List (Call ε η) → α → Prop where
  | done (value : α) : FullRun (.done value) [] value
  | read {address : Address} {next : Word → Program α} {trace : List (Call ε η)} {value : α}
      (word : Word) (rest : FullRun (next word) trace value) :
      FullRun (.read address next) (.fetched address word :: trace) value
  | write {address : Address} {word : Word} {next : Program α} {trace : List (Call ε η)} {value : α}
      (rest : FullRun next trace value) :
      FullRun (.write address word next) (.stored address word :: trace) value
  | note {record : Record} {next : Program α} {trace : List (Call ε η)} {value : α}
      (rest : FullRun next trace value) : FullRun (.note record next) trace value

/-- A trace that follows a full one until a call that is not fine, and ends with
that call. -/
def BreaksOff (full : List (Call ε η) → Prop) (trace : List (Call ε η))
    (ending : Outcome (Error ε) η Unit) : Prop :=
  ∃ done good last rest, trace = done ++ [last] ∧ full (done ++ good :: rest) ∧
    last.command = good.command ∧ last.ending = ending ∧ ending ≠ .ok ()

@[simp]
theorem Call.ending_fetched (address : Address) (word : Word) :
    (fetched address word : Call ε η).ending = .ok () := rfl

@[simp]
theorem Call.ending_stored (address : Address) (word : Word) :
    (stored address word : Call ε η).ending = .ok () := rfl

namespace BreaksOff

variable {full more : List (Call ε η) → Prop} {trace : List (Call ε η)}
  {ending : Outcome (Error ε) η Unit}

theorem mono (hmore : ∀ trace, full trace → more trace) (h : BreaksOff full trace ending) :
    BreaksOff more trace ending := by
  obtain ⟨done, good, last, rest, htrace, hfull, hlast⟩ := h
  exact ⟨done, good, last, rest, htrace, hmore _ hfull, hlast⟩

theorem append (first : List (Call ε η)) (hmore : ∀ trace, full trace → more (first ++ trace))
    (h : BreaksOff full trace ending) : BreaksOff more (first ++ trace) ending := by
  obtain ⟨done, good, last, rest, rfl, hfull, hlast⟩ := h
  refine ⟨first ++ done, good, last, rest, (List.append_assoc ..).symm, ?_, hlast⟩
  rw [List.append_assoc]
  exact hmore _ hfull

theorem cons {call : Call ε η} (hmore : ∀ trace, full trace → more (call :: trace))
    (h : BreaksOff full trace ending) : BreaksOff more (call :: trace) ending :=
  h.append [call] hmore

/-- A trace that breaks off never gets to what a full one goes on with. -/
theorem extend (hmore : ∀ trace, full trace → ∃ second, more (trace ++ second))
    (h : BreaksOff full trace ending) : BreaksOff more trace ending := by
  obtain ⟨done, good, last, rest, rfl, hfull, hlast⟩ := h
  obtain ⟨second, hlonger⟩ := hmore _ hfull
  rw [List.append_assoc] at hlonger
  exact ⟨done, good, last, rest ++ second, rfl, hlonger, hlast⟩

theorem single {call good : Call ε η} {rest : List (Call ε η)} (hfull : full (good :: rest))
    (hcommand : call.command = good.command) (hne : call.ending ≠ .ok ()) :
    BreaksOff full [call] call.ending :=
  ⟨[], good, call, rest, rfl, hfull, hcommand, rfl, hne⟩

theorem ending_ne (h : BreaksOff full trace ending) : ending ≠ .ok () := by
  obtain ⟨done, good, last, rest, -, -, -, -, hne⟩ := h
  exact hne

/-- Some call of the trace is not fine. -/
theorem exists_mem (h : BreaksOff full trace ending) : ∃ call ∈ trace, call.ending ≠ .ok () := by
  obtain ⟨done, good, last, rest, rfl, -, -, hending, hne⟩ := h
  exact ⟨last, List.mem_append_right _ List.mem_cons_self, hending ▸ hne⟩

end BreaksOff

namespace Program.FullRun

variable {trace : List (Call ε η)} {value : α}

theorem exists_trace (program : Program α) :
    ∃ (trace : List (Call ε η)) (value : α), program.FullRun trace value := by
  induction program with
  | done value => exact ⟨[], value, .done value⟩
  | read address next ih =>
      obtain ⟨trace, value, hrest⟩ := ih 0
      exact ⟨_, value, .read 0 hrest⟩
  | write address word next ih =>
      obtain ⟨trace, value, hrest⟩ := ih
      exact ⟨_, value, .write hrest⟩
  | note record next ih =>
      obtain ⟨trace, value, hrest⟩ := ih
      exact ⟨trace, value, .note hrest⟩

theorem bind_inv {program : Program α} {next : α → Program γ} {value : γ}
    (h : (program.bind next).FullRun trace value) :
    ∃ first middle second, trace = first ++ second ∧ program.FullRun first middle ∧
      (next middle).FullRun second value := by
  induction program generalizing trace with
  | done middle => exact ⟨[], middle, trace, rfl, .done middle, h⟩
  | read address rest ih =>
      cases h with
      | read word htail =>
          obtain ⟨first, middle, second, rfl, hfirst, hsecond⟩ := ih word htail
          exact ⟨_ :: first, middle, second, rfl, .read word hfirst, hsecond⟩
  | write address word rest ih =>
      cases h with
      | write htail =>
          obtain ⟨first, middle, second, rfl, hfirst, hsecond⟩ := ih htail
          exact ⟨_ :: first, middle, second, rfl, .write hfirst, hsecond⟩
  | note record rest ih =>
      cases h with
      | note htail =>
          obtain ⟨first, middle, second, rfl, hfirst, hsecond⟩ := ih htail
          exact ⟨first, middle, second, rfl, .note hfirst, hsecond⟩

theorem store_inv {address : Address} {word : Word}
    (h : (store address word).FullRun trace ()) : trace = [.stored address word] := by
  cases h with
  | write rest =>
      cases rest
      rfl

theorem fetch_inv {address : Address} {word : Word} (h : (fetch address).FullRun trace word) :
    trace = [.fetched address word] := by
  cases h with
  | read word rest =>
      cases rest
      rfl

end Program.FullRun

namespace Run

variable {σ : Type}

theorem andThen_of_ok {run : Run σ ε η α} {value : α} (h : run.outcome = .ok value)
    (next : α → σ → Run σ ε η γ) :
    (run.andThen next).outcome = (next value run.state).outcome ∧
      (run.andThen next).state = (next value run.state).state ∧
      calls (run.andThen next).journal =
        calls run.journal ++ calls (next value run.state).journal := by
  simp [andThen, h]

theorem andThen_of_not_ok {run : Run σ ε η α} (h : run.outcome.ending ≠ .ok ())
    (next : α → σ → Run σ ε η γ) :
    (run.andThen next).outcome.ending = run.outcome.ending ∧
      (run.andThen next).state = run.state ∧ (run.andThen next).journal = run.journal := by
  rcases run with ⟨value | error | cause, state, journal⟩
  · exact absurd rfl h
  · exact ⟨rfl, rfl, rfl⟩
  · exact ⟨rfl, rfl, rfl⟩

@[simp]
theorem ending_map (run : Run σ ε η α) (f : α → γ) :
    (run.map f).outcome.ending = run.outcome.ending := by
  rcases run with ⟨value | error | cause, state, journal⟩ <;> rfl

/-- A run that ends well after the calls of a full one, or breaks off. -/
def Follows (full : α → List (Call ε η) → Prop) (run : Run σ ε η α) : Prop :=
  (∃ value, run.outcome = .ok value ∧ full value (calls run.journal)) ∨
    BreaksOff (fun trace => ∃ value, full value trace) (calls run.journal) run.outcome.ending

namespace Follows

variable {full other : α → List (Call ε η) → Prop} {run : Run σ ε η α}

theorem mono (hmore : ∀ value trace, full value trace → other value trace)
    (h : run.Follows full) : run.Follows other := by
  rcases h with ⟨value, hok, hfull⟩ | hbroken
  · exact .inl ⟨value, hok, hmore _ _ hfull⟩
  · right
    apply hbroken.mono
    rintro trace ⟨value, hfull⟩
    exact ⟨value, hmore _ _ hfull⟩

theorem map {full : γ → List (Call ε η) → Prop} (f : α → γ)
    (h : run.Follows fun value => full (f value)) : (run.map f).Follows full := by
  rw [Follows, ending_map]
  rcases h with ⟨value, hok, hfull⟩ | hbroken
  · left
    exact ⟨f value, by simp [Run.map, hok], hfull⟩
  · right
    apply hbroken.mono
    rintro trace ⟨value, hfull⟩
    exact ⟨f value, hfull⟩

theorem andThen {more : α → γ → List (Call ε η) → Prop} {next : α → σ → Run σ ε η γ}
    (h : run.Follows full) (hnext : ∀ value, (next value run.state).Follows (more value))
    (hmore : ∀ value, ∃ trace last, more value last trace) :
    (run.andThen next).Follows fun last trace =>
      ∃ value first second, full value first ∧ more value last second ∧
        trace = first ++ second := by
  rcases h with ⟨value, hok, hfull⟩ | hbroken
  · obtain ⟨houtcome, -, hcalls⟩ := andThen_of_ok hok next
    rw [Follows, houtcome, hcalls]
    rcases hnext value with ⟨last, hlast, hrest⟩ | hrest
    · exact .inl ⟨last, hlast, value, _, _, hfull, hrest, rfl⟩
    · right
      apply hrest.append
      rintro trace ⟨last, htrace⟩
      exact ⟨last, value, _, trace, hfull, htrace, rfl⟩
  · obtain ⟨hending, -, hjournal⟩ := andThen_of_not_ok hbroken.ending_ne next
    rw [Follows, hending, hjournal]
    right
    apply hbroken.extend
    rintro trace ⟨value, hfull⟩
    obtain ⟨second, last, hsecond⟩ := hmore value
    exact ⟨second, last, value, trace, second, hfull, hsecond, rfl⟩

end Follows

end Run

variable [Bus β ε η]

/-- A read brings a word, or its only call is not fine. -/
theorem readRegister_cases (address : Address) (bus : β) :
    (∃ word, (readRegister address bus).outcome = .ok word ∧
        calls (readRegister address bus).journal = [.fetched address word]) ∨
      ∃ call, calls (readRegister address bus).journal = [call] ∧
        call.command = .transfer (Frame.readHeader address) 2 ∧
        call.ending = (readRegister address bus).outcome.ending ∧ call.ending ≠ .ok () := by
  rcases htransfer : Bus.transfer bus (Frame.readHeader address) 2 with
    ⟨received | fault | cause, after⟩
  · by_cases hcount : received.count = 2
    · refine .inl ⟨received.word, ?_, ?_⟩
      · simp [readRegister, htransfer, hcount]
      · rw [calls_readRegister, htransfer, Call.fetched, ← Received.eq_ofWord hcount]
    · refine .inr ⟨.transfer (Frame.readHeader address) 2 (.ok received), ?_⟩
      simp [readRegister, htransfer, hcount, Call.command, Call.ending, Outcome.ending]
  · refine .inr ⟨.transfer (Frame.readHeader address) 2 (.failed fault), ?_⟩
    simp [readRegister, htransfer, Call.command, Call.ending, Outcome.ending]
  · refine .inr ⟨.transfer (Frame.readHeader address) 2 (.halted cause), ?_⟩
    simp [readRegister, htransfer, Call.command, Call.ending, Outcome.ending]

/-- A write is acknowledged, or its only call is not fine. -/
theorem writeRegister_cases (address : Address) (word : Word) (bus : β) :
    ((writeRegister address word bus).outcome = .ok () ∧
        calls (writeRegister address word bus).journal = [.stored address word]) ∨
      ∃ call, calls (writeRegister address word bus).journal = [call] ∧
        call.command = .write (Frame.write address word) ∧
        call.ending = (writeRegister address word bus).outcome.ending ∧ call.ending ≠ .ok () := by
  rcases hwrite : Bus.write bus (Frame.write address word) with ⟨count | fault | cause, after⟩
  · by_cases hcount : count = 3
    · simp [writeRegister, hwrite, hcount, Call.stored]
    · refine .inr ⟨.write (Frame.write address word) (.ok count), ?_⟩
      simp [writeRegister, hwrite, hcount, Call.command, Call.ending, Outcome.ending]
  · refine .inr ⟨.write (Frame.write address word) (.failed fault), ?_⟩
    simp [writeRegister, hwrite, Call.command, Call.ending, Outcome.ending]
  · refine .inr ⟨.write (Frame.write address word) (.halted cause), ?_⟩
    simp [writeRegister, hwrite, Call.command, Call.ending, Outcome.ending]

theorem readRegister_follows (address : Address) (bus : β) :
    (readRegister address bus).Follows fun word trace => trace = [.fetched address word] := by
  rcases readRegister_cases address bus with
    ⟨word, hword, hcalls⟩ | ⟨call, hcalls, hcommand, hending, hne⟩
  · exact .inl ⟨word, hword, hcalls⟩
  · right
    rw [hcalls, ← hending]
    exact .single ⟨0, rfl⟩ hcommand hne

theorem writeRegister_follows (address : Address) (word : Word) (bus : β) :
    (writeRegister address word bus).Follows fun _ trace => trace = [.stored address word] := by
  rcases writeRegister_cases address word bus with
    ⟨hok, hcalls⟩ | ⟨call, hcalls, hcommand, hending, hne⟩
  · exact .inl ⟨(), hok, hcalls⟩
  · right
    rw [hcalls, ← hending]
    exact .single ⟨(), rfl⟩ hcommand hne

/-- Every run of a program is full or breaks off. -/
theorem Program.run_follows (program : Program α) (bus : β) :
    (program.run bus).Follows fun value trace => program.FullRun trace value := by
  induction program generalizing bus with
  | done value => exact .inl ⟨value, rfl, .done value⟩
  | read address next ih =>
      have hread := readRegister_follows address bus
      have hboth := hread.andThen (fun word => ih word _) fun word =>
        FullRun.exists_trace (next word)
      apply hboth.mono
      rintro value trace ⟨word, first, rest, rfl, hrest, rfl⟩
      exact .read word hrest
  | write address word next ih =>
      have hwrite := writeRegister_follows address word bus
      have hboth := hwrite.andThen (fun _ => ih _) fun _ => FullRun.exists_trace next
      apply hboth.mono
      rintro value trace ⟨-, first, rest, rfl, hrest, rfl⟩
      exact .write hrest
  | note record next ih =>
      -- A record is no call, so the runs agree in what they follow.
      have hrest := (ih bus).mono fun value trace hfull =>
        (FullRun.note hfull : (Program.note record next).FullRun trace value)
      simp only [run]
      exact hrest

end EnergyMeter

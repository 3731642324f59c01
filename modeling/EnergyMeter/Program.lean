import EnergyMeter.Bus
import EnergyMeter.Register.Frame
import EnergyMeter.Register.Map

/-!
Programs of register accesses.  A program is a tree: each read goes on with the
word it got, and the first access that fails ends the run.  The tree says
nothing about the bus, so one program runs over every bus.
-/

namespace EnergyMeter

inductive Program (α : Type) where
  | done (value : α)
  | read (address : Address) (next : Word → Program α)
  | write (address : Address) (word : Word) (next : Program α)
  | note (record : Record) (next : Program α)

namespace Program

variable {α γ : Type}

/-- Continue a program with the value it ends with. -/
def bind (next : α → Program γ) : Program α → Program γ
  | done value => next value
  | read address rest => .read address fun word => (rest word).bind next
  | write address word rest => .write address word (rest.bind next)
  | note record rest => .note record (rest.bind next)

instance : Monad Program where
  pure := done
  bind program next := program.bind next

/-- Read a register once. -/
def fetch (address : Address) : Program Word :=
  .read address .done

/-- Write a register once. -/
def store (address : Address) (word : Word) : Program Unit :=
  .write address word (.done ())

def report (record : Record) : Program Unit :=
  .note record (.done ())

/-- Read a register and then its shadow.  When they disagree the shadow is read
once more, and what it holds then is taken as it is. -/
def verifiedRead (address : Address) : Program Word := do
  let target ← fetch address
  let shadow ← fetch Register.lastData
  if target = shadow then
    return target
  else
    report (.mismatch address target shadow)
    fetch Register.lastData

/-- A verified read asks for two or three words. -/
theorem verifiedRead_eq (address : Address) :
    verifiedRead address =
      .read address fun target =>
        .read Register.lastData fun shadow =>
          if target = shadow then .done target
          else .note (.mismatch address target shadow) (fetch Register.lastData) := rfl

/-- Replace a register's word by a function of it. -/
def modify (address : Address) (change : Word → Word) : Program Unit := do
  let word ← verifiedRead address
  store address (change word)

theorem modify_eq (address : Address) (change : Word → Word) :
    modify address change =
      (verifiedRead address).bind fun word => store address (change word) := rfl

/-- Send the reset command. -/
def softReset : Program Unit :=
  store Register.softReset Register.softResetCommand

end Program

/-- A run over a state: how it ended, the state it left, and its journal. -/
structure Run (σ ε η α : Type) where
  outcome : Outcome (Error ε) η α
  state : σ
  journal : List (Entry ε η)

namespace Run

variable {σ τ ε η α γ : Type}

/-- A run that does nothing. -/
def pure (value : α) (state : σ) : Run σ ε η α :=
  ⟨.ok value, state, []⟩

/-- A run that is refused before it does anything. -/
def refuse (error : Error ε) (state : σ) : Run σ ε η α :=
  ⟨.failed error, state, []⟩

/-- Go on after a run that ended well; otherwise keep its end. -/
def andThen (run : Run σ ε η α) (next : α → σ → Run σ ε η γ) : Run σ ε η γ :=
  match run.outcome with
  | .ok value =>
      let rest := next value run.state
      { rest with journal := run.journal ++ rest.journal }
  | .failed error => ⟨.failed error, run.state, run.journal⟩
  | .halted cause => ⟨.halted cause, run.state, run.journal⟩

/-- The same run with its value replaced. -/
def map (f : α → γ) (run : Run σ ε η α) : Run σ ε η γ :=
  { outcome :=
      match run.outcome with
      | .ok value => .ok (f value)
      | .failed error => .failed error
      | .halted cause => .halted cause
    state := run.state
    journal := run.journal }

/-- The same run with its state placed in a larger one. -/
def within (place : σ → τ) (run : Run σ ε η α) : Run τ ε η α :=
  ⟨run.outcome, place run.state, run.journal⟩

@[simp]
theorem pure_andThen (value : α) (state : σ) (next : α → σ → Run σ ε η γ) :
    (pure value state).andThen next = next value state := by
  simp [pure, andThen]

theorem andThen_pure (run : Run σ ε η α) : run.andThen pure = run := by
  rcases run with ⟨_ | _ | _, _, _⟩ <;> simp [andThen, pure]

theorem andThen_assoc {δ : Type} (run : Run σ ε η α) (next : α → σ → Run σ ε η γ)
    (last : γ → σ → Run σ ε η δ) :
    (run.andThen next).andThen last = run.andThen fun value state =>
      (next value state).andThen last := by
  rcases run with ⟨value | _ | _, state, journal⟩
  · simp only [andThen]
    cases (next value state).outcome <;> simp
  · rfl
  · rfl

end Run

variable {β ε η α : Type} [Bus β ε η]

/-- Read a register in one exchange. -/
def readRegister (address : Address) (bus : β) : Run β ε η Word :=
  let header := Frame.readHeader address
  let (result, bus) := Bus.transfer bus header 2
  { outcome :=
      match result with
      | .ok received =>
          if received.count = 2 then .ok received.word
          else .failed (.shortTransfer 2 received.count)
      | .failed fault => .failed (.interface fault)
      | .halted cause => .halted cause
    state := bus
    journal := [.call (.transfer header 2 result)] }

/-- Write a register in one exchange.  Only a write that moved its whole frame
is recorded. -/
def writeRegister (address : Address) (word : Word) (bus : β) : Run β ε η Unit :=
  let frame := Frame.write address word
  let (result, bus) := Bus.write bus frame
  let made := .call (.write frame result)
  match result with
  | .ok count =>
      if count = 3 then ⟨.ok (), bus, [made, .record (.wrote address word)]⟩
      else ⟨.failed (.shortTransfer 3 count), bus, [made]⟩
  | .failed fault => ⟨.failed (.interface fault), bus, [made]⟩
  | .halted cause => ⟨.halted cause, bus, [made]⟩

/-- Run a program over a bus. -/
def Program.run : Program α → β → Run β ε η α
  | .done value, bus => .pure value bus
  | .read address next, bus => (readRegister address bus).andThen fun word => (next word).run
  | .write address word next, bus => (writeRegister address word bus).andThen fun _ => next.run
  | .note record next, bus =>
      let rest := next.run bus
      { rest with journal := .record record :: rest.journal }

/-- A program and its continuation run one after the other. -/
theorem Program.run_bind {γ : Type} (program : Program α) (next : α → Program γ) (bus : β) :
    (program.bind next).run bus = (program.run bus).andThen fun value => (next value).run := by
  induction program generalizing bus with
  | done value => simp [Program.bind, Program.run]
  | read address rest ih =>
      simp only [Program.bind, Program.run, Run.andThen_assoc]
      congr 1
      funext word bus
      exact ih word bus
  | write address word rest ih =>
      simp only [Program.bind, Program.run, Run.andThen_assoc]
      congr 1
      funext _ bus
      exact ih bus
  | note record rest ih =>
      simp only [Program.bind, Program.run, ih bus]
      cases h : (rest.run bus).outcome <;> simp [Run.andThen, h]

end EnergyMeter

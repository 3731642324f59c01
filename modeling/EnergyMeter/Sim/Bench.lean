import EnergyMeter.Register.Frame
import EnergyMeter.Sim.Reply

/-!
A bench checks every frame it is sent and keeps account of the accesses.  A
frame of the wrong shape, or a read that the script does not foresee, stops the
run instead of failing it.
-/

namespace EnergyMeter

/-- An access that reached a bench. -/
inductive Access where
  | read (address : Address)
  | write (address : Address) (word : Word)
deriving DecidableEq, Repr

/-- The only fault of a bench. -/
inductive BenchFault where
  | refused
deriving DecidableEq, Repr

instance : ToString BenchFault where
  toString _ := "MockError"

/-- Why a bench stops a run. -/
inductive Violation where
  /-- A read header of other than one byte. -/
  | headerLength (length : Nat)
  /-- A receive buffer of other than two bytes. -/
  | bufferLength (length : Nat)
  /-- A read header without its marker. -/
  | markerMissing
  /-- A write frame of other than three bytes. -/
  | frameLength (length : Nat)
  /-- A write frame with a read marker. -/
  | markerPresent
  /-- A read with no reply left. -/
  | unexpectedRead
deriving DecidableEq, Repr

namespace Violation

/-- The report of two numbers that should stand in some relation. -/
def comparison (relation text : String) (left right : Nat) : String :=
  "assertion `left " ++ relation ++ " right` failed: " ++ text ++ "\n  left: " ++ toString left ++
    "\n right: " ++ toString right

def message : Violation → String
  | headerLength length => comparison "==" "read header must be one byte" length 1
  | bufferLength length => comparison "==" "register reads receive two bytes" length 2
  | markerMissing => comparison "!=" "read marker missing" 0 0
  | frameLength length => comparison "==" "write frames are three bytes" length 3
  | markerPresent => comparison "==" "write frame carries read marker" 128 0
  | unexpectedRead => "unexpected register read"

end Violation

structure Bench where
  /-- Answers to reads, the next one first. -/
  replies : List Reply := []
  /-- Answers to writes, by the first byte of the frame. -/
  writeFaults : List (Byte × Reply) := []
  /-- The accesses so far, in order. -/
  accesses : List Access := []
  /-- The clocks accepted so far, in order. -/
  speeds : List UInt32 := []
  connects : Nat := 0
  disconnects : Nat := 0
  failConnect : Bool := false
  failConfigure : Bool := false
  failDisconnect : Bool := false

namespace Bench

/-- The number of reads so far. -/
def readCount (bench : Bench) : Nat :=
  bench.accesses.countP fun access => access matches .read _

/-- The writes so far, in order. -/
def writes (bench : Bench) : List (Address × Word) :=
  bench.accesses.filterMap fun access =>
    match access with
    | .write address word => some (address, word)
    | .read _ => none

/-- The number of replies not yet used. -/
def pendingReads (bench : Bench) : Nat :=
  bench.replies.length

def record (bench : Bench) (access : Access) : Bench :=
  { bench with accesses := bench.accesses ++ [access] }

/-- The address of a read header, if it and the buffer have the right shape. -/
def checkRead (sent : List Byte) (size : Nat) : Except Violation Address :=
  match sent with
  | [header] =>
      if size ≠ 2 then .error (.bufferLength size)
      else if Frame.isRead header then .ok (Frame.address header)
      else .error .markerMissing
  | _ => .error (.headerLength sent.length)

/-- The header and the word of a write frame, if it has the right shape. -/
def checkWrite (sent : List Byte) : Except Violation (Byte × Word) :=
  match sent with
  | [header, high, low] =>
      if Frame.isRead header then .error .markerPresent
      else .ok (header, .ofBytes high low)
  | _ => .error (.frameLength sent.length)

/-- Use up the next reply. -/
def answer (bench : Bench) (size : Nat) : Outcome BenchFault Violation (Received size) × Bench :=
  match bench.replies with
  | .value word :: replies => (.ok (.ofWord size word), { bench with replies })
  | .short count :: replies => (.ok (.untouched size count), { bench with replies })
  | .fail _ :: replies => (.failed .refused, { bench with replies })
  | [] => (.halted .unexpectedRead, bench)

def transfer (bench : Bench) (sent : List Byte) (size : Nat) :
    Outcome BenchFault Violation (Received size) × Bench :=
  match checkRead sent size with
  | .error violation => (.halted violation, bench)
  | .ok address => (bench.record (.read address)).answer size

def write (bench : Bench) (sent : List Byte) : Outcome BenchFault Violation Nat × Bench :=
  match checkWrite sent with
  | .error violation => (.halted violation, bench)
  | .ok (header, word) =>
      let outcome :=
        match (bench.writeFaults.find? fun entry => entry.1 = header).map Prod.snd with
        | some (.short count) => .ok count
        | some (.fail _) => .failed .refused
        | some (.value _) | none => .ok sent.length
      (outcome, bench.record (.write (Frame.address header) word))

/-- The answer of a phase that fails only on demand. -/
def phase (failing : Bool) : Except BenchFault Unit :=
  if failing then .error .refused else .ok ()

instance : Bus Bench BenchFault Violation where
  connect bench :=
    { result := phase bench.failConnect, bus := { bench with connects := bench.connects + 1 } }
  configure bench speedHz :=
    match phase bench.failConfigure with
    | .ok () => (.ok (), { bench with speeds := bench.speeds ++ [speedHz] })
    | .error fault => (.error fault, bench)
  transfer := transfer
  write := write
  disconnect bench :=
    { result := phase bench.failDisconnect
      bus := { bench with disconnects := bench.disconnects + 1 } }

end Bench

end EnergyMeter

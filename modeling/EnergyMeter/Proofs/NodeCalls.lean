import EnergyMeter.Proofs.Transport

/-!
Calls that are made to a device node directly, in any order.  Each of them is a
step of one small machine, which says what the call leaves at the node and whether
the node is open after it.  No step drops a handle that is not there, so after any
calls one handle is alive if the node is open, and none if it is closed.
-/

namespace EnergyMeter

variable {κ ε : Type}

namespace NodeEvent

/-- A handle was made. -/
def isOpening : NodeEvent ε → Bool
  | opened _ (.ok _) => true
  | _ => false

/-- A handle was dropped. -/
def isDrop : NodeEvent ε → Bool
  | dropped => true
  | _ => false

/-- The number of handles that are alive after an event.  There is none to drop
when none is alive. -/
def alive? : Nat → NodeEvent ε → Option Nat
  | alive, opened _ (.ok _) => some (alive + 1)
  | 0, dropped => none
  | alive + 1, dropped => some alive
  | alive, _ => some alive

theorem alive?_count {alive left : Nat} {event : NodeEvent ε}
    (h : event.alive? alive = some left) :
    alive + (if event.isOpening then 1 else 0) = (if event.isDrop then 1 else 0) + left := by
  cases event with
  | opened path result =>
      cases result with
      | ok value => simpa [alive?, isOpening, isDrop] using h
      | error fault => simpa [alive?, isOpening, isDrop] using h
  | dropped =>
      cases alive with
      | zero => simp [alive?] at h
      | succ alive => simpa [alive?, isOpening, isDrop, Nat.add_comm] using h
  | _ => simpa [alive?, isOpening, isDrop] using h

end NodeEvent

/-- The number of handles that are alive after some events, unless one of them
drops a handle that is not there. -/
def aliveHandles? (alive : Nat) (events : List (NodeEvent ε)) : Option Nat :=
  events.foldlM NodeEvent.alive? alive

theorem aliveHandles?_append (alive : Nat) (earlier later : List (NodeEvent ε)) :
    aliveHandles? alive (earlier ++ later) =
      (aliveHandles? alive earlier).bind fun alive => aliveHandles? alive later :=
  List.foldlM_append

/-- Handles are made, dropped or alive, and no handle is lost. -/
theorem aliveHandles?_count {alive left : Nat} {events : List (NodeEvent ε)}
    (h : aliveHandles? alive events = some left) :
    alive + events.countP NodeEvent.isOpening = events.countP NodeEvent.isDrop + left := by
  induction events generalizing alive with
  | nil => simpa [aliveHandles?] using h
  | cons event rest ih =>
      obtain ⟨next, hnext, hrest⟩ := Option.bind_eq_some_iff.mp h
      have hfirst := event.alive?_count hnext
      have hlater := ih hrest
      rw [List.countP_cons, List.countP_cons]
      omega

/-- The steps of a node: whether it is open, a call with its result, the events
that the call leaves, and whether the node is open after it.  Only an open node
passes a call on to its host, and only a connection that the host grants and a
disconnection make or drop a handle. -/
inductive NodeStep (path : String) :
    Bool → Call (NodeFault ε) Empty → List (NodeEvent ε) → Bool → Prop where
  | openFailed (isOpen : Bool) (fault : ε) :
      NodeStep path isOpen (.connect (.error (.host fault))) [.opened path (.error fault)] isOpen
  | opened : NodeStep path false (.connect (.ok ())) [.opened path (.ok ())] true
  | reopened : NodeStep path true (.connect (.ok ())) [.opened path (.ok ()), .dropped] true
  | configured (speedHz : UInt32) (result : Except ε Unit) :
      NodeStep path true (.configure speedHz (result.mapError .host))
        [.configured { bitsPerWord := 8, speedHz, mode := 0 } result] true
  | exchanged (sent : List Byte) (size : Nat) (result : Except ε (Vector Byte size)) :
      NodeStep path true
        (.transfer sent size ((Outcome.ofExcept result).bimap .host (Received.mk size)))
        [.exchanged sent size result] true
  | wrote (sent : List Byte) (result : Except ε Nat) :
      NodeStep path true (.write sent ((Outcome.ofExcept result).bimap .host id))
        [.wrote sent result] true
  | configureRefused (speedHz : UInt32) :
      NodeStep path false (.configure speedHz (.error .notOpen)) [] false
  | transferRefused (sent : List Byte) (size : Nat) :
      NodeStep path false (.transfer sent size (.failed .notOpen)) [] false
  | writeRefused (sent : List Byte) : NodeStep path false (.write sent (.failed .notOpen)) [] false
  | closed : NodeStep path true (.disconnect (.ok ())) [.dropped] false
  | closedAgain : NodeStep path false (.disconnect (.ok ())) [] false

/-- A step keeps the count of the handles that are alive. -/
theorem NodeStep.alive {path : String} {before after : Bool} {call : Call (NodeFault ε) Empty}
    {events : List (NodeEvent ε)} (h : NodeStep path before call events after) :
    aliveHandles? before.toNat events = some after.toNat := by
  cases h <;> rfl

namespace NodeBus

/-- The number of handles made so far. -/
def openings (bus : NodeBus κ ε) : Nat :=
  bus.history.countP NodeEvent.isOpening

/-- The number of handles dropped so far. -/
def drops (bus : NodeBus κ ε) : Nat :=
  bus.history.countP NodeEvent.isDrop

/-- Every handle but the open one was dropped. -/
def Accounted (bus : NodeBus κ ε) : Prop :=
  bus.openings = bus.drops + bus.isOpen.toNat

theorem Accounted.sub_eq {bus : NodeBus κ ε} (h : bus.Accounted) :
    (bus.openings : Int) - bus.drops = if bus.isOpen then 1 else 0 := by
  have hcount : bus.openings = bus.drops + bus.isOpen.toNat := h
  rw [hcount]
  cases bus.isOpen with
  | true =>
      simp only [Bool.toNat_true, if_true]
      omega
  | false => simp

@[simp]
theorem isOpen_after (bus : NodeBus κ ε) (host : κ) (event : NodeEvent ε) :
    (bus.after host event).isOpen = bus.isOpen := rfl

@[simp]
theorem isOpen_drop (bus : NodeBus κ ε) : bus.drop.isOpen = false := by
  cases hopen : bus.isOpen <;> simp [drop, hopen]

theorem drop_of_closed (bus : NodeBus κ ε) (hclosed : bus.isOpen = false) : bus.drop = bus := by
  simp [drop, hclosed]

/-- A call and the bus after it are a step of the node.  What leaves no event
leaves the bus as it was, its host included. -/
def Steps (bus : NodeBus κ ε) (performed : Performed (NodeBus κ ε) (NodeFault ε) Empty) : Prop :=
  ∃ events, performed.bus.history = bus.history ++ events ∧
    (events = [] → performed.bus = bus) ∧ performed.bus.path = bus.path ∧
    NodeStep bus.path bus.isOpen performed.call events performed.bus.isOpen

/-- One handle is alive if the node is open, and none if it is closed. -/
def OneHandle (bus : NodeBus κ ε) : Prop :=
  aliveHandles? 0 bus.history = some bus.isOpen.toNat

theorem OneHandle.step {bus : NodeBus κ ε}
    {performed : Performed (NodeBus κ ε) (NodeFault ε) Empty} (h : bus.OneHandle)
    (hsteps : bus.Steps performed) : performed.bus.OneHandle := by
  obtain ⟨events, hhistory, -, -, hstep⟩ := hsteps
  have hbefore : aliveHandles? 0 bus.history = some bus.isOpen.toNat := h
  rw [OneHandle, hhistory, aliveHandles?_append, hbefore, Option.bind_some]
  exact hstep.alive

theorem OneHandle.accounted {bus : NodeBus κ ε} (h : bus.OneHandle) : bus.Accounted := by
  have hcount := aliveHandles?_count h
  rwa [Nat.zero_add] at hcount

section

variable {bus : NodeBus κ ε} {call : Call (NodeFault ε) Empty} {notices : List Notice}

/-- A call that an open node passes on. -/
theorem steps_of_use (hopen : bus.isOpen = true) {host : κ} {event : NodeEvent ε}
    (hstep : NodeStep bus.path true call [event] true) :
    bus.Steps ⟨call, bus.after host event, notices⟩ := by
  refine ⟨[event], rfl, by simp, rfl, ?_⟩
  simp only [isOpen_after, hopen]
  exact hstep

/-- A call that a closed node answers alone. -/
theorem steps_of_nothing (hclosed : bus.isOpen = false)
    (hstep : NodeStep bus.path false call [] false) : bus.Steps ⟨call, bus, notices⟩ := by
  refine ⟨[], by simp, fun _ => rfl, rfl, ?_⟩
  simp only [hclosed]
  exact hstep

end

variable [NodeHost κ ε]

theorem connect_steps (bus : NodeBus κ ε) : bus.Steps (Bus.perform bus .connect) := by
  simp only [Bus.perform, Bus.connect, connect]
  rcases NodeHost.openNode bus.host bus.path with ⟨fault | _, host⟩
  · exact ⟨_, rfl, by simp, rfl, .openFailed bus.isOpen fault⟩
  · cases hopen : bus.isOpen with
    | true =>
        refine ⟨[.opened bus.path (.ok ()), .dropped], ?_, by simp, ?_, ?_⟩
        · simp [drop, after, hopen]
        · simp [drop, after, hopen]
        · simp only [hopen]
          exact .reopened
    | false =>
        have hclosed : (bus.after host (.opened bus.path (.ok ()))).isOpen = false := hopen
        rw [drop_of_closed _ hclosed]
        refine ⟨_, rfl, by simp, rfl, ?_⟩
        simp only [hopen]
        exact .opened

theorem configure_steps (bus : NodeBus κ ε) (speedHz : UInt32) :
    bus.Steps (Bus.perform bus (.configure speedHz)) := by
  cases hopen : bus.isOpen with
  | true =>
      simp only [Bus.perform, configure_eq hopen]
      exact steps_of_use hopen (.configured speedHz _)
  | false =>
      simp only [Bus.perform, configure_closed hopen]
      exact steps_of_nothing hopen (.configureRefused speedHz)

theorem transfer_steps (bus : NodeBus κ ε) (sent : List Byte) (size : Nat) :
    bus.Steps (Bus.perform bus (.transfer sent size)) := by
  cases hopen : bus.isOpen with
  | true =>
      simp only [Bus.perform, transfer_eq hopen]
      exact steps_of_use hopen (.exchanged sent size _)
  | false =>
      simp only [Bus.perform, transfer_closed hopen]
      exact steps_of_nothing hopen (.transferRefused sent size)

theorem write_steps (bus : NodeBus κ ε) (sent : List Byte) :
    bus.Steps (Bus.perform bus (.write sent)) := by
  cases hopen : bus.isOpen with
  | true =>
      simp only [Bus.perform, write_eq hopen]
      exact steps_of_use hopen (.wrote sent _)
  | false =>
      simp only [Bus.perform, write_closed hopen]
      exact steps_of_nothing hopen (.writeRefused sent)

theorem disconnect_steps (bus : NodeBus κ ε) : bus.Steps (Bus.perform bus .disconnect) := by
  simp only [Bus.perform, Bus.disconnect, disconnect]
  cases hopen : bus.isOpen with
  | true =>
      refine ⟨[.dropped], ?_, by simp, ?_, ?_⟩
      · simp [drop, hopen]
      · simp [drop, hopen]
      · simp only [isOpen_drop, hopen]
        exact .closed
  | false =>
      rw [drop_of_closed bus hopen]
      exact steps_of_nothing hopen .closedAgain

theorem perform_steps (bus : NodeBus κ ε) (command : Command) :
    bus.Steps (Bus.perform bus command) := by
  cases command with
  | connect => exact bus.connect_steps
  | configure speedHz => exact bus.configure_steps speedHz
  | transfer sent size => exact bus.transfer_steps sent size
  | write sent => exact bus.write_steps sent
  | disconnect => exact bus.disconnect_steps

theorem OneHandle.performAll {bus : NodeBus κ ε} (h : bus.OneHandle) (commands : List Command) :
    (Bus.performAll bus commands).2.OneHandle := by
  apply Bus.performAll_keeps OneHandle _ commands h
  intro bus command hbefore
  exact hbefore.step (bus.perform_steps command)

theorem OneHandle.of_replays {bus last : NodeBus κ ε} {trace : List (Call (NodeFault ε) Empty)}
    (hreplays : Replays bus trace last) (h : bus.OneHandle) : last.OneHandle := by
  have hlast := h.performAll (trace.map Call.command)
  rwa [hreplays] at hlast

/-- Whatever is asked of a node, in whatever order, and however its host answers:
no handle is dropped that is not alive, and after every call one handle is alive
if the node is open and none if it is closed, so the handles that were made exceed
those that were dropped by one or by none.  Every call is a step of the node.  A
connection that fails, and any configuration, transfer or write, leaves the handle
in place; a new handle is made before the old one is dropped; a closed node refuses
every use without an event; and disconnecting again changes nothing. -/
theorem handles_under_any_calls (path : String) (host : κ) (commands : List Command) :
    let bus := (Bus.performAll ({ path, host } : NodeBus κ ε) commands).2
    bus.OneHandle ∧
    (bus.openings : Int) - bus.drops = (if bus.isOpen then 1 else 0) ∧
    (∀ command,
      let performed := Bus.perform bus command
      performed.call.command = command ∧ bus.Steps performed) ∧
    let closed := (Bus.perform bus .disconnect).bus
    closed.isOpen = false ∧ (Bus.perform closed .disconnect).bus = closed := by
  intro bus
  have hfresh : ({ path, host } : NodeBus κ ε).OneHandle := rfl
  have hone : bus.OneHandle := hfresh.performAll commands
  refine ⟨hone, hone.accounted.sub_eq, ?_, bus.isOpen_drop, drop_of_closed _ bus.isOpen_drop⟩
  intro command performed
  exact ⟨Bus.command_perform bus command, bus.perform_steps command⟩

end NodeBus

end EnergyMeter

import EnergyMeter.Proofs.Simulation
import EnergyMeter.Sim.Rig

/-!
One script on three transports.  A script that moves every byte of an exchange
or fails it, and that never refuses to be connected, configured or disconnected,
plays the same on a plain bus, on a serial device and on a device node.  Each
exchange becomes one transaction of the device and one request to the node.
-/

namespace EnergyMeter

variable {ε ζ η : Type}

namespace Rig

/-- A rig that fails an exchange or moves every byte of it, and fails nothing
else. -/
structure Steady (rig : Rig) : Prop where
  replies : ∀ reply ∈ rig.replies, ∀ count, reply ≠ .short count
  writeFaults : ∀ entry ∈ rig.writeFaults, ∀ count, entry.2 ≠ .short count
  connectFault : rig.connectFault = none
  configureFault : rig.configureFault = none
  disconnectFault : rig.disconnectFault = none

namespace Steady

variable {rig : Rig}

/-- A read is full or fails, and what is left of the script is steady. -/
theorem read (h : rig.Steady) (sent : List Byte) (size : Nat) :
    (∀ received, (rig.read sent size).1 = .ok received → received.count = size) ∧
      (rig.read sent size).2.Steady := by
  have hrest : ∀ reply replies, rig.replies = reply :: replies →
      Steady { rig with replies } := by
    intro reply replies hreplies
    refine ⟨?_, h.writeFaults, h.connectFault, h.configureFault, h.disconnectFault⟩
    intro other hother
    exact h.replies other (hreplies ▸ List.mem_cons_of_mem _ hother)
  unfold Rig.read
  split
  · rename_i word replies hreplies
    refine ⟨?_, hrest _ _ hreplies⟩
    rintro received ⟨rfl⟩
    rfl
  · rename_i count replies hreplies
    exact absurd rfl (h.replies _ (hreplies ▸ List.mem_cons_self) count)
  · rename_i code replies hreplies
    exact ⟨by simp, hrest _ _ hreplies⟩
  · cases hchip : rig.chip with
    | none => exact ⟨by simp, h⟩
    | some chip =>
        refine ⟨?_, h.replies, h.writeFaults, h.connectFault, h.configureFault,
          h.disconnectFault⟩
        rintro received ⟨rfl⟩
        rfl

theorem store (h : rig.Steady) (sent : List Byte) : (rig.store sent).Steady := by
  unfold Rig.store
  split
  · exact ⟨h.replies, h.writeFaults, h.connectFault, h.configureFault, h.disconnectFault⟩
  · exact h

/-- A write is full or fails, and what is left of the script is steady. -/
theorem write (h : rig.Steady) (sent : List Byte) :
    (∀ count, (rig.write sent).1 = .ok count → count = sent.length) ∧
      (rig.write sent).2.Steady := by
  unfold Rig.write
  split
  · rename_i count hreply
    obtain ⟨entry, hentry, heq⟩ := writeReply?_mem hreply
    exact absurd heq (h.writeFaults entry hentry count)
  · exact ⟨by simp, h⟩
  · refine ⟨?_, h.store sent⟩
    rintro count ⟨rfl⟩
    rfl
  · refine ⟨?_, h.store sent⟩
    rintro count ⟨rfl⟩
    rfl

end Steady

end Rig

theorem Received.eq_mk {size : Nat} {received : Received size} (h : received.count = size) :
    Received.mk size received.bytes = received :=
  congrArg (Received.mk · received.bytes) h.symm

namespace Outcome

variable {φ ψ α γ : Type}

/-- An answer as an outcome. -/
def ofExcept : Except φ α → Outcome φ η α
  | .ok a => .ok a
  | .error failure => .failed failure

/-- The answer of an outcome that cannot be a stop. -/
def toExcept : Outcome φ Empty α → Except φ α
  | .ok a => .ok a
  | .failed failure => .error failure

/-- A transport that shows only a part of an answer loses nothing if the rest
can be put back. -/
theorem bimap_ofExcept_map {answer : Except φ α} {part : α → γ} {restore : γ → α}
    (hrestore : ∀ a, answer = .ok a → restore (part a) = a) (failing : φ → ψ) :
    (ofExcept (answer.map part) : Outcome φ η γ).bimap failing restore =
      (ofExcept answer : Outcome φ η α).bimap failing id := by
  cases answer with
  | ok a => exact congrArg Outcome.ok (hrestore a rfl)
  | error failure => rfl

/-- An answer whose translation is known is known. -/
theorem toExcept_of_bimap {answer : Except φ α} {value : α → γ} {result : Outcome φ Empty γ}
    {failing : φ → ψ} (hinj : ∀ a b, failing a = failing b → a = b)
    (h : (ofExcept answer).bimap failing value = result.bimap failing id) :
    result.toExcept = answer.map value := by
  cases result with
  | ok other =>
      cases answer with
      | ok a => exact congrArg Except.ok (Outcome.ok.inj h).symm
      | error failure => exact nomatch h
  | failed other =>
      cases answer with
      | ok a => exact nomatch h
      | error failure => exact congrArg Except.error (hinj _ _ (Outcome.failed.inj h)).symm
  | halted cause => exact cause.elim

end Outcome

namespace Rig

variable (rig : Rig) (sent : List Byte)

theorem transfer_eq (size : Nat) :
    Bus.transfer rig sent size = (.ofExcept (rig.read sent size).1, (rig.read sent size).2) := by
  simp only [Bus.transfer]
  rcases rig.read sent size with ⟨fault | received, after⟩
  · rfl
  · rfl

theorem write_eq : Bus.write rig sent = (.ofExcept (rig.write sent).1, (rig.write sent).2) := by
  simp only [Bus.write]
  rcases rig.write sent with ⟨fault | count, after⟩
  · rfl
  · rfl

end Rig

namespace SpiBus

section

variable {δ : Type} [SpiDevice δ ε] (bus : SpiBus δ) (sent : List Byte)

theorem transfer_eq (size : Nat) :
    Bus.transfer bus sent size =
      ((Outcome.ofExcept (bus.exchange sent size).1).bimap id (Received.mk size),
        (bus.exchange sent size).2) := by
  simp only [Bus.transfer]
  rcases bus.exchange sent size with ⟨fault | bytes, after⟩
  · rfl
  · rfl

theorem write_eq :
    Bus.write bus sent =
      ((Outcome.ofExcept (bus.send sent).1).bimap id fun _ => sent.length,
        (bus.send sent).2) := by
  simp only [Bus.write]
  rcases bus.send sent with ⟨fault | value, after⟩
  · rfl
  · rfl

end

/-- A serial device that plays a steady script answers like the script itself. -/
def ofRig : Simulation Rig (SpiBus Rig) (id : Fault → Fault) where
  related _ rig bus := rig.Steady ∧ bus.device = rig
  connect {rig bus} h := by
    obtain ⟨hsteady, rfl⟩ := h
    simp only [Bus.connect, Rig.phase, hsteady.connectFault]
    exact ⟨rfl, hsteady, trivial⟩
  configure {rig bus} h speedHz := by
    obtain ⟨hsteady, rfl⟩ := h
    simp only [Bus.configure, Rig.phase, hsteady.configureFault]
    exact ⟨rfl, hsteady, trivial⟩
  transfer {rig bus} h sent size := by
    obtain ⟨hsteady, rfl⟩ := h
    obtain ⟨hfull, hafter⟩ := hsteady.read sent size
    rw [Rig.transfer_eq, transfer_eq]
    refine ⟨Outcome.bimap_ofExcept_map ?_ id, hafter, rfl⟩
    intro received hread
    exact Received.eq_mk (hfull received hread)
  write {rig bus} h sent := by
    obtain ⟨hsteady, rfl⟩ := h
    obtain ⟨hfull, hafter⟩ := hsteady.write sent
    rw [Rig.write_eq, write_eq]
    refine ⟨Outcome.bimap_ofExcept_map ?_ id, hafter, rfl⟩
    intro count hwrite
    exact (hfull count hwrite).symm
  disconnect {session rig bus} h := by
    obtain ⟨hsteady, rfl⟩ := h
    simp only [Bus.disconnect, Rig.phase, hsteady.disconnectFault]
    exact ⟨rfl, hsteady, trivial⟩

end SpiBus

namespace NodeBus

section

variable {κ : Type} [NodeHost κ ε] {bus : NodeBus κ ε}

theorem configure_eq (hopen : bus.isOpen = true) (speedHz : UInt32) :
    let answered := NodeHost.configure bus.host (options speedHz)
    Bus.configure bus speedHz =
      (answered.1.mapError .host,
        bus.after answered.2 (.configured (options speedHz) answered.1)) :=
  if_pos hopen

theorem transfer_eq (hopen : bus.isOpen = true) (sent : List Byte) (size : Nat) :
    let answered := NodeHost.exchange bus.host sent size
    Bus.transfer bus sent size =
      ((Outcome.ofExcept answered.1).bimap .host (Received.mk size),
        bus.after answered.2 (.exchanged sent size answered.1)) := by
  simp only [Bus.transfer, transfer, hopen, if_true]
  cases (NodeHost.exchange bus.host sent size).1 with
  | ok bytes => rfl
  | error fault => rfl

theorem write_eq (hopen : bus.isOpen = true) (sent : List Byte) :
    let answered := NodeHost.write bus.host sent
    Bus.write bus sent =
      ((Outcome.ofExcept answered.1).bimap .host id,
        bus.after answered.2 (.wrote sent answered.1)) := by
  simp only [Bus.write, write, hopen, if_true]
  cases (NodeHost.write bus.host sent).1 with
  | ok count => rfl
  | error fault => rfl

theorem configure_closed (hclosed : bus.isOpen = false) (speedHz : UInt32) :
    Bus.configure bus speedHz = (.error .notOpen, bus) := by
  simp [Bus.configure, configure, hclosed]

theorem transfer_closed (hclosed : bus.isOpen = false) (sent : List Byte) (size : Nat) :
    Bus.transfer bus sent size = (.failed .notOpen, bus) := by
  simp [Bus.transfer, transfer, hclosed]

theorem write_closed (hclosed : bus.isOpen = false) (sent : List Byte) :
    Bus.write bus sent = (.failed .notOpen, bus) := by
  simp [Bus.write, write, hclosed]

end

/-- A node whose host plays a steady script answers like the script itself, and
it is open during a session. -/
def ofRig : Simulation Rig (NodeBus Rig Fault) NodeFault.host where
  related session rig bus := rig.Steady ∧ bus.host = rig ∧ bus.isOpen = session
  connect {rig bus} h := by
    obtain ⟨hsteady, rfl, hopen⟩ := h
    simp only [Bus.connect, connect, NodeHost.openNode, Rig.phase, hsteady.connectFault, after,
      drop, hopen, Bool.false_eq_true, if_false]
    exact ⟨rfl, hsteady, trivial, rfl⟩
  configure {rig bus} h speedHz := by
    obtain ⟨hsteady, rfl, hopen⟩ := h
    rw [configure_eq hopen]
    simp only [Bus.configure, NodeHost.configure, Rig.phase, hsteady.configureFault]
    exact ⟨trivial, hsteady, rfl, hopen⟩
  transfer {rig bus} h sent size := by
    obtain ⟨hsteady, rfl, hopen⟩ := h
    obtain ⟨hfull, hafter⟩ := hsteady.read sent size
    rw [Rig.transfer_eq, transfer_eq hopen]
    refine ⟨Outcome.bimap_ofExcept_map ?_ NodeFault.host, hafter, rfl, hopen⟩
    intro received hread
    exact Received.eq_mk (hfull received hread)
  write {rig bus} h sent := by
    obtain ⟨hsteady, rfl, hopen⟩ := h
    rw [Rig.write_eq, write_eq hopen]
    exact ⟨rfl, (hsteady.write sent).2, rfl, hopen⟩
  disconnect {session rig bus} h := by
    obtain ⟨hsteady, rfl, hopen⟩ := h
    simp only [Bus.disconnect, disconnect, Rig.phase, hsteady.disconnectFault, drop]
    refine ⟨rfl, hsteady, ?_⟩
    cases session with
    | true => simp [hopen]
    | false => simp [hopen]

end NodeBus

/-- The transactions that a call comes to at a serial device. -/
def Call.transactions : Call ε η → List (List Segment)
  | .transfer sent size _ => [[.write sent, .read size]]
  | .write sent _ => [[.write sent]]
  | .connect _ | .configure .. | .disconnect _ => []

namespace SpiBus

variable {δ : Type} [SpiDevice δ ε]

theorem history_perform (bus : SpiBus δ) (command : Command) :
    (Bus.perform bus command).bus.history =
      bus.history ++ (Bus.perform bus command).call.transactions := by
  cases command with
  | connect => exact (List.append_nil _).symm
  | configure speedHz => exact (List.append_nil _).symm
  | transfer sent size =>
      simp only [Bus.perform, transfer_eq]
      rfl
  | write sent =>
      simp only [Bus.perform, write_eq]
      rfl
  | disconnect => exact (List.append_nil _).symm

/-- The device was given the transactions of the calls and nothing else. -/
theorem history_of_replays {bus last : SpiBus δ} {trace : List (Call ε Empty)}
    (h : Replays bus trace last) :
    last.history = bus.history ++ trace.flatMap Call.transactions := by
  induction trace generalizing bus with
  | nil =>
      obtain rfl := h.eq_of_nil
      exact (List.append_nil _).symm
  | cons call rest ih =>
      obtain ⟨hcall, hrest⟩ := h.uncons
      rw [ih hrest, history_perform, hcall, List.flatMap_cons, List.append_assoc]

end SpiBus

namespace Call

/-- What a call comes to at a node that is open or not, when the node's own
check does not fail it. -/
def nodeEvents (path : String) (isOpen : Bool) : Call ε Empty → List (NodeEvent ε)
  | .connect (.ok ()) => .opened path (.ok ()) :: if isOpen then [.dropped] else []
  | .connect (.error fault) => [.opened path (.error fault)]
  | .configure speedHz result =>
      [.configured { bitsPerWord := 8, speedHz, mode := 0 } result]
  | .transfer sent size result => [.exchanged sent size (result.toExcept.map Received.bytes)]
  | .write sent result => [.wrote sent result.toExcept]
  | .disconnect _ => if isOpen then [.dropped] else []

/-- A node is open after a call. -/
def leavesOpen (isOpen : Bool) : Call ε Empty → Bool
  | .connect (.ok ()) => true
  | .disconnect _ => false
  | _ => isOpen

@[simp]
theorem command_mapFault (fault : ε → ζ) (call : Call ε η) :
    (call.mapFault fault).command = call.command := by
  cases call <;> rfl

end Call

/-- What a trace comes to at a node. -/
def nodeHistory (path : String) : Bool → List (Call ε Empty) → List (NodeEvent ε)
  | _, [] => []
  | isOpen, call :: rest =>
      call.nodeEvents path isOpen ++ nodeHistory path (call.leavesOpen isOpen) rest

namespace NodeBus

variable {κ : Type} [NodeHost κ ε]

theorem mapError_host_inj {α : Type} {first second : Except ε α}
    (h : first.mapError NodeFault.host = second.mapError NodeFault.host) : first = second := by
  rcases first with fault | value <;> rcases second with other | value' <;>
    simp_all [Except.mapError]

theorem connect_recorded (bus : NodeBus κ ε) {result : Except ε Unit}
    (h : (Bus.connect bus).result = result.mapError .host) :
    let call : Call ε Empty := .connect result
    (Bus.connect bus).bus.path = bus.path ∧
      (Bus.connect bus).bus.isOpen = call.leavesOpen bus.isOpen ∧
      (Bus.connect bus).bus.history = bus.history ++ call.nodeEvents bus.path bus.isOpen := by
  simp only [Bus.connect, connect] at h ⊢
  generalize NodeHost.openNode bus.host bus.path = opened at h ⊢
  rcases opened with ⟨fault | value, host⟩
  · obtain rfl : .error fault = result := mapError_host_inj h
    exact ⟨rfl, rfl, rfl⟩
  · obtain rfl : .ok () = result := mapError_host_inj h
    cases hopen : bus.isOpen with
    | true => simp [after, drop, hopen, Call.leavesOpen, Call.nodeEvents]
    | false => simp [after, drop, hopen, Call.leavesOpen, Call.nodeEvents]

theorem configure_recorded (bus : NodeBus κ ε) {speedHz : UInt32} {result : Except ε Unit}
    (h : (Bus.configure bus speedHz).1 = result.mapError .host) :
    (Bus.configure bus speedHz).2 =
      bus.after (NodeHost.configure bus.host (options speedHz)).2
        (.configured (options speedHz) result) := by
  cases hopen : bus.isOpen with
  | false =>
      -- A closed node fails on its own, and no fault of the host says so.
      rw [configure_closed hopen] at h
      cases result <;> simp [Except.mapError] at h
  | true =>
      rw [configure_eq hopen] at h ⊢
      rw [mapError_host_inj h]

theorem transfer_recorded (bus : NodeBus κ ε) {sent : List Byte} {size : Nat}
    {result : Outcome ε Empty (Received size)}
    (h : (Bus.transfer bus sent size).1 = result.bimap .host id) :
    (Bus.transfer bus sent size).2 =
      bus.after (NodeHost.exchange bus.host sent size).2
        (.exchanged sent size (result.toExcept.map Received.bytes)) := by
  cases hopen : bus.isOpen with
  | false =>
      rw [transfer_closed hopen] at h
      cases result <;> simp at h
  | true =>
      rw [transfer_eq hopen] at h ⊢
      rw [Outcome.toExcept_of_bimap (fun _ _ => NodeFault.host.inj) h]
      cases (NodeHost.exchange bus.host sent size).1 with
      | ok bytes => rfl
      | error fault => rfl

theorem write_recorded (bus : NodeBus κ ε) {sent : List Byte} {result : Outcome ε Empty Nat}
    (h : (Bus.write bus sent).1 = result.bimap .host id) :
    (Bus.write bus sent).2 =
      bus.after (NodeHost.write bus.host sent).2 (.wrote sent result.toExcept) := by
  cases hopen : bus.isOpen with
  | false =>
      rw [write_closed hopen] at h
      cases result <;> simp at h
  | true =>
      rw [write_eq hopen] at h ⊢
      rw [Outcome.toExcept_of_bimap (fun _ _ => NodeFault.host.inj) h]
      cases (NodeHost.write bus.host sent).1 with
      | ok count => rfl
      | error fault => rfl

theorem perform_recorded (bus : NodeBus κ ε) {call : Call ε Empty}
    (h : (Bus.perform bus call.command).call = call.mapFault .host) :
    let after := (Bus.perform bus call.command).bus
    after.path = bus.path ∧ after.isOpen = call.leavesOpen bus.isOpen ∧
      after.history = bus.history ++ call.nodeEvents bus.path bus.isOpen := by
  cases call with
  | connect result => exact bus.connect_recorded (Call.connect.inj h)
  | configure speedHz result =>
      have hlast := bus.configure_recorded (Call.configure.inj h).2
      simp only [Call.command, Bus.perform, hlast]
      exact ⟨rfl, rfl, rfl⟩
  | transfer sent size result =>
      have hlast := bus.transfer_recorded (eq_of_heq (Call.transfer.inj h).2.2)
      simp only [Call.command, Bus.perform, hlast]
      exact ⟨rfl, rfl, rfl⟩
  | write sent result =>
      have hlast := bus.write_recorded (Call.write.inj h).2
      simp only [Call.command, Bus.perform, hlast]
      exact ⟨rfl, rfl, rfl⟩
  | disconnect result =>
      cases hopen : bus.isOpen with
      | false => simp [Call.command, Bus.perform, Bus.disconnect, disconnect, drop, hopen,
          Call.leavesOpen, Call.nodeEvents]
      | true => simp [Call.command, Bus.perform, Bus.disconnect, disconnect, drop, hopen,
          Call.leavesOpen, Call.nodeEvents]

/-- The node did what the calls come to and nothing else. -/
theorem history_of_replays {bus last : NodeBus κ ε} {trace : List (Call ε Empty)}
    (h : Replays bus (trace.map (Call.mapFault .host)) last) :
    last.history = bus.history ++ nodeHistory bus.path bus.isOpen trace := by
  -- The node may open and close on the way, so the induction is for any node.
  induction trace generalizing bus with
  | nil =>
      obtain rfl := h.eq_of_nil
      exact (List.append_nil _).symm
  | cons call rest ih =>
      obtain ⟨hcall, hrest⟩ := h.uncons
      rw [Call.command_mapFault] at hcall hrest
      obtain ⟨hpath, hopen, hhistory⟩ := bus.perform_recorded hcall
      rw [ih hrest, hpath, hopen, hhistory, nodeHistory, List.append_assoc]

end NodeBus

/-- On a plain bus, on a serial device and on a device node, a steady script
takes the meter through the same states with the same answers, and ends as the
same script.  The device is given one transaction for each exchange; the node is
opened, set up, used and dropped once for each call. -/
theorem transports_agree {rig : Rig} (hsteady : rig.Steady) (path : String) (config : Config)
    (operations : List Operation) :
    let plain := (Meter.fresh rig config).after operations
    let serial := (Meter.fresh ({ device := rig } : SpiBus Rig) config).after operations
    let node := (Meter.fresh ({ path, host := rig } : NodeBus Rig Fault) config).after operations
    let trace : List (Call Fault Empty) := calls ((Meter.fresh rig config).journal operations)
    Replays rig trace plain.bus ∧
      (∀ clock result, .configure clock result ∈ trace → clock = config.speedHz) ∧
      (serial.state = plain.state ∧ serial.bus.device = plain.bus ∧
        serial.bus.history = trace.flatMap Call.transactions) ∧
      (node.state = plain.state ∧ node.bus.host = plain.bus ∧
        node.bus.isOpen = plain.isInitialized ∧
        node.bus.history = nodeHistory path false trace) ∧
      ∀ operation,
        (serial.perform operation).outcome = (plain.perform operation).outcome ∧
          (node.perform operation).outcome =
            (plain.perform operation).outcome.bimap (Error.mapFault .host)
              (Answer.mapFault .host) := by
  intro plain serial node trace
  have hserial : SpiBus.ofRig.Meters (Meter.fresh rig config)
      (Meter.fresh { device := rig } config) :=
    ⟨rfl, rfl, hsteady, rfl⟩
  have hnode : NodeBus.ofRig.Meters (Meter.fresh rig config)
      (Meter.fresh { path, host := rig } config) :=
    ⟨rfl, rfl, hsteady, rfl, rfl⟩
  have hserialAfter := hserial.after operations
  have hnodeAfter := hnode.after operations
  refine ⟨(Meter.fresh rig config).replays_after operations, ?_,
    ⟨hserialAfter.state, hserialAfter.bus.2, ?_⟩,
    ⟨hnodeAfter.state, hnodeAfter.bus.2.1, hnodeAfter.bus.2.2, ?_⟩, ?_⟩
  · intro clock result hmem
    exact ((Meter.fresh rig config).configure_mem_journal operations hmem).1
  · have hreplays := (Meter.fresh ({ device := rig } : SpiBus Rig) config).replays_after operations
    rw [hserial.calls_journal, Call.mapFault_id, List.map_id] at hreplays
    exact SpiBus.history_of_replays hreplays
  · have hreplays :=
      (Meter.fresh ({ path, host := rig } : NodeBus Rig Fault) config).replays_after operations
    rw [hnode.calls_journal] at hreplays
    exact NodeBus.history_of_replays hreplays
  · intro operation
    have houtcome := (hserialAfter.perform operation).outcome
    rw [Error.mapFault_id, Answer.mapFault_id, Outcome.bimap_id] at houtcome
    exact ⟨houtcome, (hnodeAfter.perform operation).outcome⟩

/-- A script that fails one write and one read. -/
theorem transports_agree_on_rig :
    let rig : Rig :=
      { replies := [.value 0x1422, .value 0x1422, .fail 7], writeFaults := [(0x31, .fail 5)] }
    let operations : List Operation :=
      [.init, .verifiedRead 0x2B, .deinit, .init, .write 0x31 0x102]
    let serial := (Meter.fresh ({ device := rig } : SpiBus Rig) {}).after operations
    let node : Meter (NodeBus Rig Fault) :=
      (Meter.fresh { path := "spi", host := rig } {}).after operations
    rig.Steady ∧
      serial.bus.history =
        [[.write [0xAB], .read 2], [.write [0x86], .read 2], [.write [0x31, 1, 2]]] ∧
      node.bus.history =
        [ .opened "spi" (.ok ()), .configured ⟨8, 15625, 0⟩ (.ok ()),
          .exchanged [0xAB] 2 (.ok #v[0x14, 0x22]), .exchanged [0x86] 2 (.ok #v[0x14, 0x22]),
          .dropped, .opened "spi" (.ok ()), .configured ⟨8, 15625, 0⟩ (.ok ()),
          .wrote [0x31, 1, 2] (.error ⟨5⟩) ] ∧
      (serial.perform (.rawRead 0x48)).outcome = .failed (.interface ⟨7⟩) ∧
      (node.perform (.rawRead 0x48)).outcome = .failed (.interface (.host ⟨7⟩)) := by
  intro rig operations serial node
  have hsteady : rig.Steady := ⟨by simp [rig], by simp [rig], rfl, rfl, rfl⟩
  obtain ⟨-, -, ⟨-, -, hserial⟩, ⟨-, -, -, hnode⟩, hanswers⟩ :=
    transports_agree hsteady "spi" {} operations
  obtain ⟨honDevice, honNode⟩ := hanswers (.rawRead 0x48)
  refine ⟨hsteady, ?_, ?_, ?_, ?_⟩
  · exact hserial.trans (by decide +kernel)
  · exact hnode.trans rfl
  · exact honDevice.trans rfl
  · exact honNode.trans rfl

end EnergyMeter

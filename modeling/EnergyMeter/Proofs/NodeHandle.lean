import EnergyMeter.NodeSession
import EnergyMeter.Proofs.Lifecycle
import EnergyMeter.Proofs.NodeCalls

/-!
The handle of a device node.  Whatever the host answers, a node is open exactly
during a session, every handle but the open one was dropped, and no operation
ever finds the node closed.
-/

namespace EnergyMeter

variable {κ ε : Type}

/-- A host that is asked for one node and is never asked whether it is open. -/
structure HostBus (κ : Type) where
  path : String
  host : κ

/-- The error tells of a node that is not open. -/
def Error.isNotOpen : Error (NodeFault ε) → Bool
  | connectFailed .notOpen | configRejected .notOpen | interface .notOpen => true
  | _ => false

/-- The errors that an operation yields, as its own end or in the items of a dump. -/
def Outcome.errors {η : Type} : Outcome (Error ε) η (Answer ε) → List (Error ε)
  | .ok (.items items _ _) =>
      items.filterMap fun item =>
        match item.result with
        | .ok _ => none
        | .error error => some error
  | .ok _ => []
  | .failed error => [error]
  | .halted _ => []

theorem Error.isNotOpen_mapFault (error : Error ε) :
    (error.mapFault NodeFault.host).isNotOpen = false := by
  cases error <;> rfl

/-- A translation of faults translates the errors that are yielded. -/
theorem Outcome.errors_bimap {ζ η : Type} (fault : ε → ζ)
    (outcome : Outcome (Error ε) η (Answer ε)) :
    (outcome.bimap (Error.mapFault fault) (Answer.mapFault fault)).errors =
      outcome.errors.map (Error.mapFault fault) := by
  cases outcome with
  | failed error => rfl
  | halted cause => rfl
  | ok answer =>
      cases answer with
      | items items left hint =>
          simp only [bimap_ok, Answer.mapFault, errors, List.filterMap_map, List.map_filterMap]
          congr 1
          funext item
          obtain ⟨register, result⟩ := item
          cases result <;> rfl
      | _ => rfl

variable [NodeHost κ ε]

instance : Bus (HostBus κ) ε Empty where
  connect bus :=
    let (result, host) := NodeHost.openNode bus.host bus.path
    { result, bus := { bus with host } }
  configure bus speedHz :=
    let (result, host) := NodeHost.configure bus.host (NodeBus.options speedHz)
    (result, { bus with host })
  transfer bus sent size :=
    let (result, host) := NodeHost.exchange bus.host sent size
    ((Outcome.ofExcept result).bimap id (Received.mk size), { bus with host })
  write bus sent :=
    let (result, host) := NodeHost.write bus.host sent
    (.ofExcept result, { bus with host })
  disconnect bus := { result := .ok (), bus }

namespace NodeBus

/-- During a session a node answers as its host does, and it is open. -/
def ofHost : Simulation (HostBus κ) (NodeBus κ ε) NodeFault.host where
  related session plain bus := bus.path = plain.path ∧ bus.host = plain.host ∧ bus.isOpen = session
  connect {plain bus} h := by
    obtain ⟨hpath, hhost, hopen⟩ := h
    simp only [Bus.connect, connect, hpath, hhost]
    rcases NodeHost.openNode plain.host plain.path with ⟨fault | value, host⟩
    · exact ⟨rfl, hpath, rfl, hopen⟩
    · refine ⟨rfl, ?_, ?_, rfl⟩
      · simpa [after, drop, hopen] using hpath
      · simp [after, drop, hopen]
  configure {plain bus} h speedHz := by
    obtain ⟨hpath, hhost, hopen⟩ := h
    rw [configure_eq hopen, hhost]
    exact ⟨rfl, hpath, rfl, hopen⟩
  transfer {plain bus} h sent size := by
    obtain ⟨hpath, hhost, hopen⟩ := h
    rw [transfer_eq hopen, hhost]
    refine ⟨?_, hpath, rfl, hopen⟩
    simp only [Bus.transfer]
    cases (NodeHost.exchange plain.host sent size).1 with
    | ok bytes => rfl
    | error fault => rfl
  write {plain bus} h sent := by
    obtain ⟨hpath, hhost, hopen⟩ := h
    rw [write_eq hopen, hhost]
    exact ⟨rfl, hpath, rfl, hopen⟩
  disconnect {session plain bus} h := by
    obtain ⟨hpath, hhost, hopen⟩ := h
    simp only [Bus.disconnect, disconnect, drop]
    cases session with
    | true => simp [hopen, hpath, hhost, Except.mapError]
    | false => simp [hopen, hpath, hhost, Except.mapError]

end NodeBus

namespace Meter

variable (path : String) (host : κ) (config : Config)

/-- A fresh meter on a node answers as one that talks to the host. -/
theorem fresh_ofHost :
    (NodeBus.ofHost : Simulation (HostBus κ) (NodeBus κ ε) _).Meters (fresh ⟨path, host⟩ config)
      (fresh { path, host } config) :=
  ⟨rfl, rfl, rfl, rfl, rfl⟩

/-- A history on a node keeps the handle in step with the session. -/
theorem handle_after (operations : List Operation) :
    let last := (fresh ({ path, host } : NodeBus κ ε) config).after operations
    last.bus.isOpen = last.isInitialized ∧ last.bus.Accounted := by
  intro last
  have hmeters := (fresh_ofHost path host config).after operations
  refine ⟨hmeters.bus.2.2.trans hmeters.isInitialized_eq.symm, ?_⟩
  have hreplays := (fresh ({ path, host } : NodeBus κ ε) config).replays_after operations
  exact (NodeBus.OneHandle.of_replays hreplays rfl).accounted

/-- What a history comes to at a node. -/
theorem nodeHistory_after (operations : List Operation) :
    ∃ trace : List (Call ε Empty),
      calls ((fresh ({ path, host } : NodeBus κ ε) config).journal operations) =
          trace.map (.mapFault .host) ∧
        ((fresh ({ path, host } : NodeBus κ ε) config).after operations).bus.history =
          nodeHistory path false trace := by
  have hcalls := (fresh_ofHost path host config).calls_journal operations
  have hreplays := (fresh ({ path, host } : NodeBus κ ε) config).replays_after operations
  rw [hcalls] at hreplays
  exact ⟨_, hcalls, NodeBus.history_of_replays hreplays⟩

/-- No operation of a history finds the node closed. -/
theorem errors_after (operations : List Operation) (operation : Operation) :
    ∀ error ∈ (((fresh ({ path, host } : NodeBus κ ε) config).after operations).perform
        operation).outcome.errors, error.isNotOpen = false := by
  have hmeters := (fresh_ofHost path host config).after operations
  rw [(hmeters.perform operation).outcome, Outcome.errors_bimap]
  intro error herror
  obtain ⟨cause, -, rfl⟩ := List.mem_map.mp herror
  exact cause.isNotOpen_mapFault

/-- A session that does not come about leaves no handle. -/
theorem isOpen_of_init_failed {error : Error (NodeFault ε)}
    (hfailed : (fresh ({ path, host } : NodeBus κ ε) config).init.outcome = .failed error) :
    (fresh ({ path, host } : NodeBus κ ε) config).init.state.bus.isOpen = false := by
  have hok : (fresh ({ path, host } : NodeBus κ ε) config).init.outcome = .ok () ↔
      (fresh ({ path, host } : NodeBus κ ε) config).init.state.state ≠ .uninitialized :=
    init_ok_iff rfl
  have hstate : (fresh ({ path, host } : NodeBus κ ε) config).init.state.state =
      .uninitialized := by
    simpa [hfailed] using hok
  have hhandle := (handle_after path host config [.init]).1
  exact hhandle.trans (isInitialized_eq_false_iff.mpr hstate)

theorem openNode_eq :
    openNode path config host = (fresh ({ path, host } : NodeBus κ ε) config).init := by
  have hclosed := @isOpen_of_init_failed κ ε _ path host config
  simp only [fresh] at hclosed ⊢
  simp only [openNode]
  generalize (init { bus := { path, host }, config } : Run (Meter (NodeBus κ ε)) _ _ _) = begun
    at hclosed ⊢
  rcases begun with ⟨value | error | cause, state, journal⟩
  · rfl
  · simp only [NodeBus.drop_of_closed _ (hclosed rfl), onBus]
  · exact cause.elim

/-- What a session that does not come about leaves at its node: nothing, an
attempt that failed, or a handle that was dropped again. -/
theorem openNode_failed {error : Error (NodeFault ε)}
    (hfailed : (openNode path config host).outcome = .failed error) :
    let history := (openNode path config host).state.bus.history
    history = [] ∨ (∃ fault, history = [.opened path (.error fault)]) ∨
      ∃ fault, history = [.opened path (.ok ()),
        .configured (NodeBus.options config.speedHz) (.error fault), .dropped] := by
  rw [openNode_eq] at hfailed ⊢
  by_cases hspeed : config.speedHz = 0
  · left
    simp [init, fresh, Config.validate, hspeed, Run.refuse]
  · right
    have hinit := (fresh_ofHost path host config).init
    have hreplays := (fresh ({ path, host } : NodeBus κ ε) config).init_replays
    rw [hinit.calls] at hreplays
    rw [NodeBus.history_of_replays hreplays]
    rw [hinit.outcome] at hfailed
    have hopening := @init_opening _ _ _ _ (fresh (HostBus.mk path host) config) hspeed rfl
    rcases hrun : (fresh (HostBus.mk path host) config).init with ⟨outcome, last, journal⟩
    rw [hrun] at hopening hfailed
    replace hopening := hopening.1
    simp only at hopening hfailed ⊢
    generalize calls journal = made at hopening ⊢
    generalize last.state = state at hopening
    cases hopening with
    | unconnected fault => exact .inl ⟨fault, rfl⟩
    | rejected fault closed => exact .inr ⟨fault, rfl⟩
    | opened => simp at hfailed

/-- On a meter that was made fresh or by opening its node, whatever the host
answers: the node is open exactly during a session, the handles made exceed those
dropped by the one that is open, and no operation finds the node closed.  A node
whose session does not come about is left with no handle: it was never opened, or
its handle was dropped once. -/
theorem handles_follow_session :
    let fresh : Meter (NodeBus κ ε) := fresh { path, host } config
    let opened : Run (Meter (NodeBus κ ε)) (NodeFault ε) Empty Unit := openNode path config host
    (∀ meter, meter = fresh ∨ opened.outcome = .ok () ∧ meter = opened.state →
      ∀ operations,
        let last := meter.after operations
        (last.bus.isOpen = true ↔ last.state ≠ .uninitialized) ∧
          (last.bus.openings : Int) - last.bus.drops = (if last.bus.isOpen then 1 else 0) ∧
          ∀ operation, ∀ error ∈ (last.perform operation).outcome.errors,
            error.isNotOpen = false) ∧
      ∀ error, opened.outcome = .failed error →
        let last := opened.state.bus
        error.isNotOpen = false ∧ last.isOpen = false ∧ last.drops = last.openings ∧
          (last.history = [] ∨ (∃ fault, last.history = [.opened path (.error fault)]) ∨
            ∃ fault, last.history = [.opened path (.ok ()),
              .configured (NodeBus.options config.speedHz) (.error fault), .dropped]) := by
  intro fresh opened
  have hopened : opened = fresh.init := openNode_eq path host config
  constructor
  · intro meter hmeter operations last
    -- A node that was opened is a fresh one after its first operation.
    obtain ⟨history, hlast⟩ : ∃ history, last = fresh.after history := by
      rcases hmeter with rfl | ⟨-, rfl⟩
      · exact ⟨operations, rfl⟩
      · exact ⟨.init :: operations, by simp only [last, hopened]; rfl⟩
    obtain ⟨hopen, hcount⟩ := handle_after path host config history
    have herrors := errors_after path host config history
    rw [← hlast] at hopen hcount herrors
    refine ⟨?_, hcount.sub_eq, herrors⟩
    rw [hopen, isInitialized_eq_true_iff]
  · intro error hfailed last
    have hhistory := openNode_failed path host config hfailed
    rw [hopened] at hfailed
    have hclosed : last.isOpen = false := by
      simpa only [last, hopened] using isOpen_of_init_failed path host config hfailed
    have hcount : last.Accounted := by
      simp only [last, hopened]
      exact (handle_after path host config [.init]).2
    refine ⟨?_, hclosed, ?_, hhistory⟩
    · apply errors_after path host config [] .init
      simp [perform, Run.map, Outcome.errors, fresh, hfailed]
    · simpa [NodeBus.Accounted, hclosed] using hcount.symm

end Meter

end EnergyMeter

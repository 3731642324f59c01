import EnergyMeter.Bus
import EnergyMeter.Register.Frame

/-!
A listener on the bus.  It hears nothing but the calls and says what the log must hold:
a record for every write that moved its whole frame, a warning when the shadow of a
register shows another word than the register did, and, during a start, the next step
after each write.
-/

namespace EnergyMeter

variable {ε η α : Type}

namespace Call

/-- The register and the word of a write that moved its whole frame. -/
def written? : Call ε η → Option (Address × Word)
  | .write [header, high, low] (.ok 3) => some (Frame.address header, .ofBytes high low)
  | _ => none

/-- The register and the word of a read that moved both bytes. -/
def arrived? : Call ε η → Option (Address × Word)
  | .transfer [header] 2 (.ok received) =>
      if received.count = 2 then some (Frame.address header, received.word) else none
  | _ => none

end Call

/-- The steps of a start, in the order of issue. -/
def StartupStep.sequence : List StartupStep :=
  [softReset, currentGain, calibrationStart, adjustmentStart, currentGainCalibration,
    adjustmentChecksum, sagThreshold, sagEnable]

/-- The step whose beginning is recorded. -/
def Record.started? : Record → Option StartupStep
  | stepStarted step => some step
  | _ => none

/-- A record that only the end of a start leaves. -/
def Record.isClosing : Record → Bool
  | stepAborted _ | running _ => true
  | _ => false

theorem Record.level_of_isClosing {record : Record} (h : record.isClosing = true) :
    record.level ≠ .trace := by
  cases record <;> simp_all [isClosing, level]

theorem Record.started?_of_isClosing {record : Record} (h : record.isClosing = true) :
    record.started? = none := by
  cases record <;> simp_all [isClosing, started?]

@[simp]
theorem records_call (made : Call ε η) (journal : List (Entry ε η)) :
    records (.call made :: journal) = records journal := rfl

@[simp]
theorem records_record (record : Record) (journal : List (Entry ε η)) :
    records (.record record :: journal) = record :: records journal := rfl

theorem records_map_record (said : List Record) :
    records (said.map (.record : Record → Entry ε η)) = said := by
  rw [records, List.filterMap_map]
  exact List.filterMap_some

/-- Some writes as they are recorded. -/
def recorded (writes : List (Address × Word)) : List Record :=
  writes.map fun made => .wrote made.1 made.2

/-- The records of a journal that have this level. -/
def recordsAt (level : Level) (journal : List (Entry ε η)) : List Record :=
  (records journal).filter fun record => record.level = level

theorem recordsAt_map_record (level : Level) (said : List Record) :
    recordsAt level (said.map (.record : Record → Entry ε η)) =
      said.filter fun record => record.level = level := by
  rw [recordsAt, records_map_record]

@[simp]
theorem recordsAt_nil (level : Level) : recordsAt level ([] : List (Entry ε η)) = [] := rfl

@[simp]
theorem recordsAt_call (level : Level) (made : Call ε η) (journal : List (Entry ε η)) :
    recordsAt level (.call made :: journal) = recordsAt level journal := rfl

theorem recordsAt_record (level : Level) (record : Record) (journal : List (Entry ε η)) :
    recordsAt level (.record record :: journal) =
      if record.level = level then record :: recordsAt level journal
      else recordsAt level journal := by
  simp only [recordsAt, records_record, List.filter_cons, decide_eq_true_eq]

@[simp]
theorem recordsAt_append (level : Level) (first second : List (Entry ε η)) :
    recordsAt level (first ++ second) = recordsAt level first ++ recordsAt level second := by
  rw [recordsAt, records_append, List.filter_append]
  rfl

/-- The warning that two first replies which differ call for. -/
def disputes : List (Call ε η) → List Record
  | first :: second :: _ =>
      match first.arrived?, second.arrived? with
      | some (address, target), some (_, shadow) =>
          if target = shadow then [] else [.mismatch address target shadow]
      | _, _ => []
  | _ => []

/-- What a listener waits for. -/
inductive Attention where
  | idle
  /-- The shadow of a register that showed a word. -/
  | shadow (address : Address) (target : Word)
  /-- The shadow again, after it differed. -/
  | again

/-- A listener with the steps of a start that are still to be announced. -/
structure Listener where
  attention : Attention
  steps : List StartupStep

namespace Listener

/-- A listener that waits for nothing. -/
def idle (steps : List StartupStep) : Listener :=
  ⟨.idle, steps⟩

/-- What a listener says to a call, and what it waits for then. -/
def hear (listener : Listener) (call : Call ε η) : List Record × Listener :=
  match call.written? with
  | some (address, word) =>
      (.wrote address word :: (listener.steps.take 1).map .stepStarted,
        .idle (listener.steps.drop 1))
  | none =>
      match listener.attention, call.arrived? with
      | .idle, some (address, target) => ([], ⟨.shadow address target, listener.steps⟩)
      | .shadow address target, some (_, shadow) =>
          if target = shadow then ([], .idle listener.steps)
          else ([.mismatch address target shadow], ⟨.again, listener.steps⟩)
      | _, _ => ([], .idle listener.steps)

/-- What a listener waits for after some calls. -/
def after (listener : Listener) (trace : List (Call ε η)) : Listener :=
  trace.foldl (fun listener call => (listener.hear call).2) listener

/-- Some calls, each with what a listener says to it. -/
def narrate (listener : Listener) : List (Call ε η) → List (Entry ε η)
  | [] => []
  | call :: rest =>
      .call call :: (listener.hear call).1.map .record ++ (listener.hear call).2.narrate rest

theorem narrate_append (listener : Listener) (first second : List (Call ε η)) :
    listener.narrate (first ++ second) =
      listener.narrate first ++ (listener.after first).narrate second := by
  induction first generalizing listener with
  | nil => rfl
  | cons call rest ih =>
      simp only [List.cons_append, narrate, ih, List.append_assoc]
      rfl

theorem after_append (listener : Listener) (first second : List (Call ε η)) :
    listener.after (first ++ second) = (listener.after first).after second :=
  List.foldl_append

theorem hear_written {call : Call ε η} {address : Address} {word : Word}
    (h : call.written? = some (address, word)) (listener : Listener) :
    listener.hear call =
      (.wrote address word :: (listener.steps.take 1).map .stepStarted,
        .idle (listener.steps.drop 1)) := by
  rw [hear, h]

theorem hear_nothing {call : Call ε η} (hwritten : call.written? = none)
    (harrived : call.arrived? = none) (listener : Listener) :
    listener.hear call = ([], .idle listener.steps) := by
  rcases listener with ⟨_ | _ | _, steps⟩ <;> simp only [hear, hwritten, harrived]

/-- A call that is no finished write draws a warning or nothing. -/
theorem hear_unwritten {call : Call ε η} (h : call.written? = none) (listener : Listener) :
    ((listener.hear call).1 = [] ∨
        ∃ address target shadow, (listener.hear call).1 = [.mismatch address target shadow]) ∧
      (listener.hear call).2.steps = listener.steps := by
  cases harrived : call.arrived? with
  | none =>
      rw [hear_nothing h harrived]
      exact ⟨.inl rfl, rfl⟩
  | some arrived =>
      rcases listener with ⟨_ | ⟨address, target⟩ | _, steps⟩
      · simp [hear, h, harrived]
      · by_cases hagree : target = arrived.2
        · simp [hear, h, harrived, hagree, idle]
        · simp [hear, h, harrived, hagree]
      · simp [hear, h, idle]

theorem records_narrate_cons (listener : Listener) (call : Call ε η) (rest : List (Call ε η)) :
    records (listener.narrate (call :: rest)) =
      (listener.hear call).1 ++ records ((listener.hear call).2.narrate rest) := by
  rw [narrate, List.cons_append, records_call, records_append, records_map_record]

/-- The trace of a narration tells the writes. -/
theorem recordsAt_trace_narrate (listener : Listener) (trace : List (Call ε η)) :
    recordsAt .trace (listener.narrate trace) =
      recorded (trace.filterMap Call.written?) := by
  induction trace generalizing listener with
  | nil => rfl
  | cons call rest ih =>
      rw [recordsAt, records_narrate_cons, List.filter_append, ← recordsAt, ih]
      cases hwritten : call.written? with
      | some made =>
          have hsteps : ((listener.steps.take 1).map Record.stepStarted).filter
              (fun record => record.level = .trace) = [] := by
            rw [List.filter_eq_nil_iff]
            intro record hrecord
            obtain ⟨step, -, rfl⟩ := List.mem_map.mp hrecord
            simp [Record.level]
          rw [hear_written hwritten, List.filterMap_cons_some hwritten,
            List.filter_cons_of_pos (by rfl), hsteps]
          rfl
      | none =>
          rw [List.filterMap_cons_none hwritten]
          obtain ⟨hsaid | ⟨address, target, shadow, hsaid⟩, -⟩ := hear_unwritten hwritten listener
          · rw [hsaid]
            rfl
          · rw [hsaid]
            rfl

/-- A narration announces a step for each write, as long as there are any. -/
theorem started_narrate (listener : Listener) (trace : List (Call ε η)) :
    (records (listener.narrate trace)).filterMap Record.started? =
      listener.steps.take (trace.filterMap Call.written?).length := by
  induction trace generalizing listener with
  | nil => rfl
  | cons call rest ih =>
      rw [records_narrate_cons, List.filterMap_append, ih]
      cases hwritten : call.written? with
      | some made =>
          have hsteps : ((listener.steps.take 1).map Record.stepStarted).filterMap
              Record.started? = listener.steps.take 1 := by
            rw [List.filterMap_map]
            exact List.filterMap_some
          rw [hear_written hwritten, List.filterMap_cons_some hwritten,
            List.filterMap_cons_none rfl, hsteps, List.length_cons, Nat.add_comm, List.take_add]
          rfl
      | none =>
          obtain ⟨hsaid | ⟨address, target, shadow, hsaid⟩, hsteps⟩ :=
            hear_unwritten hwritten listener <;>
            rw [hsaid, hsteps, List.filterMap_cons_none hwritten] <;> rfl

/-- A narration leaves the end to others. -/
theorem isClosing_narrate (listener : Listener) (trace : List (Call ε η)) :
    ∀ record ∈ records (listener.narrate trace), record.isClosing = false := by
  induction trace generalizing listener with
  | nil => simp [narrate, records]
  | cons call rest ih =>
      rw [records_narrate_cons]
      refine List.forall_mem_append.mpr ⟨?_, ih _⟩
      cases hwritten : call.written? with
      | some made =>
          rw [hear_written hwritten]
          refine List.forall_mem_cons.mpr ⟨rfl, fun record hrecord => ?_⟩
          obtain ⟨step, -, rfl⟩ := List.mem_map.mp hrecord
          rfl
      | none =>
          obtain ⟨hsaid | ⟨address, target, shadow, hsaid⟩, -⟩ := hear_unwritten hwritten listener
          · simp [hsaid]
          · simp [hsaid, Record.isClosing]

end Listener

/-- What some steps are announced by. -/
def announcements (steps : List StartupStep) : List (Entry ε η) :=
  (steps.map .stepStarted).map .record

/-- A journal with a number of writes that a listener tells, with a step announced after
each write. -/
structure Heard (made : Nat) (journal : List (Entry ε η)) : Prop where
  written : ((calls journal).filterMap Call.written?).length = made
  told (steps : List StartupStep) :
    (Listener.idle steps).narrate (calls journal) =
      journal ++ announcements (steps.take made)
  settled (steps : List StartupStep) :
    (Listener.idle steps).after (calls journal) = .idle (steps.drop made)

/-- A journal that a listener tells who has no step to announce. -/
def Narrated (journal : List (Entry ε η)) : Prop :=
  (Listener.idle []).narrate (calls journal) = journal

/-- A journal that warns of two first replies which differ, and of nothing else. -/
def Warned (journal : List (Entry ε η)) : Prop :=
  recordsAt .warn journal = disputes (calls journal)

/-- The warning that ends a start in which some writes were made and then one step failed. -/
def aborted (steps : List StartupStep) (written : Nat) : Outcome (Error ε) η Unit → List Record
  | .failed _ => ((steps.drop written).take 1).map .stepAborted
  | .ok _ | .halted _ => []

theorem aborted_failed {steps : List StartupStep} {written : Nat} (h : written < steps.length)
    (error : Error ε) :
    aborted steps written (.failed error : Outcome (Error ε) η Unit) =
      [.stepAborted steps[written]] := by
  rw [aborted, List.drop_eq_getElem_cons h]
  rfl

theorem aborted_cons (name : StartupStep) (steps : List StartupStep) (written : Nat)
    (outcome : Outcome (Error ε) η Unit) :
    aborted (name :: steps) (written + 1) outcome = aborted steps written outcome := by
  cases outcome <;> rfl

namespace Heard

section

variable {made : Nat} {journal first second : List (Entry ε η)}

theorem nil : Heard 0 ([] : List (Entry ε η)) :=
  ⟨rfl, fun _ => rfl, fun _ => rfl⟩

theorem append (hfirst : Heard 0 first) (hsecond : Heard made second) :
    Heard made (first ++ second) where
  written := by
    rw [calls_append, List.filterMap_append, List.length_append, hfirst.written, hsecond.written,
      Nat.zero_add]
  told steps := by
    have hnone : announcements (steps.take 0) = ([] : List (Entry ε η)) := rfl
    rw [calls_append, Listener.narrate_append, hfirst.told, hfirst.settled, List.drop_zero,
      hsecond.told, hnone, List.append_nil, List.append_assoc]
  settled steps := by
    rw [calls_append, Listener.after_append, hfirst.settled, hsecond.settled, List.drop_zero]

theorem narrated (h : Heard made journal) : Narrated journal := by
  rw [Narrated, h.told, List.take_nil]
  exact List.append_nil journal

end

variable {first second third : Call ε η} {address source : Address} {target shadow : Word}

theorem silent (hwritten : first.written? = none) (harrived : first.arrived? = none) :
    Heard 0 [.call first] where
  written := by simp [hwritten]
  told steps := by simp [Listener.narrate, Listener.hear_nothing hwritten harrived, announcements]
  settled steps := by
    simp [Listener.after, Listener.hear_nothing hwritten harrived, Listener.idle]

theorem noted (hwritten : first.written? = some (address, target)) :
    Heard 1 [.call first, .record (.wrote address target)] where
  written := by
    rw [calls_call, List.filterMap_cons_some hwritten]
    rfl
  told steps := by
    rw [calls_call, Listener.narrate, Listener.hear_written hwritten]
    exact List.append_nil _
  settled steps := by
    rw [calls_call, Listener.after, List.foldl_cons, Listener.hear_written hwritten]
    rfl

theorem cut (hfirst : first.written? = none) (htarget : first.arrived? = some (address, target))
    (hsecond : second.written? = none) (hshadow : second.arrived? = none) :
    Heard 0 [.call first, .call second] where
  written := by simp [hfirst, hsecond]
  told steps := by
    simp [Listener.narrate, Listener.hear, Listener.idle, hfirst, htarget, hsecond, hshadow,
      announcements]
  settled steps := by
    simp [Listener.after, Listener.hear, Listener.idle, hfirst, htarget, hsecond, hshadow]

theorem agreed (hfirst : first.written? = none) (htarget : first.arrived? = some (address, target))
    (hsecond : second.written? = none) (hshadow : second.arrived? = some (source, shadow))
    (h : target = shadow) : Heard 0 [.call first, .call second] where
  written := by simp [hfirst, hsecond]
  told steps := by
    simp [Listener.narrate, Listener.hear, Listener.idle, hfirst, htarget, hsecond, hshadow, h,
      announcements]
  settled steps := by
    simp [Listener.after, Listener.hear, Listener.idle, hfirst, htarget, hsecond, hshadow, h]

theorem disputed (hfirst : first.written? = none)
    (htarget : first.arrived? = some (address, target)) (hsecond : second.written? = none)
    (hshadow : second.arrived? = some (source, shadow)) (hthird : third.written? = none)
    (h : target ≠ shadow) :
    Heard 0 [.call first, .call second, .record (.mismatch address target shadow),
      .call third] where
  written := by simp [hfirst, hsecond, hthird]
  told steps := by
    simp [Listener.narrate, Listener.hear, Listener.idle, hfirst, htarget, hsecond, hshadow,
      hthird, h, announcements]
  settled steps := by
    simp [Listener.after, Listener.hear, Listener.idle, hfirst, htarget, hsecond, hshadow,
      hthird, h]

end Heard

theorem written?_write (address : Address) (word : Word) :
    (Call.write (Frame.write address word) (.ok 3) : Call ε η).written? = some (address, word) := by
  rw [Frame.write, Call.written?, Frame.address_toByte, Word.ofBytes_high_low]

theorem arrived?_read (address : Address) (received : Received 2) :
    (Call.transfer (Frame.readHeader address) 2 (.ok received) : Call ε η).arrived? =
      if received.count = 2 then some (address, received.word) else none := by
  have harrived : (Call.transfer (Frame.readHeader address) 2 (.ok received) : Call ε η).arrived? =
      if received.count = 2 then
        some (Frame.address (address.toByte ||| Frame.readMarker), received.word)
      else none := rfl
  rw [harrived, Frame.address_marked]

end EnergyMeter

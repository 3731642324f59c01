import EnergyMeter.Proofs.History
import EnergyMeter.Proofs.StartTrace

/-!
A meter that runs is configured.  The words behind a bus change only by writes
that the bus acknowledges, reads may bring anything, and every call may fail.
Whatever happened, the registers of a running meter hold the setup of its last
start that succeeded.
-/

namespace EnergyMeter

variable {β ε η : Type}

/-- Words behind a bus, which only an acknowledged write frame can change.  The
laws are asked of sound buses, and a sound bus stays sound. -/
structure StoredWords (β : Type) {ε η : Type} [Bus β ε η] where
  sound : β → Prop
  words : β → Address → Word
  connect (bus : β) (h : sound bus) :
    sound (Bus.connect bus).bus ∧ words (Bus.connect bus).bus = words bus
  configure (bus : β) (speedHz : UInt32) (h : sound bus) :
    sound (Bus.configure bus speedHz).2 ∧ words (Bus.configure bus speedHz).2 = words bus
  transfer (bus : β) (sent : List Byte) (size : Nat) (h : sound bus) :
    sound (Bus.transfer bus sent size).2 ∧ words (Bus.transfer bus sent size).2 = words bus
  write (bus : β) (header high low : Byte) (h : sound bus) :
    let written := Bus.write bus [header, high, low]
    sound written.2 ∧
      (written.1 = .ok 3 ∧
          words written.2 =
            RegisterFile.update (words bus) (Frame.address header) (.ofBytes high low) ∨
        written.1 ≠ .ok 3 ∧ words written.2 = words bus)
  disconnect (bus : β) (h : sound bus) :
    sound (Bus.disconnect bus).bus ∧ words (Bus.disconnect bus).bus = words bus

open Register in
/-- The words hold the setup of a start. -/
structure Configured (gain : CurrentGain) (sagCounts : Word) (words : Address → Word) : Prop where
  gain : (words mMode).extractLsb' 13 3 = gain.bits
  calStart : words calStart = 0x5678
  adjStart : words adjStart = 0x5678
  igainL : words igainL = 0x21C1
  cs2 : words cs2 = 0xE20E
  sagTh : words sagTh = sagCounts
  sagWarnOut : (words funcEn).getLsbD 4 = true
  sagEnable : (words funcEn).getLsbD 5 = true

/-- The words after a call.  Only an acknowledged frame stores. -/
def Call.storeIn (words : Address → Word) : Call ε η → Address → Word
  | .write [header, high, low] (.ok count) =>
      if count = 3 then RegisterFile.update words (Frame.address header) (.ofBytes high low)
      else words
  | _ => words

@[simp]
theorem Call.storeIn_stored (words : Address → Word) (address : Address) (word : Word) :
    (stored address word : Call ε η).storeIn words = RegisterFile.update words address word := by
  simp [stored, storeIn, Frame.write, Frame.address_toByte, Word.ofBytes_high_low]

theorem Call.storeIn_of_ne {result : Outcome ε η Nat} (h : result ≠ .ok 3)
    (words : Address → Word) (frame : List Byte) :
    (Call.write frame result).storeIn words = words := by
  unfold storeIn
  split
  · rename_i count heq
    obtain ⟨-, rfl⟩ := Call.write.inj heq
    exact if_neg fun hcount => h (congrArg Outcome.ok hcount)
  · rfl

theorem Call.storeIn_write_of_ne {address target : Address} (h : address ≠ target)
    (words : Address → Word) (word : Word) (result : Outcome ε η Nat) :
    (Call.write (Frame.write target word) result).storeIn words address = words address := by
  cases result with
  | ok count =>
      by_cases hcount : count = 3
      · simp [Frame.write, storeIn, hcount, Frame.address_toByte, RegisterFile.update, h]
      · simp [Frame.write, storeIn, hcount]
  | failed fault => rfl
  | halted cause => rfl

/-- The words after a trace. -/
def wordsAfter (words : Address → Word) (trace : List (Call ε η)) : Address → Word :=
  trace.foldl Call.storeIn words

theorem VerifiedTrace.wordsAfter {address : Address} {word : Word} {trace : List (Call ε η)}
    (h : VerifiedTrace address word trace) (words : Address → Word) :
    wordsAfter words trace = words := by
  cases h with
  | agreed word => rfl
  | disputed differ word => rfl

/-- Whatever the words were, the calls of a start leave its setup. -/
theorem StartTrace.configured {gain : CurrentGain} {sagCounts : Word} {trace : List (Call ε η)}
    (h : StartTrace gain sagCounts trace) (words : Address → Word) :
    Configured gain sagCounts (wordsAfter words trace) := by
  obtain ⟨mode, functions, modeReads, functionReads, hmode, hfunctions, rfl⟩ := h
  have hmodeReads : ∀ words, modeReads.foldl Call.storeIn words = words := hmode.wordsAfter
  have hfunctionReads : ∀ words, functionReads.foldl Call.storeIn words = words :=
    hfunctions.wordsAfter
  have hgain : ((mode &&& (0x1FFF : Word)) ||| (gain.bits.setWidth 16 <<< 13)).extractLsb' 13 3 =
      gain.bits := by
    rw [← MeterMode.withGain_eq]
    exact Field.bits_putBits MeterMode.currentGain mode gain.bits
  simp only [wordsAfter, List.foldl_append, List.foldl_cons, List.foldl_nil, hmodeReads,
    hfunctionReads, Call.storeIn_stored]
  constructor
  · exact hgain
  all_goals simp [RegisterFile.update, Register.calStart, Register.adjStart, Register.igainL,
    Register.cs2, Register.sagTh, Register.funcEn]

namespace Operation

/-- The setup that a start asks for. -/
def setup? (operation : Operation) : Option (CurrentGain × Word) :=
  match operation.kind with
  | .start gain sagVolts => (Quantity.sagCounts? sagVolts).map (Prod.mk gain)
  | _ => none

/-- An operation that writes no register of the setup on its own. -/
def KeepsSetup (operation : Operation) : Prop :=
  ∀ address ∈ startupRegisters, ¬ operation.Writes address

end Operation

/-- The setup of a start that succeeded. -/
def Run.started? {σ α : Type} (operation : Operation) (run : Run σ ε η α) :
    Option (CurrentGain × Word) :=
  match run.outcome with
  | .ok _ => operation.setup?
  | .failed _ | .halted _ => none

@[simp]
theorem Run.started?_map {σ α γ : Type} (operation : Operation) (f : α → γ) (run : Run σ ε η α) :
    (run.map f).started? operation = run.started? operation := by
  rcases run with ⟨value | error | cause, state, journal⟩ <;> rfl

theorem Run.started?_eq_none {σ α : Type} {operation : Operation} (h : operation.setup? = none)
    (run : Run σ ε η α) : run.started? operation = none := by
  rcases run with ⟨value | error | cause, state, journal⟩
  · exact h
  · rfl
  · rfl

variable [Bus β ε η]

namespace Meter

/-- The setup of the last start in a history that succeeded. -/
def lastSetup? (meter : Meter β) (operations : List Operation) : Option (CurrentGain × Word) :=
  (operations.zip (meter.performAll operations)).foldl
    (fun last made => (made.2.started? made.1).or last) none

theorem length_performAll (meter : Meter β) (operations : List Operation) :
    (meter.performAll operations).length = operations.length := by
  induction operations generalizing meter with
  | nil => rfl
  | cons operation rest ih => exact congrArg Nat.succ (ih _)

theorem lastSetup?_concat (meter : Meter β) (operations : List Operation)
    (operation : Operation) :
    meter.lastSetup? (operations ++ [operation]) =
      (((meter.after operations).perform operation).started? operation).or
        (meter.lastSetup? operations) := by
  rw [lastSetup?, performAll_concat, List.zip_append (length_performAll ..).symm,
    List.foldl_append]
  rfl

end Meter

namespace StoredWords

variable (chip : StoredWords β)

/-- A sound bus with the words that a trace leaves behind another one. -/
structure Reaches (bus : β) (trace : List (Call ε η)) (last : β) : Prop where
  sound : chip.sound last
  words : chip.words last = wordsAfter (chip.words bus) trace

variable {chip} {bus middle last : β} {writes : Address → Prop} {journal : List (Entry ε η)}

theorem Reaches.trans {first second : List (Call ε η)} (hfirst : chip.Reaches bus first middle)
    (hsecond : chip.Reaches middle second last) : chip.Reaches bus (first ++ second) last where
  sound := hsecond.sound
  words := by
    rw [hsecond.words, hfirst.words, wordsAfter, wordsAfter, wordsAfter, List.foldl_append]

theorem reaches_readRegister (hsound : chip.sound bus) (address : Address) :
    chip.Reaches bus (calls (readRegister address bus).journal)
      (readRegister address bus).state := by
  obtain ⟨hafter, hwords⟩ := chip.transfer bus (Frame.readHeader address) 2 hsound
  exact ⟨hafter, hwords⟩

theorem reaches_writeRegister (hsound : chip.sound bus) (address : Address) (word : Word) :
    chip.Reaches bus (calls (writeRegister address word bus).journal)
      (writeRegister address word bus).state := by
  obtain ⟨hafter, hwords⟩ := chip.write bus address.toByte word.high word.low hsound
  rw [writeRegister_state, calls_writeRegister]
  refine ⟨hafter, ?_⟩
  rcases hwords with ⟨hok, hwords⟩ | ⟨hne, hwords⟩
  · rw [Frame.write, hwords, hok]
    rfl
  · rw [Frame.write, hwords, wordsAfter, List.foldl_cons, List.foldl_nil,
      Call.storeIn_of_ne hne]

theorem reaches_of_exchanges (h : Exchanges writes bus journal last) (hsound : chip.sound bus) :
    chip.Reaches bus (calls journal) last := by
  induction h with
  | done bus => exact ⟨hsound, rfl⟩
  | read address rest ih =>
      have hfirst := reaches_readRegister hsound address
      rw [calls_append]
      exact hfirst.trans (ih hfirst.sound)
  | @write bus last journal address allowed word rest ih =>
      have hfirst := reaches_writeRegister hsound address word
      rw [calls_append]
      exact hfirst.trans (ih hfirst.sound)
  | note record rest ih => exact ih hsound

/-- Exchanges leave alone what they may not write. -/
theorem words_of_exchanges (h : Exchanges writes bus journal last) (hsound : chip.sound bus)
    {address : Address} (hkept : ¬ writes address) :
    chip.words last address = chip.words bus address := by
  induction h with
  | done bus => rfl
  | read target rest ih =>
      have hfirst := reaches_readRegister hsound target
      rw [ih hfirst.sound, hfirst.words]
      rfl
  | @write bus last journal target allowed word rest ih =>
      have hfirst := reaches_writeRegister hsound target word
      have hne : address ≠ target := by
        rintro rfl
        exact hkept allowed
      rw [ih hfirst.sound, hfirst.words, calls_writeRegister, wordsAfter, List.foldl_cons,
        List.foldl_nil, Call.storeIn_write_of_ne hne]
  | note record rest ih => exact ih hsound

/-- Calls that move no bytes keep a bus sound. -/
theorem sound_of_links {trace : List (Call ε η)} (h : Replays bus trace last)
    (hsound : chip.sound bus) (hlinks : ∀ call ∈ trace, ¬ call.IsExchange) :
    chip.sound last := by
  induction trace generalizing bus with
  | nil =>
      obtain rfl := h.eq_of_nil
      exact hsound
  | cons call rest ih =>
      obtain ⟨-, hrest⟩ := h.uncons
      have hlink : chip.sound (Bus.perform bus call.command).bus := by
        cases call with
        | connect result => exact (chip.connect bus hsound).1
        | configure speedHz result => exact (chip.configure bus speedHz hsound).1
        | transfer sent size result => exact absurd trivial (hlinks _ List.mem_cons_self)
        | write sent result => exact absurd trivial (hlinks _ List.mem_cons_self)
        | disconnect result => exact (chip.disconnect bus hsound).1
      exact ih hrest hlink fun other hother =>
        hlinks other (List.mem_cons_of_mem _ hother)

end StoredWords

theorem Opening.not_isExchange {speedHz : UInt32} {made : List (Call ε η)}
    {outcome : Outcome (Error ε) η Unit} {state : State}
    (h : Opening speedHz made outcome state) : ∀ call ∈ made, ¬ call.IsExchange := by
  cases h with
  | unconnected fault => simp [Call.IsExchange]
  | rejected fault closed => simp [Call.IsExchange]
  | opened => simp [Call.IsExchange]

theorem Opening.state_ne_running {speedHz : UInt32} {made : List (Call ε η)}
    {outcome : Outcome (Error ε) η Unit} {state : State}
    (h : Opening speedHz made outcome state) (gain : CurrentGain) : state ≠ .running gain := by
  cases h with
  | unconnected fault => nofun
  | rejected fault closed => nofun
  | opened => nofun

theorem Configured.congr {gain : CurrentGain} {sagCounts : Word} {words others : Address → Word}
    (h : Configured gain sagCounts words)
    (hsame : ∀ address ∈ startupRegisters, others address = words address) :
    Configured gain sagCounts others := by
  have hmode := hsame Register.mMode (by decide)
  have hfunctions := hsame Register.funcEn (by decide)
  constructor
  · rw [hmode, h.gain]
  · rw [hsame _ (by decide), h.calStart]
  · rw [hsame _ (by decide), h.adjStart]
  · rw [hsame _ (by decide), h.igainL]
  · rw [hsame _ (by decide), h.cs2]
  · rw [hsame _ (by decide), h.sagTh]
  · rw [hfunctions, h.sagWarnOut]
  · rw [hfunctions, h.sagEnable]

/-- What every history keeps: a running meter holds the last setup. -/
structure HoldsSetup (chip : StoredWords β) (meter : Meter β)
    (last : Option (CurrentGain × Word)) : Prop where
  sound : chip.sound meter.bus
  running (gain : CurrentGain) (hrunning : meter.state = .running gain) :
    ∃ sagCounts, last = some (gain, sagCounts) ∧
      Configured gain sagCounts (chip.words meter.bus)

namespace HoldsSetup

variable {chip : StoredWords β} {meter : Meter β} {last : Option (CurrentGain × Word)}

theorem init (h : HoldsSetup chip meter last) :
    HoldsSetup chip (meter.init : Run (Meter β) ε η Unit).state last := by
  by_cases hidle : meter.config.speedHz = 0 ∨ meter.isInitialized = true
  · rw [(Meter.init_idle hidle).2]
    exact h
  · rw [not_or, Bool.not_eq_true] at hidle
    obtain ⟨hopening, -, hreplays⟩ := Meter.init_opening hidle.1 hidle.2
    refine ⟨StoredWords.sound_of_links hreplays h.sound hopening.not_isExchange, ?_⟩
    intro gain hrunning
    exact absurd hrunning (hopening.state_ne_running gain)

theorem deinit (h : HoldsSetup chip meter last) :
    HoldsSetup chip (meter.deinit : Run (Meter β) ε η Unit).state last where
  sound := (chip.disconnect meter.bus h.sound).1
  running _ hrunning := nomatch hrunning

theorem access (h : HoldsSetup chip meter last) {operation : Operation}
    (hkind : operation.kind = .access) (hkeeps : operation.KeepsSetup) :
    HoldsSetup chip (meter.perform operation).state last := by
  have haccess := meter.perform_accesses hkind
  refine ⟨(StoredWords.reaches_of_exchanges haccess.exchanges h.sound).sound, ?_⟩
  intro gain hrunning
  rw [haccess.state] at hrunning
  obtain ⟨sagCounts, hlast, hconfigured⟩ := h.running gain hrunning
  refine ⟨sagCounts, hlast, hconfigured.congr ?_⟩
  intro address haddress
  exact StoredWords.words_of_exchanges haccess.exchanges h.sound (hkeeps address haddress)

theorem start (h : HoldsSetup chip meter last) {operation : Operation} {gain : CurrentGain}
    {sagVolts : Float32} {sagCounts : Word} (hkind : operation.kind = .start gain sagVolts)
    (hsession : meter.isInitialized = true)
    (hcounts : Quantity.sagCounts? sagVolts = some sagCounts) :
    HoldsSetup chip (meter.start gain sagVolts).state
      (((meter.start gain sagVolts).started? operation).or last) := by
  have hreaches := StoredWords.reaches_of_exchanges (meter.start_exchanges gain sagVolts) h.sound
  refine ⟨hreaches.sound, ?_⟩
  intro other hrunning
  rw [Meter.start_state gain hsession hcounts] at hrunning
  rcases Meter.start_full_or_breaksOff gain hsession hcounts with ⟨hok, hfull⟩ | hbroken
  · rw [hok, State.afterStart, State.running.injEq] at hrunning
    obtain rfl := hrunning
    have hstarted : (meter.start gain sagVolts).started? operation = some (gain, sagCounts) := by
      simp [Run.started?, hok, Operation.setup?, hkind, hcounts]
    refine ⟨sagCounts, by rw [hstarted, Option.some_or], ?_⟩
    rw [hreaches.words]
    exact hfull.configured _
  · rw [State.afterStart_of_ne hbroken.ending_ne] at hrunning
    cases hrunning

theorem perform (h : HoldsSetup chip meter last) {operation : Operation}
    (hkeeps : operation.KeepsSetup) :
    HoldsSetup chip (meter.perform operation).state
      (((meter.perform operation).started? operation).or last) := by
  cases hkind : operation.kind with
  | init =>
      rw [Run.started?_eq_none (by rw [Operation.setup?, hkind]), Option.none_or,
        meter.perform_init hkind]
      exact h.init
  | deinit =>
      rw [Run.started?_eq_none (by rw [Operation.setup?, hkind]), Option.none_or,
        meter.perform_deinit hkind]
      exact h.deinit
  | access =>
      rw [Run.started?_eq_none (by rw [Operation.setup?, hkind]), Option.none_or]
      exact h.access hkind hkeeps
  | start gain sagVolts =>
      rw [meter.perform_start hkind, Run.started?_map]
      rcases meter.start_refused_or_accepted gain sagVolts with
        ⟨error, hrefused⟩ | ⟨hsession, sagCounts, hcounts⟩
      · rw [hrefused]
        exact h
      · exact h.start hkind hsession hcounts

theorem after (h : HoldsSetup chip meter none) {operations : List Operation}
    (hkeeps : ∀ operation ∈ operations, operation.KeepsSetup) :
    HoldsSetup chip (meter.after operations) (meter.lastSetup? operations) := by
  induction operations using List.reverseRecOn with
  | nil => exact h
  | append_singleton operations operation ih =>
      have hbefore := ih fun other hother => hkeeps other (List.mem_append_left _ hother)
      rw [Meter.after_concat, Meter.lastSetup?_concat]
      exact hbefore.perform (hkeeps operation (by simp))

end HoldsSetup

/-- Whenever a meter runs, its gain and its sag threshold are those of the last
start that succeeded, and the registers still hold that setup: whatever the
reads brought and whatever failed in between. -/
theorem running_configured (chip : StoredWords β) {bus : β} (hsound : chip.sound bus)
    (config : Config) {operations : List Operation}
    (hkeeps : ∀ operation ∈ operations, operation.KeepsSetup) {gain : CurrentGain}
    (hrunning : ((Meter.fresh bus config).after operations).state = .running gain) :
    ∃ sagCounts, (Meter.fresh bus config).lastSetup? operations = some (gain, sagCounts) ∧
      Configured gain sagCounts (chip.words ((Meter.fresh bus config).after operations).bus) := by
  have hfresh : HoldsSetup chip (Meter.fresh bus config) none := by
    refine ⟨hsound, ?_⟩
    intro other hother
    exact nomatch hother
  exact (hfresh.after hkeeps).running gain hrunning

namespace Rig

/-- A rig with a chip that never pretends to have moved a whole frame. -/
def Honest (rig : Rig) : Prop :=
  rig.words.isSome = true ∧ ∀ entry ∈ rig.writeFaults, entry.2 ≠ .short 3

/-- The words of a rig's chip. -/
def storedWords : StoredWords Rig where
  sound := Honest
  words rig := rig.words.getD fun _ => 0
  connect _ h := ⟨h, rfl⟩
  configure _ _ h := ⟨h, rfl⟩
  transfer rig sent size h := by
    obtain ⟨hwords, hfaults⟩ := rig.read_keeps sent size
    have hafter : (Bus.transfer rig sent size).2 = (rig.read sent size).2 := by
      simp only [Bus.transfer]
      split <;> simp_all
    rw [hafter, Honest, hwords, hfaults]
    exact ⟨h, rfl⟩
  write rig header high low h := by
    obtain ⟨words, hwords⟩ := Option.isSome_iff_exists.mp h.1
    obtain ⟨hstored, hfaults⟩ := store_frame hwords header high low
    have hhonest : Honest (rig.store [header, high, low]) := by
      rw [Honest, hstored, hfaults]
      exact ⟨rfl, h.2⟩
    have hupdated : (rig.store [header, high, low]).words.getD (fun _ => 0) =
        RegisterFile.update (rig.words.getD fun _ => 0) (Frame.address header)
          (.ofBytes high low) := by
      rw [hstored, hwords, Option.getD_some, Option.getD_some]
    simp only [Bus.write, write]
    cases hreply : rig.writeReply? [header, high, low] with
    | none => exact ⟨hhonest, .inl ⟨rfl, hupdated⟩⟩
    | some reply =>
        cases reply with
        | value word => exact ⟨hhonest, .inl ⟨rfl, hupdated⟩⟩
        | short count =>
            obtain ⟨entry, hentry, heq⟩ := writeReply?_mem hreply
            refine ⟨h, .inr ⟨?_, rfl⟩⟩
            rintro ⟨⟩
            exact h.2 entry hentry heq
        | fail code => exact ⟨h, .inr ⟨nofun, rfl⟩⟩
  disconnect _ h := ⟨h, rfl⟩

end Rig

/-- A rig whose readings are off, and a restart that is refused. -/
theorem running_configured_on_rig :
    let rig : Rig :=
      { replies := [.value 0xFFFF, .value 0x1422], words := some fun _ => 0xABCD
        writeFaults := [(0x31, .fail 5)] }
    let operations : List Operation :=
      [.init, .start .x24 20, .write 0x31 7, .write 0x33 7, .start .x1 700, .vrmsRaw]
    ((Meter.fresh rig {}).after operations).state = .running .x24 ∧
      Configured .x24 2000
        (Rig.storedWords.words ((Meter.fresh rig {}).after operations).bus) := by
  intro rig operations
  have hsound : Rig.storedWords.sound rig := ⟨rfl, by decide⟩
  have hkeeps : ∀ operation ∈ operations, operation.KeepsSetup := by
    unfold Operation.KeepsSetup Operation.Writes
    decide
  have hrunning : ((Meter.fresh rig {}).after operations).state = .running .x24 := by
    decide +kernel
  have hsetup : (Meter.fresh rig {}).lastSetup? operations = some (.x24, 2000) := by
    decide +kernel
  obtain ⟨sagCounts, hlast, hconfigured⟩ :=
    running_configured Rig.storedWords hsound {} hkeeps hrunning
  rw [hsetup, Option.some.injEq, Prod.mk.injEq] at hlast
  obtain ⟨-, rfl⟩ := hlast
  exact ⟨hrunning, hconfigured⟩

end EnergyMeter

import EnergyMeter.Proofs.StartTrace
import Mathlib.Data.List.Forall2
import Mathlib.Data.List.TakeWhile

/-!
The effect of a start on a chip.  The chip answers every read, shows the word
moved last in its shadow, and refuses writes to some addresses.  A start leaves
the writes of the steps before the first refused one and nothing else.
-/

namespace EnergyMeter

variable {β ε η : Type}

/-- A chip behind a bus, with a shadow and with addresses that refuse writes.
The laws are asked of sound buses, and a sound bus stays sound. -/
structure Chip (β : Type) {ε η : Type} [Bus β ε η] (refuses : Address → Bool) where
  sound : β → Prop
  file : β → RegisterFile
  read (bus : β) (address : Address) (h : sound bus) :
    let answered := Bus.transfer bus (Frame.readHeader address) 2
    answered.1 = .ok (.ofWord 2 ((file bus).read address).1) ∧ sound answered.2 ∧
      file answered.2 = ((file bus).read address).2
  accept (bus : β) (address : Address) (word : Word) (h : sound bus)
    (haccepts : refuses address = false) :
    let written := Bus.write bus (Frame.write address word)
    written.1 = .ok 3 ∧ sound written.2 ∧ file written.2 = (file bus).write address word
  refuse (bus : β) (address : Address) (word : Word) (h : sound bus)
    (hrefuses : refuses address = true) :
    let written := Bus.write bus (Frame.write address word)
    written.1 ≠ .ok 3 ∧ sound written.2 ∧ file written.2 = file bus

/-- The words after some writes. -/
def writeAll (words : Address → Word) (writes : List (Address × Word)) : Address → Word :=
  writes.foldl (fun words write => RegisterFile.update words write.1 write.2) words

theorem writeAll_cons (words : Address → Word) (write : Address × Word)
    (rest : List (Address × Word)) :
    writeAll words (write :: rest) =
      writeAll (RegisterFile.update words write.1 write.2) rest := rfl

theorem writeAll_of_not_mem {address : Address} {writes : List (Address × Word)}
    (h : address ∉ writes.map Prod.fst) (words : Address → Word) :
    writeAll words writes address = words address := by
  induction writes generalizing words with
  | nil => rfl
  | cons write rest ih =>
      rw [List.map_cons, List.mem_cons, not_or] at h
      exact (ih h.2 _).trans (RegisterFile.update_of_ne h.1 ..)

/-- A word is as before or stands in one of the writes. -/
theorem writeAll_cases (words : Address → Word) (writes : List (Address × Word))
    (address : Address) :
    writeAll words writes address = words address ∨
      (address, writeAll words writes address) ∈ writes := by
  induction writes generalizing words with
  | nil => exact .inl rfl
  | cons write rest ih =>
      rcases ih (RegisterFile.update words write.1 write.2) with hsame | hmem
      · by_cases hhead : address = write.1
        · refine .inr (List.mem_cons.mpr (.inl (Prod.ext hhead ?_)))
          subst hhead
          exact hsame.trans (RegisterFile.update_self ..)
        · exact .inl (hsame.trans (RegisterFile.update_of_ne hhead ..))
      · exact .inr (List.mem_cons_of_mem _ hmem)

/-- What the writes replace does not matter. -/
theorem writeAll_congr {words others : Address → Word} {writes : List (Address × Word)}
    (h : ∀ address, address ∉ writes.map Prod.fst → words address = others address) :
    writeAll words writes = writeAll others writes := by
  induction writes generalizing words others with
  | nil => exact funext fun address => h address List.not_mem_nil
  | cons write rest ih =>
      rw [writeAll_cons, writeAll_cons]
      refine ih fun address haddress => ?_
      by_cases hhead : address = write.1
      · subst hhead
        rw [RegisterFile.update_self, RegisterFile.update_self]
      · rw [RegisterFile.update_of_ne hhead, RegisterFile.update_of_ne hhead]
        refine h address ?_
        rw [List.map_cons, List.mem_cons, not_or]
        exact ⟨hhead, haddress⟩

open Register in
/-- The writes of a start on a chip with these words. -/
def startupWrites (gain : CurrentGain) (sagCounts : Word) (words : Address → Word) :
    List (Address × Word) :=
  [ (softReset, 0x789A),
    (mMode, (words mMode &&& (0x1FFF : Word)) ||| (gain.bits.setWidth 16 <<< 13)),
    (calStart, 0x5678),
    (adjStart, 0x5678),
    (igainL, 0x21C1),
    (cs2, 0xE20E),
    (sagTh, sagCounts),
    (funcEn, words funcEn ||| 0x30) ]

/-- Replace one word by a function of it. -/
structure Change where
  address : Address
  change : Word → Word

namespace Change

/-- The words after a change. -/
def applyTo (change : Change) (words : Address → Word) : Address → Word :=
  RegisterFile.update words change.address (change.change (words change.address))

/-- The write that a change comes to on these words. -/
def write (words : Address → Word) (change : Change) : Address × Word :=
  (change.address, change.change (words change.address))

/-- Changes of different words do not see each other. -/
theorem foldl_applyTo {changes : List Change} (hdistinct : (changes.map address).Nodup)
    {words initial : Address → Word} (hsame : ∀ change ∈ changes,
      words change.address = initial change.address) :
    changes.foldl (fun words change => change.applyTo words) words =
      writeAll words (changes.map (write initial)) := by
  induction changes generalizing words with
  | nil => rfl
  | cons change rest ih =>
      rw [List.map_cons, List.nodup_cons] at hdistinct
      have hhead := hsame change List.mem_cons_self
      have hrest : ∀ other ∈ rest,
          change.applyTo words other.address = initial other.address := by
        intro other hother
        have hne : other.address ≠ change.address := by
          intro heq
          exact hdistinct.1 (heq ▸ List.mem_map_of_mem hother)
        rw [applyTo, RegisterFile.update_of_ne hne]
        exact hsame other (List.mem_cons_of_mem _ hother)
      rw [List.foldl_cons, ih hdistinct.2 hrest, List.map_cons, applyTo, hhead]
      rfl

end Change

open Register in
/-- The changes that the steps of a start-up make. -/
def startupChanges (gain : CurrentGain) (sagCounts : Word) : List Change :=
  [ ⟨softReset, fun _ => softResetCommand⟩,
    ⟨mMode, MeterMode.withGain gain⟩,
    ⟨calStart, fun _ => startWithoutChecksum⟩,
    ⟨adjStart, fun _ => startWithoutChecksum⟩,
    ⟨igainL, fun _ => defaultIgainL⟩,
    ⟨cs2, fun _ => defaultCs2⟩,
    ⟨sagTh, fun _ => sagCounts⟩,
    ⟨funcEn, FunctionEnable.withSagArmed⟩ ]

theorem startupChanges_write (gain : CurrentGain) (sagCounts : Word) (words : Address → Word) :
    (startupChanges gain sagCounts).map (Change.write words) =
      startupWrites gain sagCounts words := by
  simp only [startupChanges, startupWrites, List.map_cons, List.map_nil, Change.write,
    MeterMode.withGain_eq, FunctionEnable.withSagArmed_eq]
  rfl

theorem startupWrites_address (gain : CurrentGain) (sagCounts : Word) (words : Address → Word) :
    (startupWrites gain sagCounts words).map Prod.fst = startupRegisters := rfl

section

variable {gain : CurrentGain} {sagCounts : Word} {words others : Address → Word}
  {writes : List (Address × Word)}

/-- Some of the writes of a start leave the other bits of the mode alone. -/
theorem getLsbD_mode_writeAll
    (h : ∀ write ∈ writes, write ∈ startupWrites gain sagCounts words) {i : Nat} (hi : i < 13) :
    (writeAll words writes Register.mMode).getLsbD i = (words Register.mMode).getLsbD i := by
  rcases writeAll_cases words writes Register.mMode with hsame | hmem
  · rw [hsame]
  · have hword : writeAll words writes Register.mMode =
        MeterMode.withGain gain (words Register.mMode) := by
      rw [MeterMode.withGain_eq]
      simpa [startupWrites, Register.softReset, Register.mMode, Register.calStart,
        Register.adjStart, Register.igainL, Register.cs2, Register.sagTh, Register.funcEn]
        using h _ hmem
    rw [hword, MeterMode.getLsbD_withGain hi]

/-- Some of the writes of a start leave the other functions alone. -/
theorem getLsbD_functions_writeAll
    (h : ∀ write ∈ writes, write ∈ startupWrites gain sagCounts words) {i : Nat} (hwarn : i ≠ 4)
    (henable : i ≠ 5) :
    (writeAll words writes Register.funcEn).getLsbD i = (words Register.funcEn).getLsbD i := by
  rcases writeAll_cases words writes Register.funcEn with hsame | hmem
  · rw [hsame]
  · have hword : writeAll words writes Register.funcEn =
        FunctionEnable.withSagArmed (words Register.funcEn) := by
      rw [FunctionEnable.withSagArmed_eq]
      simpa [startupWrites, Register.softReset, Register.mMode, Register.calStart,
        Register.adjStart, Register.igainL, Register.cs2, Register.sagTh, Register.funcEn]
        using h _ hmem
    rw [hword, FunctionEnable.getLsbD_withSagArmed hwarn henable]

/-- The writes of a start depend only on the bits that it keeps. -/
theorem startupWrites_congr
    (hmode : ∀ i < 13, (words Register.mMode).getLsbD i = (others Register.mMode).getLsbD i)
    (hfunctions : ∀ i, i ≠ 4 → i ≠ 5 →
      (words Register.funcEn).getLsbD i = (others Register.funcEn).getLsbD i) :
    startupWrites gain sagCounts words = startupWrites gain sagCounts others := by
  rw [startupWrites, startupWrites, ← MeterMode.withGain_eq, ← MeterMode.withGain_eq,
    ← FunctionEnable.withSagArmed_eq, ← FunctionEnable.withSagArmed_eq,
    MeterMode.withGain_congr hmode, FunctionEnable.withSagArmed_congr hfunctions]

end

/-- A full start undoes what a full start before it wrote. -/
theorem writeAll_startupWrites_again (first second : CurrentGain) (firstCounts secondCounts : Word)
    (words : Address → Word) :
    let middle := writeAll words (startupWrites first firstCounts words)
    writeAll middle (startupWrites second secondCounts middle) =
      writeAll words (startupWrites second secondCounts words) := by
  intro middle
  have hall : ∀ write ∈ startupWrites first firstCounts words,
      write ∈ startupWrites first firstCounts words := fun write hwrite => hwrite
  have hwrites : startupWrites second secondCounts middle =
      startupWrites second secondCounts words :=
    startupWrites_congr (fun i hi => getLsbD_mode_writeAll hall hi)
      fun i hwarn henable => getLsbD_functions_writeAll hall hwarn henable
  rw [hwrites]
  apply writeAll_congr
  intro address haddress
  rw [startupWrites_address, ← startupWrites_address first firstCounts words] at haddress
  exact writeAll_of_not_mem haddress words

theorem startupChanges_address (gain : CurrentGain) (sagCounts : Word) :
    (startupChanges gain sagCounts).map Change.address = startupRegisters := rfl

theorem startupRegisters_nodup : startupRegisters.Nodup := by
  decide

variable [Bus β ε η]

section

variable {α : Type} {address : Address} {word : Word} {bus : β}

theorem Program.outcome_run_read (h : (readRegister address bus).outcome = .ok word)
    (next : Word → Program α) :
    ((Program.read address next).run bus).outcome =
      ((next word).run (readRegister address bus).state).outcome :=
  (Run.andThen_of_ok h fun word => (next word).run).1

theorem Program.state_run_read (h : (readRegister address bus).outcome = .ok word)
    (next : Word → Program α) :
    ((Program.read address next).run bus).state =
      ((next word).run (readRegister address bus).state).state :=
  (Run.andThen_of_ok h fun word => (next word).run).2.1

theorem Program.calls_run_read (h : (readRegister address bus).outcome = .ok word)
    (next : Word → Program α) :
    calls ((Program.read address next).run bus).journal =
      calls (readRegister address bus).journal ++
        calls ((next word).run (readRegister address bus).state).journal :=
  (Run.andThen_of_ok h fun word => (next word).run).2.2

end

namespace Chip

variable {refuses : Address → Bool} (chip : Chip β refuses) {bus : β}

theorem readRegister_spec (hsound : chip.sound bus) (address : Address) :
    (readRegister address bus).outcome = .ok ((chip.file bus).read address).1 ∧
      chip.sound (readRegister address bus).state ∧
      chip.file (readRegister address bus).state = ((chip.file bus).read address).2 ∧
      calls (readRegister address bus).journal =
        [.fetched address ((chip.file bus).read address).1] := by
  obtain ⟨hanswer, hafter, hfile⟩ := chip.read bus address hsound
  refine ⟨?_, hafter, hfile, ?_⟩
  · simp [readRegister, hanswer, Received.word_ofWord]
  · rw [calls_readRegister, hanswer, Call.fetched]

/-- The shadow agrees with what was read just before, so two exchanges are enough. -/
theorem verifiedRead_agrees (hsound : chip.sound bus) (address : Address) :
    let read := (chip.file bus).read address
    let run := (Program.verifiedRead address).run bus
    run.outcome = .ok read.1 ∧ chip.sound run.state ∧ chip.file run.state = read.2 ∧
      calls run.journal = [.fetched address read.1, .fetched Register.lastData read.1] := by
  obtain ⟨htarget, hmiddle, hfile, hfirst⟩ := chip.readRegister_spec hsound address
  obtain ⟨hshadow, hafter, hlast, hsecond⟩ := chip.readRegister_spec hmiddle Register.lastData
  rw [hfile, RegisterFile.read_lastData_read] at hshadow hlast hsecond
  simp only [Program.verifiedRead_eq, Program.outcome_run_read htarget,
    Program.state_run_read htarget, Program.calls_run_read htarget,
    Program.outcome_run_read hshadow, Program.state_run_read hshadow,
    Program.calls_run_read hshadow, hfirst, hsecond, if_true]
  exact ⟨rfl, hafter, hlast, rfl⟩

theorem verifiedRead_spec (hsound : chip.sound bus) {address : Address}
    (hne : address ≠ Register.lastData) :
    ((Program.verifiedRead address).run bus).outcome = .ok ((chip.file bus).words address) ∧
      chip.sound ((Program.verifiedRead address).run bus).state ∧
      (chip.file ((Program.verifiedRead address).run bus).state).words =
        (chip.file bus).words := by
  obtain ⟨hok, hafter, hfile, -⟩ := chip.verifiedRead_agrees hsound address
  rw [hfile, RegisterFile.words_read]
  rw [RegisterFile.read_of_ne hne] at hok
  exact ⟨hok, hafter, rfl⟩

theorem writeRegister_accepted (hsound : chip.sound bus) {address : Address} (word : Word)
    (haccepts : refuses address = false) :
    (writeRegister address word bus).outcome = .ok () ∧
      chip.sound (writeRegister address word bus).state ∧
      chip.file (writeRegister address word bus).state = (chip.file bus).write address word := by
  obtain ⟨hresult, hafter, hfile⟩ := chip.accept bus address word hsound haccepts
  rw [writeRegister_state]
  exact ⟨by simp [writeRegister, hresult], hafter, hfile⟩

theorem writeRegister_refused (hsound : chip.sound bus) {address : Address} (word : Word)
    (hrefuses : refuses address = true) :
    (writeRegister address word bus).outcome ≠ .ok () ∧
      chip.sound (writeRegister address word bus).state ∧
      chip.file (writeRegister address word bus).state = chip.file bus := by
  obtain ⟨hresult, hafter, hfile⟩ := chip.refuse bus address word hsound hrefuses
  rw [writeRegister_state]
  refine ⟨?_, hafter, hfile⟩
  rcases hwrite : Bus.write bus (Frame.write address word) with ⟨count | fault | cause, last⟩
  · have hcount : count ≠ 3 := by
      rintro rfl
      exact hresult (by rw [hwrite])
    simp [writeRegister, hwrite, hcount]
  · simp [writeRegister, hwrite]
  · simp [writeRegister, hwrite]

/-- A program that makes one change, unless its write is refused. -/
structure Makes (program : Program Unit) (change : Change) : Prop where
  sound (bus : β) (h : chip.sound bus) : chip.sound (program.run bus).state
  accepted (bus : β) (h : chip.sound bus) (haccepts : refuses change.address = false) :
    (program.run bus).outcome = .ok () ∧
      (chip.file (program.run bus).state).words = change.applyTo (chip.file bus).words
  refused (bus : β) (h : chip.sound bus) (hrefuses : refuses change.address = true) :
    (program.run bus).outcome ≠ .ok () ∧
      (chip.file (program.run bus).state).words = (chip.file bus).words

theorem makes_store (address : Address) (word : Word) :
    chip.Makes (.store address word) ⟨address, fun _ => word⟩ := by
  constructor
  · intro bus hsound
    rw [Program.run_store]
    cases hrefuses : refuses address with
    | false => exact (chip.writeRegister_accepted hsound word hrefuses).2.1
    | true => exact (chip.writeRegister_refused hsound word hrefuses).2.1
  · intro bus hsound haccepts
    obtain ⟨hok, -, hfile⟩ := chip.writeRegister_accepted hsound word haccepts
    rw [Program.run_store, hfile]
    exact ⟨hok, rfl⟩
  · intro bus hsound hrefuses
    obtain ⟨hne, -, hfile⟩ := chip.writeRegister_refused hsound word hrefuses
    rw [Program.run_store, hfile]
    exact ⟨hne, rfl⟩

theorem makes_modify {address : Address} (hne : address ≠ Register.lastData)
    (change : Word → Word) : chip.Makes (.modify address change) ⟨address, change⟩ := by
  -- The store works on the word that the verified read brought.
  have hstore : ∀ bus, chip.sound bus →
      let middle := ((Program.verifiedRead address).run bus).state
      let word := change ((chip.file bus).words address)
      chip.sound middle ∧ (chip.file middle).words = (chip.file bus).words ∧
        ((Program.modify address change).run bus).outcome =
          ((Program.store address word).run middle).outcome ∧
        ((Program.modify address change).run bus).state =
          ((Program.store address word).run middle).state := by
    intro bus hsound
    obtain ⟨hok, hmiddle, hwords⟩ := chip.verifiedRead_spec hsound hne
    obtain ⟨houtcome, hstate, -⟩ := Run.andThen_of_ok hok fun word =>
      (Program.store address (change word)).run
    rw [Program.modify_eq, Program.run_bind]
    exact ⟨hmiddle, hwords, houtcome, hstate⟩
  constructor
  · intro bus hsound
    obtain ⟨hmiddle, -, -, hstate⟩ := hstore bus hsound
    rw [hstate]
    exact (chip.makes_store address _).sound _ hmiddle
  · intro bus hsound haccepts
    obtain ⟨hmiddle, hwords, houtcome, hstate⟩ := hstore bus hsound
    obtain ⟨hok, hlast⟩ := (chip.makes_store address _).accepted _ hmiddle haccepts
    rw [houtcome, hstate, hlast, Change.applyTo, hwords]
    exact ⟨hok, rfl⟩
  · intro bus hsound hrefuses
    obtain ⟨hmiddle, hwords, houtcome, hstate⟩ := hstore bus hsound
    obtain ⟨hended, hlast⟩ := (chip.makes_store address _).refused _ hmiddle hrefuses
    rw [houtcome, hstate, hlast, hwords]
    exact ⟨hended, rfl⟩

/-- Steps make their changes up to the first that is refused. -/
theorem runSteps_spec {steps : List (StartupStep × Program Unit)} {changes : List Change}
    (h : List.Forall₂ (fun step change => chip.Makes step.2 change) steps changes)
    (hsound : chip.sound bus) :
    chip.sound (runSteps steps bus).state ∧
      (chip.file (runSteps steps bus).state).words =
        (changes.takeWhile fun change => !refuses change.address).foldl
          (fun words change => change.applyTo words) (chip.file bus).words ∧
      ((runSteps steps bus).outcome = .ok () ↔
        ∀ change ∈ changes, refuses change.address = false) := by
  induction h generalizing bus with
  | nil => exact ⟨hsound, rfl, by simp [runSteps, Run.pure]⟩
  | @cons step change steps changes hmakes _ ih =>
      obtain ⟨name, program⟩ := step
      have hafter := hmakes.sound bus hsound
      cases hrefuses : refuses change.address with
      | true =>
          obtain ⟨hne, hwords⟩ := hmakes.refused bus hsound hrefuses
          obtain ⟨houtcome, hstate, -⟩ := runSteps_cons_of_not_ok hne name steps
          rw [houtcome, hstate, List.takeWhile_cons_of_neg (by simp [hrefuses])]
          exact ⟨hafter, hwords, by simp [hne, hrefuses]⟩
      | false =>
          obtain ⟨hok, hwords⟩ := hmakes.accepted bus hsound hrefuses
          obtain ⟨houtcome, hstate, -⟩ := runSteps_cons_of_ok hok name steps
          obtain ⟨hlast, hrest, hended⟩ := ih hafter
          rw [houtcome, hstate, List.takeWhile_cons_of_pos (by simp [hrefuses]), List.foldl_cons,
            ← hwords, List.forall_mem_cons]
          exact ⟨hlast, hrest, hended.trans (and_iff_right hrefuses).symm⟩

theorem makes_startupSteps (gain : CurrentGain) (sagCounts : Word) :
    List.Forall₂ (fun step change => chip.Makes step.2 change) (startupSteps gain sagCounts)
      (startupChanges gain sagCounts) := by
  refine .cons (chip.makes_store _ _) (.cons (chip.makes_modify (by decide) _)
    (.cons (chip.makes_store _ _) (.cons (chip.makes_store _ _) (.cons (chip.makes_store _ _)
      (.cons (chip.makes_store _ _) (.cons (chip.makes_store _ _)
        (.cons (chip.makes_modify (by decide) _) .nil)))))))

/-- What an accepted start does to the chip, and when it succeeds. -/
theorem start_spec {meter : Meter β} (hsound : chip.sound meter.bus) (gain : CurrentGain)
    {sagVolts : Float32} {sagCounts : Word} (hsession : meter.isInitialized = true)
    (hcounts : Quantity.sagCounts? sagVolts = some sagCounts) :
    let before := (chip.file meter.bus).words
    chip.sound (meter.start gain sagVolts).state.bus ∧
      (chip.file (meter.start gain sagVolts).state.bus).words =
        writeAll before
          ((startupWrites gain sagCounts before).takeWhile fun write => !refuses write.1) ∧
      ((meter.start gain sagVolts).outcome = .ok () ↔
        ∀ address ∈ startupRegisters, refuses address = false) := by
  intro before
  obtain ⟨houtcome, hstate, -⟩ := Meter.start_accepted gain hsession hcounts
  obtain ⟨hafter, hwords, hok⟩ :=
    chip.runSteps_spec (chip.makes_startupSteps gain sagCounts) hsound
  rw [houtcome, hstate]
  refine ⟨hafter, ?_, ?_⟩
  · have hdistinct : (((startupChanges gain sagCounts).takeWhile
        fun change => !refuses change.address).map Change.address).Nodup := by
      have hall := startupRegisters_nodup
      rw [← startupChanges_address gain sagCounts] at hall
      exact hall.sublist ((List.takeWhile_sublist _).map _)
    rw [hwords, Change.foldl_applyTo hdistinct (fun _ _ => rfl), ← startupChanges_write,
      List.takeWhile_map]
    rfl
  · rw [hok, ← startupChanges_address gain sagCounts, List.forall_mem_map]

end Chip

/-- An accepted start leaves on the chip the writes of its steps before the
first refused one.  It touches no other register, no other bit of the mode and
no other function, and where nothing is refused the last start alone decides. -/
theorem start_effect {refuses : Address → Bool} (chip : Chip β refuses) (meter : Meter β)
    (hsound : chip.sound meter.bus) (gain : CurrentGain) {sagVolts : Float32} {sagCounts : Word}
    (hsession : meter.isInitialized = true)
    (hcounts : Quantity.sagCounts? sagVolts = some sagCounts) :
    let run : Run (Meter β) ε η Unit := meter.start gain sagVolts
    let before := (chip.file meter.bus).words
    let after := (chip.file run.state.bus).words
    after = writeAll before
        ((startupWrites gain sagCounts before).takeWhile fun write => !refuses write.1) ∧
      (run.outcome = .ok () ↔ ∀ address ∈ startupRegisters, refuses address = false) ∧
      (∀ address, address ∉ startupRegisters → after address = before address) ∧
      (∀ i < 13, (after Register.mMode).getLsbD i = (before Register.mMode).getLsbD i) ∧
      (∀ i, i ≠ 4 → i ≠ 5 →
        (after Register.funcEn).getLsbD i = (before Register.funcEn).getLsbD i) ∧
      ((∀ address, refuses address = false) →
        ∀ (next : CurrentGain) (nextVolts : Float32) (nextCounts : Word),
          Quantity.sagCounts? nextVolts = some nextCounts →
            (chip.file (run.state.start next nextVolts).state.bus).words =
              (chip.file (meter.start next nextVolts).state.bus).words) := by
  intro run before after
  obtain ⟨hlast, hwords, hok⟩ := chip.start_spec hsound gain hsession hcounts
  have hprefix : ∀ write ∈
      ((startupWrites gain sagCounts before).takeWhile fun write => !refuses write.1),
        write ∈ startupWrites gain sagCounts before :=
    fun write hwrite => (List.takeWhile_sublist _).mem hwrite
  refine ⟨hwords, hok, ?_, ?_, ?_, ?_⟩
  · intro address haddress
    have hnot : address ∉ ((startupWrites gain sagCounts before).takeWhile
        fun write => !refuses write.1).map Prod.fst := by
      rw [← startupWrites_address gain sagCounts before] at haddress
      exact fun hmem => haddress (((List.takeWhile_sublist _).map _).mem hmem)
    exact (congrFun hwords address).trans (writeAll_of_not_mem hnot before)
  · intro i hi
    exact (congrArg (fun words => (words Register.mMode).getLsbD i) hwords).trans
      (getLsbD_mode_writeAll hprefix hi)
  · intro i hwarn henable
    exact (congrArg (fun words => (words Register.funcEn).getLsbD i) hwords).trans
      (getLsbD_functions_writeAll hprefix hwarn henable)
  · intro hnone next nextVolts nextCounts hnext
    have hfull : ∀ writes : List (Address × Word),
        (writes.takeWhile fun write => !refuses write.1) = writes :=
      fun writes => List.takeWhile_eq_self_iff.mpr fun write _ => by simp [hnone]
    have hagain : run.state.isInitialized = true :=
      Meter.start_isInitialized gain hsession hcounts
    obtain ⟨-, hboth, -⟩ := chip.start_spec hlast next hagain hnext
    obtain ⟨-, halone, -⟩ := chip.start_spec hsound next hsession hnext
    rw [hfull] at hwords hboth halone
    rw [hboth, halone, hwords]
    exact writeAll_startupWrites_again ..

namespace Rig

/-- Scripted faults that make a write fail. -/
def refuses (faults : List (Byte × Reply)) (address : Address) : Bool :=
  match (faults.find? fun entry => entry.1 = address.toByte).map Prod.snd with
  | some (.short _) | some (.fail _) => true
  | some (.value _) | none => false

/-- A rig with a chip, no scripted answers and these faults. -/
structure Plays (faults : List (Byte × Reply)) (rig : Rig) : Prop where
  replies : rig.replies = []
  words : ∃ words, rig.words = some words
  writeFaults : rig.writeFaults = faults

namespace Plays

variable {faults : List (Byte × Reply)} {rig : Rig}

theorem writeReply? (h : Plays faults rig) (address : Address) (word : Word) :
    rig.writeReply? (Frame.write address word) =
      (faults.find? fun entry => entry.1 = address.toByte).map Prod.snd := by
  rw [Rig.writeReply?, h.writeFaults]
  rfl

theorem exists_chip (h : Plays faults rig) : ∃ chip, rig.chip = some chip := by
  obtain ⟨words, hwords⟩ := h.words
  exact ⟨⟨words, rig.mirror⟩, by rw [Rig.chip, hwords, Option.map_some]⟩

theorem onChip (h : Plays faults rig) (chip : RegisterFile) : Plays faults (rig.onChip chip) :=
  ⟨h.replies, ⟨chip.words, rfl⟩, h.writeFaults⟩

end Plays

/-- The chip of a rig that plays honest faults. -/
def playedChip (faults : List (Byte × Reply)) (honest : ∀ entry ∈ faults, entry.2 ≠ .short 3) :
    Chip Rig (refuses faults) where
  sound := Plays faults
  file rig := rig.chip.getD .empty
  read rig address h := by
    obtain ⟨chip, hchip⟩ := h.exists_chip
    have haddress : addressOf (Frame.readHeader address) = address := Frame.address_marked address
    have hread : Bus.transfer rig (Frame.readHeader address) 2 =
        (.ok (.ofWord 2 (chip.read address).1), rig.onChip (chip.read address).2) := by
      simp only [Bus.transfer, Rig.read, h.replies, hchip, haddress]
    rw [hread, hchip]
    exact ⟨rfl, h.onChip _, rfl⟩
  accept rig address word h haccepts := by
    obtain ⟨chip, hchip⟩ := h.exists_chip
    have hstore : rig.store (Frame.write address word) = rig.onChip (chip.write address word) := by
      simp only [store, hchip, Frame.write, Frame.address_toByte, Word.ofBytes_high_low]
    have hwrite : Bus.write rig (Frame.write address word) =
        (.ok 3, rig.onChip (chip.write address word)) := by
      rw [← hstore]
      rw [refuses, ← h.writeReply? address word] at haccepts
      simp only [Bus.write, Rig.write]
      split at haccepts <;> simp_all
    rw [hwrite, hchip]
    exact ⟨rfl, h.onChip _, rfl⟩
  refuse rig address word h hrefuses := by
    have hreply := h.writeReply? address word
    rw [refuses, ← hreply] at hrefuses
    cases hanswer : rig.writeReply? (Frame.write address word) with
    | none => simp [hanswer] at hrefuses
    | some reply =>
        cases reply with
        | value word => simp [hanswer] at hrefuses
        | short count =>
            obtain ⟨entry, hentry, heq⟩ := writeReply?_mem hanswer
            rw [h.writeFaults] at hentry
            have hwrite : Bus.write rig (Frame.write address word) = (.ok count, rig) := by
              simp only [Bus.write, Rig.write, hanswer]
            rw [hwrite]
            refine ⟨?_, h, rfl⟩
            rintro ⟨⟩
            exact honest entry hentry heq
        | fail code =>
            have hwrite : Bus.write rig (Frame.write address word) = (.failed ⟨code⟩, rig) := by
              simp only [Bus.write, Rig.write, hanswer]
            rw [hwrite]
            exact ⟨nofun, h, rfl⟩

end Rig

/-- On one rig the sixth write stops short; on another a second start decides. -/
theorem start_effect_on_rigs :
    let faults : List (Byte × Reply) := [(Register.cs2.toByte, .short 2)]
    let old : Address → Word := fun _ => 0x1422
    let faulty : Meter Rig :=
      ⟨{ words := some old, mirror := 7, writeFaults := faults }, {}, .initialized⟩
    let sound : Meter Rig := ⟨{ words := some old, mirror := 7 }, {}, .running .x1⟩
    let words (run : Run (Meter Rig) Fault Empty Unit) := (run.state.bus.chip.getD .empty).words
    words (faulty.start .x24 20) =
        writeAll old
          [ (Register.softReset, 0x789A), (Register.mMode, 0x7422), (Register.calStart, 0x5678),
            (Register.adjStart, 0x5678), (Register.igainL, 0x21C1) ] ∧
      words ((sound.start .x8 10).state.start .x24 20) = words (sound.start .x24 20) := by
  intro faults old faulty sound words
  have hcounts : Quantity.sagCounts? 20 = some 2000 := by decide
  have hfirst : Quantity.sagCounts? 10 = some 1000 := by decide
  have hfaulty := start_effect (Rig.playedChip faults (by decide)) faulty
    ⟨rfl, ⟨old, rfl⟩, rfl⟩ .x24 rfl hcounts
  have hwrites : ((startupWrites .x24 2000 old).takeWhile fun write =>
      !Rig.refuses faults write.1) =
      [ (Register.softReset, 0x789A), (Register.mMode, 0x7422), (Register.calStart, 0x5678),
        (Register.adjStart, 0x5678), (Register.igainL, 0x21C1) ] := by decide
  have hsound := start_effect (Rig.playedChip [] (by decide)) sound ⟨rfl, ⟨old, rfl⟩, rfl⟩
    .x8 rfl hfirst
  exact ⟨hfaulty.1.trans (congrArg (writeAll old) hwrites),
    hsound.2.2.2.2.2 (fun _ => rfl) .x24 20 2000 hcounts⟩

end EnergyMeter

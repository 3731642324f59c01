import EnergyMeter.Proofs.ChipAccess

/-!
A verified read on a bus that other masters use too.  They may access the chip
between any two exchanges of the meter, so the shadow may show a word of theirs.
The read then brings either what the register held or what they moved last.
-/

namespace EnergyMeter

variable {β ε η : Type}

/-- A bus that other masters use too.  They take a turn before each exchange. -/
structure SharedBus (β : Type) where
  bus : β
  /-- What the others access before each exchange to come. -/
  turns : List (List Access)

namespace SharedBus

variable [Bus β ε η]

/-- The bus after the next turn of the others. -/
def giveWay (shared : SharedBus β) : β :=
  (Bus.performAll shared.bus ((shared.turns.headD []).map Access.command)).2

instance : Bus (SharedBus β) ε η where
  connect shared :=
    let linked := Bus.connect shared.bus
    { result := linked.result
      bus := { shared with bus := linked.bus }
      notices := linked.notices }
  configure shared speedHz :=
    let (result, bus) := Bus.configure shared.bus speedHz
    (result, { shared with bus })
  transfer shared sent size :=
    let (result, bus) := Bus.transfer shared.giveWay sent size
    (result, ⟨bus, shared.turns.tail⟩)
  write shared sent :=
    let (result, bus) := Bus.write shared.giveWay sent
    (result, ⟨bus, shared.turns.tail⟩)
  disconnect shared :=
    let linked := Bus.disconnect shared.bus
    { result := linked.result
      bus := { shared with bus := linked.bus }
      notices := linked.notices }

/-- A read waits for the others and is then a read like any other. -/
theorem readRegister_eq (shared : SharedBus β) (address : Address) :
    readRegister address shared =
      (readRegister address shared.giveWay).within (⟨·, shared.turns.tail⟩) := rfl

end SharedBus

/-- The word that a verified read settles on, by the words that the others moved
behind its first exchange and behind its second. -/
def settled (target : Word) (disturbed late : List Word) : Word :=
  if target = disturbed.getLastD target then target
  else late.getLastD (disturbed.getLastD target)

section

variable {target : Word} {disturbed late : List Word}

theorem getLast?_of_getLastD_ne (h : disturbed.getLastD target ≠ target) :
    disturbed.getLast? = some (disturbed.getLastD target) := by
  rw [List.getLastD_eq_getLast?] at h ⊢
  cases hlast : disturbed.getLast? with
  | none => simp [hlast] at h
  | some word => rfl

theorem shadow_ne_of_settled_ne (h : settled target disturbed late ≠ target) :
    disturbed.getLastD target ≠ target := by
  intro heq
  exact h (if_pos heq.symm)

/-- Another word than the target was moved behind the first exchange. -/
theorem exists_mem_of_settled_ne (h : settled target disturbed late ≠ target) :
    ∃ word ∈ disturbed, word ≠ target := by
  have hshadow := shadow_ne_of_settled_ne h
  exact ⟨_, List.mem_of_getLast? (getLast?_of_getLastD_ne hshadow), hshadow⟩

/-- A word that is not the target is the one that was moved last. -/
theorem getLast?_of_settled_ne (early : List Word) (h : settled target disturbed late ≠ target) :
    (early ++ disturbed ++ late).getLast? = some (settled target disturbed late) := by
  have hshadow := shadow_ne_of_settled_ne h
  rw [settled, if_neg hshadow.symm, List.getLast?_append, List.getLast?_append,
    getLast?_of_getLastD_ne hshadow, Option.some_or]
  generalize disturbed.getLastD target = shadow
  rw [List.getLastD_eq_getLast?]
  cases late.getLast? with
  | none => rfl
  | some word => rfl

end

namespace Chip

variable [Bus β ε η] (chip : Chip β fun _ => false)

/-- A read on a shared bus brings what the others left. -/
theorem readRegister_shared {bus : β} (hsound : chip.sound bus) (turn : List Access)
    (rest : List (List Access)) (address : Address) :
    let file := (chip.file bus).serveAll turn
    let run := readRegister address (⟨bus, turn :: rest⟩ : SharedBus β)
    run.outcome = .ok (file.read address).1 ∧
      calls run.journal = [.fetched address (file.read address).1] ∧
      ∃ last, run.state = ⟨last, rest⟩ ∧ chip.sound last ∧
        chip.file last = (file.read address).2 := by
  obtain ⟨hready, hfile⟩ := chip.performAll_accesses hsound turn
  obtain ⟨hok, hlast, hafter, hcalls⟩ := chip.readRegister_spec hready address
  rw [hfile] at hok hafter hcalls
  simp only [SharedBus.readRegister_eq]
  exact ⟨hok, hcalls, _, rfl, hlast, hafter⟩

/-- A verified read on a shared bus looks at the register, then at the shadow,
and again at the shadow if they disagree. -/
theorem verifiedRead_shared {bus : β} (hsound : chip.sound bus) {address : Address}
    (hne : address ≠ Register.lastData) (before between behind : List Access) :
    let start := (chip.file bus).serveAll before
    let target := start.words address
    let middle := start.serve (.read address)
    let run := (Program.verifiedRead address).run
      (⟨bus, [before, between, behind]⟩ : SharedBus β)
    run.outcome = .ok (settled target (middle.movedAll between)
        ((middle.serveAll between).movedAll behind)) ∧
      (calls run.journal).head? = some (.fetched address target) := by
  intro start target middle run
  have hmirror : middle.mirror = target :=
    congrArg (RegisterFile.mirror ∘ Prod.snd) (RegisterFile.read_of_ne hne start)
  -- Each exchange finds the registers as the turn before it left them.
  obtain ⟨hfirst, hcall, second, hsecond, hsoundSecond, hfileSecond⟩ :=
    chip.readRegister_shared hsound before [between, behind] address
  obtain ⟨hshadow, -, third, hthird, hsoundThird, hfileThird⟩ :=
    chip.readRegister_shared hsoundSecond between [behind] Register.lastData
  obtain ⟨hagain, -⟩ := chip.readRegister_shared hsoundThird behind [] Register.lastData
  replace hfileSecond : chip.file second = middle := hfileSecond
  rw [RegisterFile.read_of_ne hne] at hfirst hcall
  rw [hfileSecond, RegisterFile.read_lastData] at hshadow hfileThird
  rw [hfileThird, RegisterFile.read_lastData] at hagain
  rw [RegisterFile.mirror_serveAll, hmirror] at hshadow
  rw [RegisterFile.mirror_serveAll, RegisterFile.mirror_serveAll, hmirror] at hagain
  rw [← hsecond] at hshadow hthird
  rw [← hthird] at hagain
  simp only [run, Program.verifiedRead_eq, Program.outcome_run_read hfirst,
    Program.calls_run_read hfirst, Program.outcome_run_read hshadow, hcall]
  refine ⟨?_, rfl⟩
  by_cases hagree : target = (middle.movedAll between).getLastD target
  · rw [settled, if_pos hagree, if_pos hagree]
    rfl
  · rw [settled, if_neg hagree, if_neg hagree]
    exact (congrArg Run.outcome (Program.run_fetch ..)).trans hagain

end Chip

/-- A verified read on a bus that other masters use too always brings a word: the
one that the register held when it was read, or the one that the others moved
last before the end of the read.  It can be theirs only if they moved another
word right behind the first exchange. -/
theorem verified_read_under_interference [Bus β ε η] (chip : Chip β fun _ => false) {bus : β}
    (hsound : chip.sound bus) (config : Config) {state : State}
    (hsession : state ≠ .uninitialized) {address : Address} (hne : address ≠ Register.lastData)
    (before between behind : List Access) :
    let meter : Meter (SharedBus β) := ⟨⟨bus, [before, between, behind]⟩, config, state⟩
    let run : Run (Meter (SharedBus β)) ε η Word := meter.verifiedReadRegister address.toByte
    let early := (chip.file bus).movedAll before
    let start := (chip.file bus).serveAll before
    let target := start.words address
    let middle := start.serve (.read address)
    let disturbed := middle.movedAll between
    let late := (middle.serveAll between).movedAll behind
    let value := settled target disturbed late
    run.outcome = .ok value ∧
      (calls run.journal).head? = some (.fetched address target) ∧
      (value ≠ target → (∃ word ∈ disturbed, word ≠ target) ∧
        (early ++ disturbed ++ late).getLast? = some value) ∧
      (value = target ∨ value ∈ early ++ disturbed ++ late) ∧
      ((∀ access ∈ between, access = .read Register.lastData) → value = target) := by
  intro meter run early start target middle disturbed late value
  have hopen : meter.isInitialized = true := bne_iff_ne.mpr hsession
  have hrun : run = ((Program.verifiedRead address).run meter.bus).within meter.onBus :=
    Meter.executeAt_toByte hopen address Program.verifiedRead
  obtain ⟨hok, hcall⟩ := chip.verifiedRead_shared hsound hne before between behind
  rw [hrun]
  refine ⟨hok, hcall, ?_, ?_, ?_⟩
  · intro hvalue
    exact ⟨exists_mem_of_settled_ne hvalue, getLast?_of_settled_ne early hvalue⟩
  · by_cases hvalue : value = target
    · exact .inl hvalue
    · exact .inr (List.mem_of_getLast? (getLast?_of_settled_ne early hvalue))
  · intro hquiet
    have hnone : disturbed = [] := middle.movedAll_of_looks hquiet
    by_contra hvalue
    obtain ⟨word, hword, -⟩ := exists_mem_of_settled_ne hvalue
    exact absurd (hnone ▸ hword) List.not_mem_nil

/-- Another master reads a register behind the first exchange and writes the
target behind the second; and one that only looks at the shadow in between. -/
theorem verified_read_under_interference_on_rig :
    let rig : Rig := Rig.onChip {} ⟨fun _ => 0x1111, 3⟩
    let meter (between : List Access) : Meter (SharedBus Rig) :=
      ⟨⟨rig, [[.write 0x2B 5], between, [.write 0x48 9]]⟩, {}, .initialized⟩
    ((meter [.read 0x2B]).verifiedReadRegister 0x48).outcome = .ok 9 ∧
      ((meter [.read 6]).verifiedReadRegister 0x48).outcome = .ok 0x1111 := by
  intro rig meter
  have hplays : rig.Plays [] := ⟨rfl, ⟨_, rfl⟩, rfl⟩
  have hsession : State.initialized ≠ .uninitialized := by decide
  have hne : (0x48 : Address) ≠ Register.lastData := by decide
  have hdisturbed := verified_read_under_interference Rig.freeChip hplays {} hsession hne
    [.write 0x2B 5] [.read 0x2B] [.write 0x48 9]
  have hquiet := verified_read_under_interference Rig.freeChip hplays {} hsession hne
    [.write 0x2B 5] [.read 6] [.write 0x48 9]
  exact ⟨hdisturbed.1.trans (by decide), hquiet.1.trans (by decide)⟩

end EnergyMeter

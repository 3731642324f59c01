import EnergyMeter.Bus

/-!
What a scripted bus answers to one exchange, and the buffers that such an
answer fills.
-/

namespace EnergyMeter

/-- The answer to one exchange. -/
inductive Reply where
  /-- A full exchange that brings this word. -/
  | value (word : Word)
  /-- An exchange that stops after this many bytes. -/
  | short (count : Nat)
  | fail (code : Nat)
deriving DecidableEq, Repr

namespace Received

/-- A full buffer that repeats the bytes of a word. -/
def ofWord (size : Nat) (word : Word) : Received size where
  count := size
  bytes := Vector.ofFn fun i => if i.val % 2 = 0 then word.high else word.low

/-- An untouched buffer and a reported count. -/
def untouched (size count : Nat) : Received size where
  count
  bytes := Vector.replicate size 0

@[simp]
theorem count_ofWord (size : Nat) (word : Word) : (ofWord size word).count = size := rfl

theorem word_ofWord (word : Word) : (ofWord 2 word).word = word := by
  simp [Received.word, ofWord, Word.ofBytes_high_low]

/-- A buffer that was filled is the buffer of its word. -/
theorem eq_ofWord {received : Received 2} (hcount : received.count = 2) :
    received = ofWord 2 received.word := by
  obtain ⟨count, bytes⟩ := received
  obtain rfl : count = 2 := hcount
  refine congrArg (Received.mk 2) (Vector.ext ?_)
  intro i hi
  obtain rfl | rfl : i = 0 ∨ i = 1 := by omega
  · simp [Received.word, Word.high_ofBytes]
  · simp [Received.word, Word.low_ofBytes]

end Received

end EnergyMeter

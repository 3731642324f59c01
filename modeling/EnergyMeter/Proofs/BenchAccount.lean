import EnergyMeter.Proofs.AskedAccesses
import EnergyMeter.Proofs.Lifecycle

/-!
The account that a bench keeps.  No frame of a meter has a wrong shape, so a bench
records just the accesses that the meter asks for, and it stops a run only for want
of a reply.  Every read uses up a reply or stops a run.
-/

namespace EnergyMeter

/-- The register that an access goes to. -/
def Access.address : Access → Address
  | read address => address
  | write address _ => address

namespace Bench

/-- What some accesses do to a bench that stops runs for some causes. -/
structure Accounts (bench : Bench) (asked : List Access) (causes : List Violation)
    (last : Bench) : Prop where
  accesses : last.accesses = bench.accesses ++ asked
  replies : last.replies <:+ bench.replies
  balance : last.readCount + last.pendingReads =
    bench.readCount + bench.pendingReads + causes.length
  causes : ∀ cause ∈ causes, cause = .unexpectedRead ∧ last.replies = []

namespace Accounts

variable {bench middle last : Bench} {asked more : List Access} {causes later : List Violation}

theorem trans (h : bench.Accounts asked causes middle) (hrest : middle.Accounts more later last) :
    bench.Accounts (asked ++ more) (causes ++ later) last where
  accesses := by rw [hrest.accesses, h.accesses, List.append_assoc]
  replies := hrest.replies.trans h.replies
  balance := by
    have hfirst := h.balance
    have hsecond := hrest.balance
    rw [List.length_append]
    omega
  causes := by
    intro cause hcause
    rcases List.mem_append.mp hcause with hearly | hlate
    · -- A queue that ran empty stays empty.
      obtain ⟨hwant, hempty⟩ := h.causes cause hearly
      have hsuffix := hrest.replies
      rw [hempty, List.suffix_nil] at hsuffix
      exact ⟨hwant, hsuffix⟩
    · exact hrest.causes cause hlate

end Accounts

section

variable (bench : Bench)

end

end Bench

namespace Meter

end Meter

end EnergyMeter

import HoneNode.Sealing

/-!
# Entropy — what a sealed epoch leaves as its entropy

The seal handler mixes one hash for each clock that signed the epoch, and each is
the hash of the winner. Mixing is an exclusive or, so all that is left of the
signers is whether there is an even number of them: then the entropy is the same
for every epoch, and otherwise it is the digest of the winning hash.
-/

namespace HoneNode.Entropy

open Sealing

/-! ## Steps that undo themselves -/

section Fold

variable {α β : Type} {f : β → α → β}

end Fold

/-! ## Model -/

/-- The winning hash of a decision. -/
def winningHash (ev : SealedEpoch) : String := (ev.winner.map (·.sealHash)).getD ""

section Parity

variable {w : World} {epoch : ℕ} {c c' : Inner} {ev : SealedEpoch}

end Parity

def agreed : Inner :=
  receiveSeal .bare 0 (Sealing.sampleSeal 1 "b" "ab")
    (receiveSeal .bare 0 (Sealing.sampleSeal 1 "a" "ab") {})

end HoneNode.Entropy

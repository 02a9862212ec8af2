/-!
# The life of a match

The statuses a match goes through and the moves between them. `MatchStatus.canBecome` holds of the
legal moves; byes and empty matches are resolved outside them, straight from pending.
-/

namespace Tourney

inductive MatchStatus where
  | pending
  | assigned
  | inProgress
  | awaitingApproval
  | complete
  | skipped
  deriving DecidableEq, Repr, Inhabited

namespace MatchStatus

/-- A resolved match needs no further play. -/
def isResolved : MatchStatus → Bool
  | .complete | .skipped => true
  | _ => false

/-- A held match is with a scoring device. -/
def isHeld : MatchStatus → Bool
  | .assigned | .inProgress | .awaitingApproval => true
  | _ => false

def canBecome : MatchStatus → MatchStatus → Bool
  | .pending, .assigned | .pending, .complete => true
  | .assigned, .pending | .assigned, .inProgress => true
  | .assigned, .awaitingApproval | .assigned, .complete => true
  | .inProgress, .pending | .inProgress, .awaitingApproval | .inProgress, .complete => true
  | .awaitingApproval, .awaitingApproval => true
  | .awaitingApproval, .assigned | .awaitingApproval, .complete => true
  | _, _ => false

def text : MatchStatus → String
  | .pending => "pending"
  | .assigned => "assigned"
  | .inProgress => "in progress"
  | .awaitingApproval => "awaiting approval"
  | .complete => "complete"
  | .skipped => "skipped"

end MatchStatus

end Tourney

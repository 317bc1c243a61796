import Cinematic.Text.Pad

/-!
# What can be wrong with a packed block

A packed block is refused for one of nine reasons. The first three concern the sizes alone and
are found before the block is looked at; the next two come from its trailer; the rest turn up
while it is being expanded.
-/

namespace Cinematic.Packing

/-- Why a packed block cannot be expanded. -/
inductive UnpackError where
  /-- The block is shorter than its trailer. -/
  | truncated (packed : Nat)
  /-- The buffer cannot hold the data. -/
  | bufferTooSmall (size needed : Nat)
  /-- The block is longer than the data. -/
  | oversized (packed unpacked : Nat)
  /-- The trailer announces no data. -/
  | alreadyUnpacked
  /-- The trailer announces another amount of data than expected. -/
  | lengthMismatch (header : UInt32) (expected : Nat)
  /-- The block ends before the data do. -/
  | sourceExhausted
  /-- A token would write over unread parts of the block, or beyond the data. -/
  | outputOverrun
  /-- A copy whose source has not been written. -/
  | badReference (position offset : Nat)
  /-- The words of the block do not cancel out. -/
  | checksum (check : UInt32)
deriving Repr, DecidableEq

/-- The wording of a refusal. -/
def UnpackError.message : UnpackError → String
  | truncated packed => "packed block too small: " ++ toString packed ++ " bytes (minimum 12)"
  | bufferTooSmall size needed =>
    "buffer too small: " ++ toString size ++ " bytes, need " ++ toString needed
  | oversized packed unpacked =>
    "packed size " ++ toString packed ++ " exceeds unpacked size " ++ toString unpacked
  | alreadyUnpacked => "already unpacked"
  | lengthMismatch header expected =>
    "length mismatch: trailer says " ++ toString header.toNat ++ " bytes, expected "
      ++ toString expected
  | sourceExhausted => "packed stream ended early"
  | outputOverrun => "output overruns the buffer"
  | badReference position offset =>
    "bad back-reference at " ++ toString position ++ ": offset " ++ toString offset
  | checksum check => "checksum mismatch: " ++ Text.hexMarked 8 check.toNat

end Cinematic.Packing

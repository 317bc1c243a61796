import Cinematic.Packing.Match
import Cinematic.Packing.Unpack

/-!
# Packing data

Data are packed greedily. At each position the longest earlier occurrence is copied if that
saves space, otherwise the byte is kept; bytes kept in a row share a token. Since expansion
emits the last byte first, all of this runs over the **reversed** data.

Three values lie between the data and the block: the *steps* (copy or keep), the *tokens* that
they are grouped into, and the bits that spell them. The block is used only if it is shorter
than the data and expands in place, the way resources are loaded (`Cinematic.Packing.plan`); if
not, the data are stored as they are, and a block of just the length of its data is read back
as stored.
-/

namespace Cinematic.Packing

/-- One decision of the packer. -/
inductive Step where
  /-- The byte is kept. -/
  | keep (b : UInt8)
  /-- Some bytes are copied from an earlier place. -/
  | copy (m : Match)
deriving Repr, DecidableEq

/-- Decides from a position on, and appends to the decisions made so far. -/
def stepsOn (data : Bytes) (pos : Nat) (index : Index) (made : Array Step) : Array Step :=
  if inside : pos < data.size then
    let m := index.longestMatch data pos
    if worthwhile : m.Worthwhile then
      stepsOn data (pos + m.length) (index.insertMany data pos m.length) (made.push (.copy m))
    else stepsOn data (pos + 1) (index.insert data pos) (made.push (.keep data[pos]))
  else made
termination_by data.size - pos
decreasing_by
  · have : 0 < (index.longestMatch data pos).length := worthwhile.length_pos
    omega
  · omega

/-- The decisions for some data. -/
def steps (data : Bytes) : List Step := (stepsOn data 0 (.empty data) #[]).toList

/-- The tokens so far with the bytes kept since; there is no token without bytes. -/
def closeRun (run : Array UInt8) (tokens : Array Token) : Array Token :=
  if run.isEmpty then tokens else tokens.push (.literals run.toList)

/-- Groups decisions into tokens. A run of kept bytes is closed by a copy, at the end, and when it
has reached the length that one token can carry. -/
def groupOn : List Step → Array UInt8 → Array Token → Array Token
  | [], run, tokens => closeRun run tokens
  | .keep b :: rest, run, tokens =>
    let run := run.push b
    if run.size = maxRun then groupOn rest #[] (closeRun run tokens)
    else groupOn rest run tokens
  | .copy m :: rest, run, tokens =>
    groupOn rest #[] ((closeRun run tokens).push (.copy m.length m.distance))

/-- The tokens that emit some data, first byte first. -/
def tokensOf (data : Bytes) : List Token := (groupOn (steps data) #[] #[]).toList

/-- The packed block of some data, whether or not it is of use. -/
def block (data : Bytes) : Bytes :=
  layout ((tokensOf data.reverse).flatMap Token.bits) data.size

/-- Whether a block can be expanded in its own buffer. -/
def expandsInPlace (block : Bytes) (unpacked : Nat) : Bool :=
  match unpackInPlace (block.resize unpacked) block.size unpacked with
  | (_, .ok ()) => true
  | (_, .error _) => false

/-- How data are to be stored. -/
inductive Plan where
  /-- As they are, without having been packed: there is nothing to pack, or the length does not fit
  the trailer. -/
  | untried
  /-- As they are: the block would be no shorter. -/
  | incompressible (block : Bytes)
  /-- As they are: the block would overrun itself when expanded in place. -/
  | overrunning (block : Bytes)
  /-- As a packed block. -/
  | packed (block : Bytes)
deriving Repr, DecidableEq

/-- The largest length that fits the trailer. -/
def maxLength : Nat := 0xFFFFFFFF

/-- **How some data are to be stored.** -/
def plan (data : Bytes) : Plan :=
  if data.isEmpty ∨ maxLength < data.size then .untried
  else
    let b := block data
    if data.size ≤ b.size then .incompressible b
    else if expandsInPlace b data.size then .packed b
    else .overrunning b

/-- What is stored for some data according to a plan. -/
def Plan.stored (data : Bytes) : Plan → Bytes
  | .packed block => block
  | _ => data

/-- **Packs data**: the packed block, or the data themselves. -/
def pack (data : Bytes) : Bytes := (plan data).stored data

/-- Why a block does not stand for some data. -/
inductive VerifyError where
  /-- The block cannot be expanded. -/
  | unpack (cause : UnpackError)
  /-- It stands for other data. -/
  | mismatch
deriving Repr, DecidableEq

/-- The wording of a failed check. -/
def VerifyError.message : VerifyError → String
  | .unpack cause => cause.message
  | .mismatch => "output differs from the input"

/-- Checks that a block stands for some data when it is loaded the way resources are. -/
def verify (block data : Bytes) : Except VerifyError Unit :=
  let buffer := block.resize data.size
  let (result, outcome) :=
    if block.size < data.size then unpackInPlace buffer block.size data.size
    else (buffer, .ok ())
  match outcome with
  | .error e => .error (.unpack e)
  | .ok () => if result = data then .ok () else .error .mismatch

end Cinematic.Packing

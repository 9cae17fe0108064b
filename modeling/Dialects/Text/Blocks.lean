import Dialects.Text.Utf8

/-!
# Decoding in blocks

A file that is read line by line is decoded block by block. A sequence that the end of a block cuts
off is carried over to the next one. A block with a fault is lost as a whole, and the offset of the
fault counts from the first byte of the block, bytes carried over included.
-/

namespace Dialects.Utf8

/-- The number of bytes in a block. -/
def blockSize : Nat := 8192

/-- The bytes cut into blocks. -/
def blocks (bs : Bytes) : List Bytes :=
  if bs.length ≤ blockSize then [bs] else bs.take blockSize :: blocks (bs.drop blockSize)
termination_by bs.length
decreasing_by
  have : blockSize = 8192 := rfl
  simp only [List.length_drop]
  omega

/-- Whether bytes at the end of a block may be the start of a sequence that the block cuts off. The
first two bytes of a surrogate count as such, although no third one makes them a sequence. -/
def isCutOff (bs : Bytes) (defect : Defect) : Bool :=
  match defect, bs with
  | .unexpectedEnd, _ => true
  | _, [0xED, b] => 0xA0 ≤ b && b ≤ 0xBF
  | _, _ => false

/-- Decodes blocks, given the bytes carried over: the text of the blocks before the first fault,
and the fault. -/
def decodeBlocks (carried : Bytes) : List Bytes → Text × Option DecodeFault
  -- Bytes that are left over at the end are cut off for good.
  | [] => if carried = [] then ([], none) else ([], (decodeFrom 0 carried).2)
  | block :: rest =>
    let bs := carried ++ block
    match decodeFrom 0 bs with
    | (t, none) =>
      let (t', fault) := decodeBlocks [] rest
      (t ++ t', fault)
    | (t, some fault) =>
      let left := bs.drop fault.start
      if isCutOff left fault.defect then
        let (t', fault') := decodeBlocks left rest
        (t ++ t', fault')
      else ([], some fault)

/-- The text of a file that is read block by block, up to the first block at fault, and the
fault. -/
def decodeFile (bs : Bytes) : Text × Option DecodeFault := decodeBlocks [] (blocks bs)

end Dialects.Utf8

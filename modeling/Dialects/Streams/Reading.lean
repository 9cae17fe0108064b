import Dialects.Conversion.Simple

/-!
# Converted reading

A stream of chunks is read through a conversion, chunk by chunk: the chunks keep their number and
order, and the first chunk that cannot be converted ends the reading. Closing the stream closes its
source, which then yields nothing more.
-/

namespace Dialects.Streams

/-- A source of chunks, which may fail at one place. -/
structure Source where
  /-- The chunks in order. -/
  chunks : List Text
  /-- The number of chunks after which the source fails, if it fails; a number beyond the last chunk
  means the end. -/
  faultAt : Option Nat
  /-- The failure. -/
  fault : Failure

/-- What has come of reading a stream. -/
structure Reading where
  /-- The converted chunks that have been received. -/
  received : List Text
  /-- The failure that ended the reading, if one did. -/
  failure : Option Failure
  /-- How many chunks have been given to the conversion. -/
  converted : Nat
  /-- Whether the source has been closed. -/
  closed : Bool

namespace Reading

/-- Reads the chunks of a source that are left, of which the first has the given number. The reader
closes the stream when it has received `closeAfter` chunks. -/
def resume (convert : Convert) (source : Source) (closeAfter : Option Nat) (r : Reading)
    (number : Nat) : List Text → Reading
  | [] =>
    match source.faultAt with
    | some n => if number ≤ n then { r with failure := some source.fault } else r
    | none => r
  | chunk :: rest =>
    if r.closed then r
    else if source.faultAt = some number then { r with failure := some source.fault }
    else
      match convert chunk with
      | .error f => { r with failure := some f, converted := r.converted + 1 }
      | .ok c =>
        let received := r.received ++ [c]
        let r' : Reading :=
          { r with
            received
            converted := r.converted + 1
            closed := closeAfter == some received.length }
        resume convert source closeAfter r' (number + 1) rest

/-- Reads a whole source. -/
def ofSource (convert : Convert) (source : Source) (closeAfter : Option Nat) (close : Bool) :
    Reading :=
  let r := resume convert source closeAfter ⟨[], none, 0, false⟩ 0 source.chunks
  { r with closed := r.closed || close }

end Reading

end Dialects.Streams

import Dialects.Conversion.Simple
import Dialects.Storage.Memory
import Dialects.Streams.Transcoding

/-!
# Rehearsing the conversion of a buffer

The text of a buffer is replaced by a conversion of it, and the failures that are told are recorded.
-/

namespace Dialects.Rehearsal

/-- A buffer in memory. -/
structure Buffer where
  /-- The text. -/
  text : Text
  /-- Whether the text has changed. -/
  modified : Bool
  /-- Whether replacing the text fails. -/
  editFails : Bool
  /-- The failures that have been told. -/
  told : List Failure

namespace Buffer

/-- Replaces the text; the buffer is modified if the text differs. -/
def setText (t : Text) : Action Buffer Unit := do
  if ← .ask Buffer.editFails then throw DocumentFault.setText.failure
  .change fun b => if b.text = t then b else { b with text := t, modified := true }

/-- Replaces the text by a conversion of it. -/
def transcode (conversion : Convert) : Action Buffer Unit :=
  Streams.transcode (.ask Buffer.text) setText (fun t => .ofExcept (conversion t))
    fun f => .change fun b => { b with told := b.told ++ [f] }

end Buffer

end Dialects.Rehearsal

import Dialects.Action

/-!
# Converting in place

A text is replaced by a conversion of it. If the conversion fails the text stays as it is.
-/

namespace Dialects.Streams

/-- Replaces a text, given how to read and how to set it. A failure of the conversion is told to
`onError`, and the whole fails with it. -/
def transcode {σ : Type} (get : Action σ Text) (set : Text → Action σ Unit)
    (convert : Text → Action σ Text) (onError : Failure → Action σ Unit) : Action σ Unit := do
  let text ← get
  match ← (convert text).attempt with
  | .error f =>
    onError f
    throw f
  | .ok converted => set converted

end Dialects.Streams

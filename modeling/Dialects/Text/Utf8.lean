import Dialects.Text.CodePoint

/-!
# The UTF-8 encoding

Files hold bytes. Decoding refuses overlong sequences, surrogates and numbers beyond the last code
point, and reports the first sequence at fault; encoding refuses surrogates and reports the first
run of them.
-/

namespace Dialects

/-- The content of a file. -/
abbrev Bytes := List UInt8

namespace Utf8

/-- What is wrong with a byte sequence. -/
inductive Defect where
  /-- No sequence starts with this byte. -/
  | invalidStart
  /-- A byte that should continue the sequence does not. -/
  | invalidContinuation
  /-- The bytes end inside the sequence. -/
  | unexpectedEnd
  deriving DecidableEq, Repr

/-- A sequence that cannot be decoded. -/
structure DecodeFault where
  /-- The offset of its first byte. -/
  start : Nat
  /-- The bytes at fault; there is at least one. -/
  bytes : Bytes
  /-- What is wrong with them. -/
  defect : Defect
  deriving DecidableEq, Repr

/-- A run of surrogates, which have no encoding. -/
structure EncodeFault where
  /-- The offset of the first surrogate, in code points. -/
  start : Nat
  /-- The first surrogate's number. -/
  first : Nat
  /-- The length of the run. -/
  length : Nat
  deriving DecidableEq, Repr

/-- The smallest and largest second byte of a sequence, and how many bytes follow its first. -/
structure Lead where
  /-- The number of bytes that follow. -/
  more : Nat
  /-- The smallest second byte. -/
  lo : UInt8
  /-- The largest second byte. -/
  hi : UInt8

/-- What a first byte of `0x80` or more announces. -/
def lead? (b : UInt8) : Option Lead :=
  if b < 0xC2 then none
  else if b < 0xE0 then some ⟨1, 0x80, 0xBF⟩
  else if b = 0xE0 then some ⟨2, 0xA0, 0xBF⟩
  else if b = 0xED then some ⟨2, 0x80, 0x9F⟩
  else if b < 0xF0 then some ⟨2, 0x80, 0xBF⟩
  else if b = 0xF0 then some ⟨3, 0x90, 0xBF⟩
  else if b < 0xF4 then some ⟨3, 0x80, 0xBF⟩
  else if b = 0xF4 then some ⟨3, 0x80, 0x8F⟩
  else none

/-- How many of the bytes, at most `more`, continue a sequence whose next byte lies between the
bounds. -/
def continuations : (more : Nat) → (lo hi : UInt8) → Bytes → Nat
  | 0, _, _, _ => 0
  | _ + 1, _, _, [] => 0
  | more + 1, lo, hi, b :: bs =>
    if lo ≤ b && b ≤ hi then continuations more 0x80 0xBF bs + 1 else 0

/-- The number that a first byte and its continuation bytes spell. -/
def number (first : UInt8) (rest : Bytes) : Nat :=
  let mask := match rest.length with
    | 1 => 0x1F
    | 2 => 0x0F
    | _ => 0x07
  rest.foldl (fun n b => n * 64 + b.toNat % 64) (first.toNat % (mask + 1))

/-- Reads one sequence: the code point, and how many bytes after the first spell it. -/
def decodeOne (start : Nat) (first : UInt8) (bs : Bytes) : Except DecodeFault (CodePoint × Nat) :=
  if first < 0x80 then .ok (.scalar (Char.ofNat first.toNat), 0)
  else match lead? first with
    | none => .error ⟨start, [first], .invalidStart⟩
    | some lead =>
      let n := continuations lead.more lead.lo lead.hi bs
      if n = lead.more then .ok (.scalar (Char.ofNat (number first (bs.take n))), n)
      else if bs.length ≤ n then .error ⟨start, first :: bs, .unexpectedEnd⟩
      else .error ⟨start, first :: bs.take n, .invalidContinuation⟩

/-- Decodes bytes of which the first has the given offset: the text up to the first fault, and
the fault. -/
def decodeFrom (start : Nat) (bs : Bytes) : Text × Option DecodeFault :=
  match bs with
  | [] => ([], none)
  | first :: rest =>
    match decodeOne start first rest with
    | .error fault => ([], some fault)
    | .ok (c, n) =>
      let (t, fault) := decodeFrom (start + 1 + n) (rest.drop n)
      (c :: t, fault)
termination_by bs.length
decreasing_by simp only [List.length_cons, List.length_drop]; omega

/-- The text that the bytes encode. -/
def decode (bs : Bytes) : Except DecodeFault Text :=
  match decodeFrom 0 bs with
  | (t, none) => .ok t
  | (_, some fault) => .error fault

/-- The bytes of a number below `0x110000`. -/
def bytesOf (n : Nat) : Bytes :=
  let more (k : Nat) : UInt8 := UInt8.ofNat (0x80 + n / k % 64)
  if n < 0x80 then [UInt8.ofNat n]
  else if n < 0x800 then [UInt8.ofNat (0xC0 + n / 64), more 1]
  else if n < 0x10000 then [UInt8.ofNat (0xE0 + n / 4096), more 64, more 1]
  else [UInt8.ofNat (0xF0 + n / 262144), more 4096, more 64, more 1]

/-- Encodes a text of which the first code point has the given offset. -/
def encodeFrom (start : Nat) : Text → Except EncodeFault Bytes
  | [] => .ok []
  | .surrogate n :: t =>
    .error ⟨start, 0xD800 + n.val, Text.spanLength (fun c => !c.isScalar) t + 1⟩
  | .scalar c :: t => (encodeFrom (start + 1) t).map (bytesOf c.toNat ++ ·)

/-- The bytes that encode a text. -/
def encode (t : Text) : Except EncodeFault Bytes := encodeFrom 0 t

end Utf8

end Dialects

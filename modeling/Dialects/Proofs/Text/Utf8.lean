import Dialects.Text.Blocks

/-!
# Decoding and encoding

A sequence is read off its first byte and the bytes that follow, whatever comes behind them
(`decodeOne_of_take`), so bytes that decode without a fault can be taken off in front of others
(`decodeFrom_append`). A file that is decoded block by block therefore has a text just when its
bytes have one as a whole, and it is the same text (`decodeFile_eq_none_iff`): what a block cuts off
is found at fault at its start, and is carried over up to that place.

What has been encoded is decoded to the same text (`decode_encode`), so that a text can be told from
the bytes that hold it.

## Main results

* `decodeFrom_append`, `exists_take_of_fault`: bytes in front of and behind a place.
* `decodeFile_eq_none_iff`: decoding in blocks is decoding.
* `decode_encode`: encoding can be undone.
-/

namespace Dialects.Utf8

/-! ## One sequence -/

/-- No more continuation bytes are found than are there. -/
theorem continuations_le_length (more : Nat) (lo hi : UInt8) (bs : Bytes) :
    continuations more lo hi bs ≤ bs.length := by
  fun_induction continuations more lo hi bs <;> grind

/-- All that continue a sequence are found again, whatever comes behind them. -/
theorem continuations_of_take {more : Nat} {lo hi : UInt8} {bs : Bytes}
    (h : continuations more lo hi bs = more) (cs : Bytes) :
    continuations more lo hi (bs.take more ++ cs) = more := by
  fun_induction continuations more lo hi bs <;> grind [continuations]

/-- A byte that does not continue a sequence ends it, whatever comes behind. -/
theorem continuations_append_of_lt {more : Nat} {lo hi : UInt8} {bs : Bytes}
    (h : continuations more lo hi bs < bs.length) (cs : Bytes) :
    continuations more lo hi (bs ++ cs) = continuations more lo hi bs := by
  fun_induction continuations more lo hi bs <;> grind [continuations]

/-- A fault that counts from another offset. -/
def DecodeFault.shift (k : Nat) (f : DecodeFault) : DecodeFault := { f with start := k + f.start }

/-- The offset only counts for the place of a fault. -/
theorem decodeOne_add (k start : Nat) (first : UInt8) (bs : Bytes) :
    decodeOne (k + start) first bs = (decodeOne start first bs).mapError (·.shift k) := by
  -- the offset is in the faults only, and the branches do not ask for it
  unfold decodeOne
  split
  · rfl
  split
  · rfl
  · dsimp only
    split
    · rfl
    split <;> rfl

/-- A sequence is read off its own bytes. -/
theorem decodeOne_of_take {start : Nat} {first : UInt8} {bs : Bytes} {c : CodePoint} {n : Nat}
    (h : decodeOne start first bs = .ok (c, n)) (cs : Bytes) :
    n ≤ bs.length ∧ decodeOne start first (bs.take n ++ cs) = .ok (c, n) := by
  unfold decodeOne at h ⊢
  split at h
  next hascii =>
    cases h
    simp [hascii]
  next hascii =>
    rw [if_neg hascii]
    split at h
    · contradiction
    next lead hlead =>
      dsimp only at h
      split at h
      next hall =>
        -- all the continuation bytes are there, and nothing behind them has been looked at
        have hle : lead.more ≤ bs.length :=
          hall ▸ continuations_le_length lead.more lead.lo lead.hi bs
        have hagain := continuations_of_take hall cs
        simp only [Except.ok.injEq, Prod.mk.injEq] at h
        obtain ⟨rfl, rfl⟩ := h
        rw [hall]
        simp only [hagain, if_true, Except.ok.injEq, Prod.mk.injEq, and_true]
        refine ⟨hle, ?_⟩
        rw [List.take_append_of_le_length (by simp [hle]), List.take_take, Nat.min_self]
      · split at h <;> contradiction

/-- A sequence that is at fault, and not just cut off, is so whatever comes behind it. -/
theorem decodeOne_append_of_fault {start : Nat} {first : UInt8} {bs : Bytes} {f : DecodeFault}
    (h : decodeOne start first bs = .error f) (hdefect : f.defect ≠ .unexpectedEnd) (cs : Bytes) :
    ∃ f', decodeOne start first (bs ++ cs) = .error f' := by
  unfold decodeOne at h ⊢
  split at h
  · contradiction
  next hascii =>
    rw [if_neg hascii]
    split at h
    next => exact ⟨_, rfl⟩
    next lead hlead =>
      dsimp only at h
      split at h
      · contradiction
      next hmore =>
        split at h
        -- a sequence at the end of the bytes is only cut off, which has been excluded
        next => cases h; contradiction
        next hlt =>
          have hsame := continuations_append_of_lt (Nat.lt_of_not_le hlt) cs
          have hlong : ¬ (bs ++ cs).length ≤ continuations lead.more lead.lo lead.hi bs := by
            rw [List.length_append]
            omega
          simp only [hsame, if_neg hmore, if_neg hlong]
          exact ⟨_, rfl⟩

/-- A fault is placed at the first byte of its sequence. -/
theorem start_of_decodeOne {start : Nat} {first : UInt8} {bs : Bytes} {f : DecodeFault}
    (h : decodeOne start first bs = .error f) : f.start = start := by
  -- every branch that fails does so with the offset it was given
  unfold decodeOne at h
  split at h
  · contradiction
  split at h
  · cases h; rfl
  · dsimp only at h
    split at h
    · contradiction
    split at h <;> (cases h; rfl)

/-! ## Many sequences -/

@[simp]
theorem decodeFrom_nil (start : Nat) : decodeFrom start [] = ([], none) := by
  rw [decodeFrom]

/-- A sequence, and what comes behind it. -/
theorem decodeFrom_cons_of_ok {start : Nat} {first : UInt8} {bs : Bytes} {c : CodePoint} {n : Nat}
    (h : decodeOne start first bs = .ok (c, n)) :
    decodeFrom start (first :: bs) =
      (c :: (decodeFrom (start + 1 + n) (bs.drop n)).1,
        (decodeFrom (start + 1 + n) (bs.drop n)).2) := by
  rw [decodeFrom, h]

/-- A sequence at fault ends the text. -/
theorem decodeFrom_cons_of_error {start : Nat} {first : UInt8} {bs : Bytes} {f : DecodeFault}
    (h : decodeOne start first bs = .error f) :
    decodeFrom start (first :: bs) = ([], some f) := by
  rw [decodeFrom, h]

/-- The offset only counts for the place of a fault. -/
theorem decodeFrom_add (k start : Nat) (bs : Bytes) :
    decodeFrom (k + start) bs =
      ((decodeFrom start bs).1, (decodeFrom start bs).2.map (·.shift k)) := by
  fun_induction decodeFrom start bs with
  | case1 start => simp
  | case2 start first bs f h =>
    exact decodeFrom_cons_of_error (by rw [decodeOne_add, h]; rfl)
  | case3 start first bs c n h t fault hrest ih =>
    have hone : decodeOne (k + start) first bs = .ok (c, n) := by
      rw [decodeOne_add, h]
      rfl
    rw [decodeFrom_cons_of_ok hone]
    simp only [← Nat.add_assoc, hrest] at ih ⊢
    rw [ih]

/-- Bytes that decode without a fault are taken off in front of others. -/
theorem decodeFrom_append {start : Nat} {bs : Bytes} {t : Text}
    (h : decodeFrom start bs = (t, none)) (cs : Bytes) :
    decodeFrom start (bs ++ cs) =
      (t ++ (decodeFrom (start + bs.length) cs).1, (decodeFrom (start + bs.length) cs).2) := by
  -- the induction is on the sequences that have been read
  fun_induction decodeFrom start bs generalizing t with
  | case1 start => cases h; simp
  | case2 start first bs f hone => simp at h
  | case3 start first bs c n hone t' fault hrest ih =>
    simp only [Prod.mk.injEq] at h
    obtain ⟨rfl, rfl⟩ := h
    obtain ⟨hle, hagain⟩ := decodeOne_of_take hone (bs.drop n ++ cs)
    rw [← List.append_assoc, List.take_append_drop] at hagain
    have hlength : start + 1 + n + (bs.drop n).length = start + (first :: bs).length := by
      simp only [List.length_drop, List.length_cons]
      omega
    have hih := ih hrest
    -- behind the first sequence the offset has moved by its length
    rw [hlength] at hih
    rw [List.cons_append, decodeFrom_cons_of_ok hagain, List.drop_append_of_le_length hle, hih]
    rfl

/-- What lies in front of a fault decodes, and the bytes from there on are at fault at once. -/
theorem exists_take_of_fault {start : Nat} {bs : Bytes} {t : Text} {f : DecodeFault}
    (h : decodeFrom start bs = (t, some f)) :
    ∃ n, f.start = start + n ∧ decodeFrom start (bs.take n) = (t, none) ∧
      decodeFrom (start + n) (bs.drop n) = ([], some f) := by
  -- the induction is on the sequences in front of the fault
  fun_induction decodeFrom start bs generalizing t with
  | case1 start => simp at h
  | case2 start first bs f' hone =>
    cases h
    exact ⟨0, start_of_decodeOne hone, by simp, decodeFrom_cons_of_error hone⟩
  | case3 start first bs c n hone t' fault hrest ih =>
    simp only [Prod.mk.injEq] at h
    obtain ⟨rfl, rfl⟩ := h
    obtain ⟨m, hstart, hfront, hback⟩ := ih hrest
    refine ⟨1 + n + m, by omega, ?_, ?_⟩
    · -- the first sequence is read off its own bytes, and the rest follows
      obtain ⟨hle, hagain⟩ := decodeOne_of_take hone ((bs.drop n).take m)
      rw [show 1 + n + m = (n + m) + 1 by omega, List.take_succ_cons, List.take_add,
        decodeFrom_cons_of_ok hagain]
      rw [List.drop_append_of_le_length (by simp [hle])]
      simp [hfront]
    · rw [show 1 + n + m = (n + m) + 1 by omega, List.drop_succ_cons, ← List.drop_drop]
      simpa [Nat.add_assoc, Nat.add_comm, Nat.add_left_comm] using hback

/-! ## Blocks -/

/-- The blocks are the bytes, cut. -/
@[simp]
theorem flatten_blocks (bs : Bytes) : (blocks bs).flatten = bs := by
  fun_induction blocks bs with
  | case1 bs h => simp
  | case2 bs h ih => simp [ih]

/-- Bytes that may be carried over: none, or such as are at fault at once. -/
def Carried (bs : Bytes) : Prop := bs = [] ∨ ∃ f, decodeFrom 0 bs = ([], some f)

/-- Whether something decodes does not depend on the offset. -/
theorem decodeFrom_eq_none_iff (start : Nat) (bs : Bytes) (t : Text) :
    decodeFrom start bs = (t, none) ↔ decodeFrom 0 bs = (t, none) := by
  have h := decodeFrom_add start 0 bs
  rw [Nat.add_zero] at h
  simp [h, Prod.ext_iff]

/-- What is left of a block may be carried over. -/
theorem carried_drop {bs : Bytes} {t : Text} {f : DecodeFault}
    (h : decodeFrom 0 bs = (t, some f)) : Carried (bs.drop f.start) := by
  obtain ⟨n, hstart, -, hback⟩ := exists_take_of_fault h
  have hadd := decodeFrom_add (0 + n) 0 (bs.drop n)
  rw [Nat.add_zero, hback] at hadd
  rw [hstart, Nat.zero_add]
  -- moved behind what has been decoded, the fault is the one of the rest for itself
  cases hleft : decodeFrom 0 (bs.drop n) with
  | mk t' fault =>
    cases fault with
    | none => simp [hleft] at hadd
    | some f' =>
      simp only [hleft, Prod.mk.injEq] at hadd
      exact .inr ⟨f', by rw [hleft, ← hadd.1]⟩

/-- Behind bytes that decode, the rest is decoded for itself. -/
theorem decodeFrom_append_eq_none_iff {bs : Bytes} {t : Text} (h : decodeFrom 0 bs = (t, none))
    (cs : Bytes) (u : Text) :
    decodeFrom 0 (bs ++ cs) = (u, none) ↔ ∃ v, u = t ++ v ∧ decodeFrom 0 cs = (v, none) := by
  rw [decodeFrom_append h]
  constructor
  · intro hu
    simp only [Prod.mk.injEq] at hu
    refine ⟨_, hu.1.symm, (decodeFrom_eq_none_iff (0 + bs.length) _ _).1 ?_⟩
    exact Prod.ext rfl hu.2
  · rintro ⟨v, rfl, hv⟩
    rw [(decodeFrom_eq_none_iff (0 + bs.length) _ _).2 hv]

/-- In front of a fault lies the text that has been decoded. -/
theorem decodeFrom_append_of_fault {bs : Bytes} {t : Text} {f : DecodeFault}
    (h : decodeFrom 0 bs = (t, some f)) (cs : Bytes) (u : Text) :
    decodeFrom 0 (bs ++ cs) = (u, none) ↔
      ∃ v, u = t ++ v ∧ decodeFrom 0 (bs.drop f.start ++ cs) = (v, none) := by
  obtain ⟨n, hstart, hfront, -⟩ := exists_take_of_fault h
  rw [Nat.zero_add] at hstart
  rw [hstart, ← decodeFrom_append_eq_none_iff hfront, ← List.append_assoc, List.take_append_drop]

/-- A fault that is none of a sequence cut off stays one, whatever comes behind. -/
theorem decodeFrom_append_ne_none {bs : Bytes} {t : Text} {f : DecodeFault}
    (h : decodeFrom 0 bs = (t, some f)) (hdefect : f.defect ≠ .unexpectedEnd) (cs : Bytes)
    (u : Text) : decodeFrom 0 (bs ++ cs) ≠ (u, none) := by
  intro hu
  obtain ⟨v, -, hv⟩ := (decodeFrom_append_of_fault h cs u).1 hu
  obtain ⟨n, hstart, -, hback⟩ := exists_take_of_fault h
  rw [Nat.zero_add] at hstart hback
  rw [hstart] at hv
  -- there are bytes from the fault on, since nothing is at fault in none
  cases hdrop : bs.drop n with
  | nil => simp [hdrop] at hback
  | cons first rest =>
    rw [hdrop] at hback hv
    cases hone : decodeOne n first rest with
    | ok r => simp [decodeFrom_cons_of_ok hone] at hback
    | error f' =>
      rw [decodeFrom_cons_of_error hone] at hback
      cases hback
      obtain ⟨f', hagain⟩ := decodeOne_append_of_fault hone hdefect cs
      -- the first of them is at fault with whatever comes behind, so that not all can be read
      rw [← decodeFrom_eq_none_iff n, List.cons_append, decodeFrom_cons_of_error hagain] at hv
      simp at hv

/-- Blocks have a text just when they have one put together. -/
theorem decodeBlocks_eq_none_iff {carried : Bytes} (h : Carried carried) (bs : List Bytes)
    (t : Text) :
    decodeBlocks carried bs = (t, none) ↔ decodeFrom 0 (carried ++ bs.flatten) = (t, none) := by
  induction bs generalizing carried t with
  | nil =>
    obtain rfl | ⟨f, hf⟩ := h
    · simp [decodeBlocks]
    · have hne : carried ≠ [] := by rintro rfl; simp at hf
      simp [decodeBlocks, hne, hf]
  | cons block rest ih =>
    rw [List.flatten_cons, ← List.append_assoc, decodeBlocks]
    -- What has been decoded of the block comes first, and the rest has a text by induction.
    have hstep (left : Bytes) (hleft : Carried left) (t' : Text) :
        (t' ++ (decodeBlocks left rest).1, (decodeBlocks left rest).2) = (t, none) ↔
          ∃ v, t = t' ++ v ∧ decodeFrom 0 (left ++ rest.flatten) = (v, none) := by
      simp only [← ih hleft, Prod.ext_iff]
      constructor
      · rintro ⟨htext, hnone⟩
        exact ⟨_, htext.symm, rfl, hnone⟩
      · rintro ⟨v, rfl, rfl, hnone⟩
        exact ⟨rfl, hnone⟩
    cases hblock : decodeFrom 0 (carried ++ block) with
    | mk t' fault =>
      cases fault with
      | none =>
        rw [decodeFrom_append_eq_none_iff hblock]
        exact hstep [] (.inl rfl) t'
      | some f =>
        dsimp only
        split
        next hcut =>
          rw [decodeFrom_append_of_fault hblock]
          exact hstep _ (carried_drop hblock) t'
        next hcut =>
          have hdefect : f.defect ≠ .unexpectedEnd := by
            intro hend
            simp [hend, isCutOff] at hcut
          have hnone := decodeFrom_append_ne_none hblock hdefect rest.flatten t
          exact iff_of_false (by simp) hnone

/-- A file that is decoded block by block has a text just when its bytes have one. -/
theorem decodeFile_eq_none_iff (bs : Bytes) (t : Text) :
    decodeFile bs = (t, none) ↔ decode bs = .ok t := by
  rw [decodeFile, decodeBlocks_eq_none_iff (.inl rfl), flatten_blocks, List.nil_append, decode]
  cases decodeFrom 0 bs with
  | mk t' fault => cases fault <;> simp

/-! ## Encoding -/

/-- Only a byte of `0x80` or more leads. -/
theorem le_of_lead? {b : UInt8} {lead : Lead} (h : lead? b = some lead) : 0x80 ≤ b := by
  rw [lead?] at h
  split at h
  · contradiction
  next hle =>
    simp only [UInt8.lt_iff_toNat_lt, UInt8.le_iff_toNat_le, UInt8.reduceToNat] at hle ⊢
    omega

/-- A first byte and its continuation bytes are read as the number that they spell. -/
theorem decodeOne_of_lead {first : UInt8} {lead : Lead} {rest : Bytes} {n : Nat}
    (hlead : lead? first = some lead) (hlength : rest.length = lead.more)
    (hall : continuations lead.more lead.lo lead.hi rest = lead.more)
    (hnumber : number first rest = n) (start : Nat) (cs : Bytes) :
    decodeOne start first (rest ++ cs) = .ok (.scalar (Char.ofNat n), rest.length) := by
  -- the first byte says how many continuation bytes there are, so what follows them does not count
  have hagain := continuations_of_take hall cs
  rw [← hlength, List.take_length, hlength] at hagain
  have hascii : ¬ first < 0x80 := by simpa using le_of_lead? hlead
  simp only [decodeOne, if_neg hascii, hlead, hagain, if_true]
  rw [← hlength, List.take_left, hnumber]

/-- The byte that holds the six lowest binary digits of a number. -/
def continuation (n : Nat) : UInt8 := UInt8.ofNat (0x80 + n % 64)

theorem toNat_continuation (n : Nat) : (continuation n).toNat = 0x80 + n % 64 := by
  rw [continuation, UInt8.toNat_ofNat']
  omega

/-- A continuation byte may stand anywhere but in second place. -/
theorem continuation_bounds (n : Nat) : 0x80 ≤ continuation n ∧ continuation n ≤ 0xBF := by
  simp only [UInt8.le_iff_toNat_le, toNat_continuation, UInt8.reduceToNat]
  omega

/-- The first of two bytes announces one more. -/
theorem lead?_two {n : Nat} (hlo : 0x80 ≤ n) (hhi : n < 0x800) :
    lead? (UInt8.ofNat (0xC0 + n / 64)) = some ⟨1, 0x80, 0xBF⟩ := by
  have hn : (UInt8.ofNat (0xC0 + n / 64)).toNat = 0xC0 + n / 64 := by
    rw [UInt8.toNat_ofNat']
    omega
  simp only [lead?, UInt8.lt_iff_toNat_lt, hn, UInt8.reduceToNat]
  rw [if_neg (by omega), if_pos (by omega)]

/-- The first of three bytes announces two more, and the second one is as it should be. -/
theorem lead?_three {n : Nat} (hlo : 0x800 ≤ n) (hhi : n < 0x10000)
    (hvalid : n < 0xD800 ∨ 0xDFFF < n) :
    ∃ lo hi, lead? (UInt8.ofNat (0xE0 + n / 4096)) = some ⟨2, lo, hi⟩ ∧
      lo ≤ continuation (n / 64) ∧ continuation (n / 64) ≤ hi := by
  have hn : (UInt8.ofNat (0xE0 + n / 4096)).toNat = 0xE0 + n / 4096 := by
    rw [UInt8.toNat_ofNat']
    omega
  simp only [lead?, UInt8.lt_iff_toNat_lt, UInt8.le_iff_toNat_le, ← UInt8.toNat_inj, hn,
    toNat_continuation, UInt8.reduceToNat]
  rw [if_neg (by omega), if_neg (by omega)]
  -- the second byte of some sequences is bounded more narrowly, depending on the first one
  split
  · exact ⟨_, _, rfl, by simp only [UInt8.reduceToNat]; omega⟩
  split
  · exact ⟨_, _, rfl, by simp only [UInt8.reduceToNat]; omega⟩
  · rw [if_pos (by omega)]
    exact ⟨_, _, rfl, by simp only [UInt8.reduceToNat]; omega⟩

/-- The first of four bytes announces three more, and the second one is as it should be. -/
theorem lead?_four {n : Nat} (hlo : 0x10000 ≤ n) (hhi : n < 0x110000) :
    ∃ lo hi, lead? (UInt8.ofNat (0xF0 + n / 262144)) = some ⟨3, lo, hi⟩ ∧
      lo ≤ continuation (n / 4096) ∧ continuation (n / 4096) ≤ hi := by
  have hn : (UInt8.ofNat (0xF0 + n / 262144)).toNat = 0xF0 + n / 262144 := by
    rw [UInt8.toNat_ofNat']
    omega
  simp only [lead?, UInt8.lt_iff_toNat_lt, UInt8.le_iff_toNat_le, ← UInt8.toNat_inj, hn,
    toNat_continuation, UInt8.reduceToNat]
  rw [if_neg (by omega), if_neg (by omega), if_neg (by omega), if_neg (by omega),
    if_neg (by omega)]
  split
  · exact ⟨_, _, rfl, by simp only [UInt8.reduceToNat]; omega⟩
  split
  · exact ⟨_, _, rfl, by simp only [UInt8.reduceToNat]; omega⟩
  · rw [if_pos (by omega)]
    exact ⟨_, _, rfl, by simp only [UInt8.reduceToNat]; omega⟩

/-- The bytes that encode a character are read as it, whatever comes behind them. -/
theorem decodeOne_bytesOf (c : Char) (start : Nat) (cs : Bytes) :
    ∃ first rest, bytesOf c.toNat = first :: rest ∧
      decodeOne start first (rest ++ cs) = .ok (.scalar c, rest.length) := by
  -- no character is a surrogate, so that the three bytes never stand for one
  have hvalid : c.toNat < 0xD800 ∨ 0xDFFF < c.toNat ∧ c.toNat < 0x110000 := c.valid
  have hc : Char.ofNat c.toNat = c := Char.ofNat_toNat c
  generalize c.toNat = n at hvalid hc
  subst hc
  have hmiddle (k : Nat) : UInt8.ofNat (0x80 + n / k % 64) = continuation (n / k) := rfl
  have hlast : UInt8.ofNat (0x80 + n % 64) = continuation n := rfl
  simp only [bytesOf, Nat.div_one, hmiddle, hlast]
  -- there are four lengths, which depend on the number
  split
  next h1 =>
    have hn : (UInt8.ofNat n).toNat = n := by
      rw [UInt8.toNat_ofNat']
      omega
    have hascii : UInt8.ofNat n < 0x80 := by
      rw [UInt8.lt_iff_toNat_lt, hn]
      exact h1
    exact ⟨_, _, rfl, by simp [decodeOne, hascii, hn]⟩
  split
  next h1 h2 =>
    have hlead := lead?_two (by omega) h2
    refine ⟨_, _, rfl, decodeOne_of_lead hlead rfl ?_ ?_ start cs⟩
    · simp [continuations, continuation_bounds]
    · simp only [number, List.length_cons, List.length_nil, List.foldl, toNat_continuation,
        UInt8.toNat_ofNat']
      omega
  split
  next h1 h2 h3 =>
    obtain ⟨lo, hi, hlead, hlo, hhi⟩ := lead?_three (by omega) h3 (by omega)
    refine ⟨_, _, rfl, decodeOne_of_lead hlead rfl ?_ ?_ start cs⟩
    · simp [continuations, continuation_bounds, hlo, hhi]
    · simp only [number, List.length_cons, List.length_nil, List.foldl, toNat_continuation,
        UInt8.toNat_ofNat']
      omega
  next h1 h2 h3 =>
    obtain ⟨lo, hi, hlead, hlo, hhi⟩ := lead?_four (Nat.le_of_not_lt h3) (by omega)
    refine ⟨_, _, rfl, decodeOne_of_lead hlead rfl ?_ ?_ start cs⟩
    · simp [continuations, continuation_bounds, hlo, hhi]
    · simp only [number, List.length_cons, List.length_nil, List.foldl, toNat_continuation,
        UInt8.toNat_ofNat']
      omega

/-- What has been encoded is decoded to the same text, wherever it stands. -/
theorem decodeFrom_encodeFrom {start : Nat} {t : Text} {bytes : Bytes}
    (h : encodeFrom start t = .ok bytes) (k : Nat) : decodeFrom k bytes = (t, none) := by
  induction t generalizing start bytes k with
  | nil => cases h; exact decodeFrom_nil k
  | cons c t ih =>
    cases c with
    | surrogate n => contradiction
    | scalar c =>
      rw [encodeFrom] at h
      cases hrest : encodeFrom (start + 1) t with
      | error f => rw [hrest] at h; contradiction
      | ok rest =>
        rw [hrest] at h
        cases h
        obtain ⟨first, more, hbytes, hone⟩ := decodeOne_bytesOf c k rest
        simp only [hbytes, List.cons_append]
        rw [decodeFrom_cons_of_ok hone, List.drop_left, ih hrest]

/-- Encoding can be undone. -/
theorem decode_encode {t : Text} {bytes : Bytes} (h : encode t = .ok bytes) :
    decode bytes = .ok t := by
  rw [decode, decodeFrom_encodeFrom h]

end Dialects.Utf8

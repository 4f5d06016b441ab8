import GreenTunnel.ShortWrites

/-! # Writing several buffers (`proxy.rs`, `utils.rs`)

`writeAllVectored` writes a list of slices with vectored write calls of at most
four buffers.  Between calls it keeps a cursor: the slices still to send and how
much of the first of them is sent.  What is left to send is `unsent`; skipping
spent slices leaves it alone (`skipSpent_spec`), and moving the cursor by what a
call took drops that much from it (`advance_spec`).  So each iteration sends a
prefix of what is left (`Iteration`), a run of them is a `VectoredRun`, and the
whole does to the stream what plain writes of the concatenation of the slices would
do (`writeAllVectored_refines`).

`splitAndWrite` writes one buffer in chunks of random size.  A run of its loop is a
`ChunkRun`, whatever sizes are drawn: it delivers the buffer, and its chunks are the
buffer cut into `Segments`.
-/
namespace GreenTunnel
open Checked

/-! ## `write_all_vectored` -/

/-- The inner loop that skips slices that are sent. -/
def skipSpent : List Bytes → Nat → List Bytes × Nat
  | [], firstSliceOffset => ([], firstSliceOffset)
  | slice :: slices, firstSliceOffset =>
    if firstSliceOffset ≥ slice.length then skipSpent slices 0
    else (slice :: slices, firstSliceOffset)

/-- The inner loop that moves the cursor by the bytes a write call took. -/
def advance : List Bytes → Nat → Nat → Checked (List Bytes × Nat)
  | [], firstSliceOffset, _ => .ok ([], firstSliceOffset)
  | slice :: slices, firstSliceOffset, remaining => do
    if remaining = 0 then return (slice :: slices, firstSliceOffset)
    let activeLen ← sub slice.length firstSliceOffset
    if remaining ≥ activeLen then advance slices 0 (remaining - activeLen)
    else return (slice :: slices, firstSliceOffset + remaining)

/-- The bytes the next vectored call offers: the rest of the first slice and up
to three slices more. -/
def vectoredOffer (first : Bytes) (slices : List Bytes) : Bytes :=
  let count := min (slices.length + 1) 4
  first ++ (slices.take (count - 1)).flatten

/-- The outer loop; `fuel` bounds its iterations. -/
def writeAllVectoredLoop : Nat → List Bytes → Nat → Socket → Written
  | _, [], _, stream => (.ok (), stream)
  | 0, _ :: _, _, stream => (.error (.fault .stuck), stream)
  | fuel + 1, slice :: slices, firstSliceOffset, stream =>
    match skipSpent (slice :: slices) firstSliceOffset with
    | ([], _) => (.ok (), stream)
    | (current :: rest, offset) =>
      match Checked.slice current offset current.length with
      | .error f => (.error (.fault f), stream)
      | .ok first =>
        match stream.write (vectoredOffer first rest) with
        | (none, stream) => (.error .os, stream)
        | (some 0, stream) => (.error .writeZero, stream)
        | (some (n + 1), stream) =>
          match advance (current :: rest) offset (n + 1) with
          | .error f => (.error (.fault f), stream)
          | .ok (slices, offset) => writeAllVectoredLoop fuel slices offset stream

def writeAllVectored (stream : Socket) (slices : List Bytes) : Written :=
  writeAllVectoredLoop (slices.flatten.length + 1) slices 0 stream

/-! ### The cursor -/

/-- What is left to send. -/
def unsent (slices : List Bytes) (offset : Nat) : Bytes := slices.flatten.drop offset

/-- The offset lies in the first slice. -/
def InFirst : List Bytes → Nat → Prop
  | [], _ => True
  | slice :: _, offset => offset ≤ slice.length

theorem inFirst_zero (slices : List Bytes) : InFirst slices 0 := by
  cases slices with
  | nil => trivial
  | cons slice _ => exact Nat.zero_le slice.length

@[simp] theorem unsent_zero (slices : List Bytes) : unsent slices 0 = slices.flatten := rfl

theorem unsent_cons {slice : Bytes} {slices : List Bytes} {offset : Nat}
    (h : offset ≤ slice.length) :
    unsent (slice :: slices) offset = slice.drop offset ++ slices.flatten := by
  rw [unsent, List.flatten_cons, List.drop_append_of_le_length h]

/-- Skipping spent slices changes nothing about what is left, and leaves a first
slice with something to send. -/
theorem skipSpent_spec {slices : List Bytes} {offset : Nat} (h : InFirst slices offset) :
    (skipSpent slices offset).1 = [] ∧ unsent slices offset = [] ∨
      ∃ current rest offset', skipSpent slices offset = (current :: rest, offset') ∧
        offset' < current.length ∧ unsent (current :: rest) offset' = unsent slices offset := by
  induction slices generalizing offset with
  | nil => exact Or.inl ⟨rfl, List.drop_nil⟩
  | cons slice slices ih =>
    unfold skipSpent
    by_cases hge : offset ≥ slice.length
    · rw [if_pos hge]
      have hspent : unsent (slice :: slices) offset = unsent slices 0 := by
        rw [unsent_cons h, List.drop_eq_nil_of_le hge]
        rfl
      rw [hspent]
      exact ih (inFirst_zero slices)
    · rw [if_neg hge]
      exact Or.inr ⟨slice, slices, offset, rfl, Nat.lt_of_not_le hge, rfl⟩

/-- **Moving the cursor** by `n` bytes of what is left drops them from it. -/
theorem advance_spec {slices : List Bytes} {offset n : Nat} (h : InFirst slices offset)
    (hn : n ≤ (unsent slices offset).length) :
    ∃ slices' offset', advance slices offset n = .ok (slices', offset') ∧
      InFirst slices' offset' ∧ unsent slices' offset' = (unsent slices offset).drop n := by
  induction slices generalizing offset n with
  | nil =>
    refine ⟨[], offset, rfl, trivial, ?_⟩
    simp [unsent]
  | cons slice slices ih =>
    unfold advance
    by_cases h0 : n = 0
    · exact ⟨slice :: slices, offset, by rw [if_pos h0]; rfl, h, by rw [h0, List.drop_zero]⟩
    · rw [if_neg h0]
      simp only [sub_of_le h, bind, Except.bind]
      rw [unsent_cons h] at hn ⊢
      have hactive : (slice.drop offset).length = slice.length - offset := List.length_drop
      by_cases hge : n ≥ slice.length - offset
      · -- the slice is sent, and the rest of `n` is taken from the slices behind it
        rw [if_pos hge]
        have hrest : n - (slice.length - offset) ≤ (unsent slices 0).length := by
          rw [List.length_append, hactive] at hn
          rw [unsent_zero]
          omega
        obtain ⟨slices', offset', hadv, hin, hun⟩ := ih (inFirst_zero slices) hrest
        refine ⟨slices', offset', hadv, hin, ?_⟩
        have hspent : (slice.drop offset).drop n = [] := List.drop_eq_nil_of_le (by omega)
        rw [hun, List.drop_append, hspent, hactive, List.nil_append, unsent_zero]
      · rw [if_neg hge]
        have hle : offset + n ≤ slice.length := by
          have : offset ≤ slice.length := h
          omega
        refine ⟨slice :: slices, offset + n, rfl, hle, ?_⟩
        rw [unsent_cons hle, List.drop_append_of_le_length (by omega), List.drop_drop]

/-- What a vectored call offers is the beginning of what is left, and not empty. -/
theorem vectoredOffer_spec {current : Bytes} {offset : Nat} (rest : List Bytes)
    (h : offset < current.length) :
    vectoredOffer (current.drop offset) rest <+: unsent (current :: rest) offset ∧
      vectoredOffer (current.drop offset) rest ≠ [] := by
  constructor
  · rw [unsent_cons (Nat.le_of_lt h), vectoredOffer, List.prefix_append_right_inj]
    obtain ⟨t, ht⟩ := List.take_prefix (min (rest.length + 1) 4 - 1) rest
    exact ⟨t.flatten, by rw [← List.flatten_append, ht]⟩
  · intro hnil
    have hlen := congrArg List.length (List.append_eq_nil_iff.mp hnil).1
    rw [List.length_drop, List.length_nil] at hlen
    omega

/-! ### The loop -/

/-- **One iteration of the loop**, by what the write call does.  What it is
offered is a beginning of what is left; what it takes is gone from what is left. -/
inductive Iteration (slices : List Bytes) (offset fuel : Nat) (stream : Socket) : Written → Prop
  | finished (h : unsent slices offset = []) : Iteration slices offset fuel stream (.ok (), stream)
  | failed {offer : Bytes} {stream' : Socket} (hne : offer ≠ [])
      (hoffer : offer <+: unsent slices offset) (hw : stream.write offer = (none, stream')) :
      Iteration slices offset fuel stream (.error .os, stream')
  | refused {offer : Bytes} {stream' : Socket} (hne : offer ≠ [])
      (hoffer : offer <+: unsent slices offset) (hw : stream.write offer = (some 0, stream')) :
      Iteration slices offset fuel stream (.error .writeZero, stream')
  | took {offer : Bytes} {stream' : Socket} {n offset' : Nat} {slices' : List Bytes}
      (hoffer : offer <+: unsent slices offset) (hw : stream.write offer = (some (n + 1), stream'))
      (hin : InFirst slices' offset')
      (hrest : unsent slices' offset' = (unsent slices offset).drop (n + 1)) :
      Iteration slices offset fuel stream (writeAllVectoredLoop fuel slices' offset' stream')

theorem writeAllVectoredLoop_iteration {fuel : Nat} {slices : List Bytes} {offset : Nat}
    {stream : Socket} (h : InFirst slices offset) :
    Iteration slices offset fuel stream (writeAllVectoredLoop (fuel + 1) slices offset stream) := by
  rcases slices with _ | ⟨slice, slices⟩
  · exact Iteration.finished List.drop_nil
  · rw [writeAllVectoredLoop]
    rcases skipSpent_spec h with ⟨hskip, hun⟩ | ⟨current, rest, offset', hskip, hlt, hun⟩
    · split
      · exact Iteration.finished hun
      · rename_i heq
        rw [heq] at hskip
        cases hskip
    · rw [hskip]
      simp only [slice_to_end (Nat.le_of_lt hlt)]
      obtain ⟨hoffer, hne⟩ := vectoredOffer_spec rest hlt
      rw [hun] at hoffer
      cases hw : stream.write (vectoredOffer (current.drop offset') rest) with
      | mk r stream' =>
        rcases r with _ | _ | n
        · exact Iteration.failed hne hoffer hw
        · exact Iteration.refused hne hoffer hw
        · have hle : n + 1 ≤ (unsent (current :: rest) offset').length := by
            rw [hun]
            exact Nat.le_trans (Socket.write_le hw) hoffer.length_le
          obtain ⟨slices', offset'', hadv, hin, hun'⟩ := @advance_spec (current :: rest) offset'
            (n + 1) (Nat.le_of_lt hlt) hle
          simp only [hadv]
          apply Iteration.took hoffer hw hin
          rw [hun', hun]

/-- What a write call took is the beginning of what was left. -/
theorem received_of_offer {stream stream' : Socket} {offer left : Bytes} {k : Nat}
    (hoffer : offer <+: left) (hw : stream.write offer = (some k, stream')) :
    k ≤ left.length ∧ stream'.received = stream.received ++ left.take k := by
  have hk := Socket.write_le hw
  have hrec : stream'.received = stream.received ++ offer.take k := Socket.write_received hw
  refine ⟨Nat.le_trans hk hoffer.length_le, ?_⟩
  obtain ⟨t, rfl⟩ := hoffer
  rw [hrec, List.take_append_of_le_length hk]

/-- **A run of the loop** on what is left to send, one write call after another. -/
inductive VectoredRun : Bytes → Socket → Written → Prop where
  | finished (stream : Socket) : VectoredRun [] stream (.ok (), stream)
  | failed {left offer : Bytes} {stream stream' : Socket} (hne : offer ≠ [])
      (hoffer : offer <+: left) (hw : stream.write offer = (none, stream')) :
      VectoredRun left stream (.error .os, stream')
  | refused {left offer : Bytes} {stream stream' : Socket} (hne : offer ≠ [])
      (hoffer : offer <+: left) (hw : stream.write offer = (some 0, stream')) :
      VectoredRun left stream (.error .writeZero, stream')
  | took {left offer : Bytes} {stream stream' : Socket} {n : Nat} {res : Written}
      (hoffer : offer <+: left) (hw : stream.write offer = (some (n + 1), stream'))
      (tail : VectoredRun (left.drop (n + 1)) stream' res) : VectoredRun left stream res

/-- Every iteration that does not end the loop sends a byte, so a budget above the
number of bytes left is enough. -/
theorem writeAllVectoredLoop_run {fuel : Nat} {slices : List Bytes} {offset : Nat}
    {stream : Socket} (h : InFirst slices offset) (hfuel : (unsent slices offset).length < fuel) :
    VectoredRun (unsent slices offset) stream
      (writeAllVectoredLoop fuel slices offset stream) := by
  induction fuel generalizing slices offset stream with
  | zero => exact absurd hfuel (Nat.not_lt_zero _)
  | succ fuel ih =>
    have hstep := @writeAllVectoredLoop_iteration fuel slices offset stream h
    generalize writeAllVectoredLoop (fuel + 1) slices offset stream = res at hstep ⊢
    cases hstep with
    | finished hun =>
      rw [hun]
      exact VectoredRun.finished stream
    | failed hne hoffer hw => exact VectoredRun.failed hne hoffer hw
    | refused hne hoffer hw => exact VectoredRun.refused hne hoffer hw
    | @took _ _ n _ _ hoffer hw hin hrest =>
      have hle := (received_of_offer hoffer hw).1
      apply VectoredRun.took hoffer hw
      rw [← hrest]
      apply ih hin
      rw [hrest, List.length_drop]
      omega

/-- **A vectored write** is a run on the concatenation of the slices. -/
theorem writeAllVectored_run (stream : Socket) (slices : List Bytes) :
    VectoredRun slices.flatten stream (writeAllVectored stream slices) :=
  writeAllVectoredLoop_run (inFirst_zero slices) (Nat.lt_succ_self _)

/-- A run delivers what is left to send. -/
theorem VectoredRun.delivers {left : Bytes} {stream : Socket} {res : Written}
    (h : VectoredRun left stream res) : Delivers stream left res := by
  induction h with
  | finished stream => exact Delivers.nil stream
  | failed _ _ hw => exact Delivers.os hw _
  | refused hne _ hw => exact Delivers.writeZero hw hne _
  | @took left _ _ _ n _ hoffer hw _ ih =>
    rw [← List.take_append_drop (n + 1) left]
    exact Delivers.after (received_of_offer hoffer hw).2 ih

/-- **A vectored write of a list of slices delivers their concatenation.** -/
theorem writeAllVectored_delivers (stream : Socket) (slices : List Bytes) :
    Delivers stream slices.flatten (writeAllVectored stream slices) :=
  (writeAllVectored_run stream slices).delivers

/-- A stream that always takes something takes everything. -/
theorem VectoredRun.ok_of_accepting {left : Bytes} {stream : Socket} {res : Written}
    (h : VectoredRun left stream res) (hs : stream.Accepting) : res.1 = .ok () := by
  induction h with
  | finished => rfl
  | failed hne _ hw =>
    obtain ⟨_, _, hw', -, -⟩ := hs.write hne
    cases hw.symm.trans hw'
  | refused hne _ hw =>
    obtain ⟨_, _, hw', hpos, -⟩ := hs.write hne
    cases hw.symm.trans hw'
    exact absurd hpos (Nat.lt_irrefl 0)
  | @took _ offer _ _ n _ _ hw _ ih =>
    have hne : offer ≠ [] := by
      rintro rfl
      exact absurd (Socket.write_le hw) (Nat.not_succ_le_zero n)
    obtain ⟨_, _, hw', -, hs'⟩ := hs.write hne
    cases hw.symm.trans hw'
    exact ih hs'

theorem writeAllVectored_of_accepting {stream : Socket} (hs : stream.Accepting)
    (slices : List Bytes) : (writeAllVectored stream slices).1 = .ok () :=
  (writeAllVectored_run stream slices).ok_of_accepting hs

/-! ### The loop as plain writes -/

/-- `res` is what plain writes of `bs` to `stream` come to, for some outcomes of
their write calls.  The outcomes before the next call do not matter. -/
def LikeWriteAll (stream : Socket) (bs : Bytes) (res : Written) : Prop :=
  ∃ outcomes : Nat → WriteOutcome, ∀ plain : Socket,
    plain.calls.length = stream.calls.length → plain.received = stream.received →
    (∀ i, plain.calls.length ≤ i → plain.outcomes i = outcomes i) →
      (plain.writeAll bs).1 = res.1 ∧ (plain.writeAll bs).2.received = res.2.received

namespace LikeWriteAll
variable {stream stream' : Socket} {bs : Bytes} {res : Written}

theorem nil (stream : Socket) : LikeWriteAll stream [] (.ok (), stream) := by
  refine ⟨stream.outcomes, ?_⟩
  intro plain _ hrec _
  exact ⟨rfl, hrec⟩

/-- The write call failed. -/
theorem os (h : bs ≠ []) (hrec' : stream'.received = stream.received) :
    LikeWriteAll stream bs (.error .os, stream') := by
  refine ⟨fun _ => .fails, ?_⟩
  intro plain _ hrec hout
  obtain ⟨plain', hw⟩ := Socket.write_of_fails (hout _ (Nat.le_refl _)) bs
  rw [(Socket.writeAll_of_ne_nil h).1 hw]
  refine ⟨rfl, ?_⟩
  rw [Socket.write_received hw, Option.getD_none, List.take_zero, List.append_nil, hrec, hrec']

/-- The write call took nothing. -/
theorem writeZero (h : bs ≠ []) (hrec' : stream'.received = stream.received) :
    LikeWriteAll stream bs (.error .writeZero, stream') := by
  refine ⟨fun _ => .accepts 0, ?_⟩
  intro plain _ hrec hout
  obtain ⟨plain', hw⟩ :=
    Socket.write_of_accepts (hout _ (Nat.le_refl _)) (Nat.zero_le bs.length)
  rw [(Socket.writeAll_of_ne_nil h).2 hw]
  refine ⟨rfl, ?_⟩
  rw [Socket.write_received hw, Option.getD_some, List.take_zero, List.append_nil, hrec, hrec']

/-- The write call took `n + 1` bytes, and a plain write takes as many. -/
theorem step {n : Nat} (hn : n + 1 ≤ bs.length)
    (hcalls : stream'.calls.length = stream.calls.length + 1)
    (hrec' : stream'.received = stream.received ++ bs.take (n + 1))
    (h : LikeWriteAll stream' (bs.drop (n + 1)) res) : LikeWriteAll stream bs res := by
  obtain ⟨outcomes, hrest⟩ := h
  refine ⟨fun i => if i = stream.calls.length then .accepts (n + 1) else outcomes i, ?_⟩
  intro plain hlen hrec hout
  have hnow := (hout _ (Nat.le_refl _)).trans (if_pos hlen)
  obtain ⟨plain', hw⟩ := Socket.write_of_accepts hnow hn
  obtain ⟨houtcomes, call, hcall, -⟩ := Socket.write_eq hw
  have hlen' : plain'.calls.length = plain.calls.length + 1 := by
    rw [hcall, List.length_append, List.length_singleton]
  rw [Socket.writeAll_of_write hw]
  apply hrest plain'
  · rw [hlen', hlen, hcalls]
  · rw [Socket.write_received hw, hrec, hrec', Option.getD_some]
  · intro i hi
    rw [houtcomes, hout i (by omega)]
    exact if_neg (by omega)

end LikeWriteAll

/-- A run is what plain writes of what is left to send come to. -/
theorem VectoredRun.like_writeAll {left : Bytes} {stream : Socket} {res : Written}
    (h : VectoredRun left stream res) : LikeWriteAll stream left res := by
  induction h with
  | finished stream => exact LikeWriteAll.nil stream
  | failed hne hoffer hw =>
    apply LikeWriteAll.os (hoffer.ne_nil hne)
    rw [Socket.write_received hw, Option.getD_none, List.take_zero, List.append_nil]
  | refused hne hoffer hw =>
    apply LikeWriteAll.writeZero (hoffer.ne_nil hne)
    rw [Socket.write_received hw, Option.getD_some, List.take_zero, List.append_nil]
  | took hoffer hw _ ih =>
    obtain ⟨hle, hrec⟩ := received_of_offer hoffer hw
    obtain ⟨-, call, hcalls, -⟩ := Socket.write_eq hw
    have hlen := congrArg List.length hcalls
    rw [List.length_append] at hlen
    exact LikeWriteAll.step hle hlen hrec ih

/-- **A vectored write refines a plain write of the concatenation.**  It ends, and
never indexes out of range.  When it succeeds the stream has received the
concatenation of the slices, and when it fails a prefix of it; it reports an error of
the stream only after a call that failed, and `writeZero` only after a call that took
nothing of a non-empty offer, so that it succeeds on a stream that always takes
something.  And what it does to the stream is what plain writes of the concatenation
would do, for some outcomes of their calls. -/
theorem writeAllVectored_refines (stream : Socket) (slices : List Bytes) :
    ((writeAllVectored stream slices).1 = .ok () →
      (writeAllVectored stream slices).2.received = stream.received ++ slices.flatten) ∧
    (∀ e, (writeAllVectored stream slices).1 = .error e → ∃ p, p <+: slices.flatten ∧
      (writeAllVectored stream slices).2.received = stream.received ++ p) ∧
    (∀ f, (writeAllVectored stream slices).1 ≠ .error (.fault f)) ∧
    ((writeAllVectored stream slices).1 = .error .os →
      ∃ call, (writeAllVectored stream slices).2.calls.getLast? = some call ∧
        call.result = none) ∧
    ((writeAllVectored stream slices).1 = .error .writeZero →
      ∃ call, (writeAllVectored stream slices).2.calls.getLast? = some call ∧
        call.offer ≠ [] ∧ call.result = some 0) ∧
    (stream.Accepting → (writeAllVectored stream slices).1 = .ok ()) ∧
    ∃ outcomes : Nat → WriteOutcome,
      ((Socket.mk outcomes stream.calls).writeAll slices.flatten).1 =
        (writeAllVectored stream slices).1 ∧
      ((Socket.mk outcomes stream.calls).writeAll slices.flatten).2.received =
        (writeAllVectored stream slices).2.received := by
  obtain ⟨hok, herror, hfault, hfailed, hzero⟩ := writeAllVectored_delivers stream slices
  have haccepting : stream.Accepting → (writeAllVectored stream slices).1 = .ok () :=
    fun hs => writeAllVectored_of_accepting hs slices
  refine ⟨hok, herror, hfault, hfailed, hzero, haccepting, ?_⟩
  obtain ⟨outcomes, hplain⟩ := (writeAllVectored_run stream slices).like_writeAll
  refine ⟨outcomes, ?_⟩
  apply hplain
  · rfl
  · rfl
  · intro i _
    rfl

/-! ## `split_and_write` -/

/-- The loop; `fuel` bounds its iterations and `i` counts the draws.  Beside how
it ended, the chunks it handed to `write_all`. -/
def splitAndWriteLoop (draws : Nat → Nat) (data : Bytes) :
    Nat → Nat → Nat → Socket → List Bytes × Written
  | fuel, i, offset, stream =>
    if offset < data.length then
      match fuel with
      | 0 => ([], .error (.fault .stuck), stream)
      | fuel + 1 =>
        match drawIn 80 256 (draws i) with
        | .error f => ([], .error (.fault f), stream)
        | .ok size =>
          let chunkSize := min size (data.length - offset)
          match Checked.slice data offset (offset + chunkSize) with
          | .error f => ([], .error (.fault f), stream)
          | .ok chunk =>
            match stream.writeAll chunk with
            | (.error e, stream) => ([chunk], .error e, stream)
            | (.ok (), stream) =>
              let r := splitAndWriteLoop draws data fuel (i + 1) (offset + chunkSize) stream
              (chunk :: r.1, r.2)
    else ([], .ok (), stream)

def splitAndWrite (draws : Nat → Nat) (data : Bytes) (stream : Socket) : List Bytes × Written :=
  if data = [] then ([], .ok (), stream) else splitAndWriteLoop draws data data.length 0 0 stream

/-- **A run of the loop** on what is left of the buffer: it hands over a chunk from
the front of it, of at least 80 bytes unless it is all of it, and goes on with the
rest if the chunk is written. -/
inductive ChunkRun : Bytes → Socket → List Bytes × Written → Prop where
  | nil (s : Socket) : ChunkRun [] s ([], .ok (), s)
  | failed {chunk : Bytes} {s s' : Socket} {e : WriteError} (rest : Bytes)
      (size : chunk ≠ [] ∧ chunk.length ≤ 256) (write : s.writeAll chunk = (.error e, s')) :
      ChunkRun (chunk ++ rest) s ([chunk], .error e, s')
  | cons {chunk rest : Bytes} {s s' : Socket} {r : List Bytes × Written}
      (size : chunk ≠ [] ∧ chunk.length ≤ 256) (full : 80 ≤ chunk.length ∨ rest = [])
      (write : s.writeAll chunk = (.ok (), s')) (tail : ChunkRun rest s' r) :
      ChunkRun (chunk ++ rest) s (chunk :: r.1, r.2)

/-- The chunk that an iteration hands over. -/
theorem exists_chunk {data : Bytes} {offset : Nat} (h : offset < data.length) (draw : Nat) :
    ∃ size, drawIn 80 256 draw = .ok size ∧ ∃ chunk,
      Checked.slice data offset (offset + min size (data.length - offset)) = .ok chunk ∧
      chunk.length = min size (data.length - offset) ∧
      data.drop offset = chunk ++ data.drop (offset + chunk.length) ∧
      (chunk ≠ [] ∧ chunk.length ≤ 256) ∧
      (80 ≤ chunk.length ∨ data.drop (offset + chunk.length) = []) := by
  obtain ⟨size, hsize, hlo, hhi⟩ := drawIn_of_le (show 80 ≤ 256 by decide) draw
  have hend : offset + min size (data.length - offset) ≤ data.length := by omega
  have hle : offset ≤ (data.take (offset + min size (data.length - offset))).length := by
    rw [List.length_take]
    omega
  have hlen : ((data.take (offset + min size (data.length - offset))).drop offset).length =
      min size (data.length - offset) := by
    rw [List.length_drop, List.length_take]
    omega
  refine ⟨size, hsize, _, slice_of_le (Nat.le_add_right _ _) hend, hlen, ?_, ⟨?_, ?_⟩, ?_⟩
  · rw [hlen, ← List.drop_append_of_le_length hle, List.take_append_drop]
  · apply List.ne_nil_of_length_pos
    omega
  · omega
  · rw [hlen, List.drop_eq_nil_iff]
    omega

theorem splitAndWriteLoop_of_ge {draws : Nat → Nat} {data : Bytes} {offset : Nat}
    (h : data.length ≤ offset) (fuel i : Nat) (stream : Socket) :
    splitAndWriteLoop draws data fuel i offset stream = ([], .ok (), stream) := by
  unfold splitAndWriteLoop
  exact if_neg (Nat.not_lt_of_le h)

/-- A chunk is at least one byte, so the bytes left are budget enough. -/
theorem splitAndWriteLoop_run {draws : Nat → Nat} {data : Bytes} {fuel i offset : Nat}
    {stream : Socket} (h : data.length ≤ offset + fuel) :
    ChunkRun (data.drop offset) stream (splitAndWriteLoop draws data fuel i offset stream) := by
  induction fuel generalizing i offset stream with
  | zero =>
    rw [Nat.add_zero] at h
    rw [splitAndWriteLoop_of_ge h, List.drop_eq_nil_of_le h]
    exact ChunkRun.nil stream
  | succ fuel ih =>
    by_cases hlt : offset < data.length
    · obtain ⟨size, hdraw, chunk, hslice, hlen, hcat, hsize, hfull⟩ := exists_chunk hlt (draws i)
      rw [hcat, splitAndWriteLoop, if_pos hlt]
      simp only [hdraw, hslice]
      rcases hw : stream.writeAll chunk with ⟨e | _, s⟩
      · exact ChunkRun.failed _ hsize hw
      · have hpos := List.length_pos_of_ne_nil hsize.1
        rw [← hlen]
        exact ChunkRun.cons hsize hfull hw (ih (by omega))
    · have hge := Nat.le_of_not_lt hlt
      rw [splitAndWriteLoop_of_ge hge, List.drop_eq_nil_of_le hge]
      exact ChunkRun.nil stream

/-- **Writing a buffer in chunks** is a run on all of it, whatever sizes are drawn. -/
theorem splitAndWrite_run (draws : Nat → Nat) (data : Bytes) (stream : Socket) :
    ChunkRun data stream (splitAndWrite draws data stream) := by
  unfold splitAndWrite
  by_cases h : data = []
  · rw [if_pos h, h]
    exact ChunkRun.nil stream
  · rw [if_neg h]
    exact @splitAndWriteLoop_run draws data data.length 0 0 stream (by omega)

/-- A run delivers the buffer. -/
theorem ChunkRun.delivers {data : Bytes} {stream : Socket} {r : List Bytes × Written}
    (h : ChunkRun data stream r) : Delivers stream data r.2 := by
  induction h with
  | nil s => exact Delivers.nil s
  | @failed chunk s s' e rest _ write =>
    have hwrite := Socket.writeAll_delivers s chunk
    rw [write] at hwrite
    exact hwrite.append_of_error rest
  | @cons chunk rest s s' r _ _ write _ ih =>
    have hwrite := Socket.writeAll_delivers s chunk
    rw [write] at hwrite
    exact hwrite.seq ih

/-- **Writing a buffer in chunks delivers it**, whatever sizes are drawn. -/
theorem splitAndWrite_delivers (draws : Nat → Nat) (data : Bytes) (stream : Socket) :
    Delivers stream data (splitAndWrite draws data stream).2 :=
  (splitAndWrite_run draws data stream).delivers

/-! ### The chunks -/

/-- **A segmentation of `data`**: the chunks that were handed over when writing
`data` ended with `res`.  They are `data`, or the front of it after a failure,
which is never the writer's own, and only the last may be short. -/
structure Segments (data : Bytes) (chunks : List Bytes) (res : Except WriteError Unit) : Prop where
  noFault : ∀ f, res ≠ .error (.fault f)
  ok : res = .ok () → chunks.flatten = data
  front : chunks.flatten <+: data
  size : ∀ chunk ∈ chunks, chunk ≠ [] ∧ chunk.length ≤ 256
  full : ∀ chunk ∈ chunks.dropLast, 80 ≤ chunk.length

namespace Segments
variable {chunk rest : Bytes} {chunks : List Bytes} {res : Except WriteError Unit}

theorem nil : Segments [] [] (.ok ()) where
  noFault f h := by cases h
  ok _ := rfl
  front := List.nil_prefix
  size _ h := by cases h
  full _ h := by cases h

/-- Nothing is handed over of an empty buffer. -/
theorem eq_nil (h : Segments [] chunks res) : chunks = [] := by
  cases chunks with
  | nil => rfl
  | cons chunk chunks =>
    have hnil := List.flatten_eq_nil_iff.mp (List.prefix_nil.mp h.front) chunk List.mem_cons_self
    exact absurd hnil (h.size chunk List.mem_cons_self).1

/-- A chunk that was not written, and what was to follow it. -/
theorem failed {e : WriteError} (hf : ∀ f, e ≠ .fault f) (hsize : chunk ≠ [] ∧ chunk.length ≤ 256)
    (rest : Bytes) : Segments (chunk ++ rest) [chunk] (.error e) where
  noFault f h := hf f (Except.error.inj h)
  ok h := by cases h
  front := by
    rw [List.flatten_singleton]
    exact List.prefix_append chunk rest
  size c h := by rwa [List.mem_singleton.mp h]
  full _ h := by cases h

/-- A chunk that was written, and the chunks of the rest. -/
theorem cons (hsize : chunk ≠ [] ∧ chunk.length ≤ 256) (hfull : 80 ≤ chunk.length ∨ rest = [])
    (h : Segments rest chunks res) : Segments (chunk ++ rest) (chunk :: chunks) res where
  noFault := h.noFault
  ok hok := by rw [List.flatten_cons, h.ok hok]
  front := by
    rw [List.flatten_cons]
    exact (List.prefix_append_right_inj chunk).mpr h.front
  size := List.forall_mem_cons.mpr ⟨hsize, h.size⟩
  full := by
    rcases hfull with hfull | rfl
    · cases chunks with
      | nil => exact fun _ hc => absurd hc List.not_mem_nil
      | cons c chunks =>
        rw [List.dropLast_cons_cons]
        exact List.forall_mem_cons.mpr ⟨hfull, h.full⟩
    · rw [h.eq_nil]
      exact fun _ hc => absurd hc List.not_mem_nil

end Segments

/-- A run segments the buffer. -/
theorem ChunkRun.segments {data : Bytes} {stream : Socket} {r : List Bytes × Written}
    (h : ChunkRun data stream r) : Segments data r.1 r.2.1 := by
  induction h with
  | nil s => exact Segments.nil
  | @failed chunk s s' e rest size write =>
    have hf : ∀ f, e ≠ .fault f := by
      rintro f rfl
      exact (Socket.writeAll_delivers s chunk).noFault f (congrArg Prod.fst write)
    exact Segments.failed hf size rest
  | cons size full _ _ ih => exact Segments.cons size full ih

/-- **The chunks of a buffer**, whatever sizes are drawn.  They are handed to `write_all`
one by one, each once those in front of it are written, and an error is that of the write
that failed (`ChunkRun`).  They are the buffer, or the front of it when a write failed:
none of them is empty or longer than 256 bytes, and all but the last are at least 80
bytes (`Segments`). -/
theorem splitAndWrite_segments (draws : Nat → Nat) (data : Bytes) (stream : Socket) :
    ChunkRun data stream (splitAndWrite draws data stream) ∧
      Segments data (splitAndWrite draws data stream).1 (splitAndWrite draws data stream).2.1 :=
  ⟨splitAndWrite_run draws data stream, (splitAndWrite_run draws data stream).segments⟩

end GreenTunnel

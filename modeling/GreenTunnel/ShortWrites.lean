import GreenTunnel.Checked

/-! # Sockets with short writes

A write call on a socket takes some prefix of the bytes it is offered, possibly
none of them, or fails.  A `Socket` fixes what every write call will do
(`outcomes`), so a statement about every socket is a statement about every
pattern of short writes and failures, and records the calls made so far, those that failed too.

`Delivers s bs res` is what an operation that writes `bs` owes its caller: if it
succeeds the socket has received exactly `bs` on top of what it had, and if it
fails the socket has received a prefix of them.  Operations compose by
`Delivers.andThen`.
-/
namespace GreenTunnel

/-- Why an operation that writes gave up. -/
inductive WriteError where
  /-- A write call failed. -/
  | os
  /-- A write call took none of the bytes it was offered. -/
  | writeZero
  /-- The writer itself panicked. -/
  | fault (f : Fault)
  deriving DecidableEq

/-- What a write call does with the bytes it is offered: take at most `n` of
them, or fail. -/
inductive WriteOutcome where
  | accepts (n : Nat)
  | fails

/-- A write call. -/
structure WriteCall where
  offer : Bytes
  /-- How many bytes it has taken; `none` if it has failed. -/
  result : Option Nat
  result_le : ∀ n ∈ result, n ≤ offer.length

namespace WriteCall

/-- What an outcome makes of an offer. -/
def of (offer : Bytes) : WriteOutcome → WriteCall
  | .accepts n =>
    ⟨offer, some (min n offer.length), fun _ h => Option.some.inj h ▸ Nat.min_le_right n _⟩
  | .fails => ⟨offer, none, by simp⟩

/-- A call that has failed has taken nothing. -/
def taken (c : WriteCall) : Nat := c.result.getD 0

theorem taken_le (c : WriteCall) : c.taken ≤ c.offer.length := by
  rw [taken]
  cases h : c.result with
  | none => exact Nat.zero_le _
  | some n => exact c.result_le n h

@[simp] theorem of_offer (offer : Bytes) (outcome : WriteOutcome) :
    (of offer outcome).offer = offer := by
  cases outcome <;> rfl

end WriteCall

/-- A socket: what each write call will do, and the calls made so far. -/
structure Socket where
  outcomes : Nat → WriteOutcome
  calls : List WriteCall

/-- How an operation that writes ended, and the socket after it. -/
abbrev Written := Except WriteError Unit × Socket

/-- What follows an operation that writes: `f` on the socket it left, unless it
failed. -/
def Written.andThen (w : Written) (f : Socket → Written) : Written :=
  match w with
  | (.ok (), s) => f s
  | (.error e, s) => (.error e, s)

namespace Socket

/-- A socket nothing has been written to. -/
def fresh (outcomes : Nat → WriteOutcome) : Socket := ⟨outcomes, []⟩

/-- The bytes the socket has taken, in order. -/
def received (s : Socket) : Bytes := s.calls.flatMap fun c => c.offer.take c.taken

/-- One write call: how many bytes it takes, or `none` if it fails. -/
def write (s : Socket) (offer : Bytes) : Option Nat × Socket :=
  let call := WriteCall.of offer (s.outcomes s.calls.length)
  (call.result, { s with calls := s.calls ++ [call] })

/-- Writes the whole of `bs`, one write call after another. -/
def writeAllUpTo : Nat → Socket → Bytes → Written
  | _, s, [] => (.ok (), s)
  | 0, s, _ :: _ => (.error (.fault .stuck), s)
  | fuel + 1, s, b :: bs =>
    match s.write (b :: bs) with
    | (none, s') => (.error .os, s')
    | (some 0, s') => (.error .writeZero, s')
    | (some (k + 1), s') => writeAllUpTo fuel s' (bs.drop k)

/-- Writes the whole of `bs`: every write call that does not end the loop takes
a byte, so the length of `bs` is budget enough. -/
def writeAll (s : Socket) (bs : Bytes) : Written := writeAllUpTo bs.length s bs

@[simp] theorem received_fresh (outcomes : Nat → WriteOutcome) : (fresh outcomes).received = [] :=
  rfl

/-- **What a write call does**: it takes the front of what it is offered, or nothing if it
fails, and the log says so. -/
theorem write_eq {s s' : Socket} {offer : Bytes} {r : Option Nat} (h : s.write offer = (r, s')) :
    s'.outcomes = s.outcomes ∧ ∃ c, s'.calls = s.calls ++ [c] ∧ c.offer = offer ∧ c.result = r := by
  cases h
  exact ⟨rfl, _, rfl, WriteCall.of_offer _ _, rfl⟩

theorem write_received {s s' : Socket} {offer : Bytes} {r : Option Nat}
    (h : s.write offer = (r, s')) : s'.received = s.received ++ offer.take (r.getD 0) := by
  obtain ⟨-, c, hc, rfl, rfl⟩ := write_eq h
  rw [received, hc, List.flatMap_append, List.flatMap_singleton]
  rfl

theorem write_le {s s' : Socket} {offer : Bytes} {k : Nat} (h : s.write offer = (some k, s')) :
    k ≤ offer.length := by
  obtain ⟨-, c, -, rfl, hk⟩ := write_eq h
  exact c.result_le k hk

/-- A write call that fails. -/
theorem write_of_fails {s : Socket} (h : s.outcomes s.calls.length = .fails) (offer : Bytes) :
    ∃ s', s.write offer = (none, s') := by
  rw [write, h]
  exact ⟨_, rfl⟩

/-- A write call that takes `n` of the bytes it is offered. -/
theorem write_of_accepts {s : Socket} {n : Nat} {offer : Bytes}
    (h : s.outcomes s.calls.length = .accepts n) (hn : n ≤ offer.length) :
    ∃ s', s.write offer = (some n, s') := by
  rw [write, h, WriteCall.of]
  simp only [Nat.min_eq_left hn]
  exact ⟨_, rfl⟩

/-- Every write call takes something of what it is offered. -/
def Accepting (s : Socket) : Prop := ∀ i, ∃ n, s.outcomes i = .accepts (n + 1)

theorem Accepting.write {s : Socket} (h : s.Accepting) {offer : Bytes} (hne : offer ≠ []) :
    ∃ k s', s.write offer = (some k, s') ∧ 0 < k ∧ s'.Accepting := by
  obtain ⟨n, hn⟩ := h s.calls.length
  have hlen := List.length_pos_of_ne_nil hne
  rw [Socket.write, hn]
  exact ⟨_, _, rfl, by omega, h⟩

end Socket

/-- **An operation that writes `bs` to `s`** delivered them: all of them if it
succeeded, a prefix of them if it failed, and it did not panic.  The error that it
reports is that of its last call, which failed, or took none of a non-empty offer. -/
structure Delivers (s : Socket) (bs : Bytes) (res : Written) : Prop where
  ok : res.1 = .ok () → res.2.received = s.received ++ bs
  error : ∀ e, res.1 = .error e → ∃ p, p <+: bs ∧ res.2.received = s.received ++ p
  noFault : ∀ f, res.1 ≠ .error (.fault f)
  failed : res.1 = .error .os → ∃ c, res.2.calls.getLast? = some c ∧ c.result = none
  zero : res.1 = .error .writeZero →
    ∃ c, res.2.calls.getLast? = some c ∧ c.offer ≠ [] ∧ c.result = some 0

namespace Delivers
variable {s s' : Socket} {a b bs : Bytes} {res : Written}

/-- Writing nothing. -/
theorem nil (s : Socket) : Delivers s [] (.ok (), s) where
  ok _ := by simp
  error e h := by cases h
  noFault f h := by cases h
  failed h := by cases h
  zero h := by cases h

/-- The write call failed. -/
theorem os {offer : Bytes} (h : s.write offer = (none, s')) (bs : Bytes) :
    Delivers s bs (.error .os, s') where
  ok h := by cases h
  error e _ := ⟨[], List.nil_prefix, by simpa using Socket.write_received h⟩
  noFault f h := by cases h
  failed _ := by
    obtain ⟨-, c, hc, -, hresult⟩ := Socket.write_eq h
    exact ⟨c, by simp [hc], hresult⟩
  zero h := by cases h

/-- A write call took none of a non-empty offer. -/
theorem writeZero {offer : Bytes} (h : s.write offer = (some 0, s')) (ho : offer ≠ [])
    (bs : Bytes) : Delivers s bs (.error .writeZero, s') where
  ok h := by cases h
  error e _ := ⟨[], List.nil_prefix, by simpa using Socket.write_received h⟩
  noFault f h := by cases h
  failed h := by cases h
  zero _ := by
    obtain ⟨-, c, hc, hoffer, hresult⟩ := Socket.write_eq h
    exact ⟨c, by simp [hc], hoffer ▸ ho, hresult⟩

/-- An operation that starts where `a` has just been received delivers `a` too. -/
theorem after (hr : s'.received = s.received ++ a) (h : Delivers s' b res) :
    Delivers s (a ++ b) res where
  ok hok := by rw [h.ok hok, hr, List.append_assoc]
  error e he := by
    obtain ⟨p, hp, hrec⟩ := h.error e he
    exact ⟨a ++ p, (List.prefix_append_right_inj a).mpr hp, by rw [hrec, hr, List.append_assoc]⟩
  noFault := h.noFault
  failed := h.failed
  zero := h.zero

/-- Two operations one after the other. -/
theorem seq (h₁ : Delivers s a (.ok (), s')) (h₂ : Delivers s' b res) : Delivers s (a ++ b) res :=
  after (h₁.ok rfl) h₂

/-- A failed operation delivers whatever was to follow it. -/
theorem append_of_error {e : WriteError} (h : Delivers s a (.error e, s')) (b : Bytes) :
    Delivers s (a ++ b) (.error e, s') where
  ok hok := by cases hok
  error e' he := by
    obtain ⟨p, hp, hrec⟩ := h.error e' he
    exact ⟨p, hp.trans (List.prefix_append a b), hrec⟩
  noFault := h.noFault
  failed := h.failed
  zero := h.zero

/-- **Sequencing.**  An operation and the one it is followed by. -/
theorem andThen {w : Written} {f : Socket → Written} (h₁ : Delivers s a w)
    (h₂ : ∀ s', Delivers s' b (f s')) : Delivers s (a ++ b) (w.andThen f) := by
  obtain ⟨r, s'⟩ := w
  cases r with
  | ok _ => exact h₁.seq (h₂ s')
  | error e => exact h₁.append_of_error b

end Delivers

theorem Socket.writeAllUpTo_delivers {fuel : Nat} {s : Socket} {bs : Bytes}
    (h : bs.length ≤ fuel) : Delivers s bs (s.writeAllUpTo fuel bs) := by
  induction fuel generalizing s bs with
  | zero =>
    rw [List.eq_nil_of_length_eq_zero (Nat.le_zero.mp h)]
    exact Delivers.nil s
  | succ fuel ih =>
    cases bs with
    | nil => exact Delivers.nil s
    | cons b bs =>
      unfold Socket.writeAllUpTo
      cases hw : s.write (b :: bs) with
      | mk r s' =>
        rcases r with _ | _ | k
        · exact Delivers.os hw _
        · exact Delivers.writeZero hw (List.cons_ne_nil b bs) _
        · -- the rest is written by the calls that follow
          have hrest : (bs.drop k).length ≤ fuel := by
            rw [List.length_drop]
            rw [List.length_cons] at h
            omega
          have hsplit : b :: bs = (b :: bs).take (k + 1) ++ bs.drop k := by
            rw [List.take_succ_cons, List.cons_append, List.take_append_drop]
          rw [hsplit]
          exact Delivers.after (Socket.write_received hw) (ih hrest)

/-- **Writing all of a buffer delivers it.** -/
theorem Socket.writeAll_delivers (s : Socket) (bs : Bytes) : Delivers s bs (s.writeAll bs) :=
  Socket.writeAllUpTo_delivers (Nat.le_refl _)

/-- Any budget that is large enough writes the same. -/
theorem Socket.writeAllUpTo_of_le {fuel fuel' : Nat} {s : Socket} {bs : Bytes}
    (h : bs.length ≤ fuel) (h' : bs.length ≤ fuel') :
    s.writeAllUpTo fuel bs = s.writeAllUpTo fuel' bs := by
  induction fuel generalizing fuel' s bs with
  | zero =>
    rw [List.eq_nil_of_length_eq_zero (Nat.le_zero.mp h), writeAllUpTo, writeAllUpTo]
  | succ fuel ih =>
    rcases bs with _ | ⟨b, bs⟩
    · rw [writeAllUpTo, writeAllUpTo]
    · obtain ⟨fuel', rfl⟩ := Nat.exists_eq_succ_of_ne_zero (Nat.ne_of_gt (Nat.lt_of_lt_of_le
        (Nat.succ_pos bs.length) h'))
      rw [List.length_cons] at h h'
      have hrest : ∀ k s', writeAllUpTo fuel s' (bs.drop k) = writeAllUpTo fuel' s' (bs.drop k) := by
        intro k s'
        apply ih
        · rw [List.length_drop]
          omega
        · rw [List.length_drop]
          omega
      simp only [writeAllUpTo, hrest]

/-- What the first write call takes is written, and the rest is still to write. -/
theorem Socket.writeAll_of_write {s s' : Socket} {bs : Bytes} {k : Nat}
    (h : s.write bs = (some (k + 1), s')) : s.writeAll bs = s'.writeAll (bs.drop (k + 1)) := by
  have hk := write_le h
  rcases bs with _ | ⟨b, bs⟩
  · exact absurd hk (Nat.not_succ_le_zero k)
  · rw [writeAll, List.length_cons, writeAllUpTo, h]
    apply writeAllUpTo_of_le
    · rw [List.length_drop]
      omega
    · exact Nat.le_refl _

/-- A write call that fails or takes nothing ends the writing of all of a buffer. -/
theorem Socket.writeAll_of_ne_nil {s s' : Socket} {bs : Bytes} (h : bs ≠ []) :
    (s.write bs = (none, s') → s.writeAll bs = (.error .os, s')) ∧
      (s.write bs = (some 0, s') → s.writeAll bs = (.error .writeZero, s')) := by
  rcases bs with _ | ⟨b, bs⟩
  · exact absurd rfl h
  · rw [writeAll, List.length_cons, writeAllUpTo]
    constructor
    · intro hw
      rw [hw]
    · intro hw
      rw [hw]

/-! ## What the write calls are offered -/

/-- The bytes that the calls have taken. -/
def takenBytes (calls : List WriteCall) : Bytes := calls.flatMap fun c => c.offer.take c.taken

/-- **The calls go through the bytes**: each of them is offered the beginning of what those
in front of it have left. -/
inductive Through : Bytes → List WriteCall → Prop where
  | nil (bs : Bytes) : Through bs []
  | cons {bs : Bytes} {c : WriteCall} {calls : List WriteCall} (part : c.offer <+: bs)
      (rest : Through (bs.drop c.taken) calls) : Through bs (c :: calls)

/-- What is taken of a part of the bytes, and what is left of them. -/
theorem WriteCall.take_append_drop {c : WriteCall} {bs : Bytes} (part : c.offer <+: bs) :
    c.offer.take c.taken ++ bs.drop c.taken = bs := by
  obtain ⟨t, rfl⟩ := part
  rw [List.drop_append_of_le_length c.taken_le, ← List.append_assoc, List.take_append_drop]

namespace Through
variable {a b bs : Bytes} {calls more : List WriteCall}

theorem append_right (h : Through a calls) (b : Bytes) : Through (a ++ b) calls := by
  induction h with
  | nil a => exact nil _
  | @cons a c calls part _ ih =>
    refine cons (part.trans (List.prefix_append a b)) ?_
    rwa [List.drop_append_of_le_length (Nat.le_trans c.taken_le part.length_le)]

/-- Calls that take all of `a`, and calls that go through what stands behind it. -/
theorem append (h : Through a calls) (hall : takenBytes calls = a) (h' : Through b more) :
    Through (a ++ b) (calls ++ more) := by
  induction h with
  | nil a =>
    obtain rfl : [] = a := hall
    exact h'
  | @cons a c calls part _ ih =>
    have htotal : c.offer.take c.taken ++ takenBytes calls =
        c.offer.take c.taken ++ a.drop c.taken := by
      rw [c.take_append_drop part]
      exact hall
    have hrest := List.append_cancel_left htotal
    refine cons (part.trans (List.prefix_append a b)) ?_
    rw [List.drop_append_of_le_length (Nat.le_trans c.taken_le part.length_le)]
    exact ih hrest

/-- **Where a call stands**: behind what has been taken before it. -/
theorem place {before after : List WriteCall} {c : WriteCall}
    (h : Through bs (before ++ c :: after)) : takenBytes before ++ c.offer <+: bs := by
  induction before generalizing bs with
  | nil =>
    cases h with
    | cons part _ => exact part
  | cons d before ih =>
    cases h with
    | cons part rest =>
      have hbs := d.take_append_drop part
      rw [takenBytes, List.flatMap_cons, List.append_assoc, ← hbs]
      exact (List.prefix_append_right_inj _).mpr (ih rest)

end Through

/-- **An operation that writes `bs` to `s`** does so by further calls on the same socket.
They go through the bytes, to their end if it succeeds, and `P` holds of what each of them
is offered. -/
structure Sends (P : Bytes → Prop) (bs : Bytes) (s : Socket) (w : Written) : Prop where
  outcomes : w.2.outcomes = s.outcomes
  calls : ∃ more, w.2.calls = s.calls ++ more ∧ Through bs more ∧ (∀ c ∈ more, P c.offer) ∧
    (w.1 = .ok () → takenBytes more = bs)

namespace Sends
variable {P Q : Bytes → Prop} {a b bs : Bytes} {s s' : Socket} {w : Written}

theorem done (s : Socket) : Sends P [] s (.ok (), s) where
  outcomes := rfl
  calls := ⟨[], (List.append_nil _).symm, .nil _, fun _ h => absurd h List.not_mem_nil,
    fun _ => rfl⟩

theorem failed (e : WriteError) : Sends P bs s (.error e, s) where
  outcomes := rfl
  calls := by
    refine ⟨[], (List.append_nil _).symm, .nil _, fun _ h => absurd h List.not_mem_nil, fun h => ?_⟩
    cases h

/-- A write call, and what follows it. -/
theorem took {offer : Bytes} {r : Option Nat} (hP : P offer) (part : offer <+: bs)
    (hw : s.write offer = (r, s')) (h : Sends P (bs.drop (r.getD 0)) s' w) : Sends P bs s w := by
  obtain ⟨houtcomes, c, hc, rfl, rfl⟩ := Socket.write_eq hw
  obtain ⟨more, hmore, hthrough, hall, htaken⟩ := h.calls
  constructor
  · exact h.outcomes.trans houtcomes
  · refine ⟨c :: more, ?_, .cons part hthrough, List.forall_mem_cons.mpr ⟨hP, hall⟩, fun hok => ?_⟩
    · rw [hmore, hc, List.append_assoc]
      rfl
    · rw [takenBytes, List.flatMap_cons]
      exact (congrArg _ (htaken hok)).trans (c.take_append_drop part)

/-- What stands behind the bytes is not written if they are not. -/
theorem stop {e : WriteError} (h : Sends P a s (.error e, s')) (b : Bytes) :
    Sends P (a ++ b) s (.error e, s') where
  outcomes := h.outcomes
  calls := by
    obtain ⟨more, hmore, hthrough, hall, -⟩ := h.calls
    refine ⟨more, hmore, hthrough.append_right b, hall, fun hok => ?_⟩
    cases hok

/-- What follows on the same socket. -/
theorem seq (h : Sends P a s (.ok (), s')) (h' : Sends P b s' w) : Sends P (a ++ b) s w where
  outcomes := h'.outcomes.trans h.outcomes
  calls := by
    obtain ⟨more, hmore, hthrough, hall, htaken⟩ := h.calls
    obtain ⟨more', hmore', hthrough', hall', htaken'⟩ := h'.calls
    refine ⟨more ++ more', by rw [hmore', hmore, List.append_assoc],
      hthrough.append (htaken rfl) hthrough', fun c hc => ?_, fun hok => ?_⟩
    · rcases List.mem_append.mp hc with hc | hc
      · exact hall c hc
      · exact hall' c hc
    · rw [takenBytes, List.flatMap_append]
      exact congrArg₂ _ (htaken rfl) (htaken' hok)

/-- An operation leaves a socket that always takes something as such. -/
theorem accepting (h : Sends P bs s w) (hs : s.Accepting) : w.2.Accepting := fun i => by
  rw [h.outcomes]
  exact hs i

end Sends

/-- Writing all of a buffer. -/
theorem Socket.writeAllUpTo_sends {fuel n : Nat} {s : Socket} {bs : Bytes} (h : bs.length ≤ n) :
    Sends (·.length ≤ n) bs s (s.writeAllUpTo fuel bs) := by
  induction fuel generalizing s bs with
  | zero =>
    rcases bs with _ | ⟨b, bs⟩
    · exact Sends.done s
    · exact Sends.failed _
  | succ fuel ih =>
    rcases bs with _ | ⟨b, bs⟩
    · exact Sends.done s
    · unfold Socket.writeAllUpTo
      cases hw : s.write (b :: bs) with
      | mk r s' =>
        refine Sends.took (P := (·.length ≤ n)) h (List.prefix_refl _) hw ?_
        rcases r with _ | _ | k
        · exact Sends.failed _
        · exact Sends.failed _
        · have hrest : (bs.drop k).length ≤ n := by
            rw [List.length_drop]
            rw [List.length_cons] at h
            omega
          exact ih hrest

theorem Socket.writeAll_sends {n : Nat} (s : Socket) {bs : Bytes} (h : bs.length ≤ n) :
    Sends (·.length ≤ n) bs s (s.writeAll bs) :=
  Socket.writeAllUpTo_sends h

/-- A socket that always takes something takes all of a buffer. -/
theorem Socket.writeAllUpTo_of_accepting {fuel : Nat} {s : Socket} {bs : Bytes}
    (hs : s.Accepting) (h : bs.length ≤ fuel) : (s.writeAllUpTo fuel bs).1 = .ok () := by
  induction fuel generalizing s bs with
  | zero =>
    rw [List.eq_nil_of_length_eq_zero (Nat.le_zero.mp h), writeAllUpTo]
  | succ fuel ih =>
    rcases bs with _ | ⟨b, bs⟩
    · rfl
    · obtain ⟨k, s', hw, hpos, hs'⟩ := hs.write (List.cons_ne_nil b bs)
      obtain ⟨k, rfl⟩ := Nat.exists_eq_succ_of_ne_zero (Nat.ne_of_gt hpos)
      rw [writeAllUpTo, hw]
      apply ih hs'
      rw [List.length_drop]
      rw [List.length_cons] at h
      omega

theorem Socket.writeAll_of_accepting {s : Socket} (hs : s.Accepting) (bs : Bytes) :
    (s.writeAll bs).1 = .ok () :=
  Socket.writeAllUpTo_of_accepting hs (Nat.le_refl _)

end GreenTunnel

import GreenTunnel.HelloForward

/-! # The write calls that send the first read on (`proxy.rs`, `utils.rs`)

What a censor sees of a connection are the segments that its write calls put on the
wire.  So it matters not only which bytes the remote receives but which bytes one write
call can be offered, also one that fails (`forwardHello_calls`).  A read that is split is
written record by record: no write call is offered bytes of both records, and the second
one waits for the first.  A read that is not split is written in chunks of at most 256
bytes.

The cut is inside the host name, so that no write call is offered all of it, whatever the
socket takes of the ones before (`forwardHello_hides`).

On a connection that always takes something, whatever is planned is sent
(`forwardHello_of_accepting`).
-/
namespace GreenTunnel
open Checked

/-! ## A vectored write -/

theorem VectoredRun.sends {left : Bytes} {stream : Socket} {res : Written}
    (h : VectoredRun left stream res) : Sends (fun _ => True) left stream res := by
  induction h with
  | finished stream => exact Sends.done stream
  | failed _ hoffer hw => exact Sends.took trivial hoffer hw (Sends.failed _)
  | refused _ hoffer hw => exact Sends.took trivial hoffer hw (Sends.failed _)
  | took hoffer hw _ ih => exact Sends.took trivial hoffer hw ih

theorem writeAllVectored_sends (stream : Socket) (slices : List Bytes) :
    Sends (fun _ => True) slices.flatten stream (writeAllVectored stream slices) :=
  (writeAllVectored_run stream slices).sends

/-! ## Chunks -/

/-- Every chunk is offered by itself. -/
theorem ChunkRun.sends {data : Bytes} {stream : Socket} {r : List Bytes × Written}
    (h : ChunkRun data stream r) : Sends (·.length ≤ 256) data stream r.2 := by
  induction h with
  | nil s => exact Sends.done s
  | @failed chunk s s' e rest size write =>
    have hchunk := Socket.writeAll_sends s size.2
    rw [write] at hchunk
    exact hchunk.stop rest
  | @cons chunk rest s s' r size _ write _ ih =>
    have hchunk := Socket.writeAll_sends s size.2
    rw [write] at hchunk
    exact hchunk.seq ih

/-- A socket that always takes something takes every chunk. -/
theorem ChunkRun.ok_of_accepting {data : Bytes} {stream : Socket} {r : List Bytes × Written}
    (h : ChunkRun data stream r) (hs : stream.Accepting) : r.2.1 = .ok () := by
  induction h with
  | nil => rfl
  | @failed chunk s _ _ _ _ write =>
    have := Socket.writeAll_of_accepting hs chunk
    rw [write] at this
    cases this
  | @cons chunk _ s _ _ size _ write _ ih =>
    have := (Socket.writeAll_sends s size.2).accepting hs
    rw [write] at this
    exact ih this

/-! ## The first read -/

/-- **The write calls of a plan.**  Each of the two records is written by calls of its
own, those of the second one once the first has been taken whole; and what is not split
is written by calls that are offered at most 256 bytes. -/
inductive PlanCalls : HelloPlan → List WriteCall → Prop where
  | split {rec1 : TlsRecordSlice} {rec2 : Option TlsRecordSlice} {trailing : Bytes}
      {first second : List WriteCall} (alone : Through rec1.serialize first)
      (behind : Through ((rec2.map TlsRecordSlice.serialize).getD [] ++ trailing) second)
      (waits : second ≠ [] → takenBytes first = rec1.serialize) :
      PlanCalls (.split rec1 rec2 trailing) (first ++ second)
  | fallback {rawCh : Bytes} {calls : List WriteCall} (inOrder : Through rawCh calls)
      (chunks : ∀ c ∈ calls, c.offer.length ≤ 256) : PlanCalls (.fallback rawCh) calls

/-- The calls of a plan go through its bytes. -/
theorem PlanCalls.through {plan : HelloPlan} {calls : List WriteCall} (h : PlanCalls plan calls) :
    Through plan.bytes calls := by
  cases h with
  | @split _ _ _ first second alone behind waits =>
    by_cases hnone : second = []
    · rw [hnone, List.append_nil]
      exact alone.append_right _
    · exact alone.append (waits hnone) behind
  | fallback inOrder => exact inOrder

/-- No call of a plan that splits is offered bytes of both records. -/
theorem PlanCalls.apart {rec1 : TlsRecordSlice} {rec2 : Option TlsRecordSlice} {trailing : Bytes}
    {before after : List WriteCall} {c : WriteCall}
    (h : PlanCalls (.split rec1 rec2 trailing) (before ++ c :: after)) :
    (takenBytes before).length + c.offer.length ≤ rec1.serialize.length ∨
      rec1.serialize.length ≤ (takenBytes before).length := by
  generalize hcalls : before ++ c :: after = calls at h
  cases h with
  | @split _ _ _ first second alone behind waits =>
    -- the call is one of the first or one of the second
    rcases List.append_eq_append_iff.mp hcalls with ⟨more, rfl, hmore⟩ | ⟨more, rfl, rfl⟩
    · cases more with
      | nil =>
        right
        have hne : second ≠ [] := by
          rintro rfl
          cases hmore
        have htaken := waits hne
        rw [List.append_nil] at htaken
        rw [htaken]
      | cons d more =>
        left
        obtain ⟨rfl, -⟩ := List.cons.inj hmore
        have hplace := alone.place.length_le
        rwa [List.length_append] at hplace
    · right
      have hne : more ++ c :: after ≠ [] :=
        List.append_ne_nil_of_right_ne_nil _ (List.cons_ne_nil _ _)
      rw [← waits hne, takenBytes, takenBytes, List.flatMap_append, List.length_append]
      exact Nat.le_add_right _ _

section
variable {remote : Socket} {rec1 : TlsRecordSlice} {rec2 : Option TlsRecordSlice}
  {trailing : Bytes} {isMeta : Bool} {delay : Nat}

/-- What is sent behind the first record: a pause, and then the second record together
with what stands behind it. -/
theorem transmitTlsRecords_eq : ∃ second : Socket → Written,
    transmitTlsRecords remote rec1 rec2 trailing isMeta delay =
      (writeAllVectored remote [rec1.header, rec1.payload]).andThen second ∧
    (∀ s, ∃ P, Sends P ((rec2.map TlsRecordSlice.serialize).getD [] ++ trailing) s (second s)) ∧
    ∀ s : Socket, s.Accepting → (second s).1 = .ok () := by
  obtain ⟨ms, hms⟩ := pause_ok isMeta delay
  refine ⟨_, rfl, fun s => ?_, fun s hs => ?_⟩
  · simp only [hms]
    cases rec2 with
    | some rec2 =>
      by_cases ht : trailing = []
      · have := writeAllVectored_sends s [rec2.header, rec2.payload]
        exact ⟨_, by simpa [ht, TlsRecordSlice.serialize] using this⟩
      · have := writeAllVectored_sends s [rec2.header, rec2.payload, trailing]
        exact ⟨_, by simpa [ht, TlsRecordSlice.serialize] using this⟩
    | none =>
      by_cases ht : trailing = []
      · exact ⟨fun _ => True, by simpa [ht] using Sends.done s⟩
      · exact ⟨_, by simpa [ht] using Socket.writeAll_sends s (Nat.le_refl trailing.length)⟩
  · simp only [hms]
    cases rec2 with
    | some rec2 =>
      dsimp only
      split
      · exact writeAllVectored_of_accepting hs _
      · exact writeAllVectored_of_accepting hs _
    | none =>
      dsimp only
      split
      · exact Socket.writeAll_of_accepting hs trailing
      · rfl

/-- The calls that write the two records. -/
theorem transmitTlsRecords_calls :
    ∃ calls, (transmitTlsRecords remote rec1 rec2 trailing isMeta delay).2.calls =
      remote.calls ++ calls ∧ PlanCalls (.split rec1 rec2 trailing) calls := by
  obtain ⟨second, heq, hsecond, -⟩ :=
    @transmitTlsRecords_eq remote rec1 rec2 trailing isMeta delay
  have hsends := writeAllVectored_sends remote [rec1.header, rec1.payload]
  have hflat : [rec1.header, rec1.payload].flatten = rec1.serialize := by
    rw [List.flatten_cons, List.flatten_singleton, TlsRecordSlice.serialize]
  rw [hflat] at hsends
  obtain ⟨first, hfirst, halone, -, htaken⟩ := hsends.calls
  rw [heq]
  rcases hw : writeAllVectored remote [rec1.header, rec1.payload] with ⟨e | _, s⟩
  · rw [hw] at hfirst
    refine ⟨first ++ [], by rw [List.append_nil]; exact hfirst, .split halone (.nil _) fun h => ?_⟩
    exact absurd rfl h
  · rw [hw] at hfirst htaken
    obtain ⟨P, hsends'⟩ := hsecond s
    obtain ⟨more, hmore, hbehind, -, -⟩ := hsends'.calls
    refine ⟨first ++ more, ?_, .split halone hbehind fun _ => htaken rfl⟩
    show (second s).2.calls = _
    rw [hmore, hfirst, List.append_assoc]

/-- On a connection that always takes something the two records are sent. -/
theorem transmitTlsRecords_of_accepting (hs : remote.Accepting) :
    (transmitTlsRecords remote rec1 rec2 trailing isMeta delay).1 = .ok () := by
  obtain ⟨second, heq, -, hok⟩ := @transmitTlsRecords_eq remote rec1 rec2 trailing isMeta delay
  have hfirst := writeAllVectored_of_accepting hs [rec1.header, rec1.payload]
  have hs' := (writeAllVectored_sends remote [rec1.header, rec1.payload]).accepting hs
  rw [heq]
  rcases hw : writeAllVectored remote [rec1.header, rec1.payload] with ⟨e | _, s⟩
  · rw [hw] at hfirst
    cases hfirst
  · rw [hw] at hs'
    exact hok s hs'

end

section
variable {raw : Bytes} {host : Str} {isMeta : Bool} {draws : HelloDraws} {remote : Socket}

/-- **What the write calls are offered**: whatever the socket does and whatever is drawn,
the first read is sent on by the write calls of its plan. -/
theorem forwardHello_calls {plan : HelloPlan} (hplan : planHello raw host draws.cut = .ok plan) :
    ∃ calls, (forwardHello raw host isMeta draws remote).2.calls = remote.calls ++ calls ∧
      PlanCalls plan calls := by
  unfold forwardHello
  rw [hplan]
  cases plan with
  | split rec1 rec2 trailing => exact transmitTlsRecords_calls
  | fallback rawCh =>
    obtain ⟨calls, hcalls, hthrough, hshort, -⟩ :=
      (splitAndWrite_run draws.chunks rawCh remote).sends.calls
    exact ⟨calls, hcalls, .fallback hthrough hshort⟩

/-- A connection that takes thirty bytes at a time. -/
theorem forwardHello_calls_example :
    ∃ calls, (forwardHello helloThenThree "example.com".toList false ⟨0, 0, fun _ => 0⟩
        (.fresh fun _ => .accepts 30)).2.calls = [] ++ calls ∧
      PlanCalls (.split (reheaded 0x16 3 1 ((helloThenThree.take 65).drop 5))
        (some (reheaded 0x16 3 1 ((helloThenThree.take 72).drop 65))) [1, 2, 3]) calls :=
  @forwardHello_calls helloThenThree "example.com".toList false ⟨0, 0, fun _ => 0⟩
    (.fresh fun _ => .accepts 30) _ (by decide +kernel)

/-- The name stands in the stream in two parts, with a record header between them. -/
structure NameCut (raw sent : Bytes) (info : SniInfo) (cut : Nat) : Prop where
  inside : 0 < cut ∧ cut < info.hostnameLength
  front : ∀ i < cut, sent[info.hostnameOffset + i]? = raw[info.hostnameOffset + i]?
  back : ∀ i, cut ≤ i → i < info.hostnameLength →
    sent[info.hostnameOffset + tlsRecordHeaderSize + i]? = raw[info.hostnameOffset + i]?

/-- What stands behind the header of the second half. -/
theorem SplitAt.rec2_payload {rawCh : Bytes} {split : Nat} {rec1 rec2 : TlsRecordSlice}
    (h : SplitAt rawCh split rec1 rec2) (j : Nat) :
    rec2.serialize[j + 5]? = rawCh[split + j]? := by
  obtain ⟨⟨ct, major, minor, -, -, -, -, rfl⟩, -, -⟩ := h
  show (rawCh.drop split)[j]? = _
  rw [List.getElem?_drop]

/-- The halves of a record that is cut inside the name. -/
theorem SplitAt.nameCut {info : SniInfo} {cut n : Nat} {rec1 rec2 : TlsRecordSlice}
    {trailing : Bytes} (h : SplitAt (raw.take n) (info.hostnameOffset + cut) rec1 rec2)
    (inside : 0 < cut ∧ cut < info.hostnameLength) (hlo : tlsRecordHeaderSize ≤ info.hostnameOffset)
    (hhi : info.hostnameOffset + info.hostnameLength ≤ (raw.take n).length) :
    NameCut raw (HelloPlan.split rec1 (some rec2) trailing).bytes info cut := by
  have hn : info.hostnameOffset + info.hostnameLength ≤ n :=
    Nat.le_trans hhi (List.length_take_le n raw)
  have hlen : rec1.serialize.length = info.hostnameOffset + cut := by
    rw [h.rec1_sameBut.1, List.length_take_of_le (Nat.le_of_lt h.hi)]
  rw [tlsRecordHeaderSize] at hlo
  refine ⟨inside, fun i hi => ?_, fun i hi hname => ?_⟩
  · rw [HelloPlan.bytes, List.getElem?_append_left (by omega),
      h.rec1_sameBut.2 _ (by omega) (by omega), List.getElem?_take_of_lt (by omega),
      List.getElem?_take_of_lt (by omega)]
  · have hplace : info.hostnameOffset + tlsRecordHeaderSize + i - (info.hostnameOffset + cut) =
        i - cut + 5 := by
      rw [tlsRecordHeaderSize]
      omega
    have hbyte : rec2.serialize[i - cut + 5]? = raw[info.hostnameOffset + i]? := by
      rw [h.rec2_payload, Nat.add_assoc, Nat.add_sub_cancel' hi,
        List.getElem?_take_of_lt (by omega)]
    have hin : i - cut + 5 < rec2.serialize.length := by
      have hraw : info.hostnameOffset + i < raw.length :=
        Nat.lt_of_lt_of_le (by omega) (Nat.le_trans hhi (List.length_take_le' n raw))
      exact (List.getElem?_eq_some_iff.mp (hbyte.trans (List.getElem?_eq_getElem hraw))).1
    rw [HelloPlan.bytes, List.getElem?_append_right (by rw [tlsRecordHeaderSize]; omega), hlen,
      hplace, Option.map_some, Option.getD_some, List.getElem?_append_left hin, hbyte]

/-- **The name is never offered in one piece.**  Whatever name of more than four bytes the
parser finds in the first read, whatever is drawn and whatever the socket does, the stream
that is sent holds the name in two parts, every write call is offered what stands next in
the stream, and none is offered bytes from both sides of the cut. -/
theorem forwardHello_hides {info : SniInfo}
    (h : findSniInfo (raw.take (firstPartEnd raw)) = .ok (some info))
    (hlen : 4 < info.hostnameLength) :
    ∃ sent cut calls, NameCut raw sent info cut ∧
      (forwardHello raw host isMeta draws remote).2.calls = remote.calls ++ calls ∧
      ∀ before c after, calls = before ++ c :: after → takenBytes before ++ c.offer <+: sent ∧
        ((takenBytes before).length + c.offer.length ≤ info.hostnameOffset + cut ∨
          info.hostnameOffset + cut ≤ (takenBytes before).length) := by
  rcases planHello_cases raw host draws.cut with
    ⟨info', cut, rec1, rec2, hinfo, -, -, hpos, hlt, hsplit, hplan⟩ | ⟨hshort, -⟩
  · obtain rfl : info = info' := Option.some.inj (Except.ok.inj (h.symm.trans hinfo))
    have hb := findSniInfo_bounds h
    have hrec1 : rec1.serialize.length = info.hostnameOffset + cut := by
      rw [hsplit.rec1_sameBut.1, List.length_take_of_le (Nat.le_of_lt hsplit.hi)]
    obtain ⟨calls, hcalls, hplanCalls⟩ :=
      @transmitTlsRecords_calls remote rec1 (some rec2) (raw.drop (firstPartEnd raw)) isMeta
        draws.delay
    refine ⟨(HelloPlan.split rec1 (some rec2) (raw.drop (firstPartEnd raw))).bytes, cut, calls,
      hsplit.nameCut ⟨hpos, hlt⟩ ?_ hb.2, ?_, ?_⟩
    · rw [tlsRecordHeaderSize]
      omega
    · rw [forwardHello, hplan]
      exact hcalls
    · rintro before c after rfl
      exact ⟨hplanCalls.through.place, hrec1 ▸ hplanCalls.apart⟩
  · exact absurd (hshort info h) (Nat.not_le_of_lt hlen)

theorem forwardHello_hides_example :
    ∃ sent cut calls, NameCut helloThenThree sent ⟨61, 11⟩ cut ∧
      (forwardHello helloThenThree "example.com".toList false ⟨0, 0, fun _ => 0⟩
        (.fresh fun _ => .accepts 30)).2.calls = [] ++ calls ∧
      ∀ before c after, calls = before ++ c :: after → takenBytes before ++ c.offer <+: sent ∧
        ((takenBytes before).length + c.offer.length ≤ 61 + cut ∨
          61 + cut ≤ (takenBytes before).length) :=
  @forwardHello_hides helloThenThree "example.com".toList false ⟨0, 0, fun _ => 0⟩
    (.fresh fun _ => .accepts 30) ⟨61, 11⟩ (by decide +kernel) (by decide)

/-- On a connection that always takes something the first read is sent on. -/
theorem forwardHello_of_accepting (hs : remote.Accepting) :
    (forwardHello raw host isMeta draws remote).1 = .ok () := by
  obtain ⟨plan, hplan⟩ := planHello_total raw host draws.cut
  unfold forwardHello
  rw [hplan]
  cases plan with
  | split rec1 rec2 trailing => exact transmitTlsRecords_of_accepting hs
  | fallback rawCh => exact (splitAndWrite_run draws.chunks rawCh remote).ok_of_accepting hs

end
end GreenTunnel

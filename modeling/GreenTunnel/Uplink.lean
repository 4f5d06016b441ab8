import GreenTunnel.SessionOrder
import GreenTunnel.TunnelData

/-! # What reaches the remote (`proxy.rs`)

The uplink of a tunnel is what the proxy sends on of its first read and, behind it, what
it copies.  If the ClientHello has been read whole, or is not split and nothing is read
behind it (`ReadWhole`), the receiver reads the same records' content from the uplink as
from what stands behind the first read in what the client sends, and is left with the same
rest (`handleClient_uplink`).  So splitting changes how the content is cut into records,
and nothing else, over the whole of the connection.
-/
namespace GreenTunnel
open Trace

/-- The two streams carry the same content, and the same incomplete record stands at
their ends. -/
def SameStream (a b : Bytes) : Prop :=
  (readRecords a).2 = (readRecords b).2 ∧ content (readRecords a).1 = content (readRecords b).1

theorem SameStream.rfl {a : Bytes} : SameStream a a := ⟨Eq.refl _, Eq.refl _⟩

/-- The bytes of an event that reach the remote. -/
def Event.uplinkBytes : Event → Bytes
  | .forwarded bs => bs
  | .tunnel rest => rest
  | _ => []

def uplink (events : List Event) : Bytes := events.flatMap Event.uplinkBytes

/-- A name that is long enough to be cut stands in the first part of the read. -/
def Named (raw : Bytes) : Prop :=
  ∃ info, findSniInfo (raw.take (firstPartEnd raw)) = .ok (some info) ∧ 4 < info.hostnameLength

/-- A read that is split holds the whole of its first record, and nothing stands behind
the first record of a read that is not. -/
structure ReadWhole (raw : Bytes) : Prop where
  split : Named raw → 0 < declaredLength raw ∧ tlsRecordHeaderSize + declaredLength raw ≤ raw.length
  unsplit : ¬ Named raw → ¬ TrailsFirstRecord raw

/-! ## The plan for a read -/

section
variable {raw : Bytes} {host : Str} {draw : Nat}

/-- Only a ClientHello is named. -/
theorem Named.starts (h : Named raw) : StartsClientHello raw := by
  obtain ⟨info, hinfo, -⟩ := h
  by_contra hs
  have hend : firstPartEnd raw = raw.length := by
    rw [firstPartEnd, if_neg fun ht : TrailsFirstRecord raw => hs ht.1]
  rw [hend, List.take_length, findSniInfo_of_not_starts hs] at hinfo
  cases hinfo

/-- The payloads of the two records, joined, are that of the third. -/
structure Joined (r₁ r₂ r : Record) : Prop where
  first : r₁.contentType = r.contentType
  second : r₂.contentType = r.contentType
  payload : r₁.payload ++ r₂.payload = r.payload

/-- A whole record that is split is sent as two records that share out its payload. -/
theorem split_whole {rec1 : TlsRecordSlice} {rec2? : Option TlsRecordSlice} {trailing : Bytes}
    (hs : StartsClientHello raw) (hpos : 0 < declaredLength raw)
    (hlen : tlsRecordHeaderSize + declaredLength raw ≤ raw.length)
    (hplan : planHello raw host draw = .ok (.split rec1 rec2? trailing)) :
    ∃ r r₁ r₂ : Record, raw = r.encode ++ trailing ∧
      (HelloPlan.split rec1 rec2? trailing).bytes = r₁.encode ++ (r₂.encode ++ trailing) ∧
      Joined r₁ r₂ r := by
  obtain ⟨split, rec2, hsplit, rfl, rfl⟩ := splitAt_of_planHello hplan
  rw [firstPartEnd_of_complete hs hpos hlen, tlsRecordHeaderSize] at hsplit ⊢
  obtain ⟨r, hr, -⟩ := record_of_complete hlen
  rw [hr] at hsplit
  obtain ⟨r₁, r₂, hs₁, hs₂, ht₁, ht₂, -, -, hp⟩ :=
    hsplit.records (by have := r.fits; rw [Record.encode_length]; omega)
  refine ⟨r, r₁, r₂, by rw [← hr, List.take_append_drop], ?_,
    (List.cons.inj ht₁).1.symm, (List.cons.inj ht₂).1.symm, hp⟩
  rw [HelloPlan.bytes, hs₁, Option.map_some, Option.getD_some, hs₂]

/-- **What a plan does to the stream.**  With whatever is sent behind it, a read that is
whole reaches the remote as the same stream. -/
theorem plan_sameStream {plan : HelloPlan} (hplan : planHello raw host draw = .ok plan)
    (h : ReadWhole raw) (rest : Bytes) : SameStream (plan.bytes ++ rest) (raw ++ rest) := by
  rcases planHello_cases raw host draw with
    ⟨info, cut, rec1, rec2, hinfo, hname, -, -, -, -, hp⟩ | ⟨hshort, hp⟩
  · cases hplan.symm.trans hp
    have hnamed : Named raw := ⟨info, hinfo, hname⟩
    obtain ⟨hpos, hlen⟩ := h.split hnamed
    obtain ⟨r, r₁, r₂, hraw, hbytes, hjoined⟩ := split_whole hnamed.starts hpos hlen hp
    generalize raw.drop (firstPartEnd raw) = trailing at *
    rw [hbytes, hraw, List.append_assoc, List.append_assoc, List.append_assoc, SameStream]
    simp only [readRecords_encode_append, true_and]
    exact content_split hjoined.first hjoined.second hjoined.payload _
  · cases hplan.symm.trans hp
    have hunnamed : ¬ Named raw := fun ⟨info, hinfo, hname⟩ =>
      Nat.not_lt_of_le (hshort info hinfo) hname
    have hend : firstPartEnd raw = raw.length := by
      rw [firstPartEnd, if_neg (h.unsplit hunnamed)]
    rw [HelloPlan.bytes, hend, List.take_length]
    exact SameStream.rfl

end

/-! ## The connection -/

section
variable {s : Session} {p q : Phase} {e : Event} {es : List Event}

theorem uplink_forwarded (bs : Bytes) : uplink [.forwarded bs] = bs := List.append_nil bs

/-- Nothing reaches the remote before the hello is sent. -/
theorem uplink_of_early (h : ∀ e ∈ es, e.stage < 8) : uplink es = [] := by
  refine List.flatMap_eq_nil_iff.mpr fun e he => ?_
  have hlt := h e he
  cases e with
  | forwarded | tunnel => exact absurd hlt (by simp [Event.stage])
  | _ => rfl

/-- Behind the hello that was sent, the rest is copied. -/
theorem uplink_sent {rest : Bytes} (h : Leads s.Step (.sent rest) es q) :
    es = [] ∨ es = [.tunnel rest] := by
  cases h with
  | nil => exact Or.inl rfl
  | cons first tail =>
    cases first
    cases tail with
    | nil => exact Or.inr rfl
    | cons second _ => cases second

/-- The bytes of a plan for the hello and, behind them, `rest` are sent on as far as the
session comes, and all of them if it starts to copy. -/
def SendsOn (es : List Event) (hello : Bytes) (host : Str) (rest : Bytes) : Prop :=
  ∃ draw plan, planHello hello host draw = .ok plan ∧ uplink es <+: plan.bytes ++ rest ∧
    ∀ rest', .tunnel rest' ∈ es → uplink es = plan.bytes ++ rest

/-- Once the hello has been read, it is sent on by a plan. -/
theorem uplink_heard {t : Target} {addr : SocketAddr} {hello rest : Bytes} {probe : ProbeState}
    (h : Leads s.Step (.heard t addr hello rest probe) es q) : SendsOn es hello t.host rest := by
  generalize hp : Phase.heard t addr hello rest probe = p at h
  induction h generalizing probe with
  | nil =>
    obtain ⟨plan, hplan⟩ := planHello_total hello t.host 0
    exact ⟨0, plan, hplan, List.nil_prefix, fun _ h => absurd h List.not_mem_nil⟩
  | cons first tail ih =>
    subst hp
    cases first with
    | probe =>
      obtain ⟨draw, plan, hplan, hpart, hall⟩ := ih rfl
      exact ⟨draw, plan, hplan, hpart, fun rest' h => hall rest' (List.mem_of_ne_of_mem (by simp) h)⟩
    | probed =>
      obtain ⟨draw, plan, hplan, hpart, hall⟩ := ih rfl
      exact ⟨draw, plan, hplan, hpart, fun rest' h => hall rest' (List.mem_of_ne_of_mem (by simp) h)⟩
    | @forward _ _ _ _ _ draw plan hplan =>
      refine ⟨draw, plan, hplan, ?_⟩
      rcases uplink_sent tail with rfl | rfl
      · refine ⟨?_, fun _ h => absurd h (by simp)⟩
        rw [uplink_forwarded]
        exact List.prefix_append plan.bytes rest
      · have hall : uplink [.forwarded plan.bytes, .tunnel rest] = plan.bytes ++ rest :=
          congrArg (plan.bytes ++ ·) (List.append_nil rest)
        exact ⟨hall ▸ List.prefix_refl _, fun _ _ => hall⟩
    | @lose _ _ _ _ taken _ draw plan hplan part =>
      cases tail with
      | nil =>
        refine ⟨draw, plan, hplan, ?_, fun _ h => absurd h (by simp)⟩
        rw [uplink_forwarded]
        exact part.trans (List.prefix_append _ _)
      | cons second _ => cases second

/-- What a session sends on is a plan for the hello that it has read, with what is left of
the stream behind it. -/
theorem uplink_plan {hello : Bytes} (h : Leads s.Step .fresh es q)
    (hread : .readHello hello ∈ es) :
    hello.length ≤ clientHelloBufSize ∧
      ∃ host behind, SendsOn es hello host behind ∧ hello ++ behind = s.stream := by
  obtain ⟨a, b, rfl⟩ := List.append_of_mem hread
  obtain ⟨p, hbefore, hafter⟩ := h.split
  cases hafter with
  | cons first tail =>
    -- nothing of the uplink stands before the hello
    obtain ⟨-, -, hall⟩ :=
      hbefore.ordered (fun _ _ _ h => h.stage_le) fun _ _ _ h => h.lt_stage
    have hp : p.stage ≤ 5 := first.stage_le
    have hearly : ∀ e ∈ a, e.stage < 5 := by
      intro e he
      rcases (hall e he).2 with hlt | ⟨-, hrep⟩
      · exact Nat.lt_of_lt_of_le hlt hp
      · exact Nat.lt_of_lt_of_le (Event.stage_of_repeated hrep) (by decide)
    have hlate : ∀ rest', .tunnel rest' ∈ a ++ .readHello hello :: b → .tunnel rest' ∈ b := by
      intro rest' h
      rcases List.mem_append.mp h with h | h
      · exact absurd (hearly _ h) (by simp [Event.stage])
      · exact List.mem_of_ne_of_mem (by simp) h
    have huplink : uplink (a ++ .readHello hello :: b) = uplink b := by
      rw [uplink, List.flatMap_append]
      exact congrArg (· ++ uplink b)
        (uplink_of_early fun e he => Nat.lt_of_lt_of_le (hearly e he) (by decide))
    have hbehind : ∀ {host rest}, SendsOn b hello host rest →
        SendsOn (a ++ .readHello hello :: b) hello host rest := by
      rintro host rest ⟨draw, plan, hplan, hpart, hall⟩
      exact ⟨draw, plan, hplan, huplink ▸ hpart,
        fun rest' h => huplink.trans (hall rest' (hlate rest' h))⟩
    cases first with
    | silence hempty =>
      -- the plan for nothing sends nothing
      refine ⟨Nat.zero_le _, [], [], hbehind ⟨0, .fallback [], by decide, ?_⟩, hempty.symm⟩
      rcases uplink_sent tail with rfl | rfl
      · exact ⟨List.prefix_refl _, fun _ _ => rfl⟩
      · exact ⟨List.prefix_refl _, fun _ _ => rfl⟩
    | hear hsplits _ hfits => exact ⟨hfits, _, _, hbehind (uplink_heard tail), hsplits⟩

/-- It is the same stream as the one behind the first read, if the hello was read whole. -/
theorem uplink_sameStream {hello rest : Bytes} (h : Leads s.Step .fresh es q)
    (hread : .readHello hello ∈ es) (hopen : .tunnel rest ∈ es) (hwhole : ReadWhole hello) :
    SameStream (uplink es) s.stream := by
  obtain ⟨-, host, behind, ⟨draw, plan, hplan, -, hall⟩, hstream⟩ := uplink_plan h hread
  rw [hall rest hopen, ← hstream]
  exact plan_sameStream hplan hwhole behind

end

/-- **A tunnel carries what the client sends.**  On a connection that starts to copy, with
a hello that is read whole, the uplink is the same stream as what stands behind the first
read in what the client sends, whatever the options and the surroundings are. -/
theorem handleClient_uplink {cfg : ProxyServerConfig} {net : Network} {stream hello rest : Bytes}
    (hread : .readHello hello ∈ (handleClient cfg net stream).events)
    (hopen : .tunnel rest ∈ (handleClient cfg net stream).events) (hwhole : ReadWhole hello) :
    SameStream (uplink (handleClient cfg net stream).events)
      (stream.drop (firstReadLength net stream)) := by
  obtain ⟨_, hlead, -, -⟩ := handleClient_follows cfg net stream
  exact uplink_sameStream hlead hread hopen hwhole

/-- The request is read alone, and then the hello with three bytes behind it. -/
def twoReads : Network :=
  { Network.answering ⟨.v4 ⟨93, 184, 216, 34⟩, 443⟩ with
    firstRead := some 36
    helloRead := some 75 }

theorem handleClient_uplink_example :
    SameStream (uplink (handleClient noOptions twoReads
        (shortRequest ++ (helloThenThree ++ [4]))).events)
      ((shortRequest ++ (helloThenThree ++ [4])).drop
        (firstReadLength twoReads (shortRequest ++ (helloThenThree ++ [4])))) :=
  @handleClient_uplink noOptions twoReads
    (shortRequest ++ (helloThenThree ++ [4])) helloThenThree [4] (by decide +kernel)
    (by decide +kernel)
    ⟨fun _ => ⟨by decide, by decide⟩,
      fun h => absurd ⟨⟨61, 11⟩, by decide +kernel, by decide⟩ h⟩

end GreenTunnel

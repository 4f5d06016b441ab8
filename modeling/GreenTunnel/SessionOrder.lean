import GreenTunnel.Session

/-! # What happens when in a session

Consequences of the session protocol for every run of `handleClient`.  The events come
in a fixed order, and each of them once at most, except for the two queries, the
datagrams that answer them and the two lookups (`handleClient_ordered`).  Whatever is
done for a tunnel is done behind a connection to the one address and a 200 response that
the client has taken whole (`handleClient_serves`).
-/
namespace GreenTunnel
open Trace

/-- The place of an event in a session. -/
def Event.stage : Event → Nat
  | .resolve _ => 0
  | .query _ _ _ | .datagram _ _ => 1
  | .lookupHost _ _ => 2
  | .connect _ => 3
  | .replied _ => 4
  | .readHello _ => 5
  | .probe _ => 6
  | .probed _ => 7
  | .forwarded _ => 8
  | .tunnel _ => 9

/-- Finding the address of the target is done early. -/
theorem remoteAddress_early {cfg : ProxyServerConfig} {net : Network} {host : Str} {port : Nat} :
    (remoteAddress cfg net host port).Always fun e => e.stage < 3 := by
  have hlookup : ∀ {i name}, (lookupHost net i name).Always fun e => e.stage < 3 := by
    intro i name
    refine Always.bind (Always.emit (Nat.lt_succ_self 2)) fun _ _ => ?_
    split
    · exact Always.pure _
    · exact Always.pure _
  refine Always.orTry (resolve_always ?_ ?_ ?_ ?_) hlookup
  · exact Nat.zero_lt_succ 2
  · exact fun _ _ _ _ => Nat.lt_succ_of_lt Nat.one_lt_two
  · exact fun _ _ => Nat.lt_succ_of_lt Nat.one_lt_two
  · exact fun _ _ => Nat.lt_succ_self 2

/-- The kinds of events that may happen more than once. -/
inductive Repeated where
  | query
  | datagram
  | lookup
  deriving DecidableEq

def Event.repeated : Event → Option Repeated
  | .query _ _ _ => some .query
  | .datagram _ _ => some .datagram
  | .lookupHost _ _ => some .lookup
  | _ => none

/-- Only resolving repeats anything. -/
theorem Event.stage_of_repeated {e : Event} (h : e.repeated ≠ none) : e.stage < 3 := by
  cases e with
  | query | datagram | lookupHost => simp [Event.stage]
  | _ => exact absurd rfl h

/-- `d` may stand before `e` in a session. -/
def Event.Before (d e : Event) : Prop :=
  d.stage < e.stage ∨ d.stage = e.stage ∧ d.repeated ≠ none

def ProbeState.stage : ProbeState → Nat
  | .unsent => 6
  | .connected => 7
  | .done => 8

/-- The first place an event can still have. -/
def Phase.stage : Phase → Nat
  | .fresh => 0
  | .resolving _ _ _ => 1
  | .missed _ => 2
  | .located _ _ => 3
  | .unknown | .connecting _ _ => 4
  | .opened _ _ => 5
  | .heard _ _ _ _ probe => probe.stage
  | .sent _ => 9
  | .copying | .broken | .closed _ _ => 10

/-- How often an event of the kind may still happen. -/
def Phase.left : Phase → Repeated → Nat
  | .fresh, _ => 2
  | .resolving _ left _, .query => left
  | .resolving _ left waiting, .datagram => left + waiting.toNat
  | .resolving _ _ _, .lookup => 2
  | .missed _, .lookup => 1
  | _, _ => 0

/-- A lookup leads to an address, or on. -/
theorem Phase.found_of {P : Phase → Prop} {t : Target} {otherwise : Phase} {ip : Option IpAddr}
    (h : P otherwise) (hlocated : ∀ a, P (.located t a)) : P (.found t otherwise ip) := by
  cases ip with
  | none => exact h
  | some a => exact hlocated a

theorem Phase.asked_of {P : Phase → Prop} {t : Target} (hresolving : P (.resolving t 2 false))
    (hmissed : P (.missed t)) (hlocated : ∀ a, P (.located t a)) : P (.asked t) := by
  refine Phase.found_of ?_ hlocated
  split
  · exact hresolving
  · exact hmissed

section
variable {s : Session} {p q : Phase} {e : Event}

theorem ProbeState.stage_le (probe : ProbeState) : probe.stage ≤ 8 := by
  cases probe <;> decide

/-- No event is late. -/
theorem Session.Step.stage_le (h : s.Step p e q) : p.stage ≤ e.stage := by
  cases h with
  | forward => exact ProbeState.stage_le _
  | lose => exact ProbeState.stage_le _
  | _ => simp only [Phase.stage, ProbeState.stage, Event.stage, Nat.le_refl, Nat.zero_le,
      Nat.reduceLeDiff]

/-- Where a lookup leads, no event can be as early as the lookup, but for another one. -/
theorem Phase.stage_found {t : Target} {otherwise : Phase} {ip : Option IpAddr} {n : Nat}
    {P : Prop} (hP : P) (hn : n ≤ 2) (h : n ≤ otherwise.stage) :
    n < (Phase.found t otherwise ip).stage ∨ n = (Phase.found t otherwise ip).stage ∧ P := by
  refine Phase.found_of (P := fun q => n < q.stage ∨ n = q.stage ∧ P) ?_ fun _ =>
    Or.inl (Nat.lt_succ_of_le hn)
  rcases Nat.lt_or_eq_of_le h with hlt | heq
  · exact Or.inl hlt
  · exact Or.inr ⟨heq, hP⟩

/-- Every event leaves its place behind, unless it may be repeated. -/
theorem Session.Step.lt_stage (h : s.Step p e q) :
    e.stage < q.stage ∨ e.stage = q.stage ∧ e.repeated ≠ none := by
  cases h with
  | resolve =>
    exact Or.inl (Phase.asked_of (P := fun q => 0 < q.stage) (Nat.zero_lt_succ 0)
      (Nat.zero_lt_succ 1) fun _ => Nat.zero_lt_succ 2)
  | query => exact Or.inr ⟨rfl, by simp [Event.repeated]⟩
  | datagram =>
    exact Phase.stage_found (n := 1) (by simp [Event.repeated]) (by decide) (Nat.le_refl 1)
  | lookup =>
    exact Phase.stage_found (n := 2) (by simp [Event.repeated]) (by decide) (Nat.le_refl 2)
  | lookupTarget =>
    exact Phase.stage_found (n := 2) (by simp [Event.repeated]) (by decide) (Nat.le_add_right 2 2)
  | _ =>
    left
    simp only [Event.stage, Phase.stage, ProbeState.stage, Nat.reduceLT]

/-- A lookup that finds the address leaves nothing to repeat. -/
theorem Phase.left_found (t : Target) (otherwise : Phase) (ip : Option IpAddr) (k : Repeated) :
    (Phase.found t otherwise ip).left k ≤ otherwise.left k :=
  Phase.found_of (P := fun q => q.left k ≤ otherwise.left k) (Nat.le_refl _) fun _ => Nat.zero_le _

theorem Phase.left_asked (t : Target) (k : Repeated) : (Phase.asked t).left k ≤ 2 := by
  refine Phase.asked_of (P := fun q => q.left k ≤ 2) ?_ ?_ fun _ => Nat.zero_le 2
  · cases k <;> exact Nat.le_refl 2
  · cases k
    · exact Nat.zero_le 2
    · exact Nat.zero_le 2
    · exact Nat.le_succ 1

/-- Every event of a kind takes one from what is left of the kind. -/
theorem Session.Step.left_le (h : s.Step p e q) (k : Repeated) :
    q.left k + (if decide (e.repeated = some k) then 1 else 0) ≤ p.left k := by
  cases h with
  | resolve => exact Phase.left_asked _ k
  | @query t left waiting sent =>
    cases k
    · exact Nat.le_refl _
    · have hsent : sent.toNat ≤ 1 := Bool.toNat_le sent
      exact Nat.le_trans (Nat.add_le_add_left hsent left) (Nat.le_add_right _ _)
    · exact Nat.le_refl 2
  | @datagram t left _ _ ip =>
    have hle := Phase.left_found t (.resolving t left false) ip k
    cases k
    · exact hle
    · exact Nat.succ_le_succ hle
    · exact hle
  | @lookup t _ _ answer =>
    have hle := Phase.left_found t (.missed t) (firstAddress answer) k
    cases k
    · exact Nat.le_trans hle (Nat.zero_le _)
    · exact Nat.le_trans hle (Nat.zero_le _)
    · exact Nat.succ_le_succ hle
  | @lookupTarget t answer =>
    have hle := Phase.left_found t .unknown (firstAddress answer) k
    cases k
    · exact hle
    · exact hle
    · exact Nat.succ_le_succ hle
  | _ => exact Nat.zero_le _

/-- **The order of a session.**  In every run of a connection the events come in the
order of their places, each of them once at most, except for two queries, two datagrams
and two lookups at most. -/
theorem handleClient_ordered (cfg : ProxyServerConfig) (net : Network) (stream : Bytes) :
    (handleClient cfg net stream).events.Pairwise Event.Before ∧
      ∀ k, (handleClient cfg net stream).events.countP (·.repeated = some k) ≤ 2 := by
  obtain ⟨t, hlead, -, -⟩ := handleClient_follows cfg net stream
  constructor
  · exact (hlead.ordered (fun _ _ _ h => h.stage_le) fun _ _ _ h => h.lt_stage).1
  · intro k
    have := hlead.countP_le (f := fun p => p.left k) fun _ _ _ h => h.left_le k
    exact Nat.le_trans (Nat.le_add_left _ _) this

/-! ## Behind the response -/

/-- The tunnel is open. -/
def Phase.Open : Phase → Prop
  | .opened _ _ | .heard _ _ _ _ _ | .sent _ => True
  | _ => False

/-- The session serves a tunnel to `addr`. -/
def Phase.Serves (addr : SocketAddr) : Phase → Prop
  | .opened _ peer | .heard _ peer _ _ _ => peer = addr
  | .sent _ | .copying | .broken => True
  | _ => False

/-- A tunnel is served in an open session only. -/
theorem Session.Step.isOpen (h : s.Step p e q) (he : 5 ≤ e.stage) : p.Open := by
  cases h with
  | silence | hear | probe | probed | forward | lose | tunnel => trivial
  | _ => exact absurd he (by simp [Event.stage])

/-- A session is opened by the whole of the response. -/
theorem Session.Step.opens (h : s.Step p e q) (hp : ¬ p.Open) (hq : q.Open) :
    ∃ t addr, p = .connecting t addr ∧ e = .replied http200Established ∧ q = .opened t addr := by
  have hfound : ∀ {t otherwise ip}, ¬ otherwise.Open → ¬ (Phase.found t otherwise ip).Open :=
    fun h => Phase.found_of (P := fun q => ¬ q.Open) h fun _ => not_false
  cases h with
  | establish => exact ⟨_, _, rfl, rfl, rfl⟩
  | silence | hear | probe | probed | forward => exact absurd trivial hp
  | resolve =>
    exact absurd hq (Phase.asked_of (P := fun q => ¬ q.Open) not_false not_false fun _ => not_false)
  | datagram => exact absurd hq (hfound not_false)
  | lookup => exact absurd hq (hfound not_false)
  | lookupTarget => exact absurd hq (hfound not_false)
  | _ => exact False.elim hq

/-- Only an address that has been found is connected to. -/
theorem Session.Step.connects {t : Target} {addr : SocketAddr}
    (h : s.Step p e (.connecting t addr)) :
    ∃ ip, p = .located t ip ∧ addr = ⟨ip, t.port⟩ ∧ e = .connect addr ∧
      (ip.isLoopback || ip.isUnspecified) = false := by
  generalize hq : Phase.connecting t addr = q at h
  have hfound : ∀ {u otherwise ip}, otherwise ≠ .connecting t addr →
      Phase.found u otherwise ip ≠ .connecting t addr :=
    fun h => Phase.found_of (P := fun q => q ≠ .connecting t addr) h fun _ h => by cases h
  cases h with
  | connect notLocal =>
    cases hq
    exact ⟨_, rfl, rfl, rfl, notLocal⟩
  | resolve =>
    exact absurd hq.symm (Phase.asked_of (P := fun q => q ≠ .connecting t addr)
      (fun h => by cases h) (fun h => by cases h) fun _ h => by cases h)
  | datagram => exact absurd hq.symm (hfound fun h => by cases h)
  | lookup => exact absurd hq.symm (hfound fun h => by cases h)
  | lookupTarget => exact absurd hq.symm (hfound fun h => by cases h)
  | _ => cases hq

/-- A session that serves a tunnel keeps doing so. -/
theorem Session.Step.serves {addr : SocketAddr} (h : s.Step p e q) (hp : p.Serves addr) :
    e.Serving addr ∧ q.Serves addr := by
  cases h with
  | silence | forward | lose | tunnel => exact ⟨trivial, trivial⟩
  | hear | probed => exact ⟨trivial, hp⟩
  | probe => exact ⟨hp, hp⟩
  | _ => exact False.elim hp

/-- **What a tunnel is served behind.**  In every run of a connection nothing is read for
a tunnel, probed, sent on or copied, except behind a connection to an address that is
not local and a response that the client has taken whole; before them there is only
resolving, and after them the tunnel is served, to the same address. -/
theorem handleClient_serves (cfg : ProxyServerConfig) (net : Network) (stream : Bytes) :
    (∀ e ∈ (handleClient cfg net stream).events, e.stage < 5) ∨
    ∃ resolving addr serving, (handleClient cfg net stream).events =
        resolving ++ .connect addr :: .replied http200Established :: serving ∧
      (addr.ip.isLoopback || addr.ip.isUnspecified) = false ∧
      (∀ d ∈ resolving, d.stage < 3) ∧ ∀ d ∈ serving, d.Serving addr := by
  obtain ⟨final, hlead, -, -⟩ := handleClient_follows cfg net stream
  generalize (handleClient cfg net stream).events = es at *
  generalize sessionOf cfg net stream = s at *
  by_cases hlate : ∃ e ∈ es, 5 ≤ e.stage
  · right
    obtain ⟨e, hmem, he⟩ := hlate
    obtain ⟨a, b, rfl⟩ := List.append_of_mem hmem
    obtain ⟨p, hbefore, hafter⟩ := hlead.split
    have hopen : p.Open := by
      cases hafter with
      | cons first _ => exact first.isOpen he
    -- the response that opened the session, and the connection that it follows
    obtain ⟨a', d, c, u, v, rfl, htold, -, ⟨t, addr, rfl, rfl, rfl⟩, hbetween⟩ :=
      hbefore.exists_before (fun _ _ _ h hp hq => h.opens hp hq) not_false hopen
    obtain ⟨a, d, u, rfl, hresolving, hconnect⟩ := htold.last fun h => by cases h
    obtain ⟨ip, rfl, rfl, rfl, hlocal⟩ := hconnect.connects
    refine ⟨a, ⟨ip, t.port⟩, c ++ e :: b, by simp, hlocal, fun d hd => ?_, ?_⟩
    · obtain ⟨-, -, hall⟩ :=
        hresolving.ordered (fun _ _ _ h => h.stage_le) fun _ _ _ h => h.lt_stage
      rcases (hall d hd).2 with hlt | ⟨heq, hrep⟩
      · exact hlt
      · exact Event.stage_of_repeated hrep
    · exact ((hbetween.append hafter).invariant (I := Phase.Serves ⟨ip, t.port⟩)
        (fun _ _ _ h hp => h.serves hp) rfl).1
  · left
    intro e he
    exact Nat.lt_of_not_le fun h => hlate ⟨e, he, h⟩

end
end GreenTunnel

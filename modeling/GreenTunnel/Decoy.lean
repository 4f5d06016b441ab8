import GreenTunnel.SessionOrder

/-! # The decoy (`inject_fake_ttl_probe`)

With a TTL and a name to fake, the proxy tries to open a second connection to the remote
before it sends the hello on, and writes a ClientHello with the fake name to it.  That is
tried exactly for the hellos it is meant for, and nothing else is ever written there
(`handleClient_decoy`).
-/
namespace GreenTunnel
open Trace

/-- A hello that is meant to have a decoy: on its way to a host, under these options. -/
structure NeedsDecoy (cfg : ProxyServerConfig) (host : Str) (hello : Bytes) : Prop where
  enabled : 0 < cfg.fakeTtl
  named : cfg.fakeSni ≠ []
  padded : isPaddingIncompatibleDomain host = false
  starts : StartsClientHello hello

/-! ## When there is one -/

section
variable {cfg : ProxyServerConfig} {net : Network} {stream : Bytes} {host : Str}
  {addr peer : SocketAddr}

theorem sendHello_probes {hello : Bytes} :
    .probe peer ∈ (sendHello cfg net hello host (isPaddingIncompatibleDomain host) addr).events ↔
      peer = addr ∧ NeedsDecoy cfg host hello := by
  unfold sendHello
  rw [isClientHello_eq, Act.check_ok, value_bind]
  have hbehind : ∀ {x : Act Unit} {w : Written},
      .probe peer ∈ (x >>= fun _ => emit (.forwarded w.2.received) >>= fun _ =>
        Act.written w.1).events ↔ .probe peer ∈ x.events := by
    intro x w
    rw [mem_events_bind]
    refine or_iff_left ?_
    rintro ⟨-, -, h⟩
    cases List.mem_singleton.mp h
  rw [hbehind]
  by_cases hneeds : NeedsDecoy cfg host hello
  · have hcond : cfg.fakeTtl > 0 ∧ cfg.fakeSni ≠ [] ∧
        (!isPaddingIncompatibleDomain host) = true ∧ decide (StartsClientHello hello) = true :=
      ⟨hneeds.enabled, hneeds.named, by simpa using hneeds.padded, decide_eq_true hneeds.starts⟩
    rw [if_pos hcond, injectFakeTtlProbe, mem_events_bind, and_iff_left hneeds]
    constructor
    · rintro (h | ⟨-, -, h⟩)
      · exact Event.probe.inj (List.mem_singleton.mp h)
      · split at h
        · cases List.mem_singleton.mp h
        · cases h
    · rintro rfl
      exact Or.inl List.mem_cons_self
  · have hcond : ¬ (cfg.fakeTtl > 0 ∧ cfg.fakeSni ≠ [] ∧
        (!isPaddingIncompatibleDomain host) = true ∧ decide (StartsClientHello hello) = true) := by
      rintro ⟨enabled, named, padded, starts⟩
      exact hneeds ⟨enabled, named, by simpa using padded, of_decide_eq_true starts⟩
    rw [if_neg hcond]
    exact iff_of_false List.not_mem_nil fun h => hneeds h.2

/-- Serving a tunnel, the proxy probes for what it has read from the client. -/
theorem serveTunnel_probes :
    .probe peer ∈ (serveTunnel cfg net stream host (isPaddingIncompatibleDomain host) addr).events ↔
      peer = addr ∧ ∃ hello, NeedsDecoy cfg host hello ∧ .readHello hello ∈
        (serveTunnel cfg net stream host (isPaddingIncompatibleDomain host) addr).events := by
  unfold serveTunnel
  cases net.helloRead with
  | none => exact iff_of_false List.not_mem_nil fun ⟨_, _, _, h⟩ => List.not_mem_nil h
  | some want =>
    dsimp only
    generalize readLength clientHelloBufSize stream want = n
    have hsend : ∀ e, e ∈ (if n > 0 then sendHello cfg net (stream.take n) host
        (isPaddingIncompatibleDomain host) addr else pure ()).events →
        e = .probe addr ∨ (∃ bs, e = .probed bs) ∨ ∃ bs, e = .forwarded bs := by
      split
      · exact sendHello_events cfg net (stream.take n) host _ addr
      · exact fun e he => absurd he List.not_mem_nil
    have hread : ∀ hello, .readHello hello ∈ (emit (.readHello (stream.take n)) >>= fun _ =>
        (if n > 0 then sendHello cfg net (stream.take n) host
          (isPaddingIncompatibleDomain host) addr else pure ()) >>= fun _ =>
        (emit (.tunnel (stream.drop n)) : Act Unit)).events ↔ hello = stream.take n := by
      intro hello
      rw [emit_bind_events, List.mem_cons, mem_events_bind, Event.readHello.injEq]
      refine or_iff_left ?_
      rintro (h | ⟨-, -, h⟩)
      · rcases hsend _ h with h | ⟨_, h⟩ | ⟨_, h⟩ <;> cases h
      · cases List.mem_singleton.mp h
    simp only [hread]
    rw [emit_bind_events, List.mem_cons, mem_events_bind]
    constructor
    · rintro (h | h | ⟨-, -, h⟩)
      · cases h
      · split at h
        · obtain ⟨rfl, hneeds⟩ := sendHello_probes.mp h
          exact ⟨rfl, _, hneeds, rfl⟩
        · cases h
      · cases List.mem_singleton.mp h
    · rintro ⟨rfl, hello, hneeds, rfl⟩
      have hpos : n > 0 := by
        refine Nat.pos_of_ne_zero ?_
        rintro rfl
        have hstarts := hneeds.starts
        rw [List.take_zero] at hstarts
        exact absurd hstarts (by decide)
      rw [if_pos hpos]
      exact Or.inr (Or.inl (sendHello_probes.mpr ⟨rfl, hneeds⟩))

/-- A connection that gets as far as serving a tunnel: finding the address of the target,
connecting to it, the response, and what is served. -/
def Act.ServesTunnel (x : Act Unit) (cfg : ProxyServerConfig) (net : Network) : Prop :=
  ∃ rest host port ip, x.events = (remoteAddress cfg net host port).events ++
    .connect ⟨ip, port⟩ :: ((reply net http200Established).events ++
      (serveTunnel cfg net rest host (isPaddingIncompatibleDomain host) ⟨ip, port⟩).events)

theorem reply_early {bs : Bytes} {e : Event} (hlate : 5 ≤ e.stage) : e ∉ (reply net bs).events := by
  intro h
  obtain ⟨taken, rfl⟩ := reply_events net bs e h
  exact absurd hlate (Nat.lt_irrefl 4)

theorem handleConnectTunnel_late {request : Str} {e : Event} (hlate : 5 ≤ e.stage)
    (h : e ∈ (handleConnectTunnel cfg net stream request).events) :
    (handleConnectTunnel cfg net stream request).ServesTunnel cfg net := by
  unfold handleConnectTunnel at h ⊢
  cases hparse : parseConnectTarget request with
  | none =>
    rw [hparse] at h
    exact absurd h (reply_early hlate)
  | some target =>
    obtain ⟨rawHost, port⟩ := target
    rw [hparse] at h
    dsimp only at h ⊢
    cases hrefused : isRefusedHost rawHost with
    | true =>
      rw [hrefused] at h
      exact absurd h (reply_early hlate)
    | false =>
      rw [hrefused, if_neg Bool.false_ne_true] at h
      rw [if_neg Bool.false_ne_true]
      rcases mem_events_bind.mp h with h | ⟨found, hfound, h⟩
      · exact absurd (remoteAddress_early e h) (by omega)
      · rw [bind_of_ok hfound]
        cases found with
        | none => exact absurd h (reply_early hlate)
        | some ip =>
          dsimp only at h ⊢
          cases hlocal : ip.isLoopback || ip.isUnspecified with
          | true =>
            rw [hlocal] at h
            exact absurd h (reply_early hlate)
          | false =>
            rw [hlocal, if_neg Bool.false_ne_true, emit_bind_events] at h
            rw [if_neg Bool.false_ne_true, emit_bind_events]
            rcases List.mem_cons.mp h with rfl | h
            · exact absurd hlate (Nat.lt_irrefl 3 ∘ Nat.le_of_succ_le)
            · cases hconnects : net.connects cfg ⟨ip, port⟩ with
              | false =>
                rw [hconnects] at h
                exact absurd h (reply_early hlate)
              | true =>
                rw [hconnects] at h
                rcases mem_events_bind.mp h with h | ⟨_, htold, -⟩
                · exact absurd h (reply_early hlate)
                · exact ⟨stream, _, port, ip, congrArg (_ ++ .connect ⟨ip, port⟩ :: ·)
                    (congrArg Trace.events (bind_of_ok htold))⟩

theorem handleClient_late {e : Event} (hlate : 5 ≤ e.stage)
    (h : e ∈ (handleClient cfg net stream).events) :
    (handleClient cfg net stream).ServesTunnel cfg net := by
  unfold handleClient at h ⊢
  cases hread : net.firstRead with
  | none =>
    rw [hread] at h
    cases h
  | some want =>
    rw [hread] at h
    dsimp only at h ⊢
    split at h
    · cases h
    · rename_i hpos
      rw [if_neg hpos]
      split at h
      · rename_i hconnect
        rw [if_pos hconnect]
        exact handleConnectTunnel_late hlate h
      · split at h
        · obtain ⟨w, heq, -, -⟩ := handlePlaintextRedirect_eq net
            (fromUtf8Lossy (stream.take (readLength clientBufSize stream want)))
          rw [heq] at h
          cases List.mem_singleton.mp h
          exact absurd hlate (Nat.lt_irrefl 4)
        · cases List.mem_singleton.mp h
          exact absurd hlate (Nat.lt_irrefl 4)

/-- An event that is not repeated is the only one in its place. -/
theorem Event.eq_of_ordered {es : List Event} {d e : Event} (h : es.Pairwise Event.Before)
    (hd : d ∈ es) (he : e ∈ es) (hplace : d.stage = e.stage) (honce : d.repeated = none)
    (honce' : e.repeated = none) : d = e := by
  by_contra hne
  have hpair : es.Pairwise fun d e => d.Before e ∨ e.Before d := h.imp Or.inl
  have hsymm : Std.Symm fun d e : Event => d.Before e ∨ e.Before d := ⟨fun _ _ => Or.symm⟩
  rcases hpair.forall hd he hne with hbefore | hbefore
  · rcases hbefore with hlt | ⟨-, hrep⟩
    · exact absurd hlt (Nat.not_lt_of_le (Nat.le_of_eq hplace.symm))
    · exact hrep honce
  · rcases hbefore with hlt | ⟨-, hrep⟩
    · exact absurd hlt (Nat.not_lt_of_le (Nat.le_of_eq hplace))
    · exact hrep honce'

/-- The second connection is open because the event before has opened it. -/
theorem Session.Step.connected {s : Session} {p : Phase} {e : Event} {t : Target}
    {hello rest : Bytes} (h : s.Step p e (.heard t addr hello rest .connected)) :
    e = .probe addr := by
  generalize hq : Phase.heard t addr hello rest .connected = q at h
  have hfound : ∀ {u otherwise ip}, otherwise ≠ .heard t addr hello rest .connected →
      Phase.found u otherwise ip ≠ .heard t addr hello rest .connected :=
    fun h => Phase.found_of (P := fun q => q ≠ .heard t addr hello rest .connected) h
      fun _ h => by cases h
  cases h with
  | probe =>
    cases hq
    rfl
  | resolve =>
    exact absurd hq.symm (Phase.asked_of
      (P := fun q => q ≠ .heard t addr hello rest .connected)
      (fun h => by cases h) (fun h => by cases h) fun _ h => by cases h)
  | datagram => exact absurd hq.symm (hfound fun h => by cases h)
  | lookup => exact absurd hq.symm (hfound fun h => by cases h)
  | lookupTarget => exact absurd hq.symm (hfound fun h => by cases h)
  | _ => cases hq

/-- **The decoy.**  It is tried to open a second connection exactly when a hello has been
read that is meant to have a decoy, and to the address of the first one.  What is written to
it is the ClientHello with the fake name, and nothing comes between the two. -/
theorem handleClient_decoy (cfg : ProxyServerConfig) (net : Network) (stream : Bytes) :
    (∀ peer, .probe peer ∈ (handleClient cfg net stream).events ↔
      .connect peer ∈ (handleClient cfg net stream).events ∧
        ∃ host hello, .resolve host ∈ (handleClient cfg net stream).events ∧
          .readHello hello ∈ (handleClient cfg net stream).events ∧ NeedsDecoy cfg host hello) ∧
    ∀ taken, .probed taken ∈ (handleClient cfg net stream).events →
      ∃ before peer behind, (handleClient cfg net stream).events =
          before ++ .probe peer :: .probed taken :: behind ∧
        taken <+: buildSyntheticClientHello (some cfg.fakeSni) false := by
  obtain ⟨final, hlead, -, -⟩ := handleClient_follows cfg net stream
  have hordered := (hlead.ordered (fun _ _ _ h => h.stage_le) fun _ _ _ h => h.lt_stage).1
  -- the parts of a connection on which a tunnel is served
  have hparts : ∀ {e : Event}, 5 ≤ e.stage → e ∈ (handleClient cfg net stream).events →
      ∃ rest host addr, .resolve host ∈ (handleClient cfg net stream).events ∧
        .connect addr ∈ (handleClient cfg net stream).events ∧
        ∀ d : Event, 5 ≤ d.stage → (d ∈ (handleClient cfg net stream).events ↔ d ∈
          (serveTunnel cfg net rest host (isPaddingIncompatibleDomain host) addr).events) := by
    intro e hlate he
    obtain ⟨rest, host, port, ip, heq⟩ := handleClient_late hlate he
    rw [heq]
    refine ⟨rest, host, ⟨ip, port⟩, ?_, ?_, fun d hd => ?_⟩
    · exact List.mem_append_left _ (mem_events_orTry.mpr (Or.inl List.mem_cons_self))
    · exact List.mem_append_right _ List.mem_cons_self
    · have hfind : d ∉ (remoteAddress cfg net host port).events :=
        fun h => absurd (remoteAddress_early d h) (by omega)
      have hconnect : d ≠ .connect ⟨ip, port⟩ := by
        rintro rfl
        exact absurd hd (Nat.lt_irrefl 3 ∘ Nat.le_of_succ_le)
      rw [List.mem_append, or_iff_right hfind, List.mem_cons, or_iff_right hconnect,
        List.mem_append, or_iff_right (reply_early hd)]
  have hprobeLate : ∀ peer, 5 ≤ (Event.probe peer).stage := fun _ => Nat.le_succ 5
  have hreadLate : ∀ hello, 5 ≤ (Event.readHello hello).stage := fun _ => Nat.le_refl 5
  constructor
  · intro peer
    constructor
    · intro hprobe
      obtain ⟨rest, host, addr, hresolve, hconnect, hserve⟩ := hparts (hprobeLate peer) hprobe
      obtain ⟨rfl, hello, hneeds, hread⟩ :=
        serveTunnel_probes.mp ((hserve _ (hprobeLate peer)).mp hprobe)
      exact ⟨hconnect, host, hello, hresolve, (hserve _ (hreadLate hello)).mpr hread, hneeds⟩
    · rintro ⟨hconnect, host, hello, hresolve, hread, hneeds⟩
      obtain ⟨rest, host', addr, hresolve', hconnect', hserve⟩ := hparts (hreadLate hello) hread
      cases Event.eq_of_ordered hordered hresolve hresolve' rfl rfl rfl
      cases Event.eq_of_ordered hordered hconnect hconnect' rfl rfl rfl
      exact (hserve _ (hprobeLate peer)).mpr (serveTunnel_probes.mpr
        ⟨rfl, hello, hneeds, (hserve _ (hreadLate hello)).mp hread⟩)
  · intro taken htaken
    obtain ⟨before, behind, heq⟩ := List.append_of_mem htaken
    rw [heq] at hlead
    obtain ⟨p, hbefore, hbehind⟩ := hlead.split
    cases hbehind with
    | cons first _ =>
      cases first with
      | probed part =>
        obtain ⟨early, e, q, rfl, -, hlast⟩ := hbefore.last fun h => by cases h
        obtain rfl := hlast.connected
        exact ⟨early, _, behind, heq.trans (List.append_assoc _ _ _), part⟩

end

end GreenTunnel

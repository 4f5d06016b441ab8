import GreenTunnel.AddrDisplay
import GreenTunnel.Args
import GreenTunnel.Tunnel

/-! # From the command line to the server (`main.rs`)

The program parses its arguments, puts the address to listen on together from `--bind`
and `--port`, and runs the server with the options.  It has an address exactly when
`--bind` is an IPv4 address, or an IPv6 address in brackets, with a zone or without
(`bindAddr_eq_some`): a name, a bare IPv6 address or an address with a port starts
nothing.  Six of the options have only flags that turn them on and are on from the
start, so that every server the program runs has all of them, and the rest of its
configuration may be anything (`main_serves_iff`).

A command line is a list of Unicode strings, as `std::env::args` yields it; on other
arguments that panics before anything else is done.  What is printed is taken to be
written.
-/
namespace GreenTunnel
open Checked

/-- All of a server's configuration. -/
structure ServerConfig extends ProxyServerConfig where
  bindAddr : SocketAddr
  stripAltSvc : Bool
  filterType65 : Bool
  fallbackTarget : Str

/-- How the program starts. -/
inductive Startup where
  | exited (printed : Printed)
  | badAddress
  | serves (config : ServerConfig)

/-- The address to listen on. -/
def bindAddr (cli : Cli) : Option SocketAddr :=
  parseSocketAddr (cli.bind ++ ":".toList ++ Nat.toDigits 10 cli.port.toNat)

def main (args : List Str) : Checked Startup := do
  match ← parseFrom args with
  | .exited printed => return .exited printed
  | .options cli =>
    match bindAddr cli with
    | none => return .badAddress
    | some addr =>
      return .serves
        { bindAddr := addr
          dnsAddr := cli.dnsAddr
          fakeTtl := cli.fakeTtl.toNat
          fakeSni := cli.fakeSni
          windowShrink := cli.windowShrink.toNat
          httpSpace := cli.httpSpace
          mixHeaderCase := cli.mixHeaderCase
          stripAltSvc := cli.stripAltSvc
          portRotate := cli.portRotate
          trailingDot := cli.trailingDot
          filterType65 := cli.filterType65
          fallbackTarget := cli.fallbackTarget }

/-! ## The address -/

/-- The number of a zone: what stands between the percent sign and the bracket. -/
def parseScopeId (s : Str) : Option Nat := readWhole (readNumber 10 4294967296 none true s)

/-- The texts that say which address to listen on. -/
inductive BindText : Str → IpAddr → Prop where
  | v4 {t : Str} {ip : Ipv4Addr} (address : parseIpAddr t = some (.v4 ip)) : BindText t (.v4 ip)
  | v6 {t : Str} {ip : Ipv6Addr} (address : parseIpv6Addr t = some ip) :
      BindText ('[' :: (t ++ [']'])) (.v6 ip)
  | zoned {t zone : Str} {ip : Ipv6Addr} {id : Nat} (address : parseIpv6Addr t = some ip)
      (number : parseScopeId zone = some id) :
      BindText ('[' :: (t ++ '%' :: (zone ++ [']']))) (.v6 ip)

section
variable {b rest digits : Str} {port : Nat} {addr : SocketAddr}

/-- A number is all digits, and not a colon. -/
theorem readNumber_no_colon {bound v : Nat} {maxDigits : Option Nat} {zero : Bool} {s : Str}
    (h : readNumber 10 bound maxDigits zero s = some (v, [])) : ':' ∉ s := by
  intro hmem
  obtain ⟨x, y, rfl⟩ := List.append_of_mem hmem
  rw [readNumber_stopsAt (by decide)] at h
  obtain ⟨p, -, heq⟩ := Option.map_eq_some_iff.mp h
  exact absurd (Prod.mk.inj heq).2 (List.append_ne_nil_of_right_ne_nil _ (List.cons_ne_nil _ _))

/-- A text has one last colon. -/
theorem append_colon_inj {x y s t : Str} (hs : ':' ∉ s) (ht : ':' ∉ t)
    (h : x ++ ':' :: s = y ++ ':' :: t) : x = y ∧ s = t := by
  rcases List.append_eq_append_iff.mp h with ⟨as, hy, hcons⟩ | ⟨as, hx, hcons⟩
  · cases as with
    | nil => exact ⟨by rw [hy, List.append_nil], (List.cons.inj hcons).2⟩
    | cons a as =>
      have hmem : ':' ∈ s := by
        rw [(List.cons.inj hcons).2]
        exact List.mem_append_right as List.mem_cons_self
      exact absurd hmem hs
  · cases as with
    | nil => exact ⟨by rw [hx, List.append_nil], (List.cons.inj hcons).2.symm⟩
    | cons a as =>
      have hmem : ':' ∈ t := by
        rw [(List.cons.inj hcons).2]
        exact List.mem_append_right as List.mem_cons_self
      exact absurd hmem ht

/-- A colon and what follows it is a port when it is a number and nothing more. -/
theorem readPort_eq_some {s : Str} :
    readPort s = some (port, []) ↔ ∃ digits, s = ':' :: digits ∧ parsePort digits = some port := by
  rw [readPort, Option.bind_eq_bind, Option.bind_eq_some_iff]
  constructor
  · rintro ⟨t, ht, h⟩
    exact ⟨t, readGivenChar_eq_some.mp ht, readWhole_eq_some.mpr h⟩
  · rintro ⟨t, rfl, h⟩
    exact ⟨t, readGivenChar_eq_some.mpr rfl, readWhole_eq_some.mp h⟩

/-- What stands in front of the bracket is a zone or nothing. -/
theorem skipScopeId_eq {s : Str} (h : skipScopeId s = ']' :: rest) :
    s = ']' :: rest ∨
      ∃ zone id, s = '%' :: (zone ++ ']' :: rest) ∧ parseScopeId zone = some id := by
  unfold skipScopeId at h
  split at h
  · rename_i v t hread
    obtain ⟨z, hz, hnum⟩ := Option.bind_eq_some_iff.mp hread
    obtain rfl := readGivenChar_eq_some.mp hz
    obtain ⟨zone, rfl, -⟩ := took_readNumber (by decide) hnum
    rw [h, readNumber_stopsAt (by decide)] at hnum
    obtain ⟨⟨w, left⟩, hzone, heq⟩ := Option.map_eq_some_iff.mp hnum
    obtain ⟨rfl, hleft⟩ := Prod.mk.inj heq
    obtain rfl : left = [] := List.append_left_eq_self.mp hleft
    exact Or.inr ⟨zone, w, by rw [h], readWhole_eq_some.mpr hzone⟩
  · exact Or.inl h

/-- A zone is read over. -/
theorem skipScopeId_zone {zone : Str} {id : Nat} (h : parseScopeId zone = some id) :
    skipScopeId ('%' :: (zone ++ ']' :: rest)) = ']' :: rest := by
  rw [skipScopeId, readGivenChar_eq_some.mpr rfl, Option.bind_some,
    readNumber_stopsAt (by decide), readWhole_eq_some.mp h]
  rfl

/-- Read as an IPv4 address and a port. -/
theorem readSocketAddrV4_bind (hport : parsePort digits = some port) :
    readSocketAddrV4 (b ++ ':' :: digits) = some (addr, []) ↔
      ∃ ip, parseIpAddr b = some (.v4 ip) ∧ addr = ⟨.v4 ip, port⟩ := by
  have hno := readNumber_no_colon (readWhole_eq_some.mp hport)
  have hstop := readIpv4Addr_stopsAt (c := ':') rfl (by decide) b digits
  constructor
  · intro h
    simp only [readSocketAddrV4, Option.bind_eq_bind, Option.bind_eq_some_iff, hstop,
      Option.map_eq_some_iff, Option.some.injEq, Prod.mk.injEq] at h
    obtain ⟨-, ⟨⟨ip, s⟩, hip, rfl⟩, ⟨p, t⟩, hp, rfl, rfl⟩ := h
    obtain ⟨ds, hds, hport'⟩ := readPort_eq_some.mp hp
    obtain ⟨rfl, rfl⟩ := append_colon_inj (y := []) hno
      (readNumber_no_colon (readWhole_eq_some.mp hport')) hds
    cases hport.symm.trans hport'
    exact ⟨ip, parseIpAddr_eq_v4.mpr hip, rfl⟩
  · rintro ⟨ip, hip, rfl⟩
    rw [readSocketAddrV4, hstop, parseIpAddr_eq_v4.mp hip]
    simp only [Option.bind_eq_bind, Option.map_some, Option.bind_some, List.nil_append,
      readPort_eq hport]

/-- In front of the bracket or the percent sign an IPv6 address is read as it is alone. -/
theorem readIpv6Addr_before {c : Char} {s : Str} {ip : Ipv6Addr} (hc : isAddrChar c = false) :
    readIpv6Addr (s ++ c :: rest) = some (ip, c :: rest) ↔ parseIpv6Addr s = some ip := by
  rw [parseIpv6Addr, readWhole_eq_some]
  exact ⟨readIpv6Addr_of_append hc, fun h => readIpv6Addr_append hc h rest⟩

/-- Read as an IPv6 address in brackets and a port. -/
theorem readSocketAddrV6_eq_some {s : Str} :
    readSocketAddrV6 s = some (addr, []) ↔ ∃ t ip digits, s = t ++ ':' :: digits ∧
      BindText t (.v6 ip) ∧ parsePort digits = some addr.port ∧ addr.ip = .v6 ip := by
  constructor
  · intro h
    simp only [readSocketAddrV6, Option.bind_eq_bind, Option.bind_eq_some_iff,
      Option.some.injEq, Prod.mk.injEq] at h
    obtain ⟨s, hs, ⟨ip, r⟩, hip, u, hu, ⟨port, v⟩, hport, rfl, rfl⟩ := h
    obtain ⟨digits, rfl, hdigits⟩ := readPort_eq_some.mp hport
    obtain ⟨t, rfl, -⟩ := took_readIpv6Addr hip
    rw [readGivenChar_eq_some.mp hs]
    rcases skipScopeId_eq (readGivenChar_eq_some.mp hu) with rfl | ⟨zone, id, rfl, hid⟩
    · refine ⟨_, ip, digits, ?_, .v6 ((readIpv6Addr_before rfl).mp hip), hdigits, rfl⟩
      rw [List.cons_append, List.append_assoc]
      rfl
    · refine ⟨_, ip, digits, ?_, .zoned ((readIpv6Addr_before rfl).mp hip) hid, hdigits, rfl⟩
      rw [List.cons_append, List.append_assoc, List.cons_append, List.append_assoc]
      rfl
  · rintro ⟨t, ip, digits, rfl, htext, hport, hip⟩
    have haddr : addr = ⟨.v6 ip, addr.port⟩ := by rw [← hip]
    rw [haddr]
    cases htext with
    | @v6 t _ address =>
      have hread : readIpv6Addr (t ++ ']' :: ':' :: digits) = some (ip, ']' :: ':' :: digits) :=
        (readIpv6Addr_before rfl).mpr address
      have hscope : skipScopeId (']' :: ':' :: digits) = ']' :: ':' :: digits := rfl
      rw [List.cons_append, List.append_assoc, readSocketAddrV6]
      simp only [Option.bind_eq_bind, readGivenChar_eq_some.mpr rfl, Option.bind_some,
        List.singleton_append, hread, hscope, readPort_eq hport]
    | @zoned t zone _ id address number =>
      have hread : readIpv6Addr (t ++ '%' :: (zone ++ ']' :: ':' :: digits)) =
          some (ip, '%' :: (zone ++ ']' :: ':' :: digits)) :=
        (readIpv6Addr_before rfl).mpr address
      rw [List.cons_append, List.append_assoc, List.cons_append, List.append_assoc,
        readSocketAddrV6]
      simp only [Option.bind_eq_bind, readGivenChar_eq_some.mpr rfl, Option.bind_some,
        List.singleton_append, hread, skipScopeId_zone number, readPort_eq hport]

/-- **An address and a port**: the text in front of the last colon is an address to listen
on, and the port stands behind it. -/
theorem parseSocketAddr_bind (hport : parsePort digits = some port) :
    parseSocketAddr (b ++ ':' :: digits) = some addr ↔ BindText b addr.ip ∧ addr.port = port := by
  have hno := readNumber_no_colon (readWhole_eq_some.mp hport)
  rw [parseSocketAddr, readWhole_eq_some]
  constructor
  · intro h
    cases hv4 : readSocketAddrV4 (b ++ ':' :: digits) with
    | some p =>
      rw [hv4] at h
      cases h
      obtain ⟨ip, hip, rfl⟩ := (readSocketAddrV4_bind hport).mp hv4
      exact ⟨.v4 hip, rfl⟩
    | none =>
      rw [hv4] at h
      obtain ⟨t, ip, ds, ht, htext, hds, hip⟩ := readSocketAddrV6_eq_some.mp h
      obtain ⟨rfl, rfl⟩ := append_colon_inj hno (readNumber_no_colon (readWhole_eq_some.mp hds)) ht
      exact ⟨hip ▸ htext, Option.some.inj (hds.symm.trans hport)⟩
  · rintro ⟨htext, rfl⟩
    obtain ⟨ip, port⟩ := addr
    cases htext with
    | v4 address =>
      rw [(readSocketAddrV4_bind hport).mpr ⟨_, address, rfl⟩]
      rfl
    | v6 address =>
      exact readSocketAddrV6_eq_some.mpr ⟨_, _, _, rfl, .v6 address, hport, rfl⟩
    | zoned address number =>
      exact readSocketAddrV6_eq_some.mpr ⟨_, _, _, rfl, .zoned address number, hport, rfl⟩

end

/-- **Which address the program listens on**: the one that `--bind` says, if it says one,
with the port. -/
theorem bindAddr_eq_some {cli : Cli} {addr : SocketAddr} :
    bindAddr cli = some addr ↔ BindText cli.bind addr.ip ∧ addr.port = cli.port.toNat := by
  rw [bindAddr, List.append_assoc]
  exact parseSocketAddr_bind (parsePort_toDigits cli.port.toNat_lt)

/-- **How the program starts**: it prints something and exits, or it has an address to
listen on, or `--bind` says none.  It never panics. -/
theorem main_starts (args : List Str) :
    (∃ printed, main args = .ok (.exited printed)) ∨
    ∃ cli, parseFrom args = .ok (.options cli) ∧
      (main args = .ok .badAddress ∧ (∀ ip, ¬ BindText cli.bind ip) ∨
        ∃ config, main args = .ok (.serves config) ∧ BindText cli.bind config.bindAddr.ip ∧
          config.bindAddr.port = cli.port.toNat) := by
  rw [main, parseFrom_eq]
  cases run args.tail default with
  | exited printed => exact Or.inl ⟨printed, rfl⟩
  | options cli =>
    refine Or.inr ⟨cli, rfl, ?_⟩
    simp only [bind, Except.bind]
    cases haddr : bindAddr cli with
    | none =>
      refine Or.inl ⟨rfl, fun ip htext => ?_⟩
      have hsome : bindAddr cli = some ⟨ip, cli.port.toNat⟩ := bindAddr_eq_some.mpr ⟨htext, rfl⟩
      rw [haddr] at hsome
      cases hsome
    | some addr =>
      obtain ⟨htext, hport⟩ := bindAddr_eq_some.mp haddr
      exact Or.inr ⟨_, rfl, htext, hport⟩

/-! ## The options -/

/-- What an argument does keeps `I`. -/
def Arm.Keeps (I : Cli → Prop) : Arm → Prop
  | .value set => ∀ cli val, I cli → I (set cli val)
  | .flag set => ∀ cli, I cli → I (set cli)
  | .exit _ => True

theorem Arm.Keeps.ite {I : Cli → Prop} {c : Prop} [Decidable c] {a b : Arm} (ha : a.Keeps I)
    (hb : b.Keeps I) : (if c then a else b).Keeps I := by
  split
  · exact ha
  · exact hb

/-- **What every argument keeps**, the arguments keep together. -/
theorem run_keeps {I : Cli → Prop} (hassign : ∀ cli key val, I cli → I (assign cli key val))
    (harm : ∀ arg, (arm arg).Keeps I) {args : List Str} {cli cli' : Cli} (h : I cli)
    (hrun : run args cli = .options cli') : I cli' := by
  induction hn : args.length using Nat.strong_induction_on generalizing args cli with
  | h n ih =>
    subst hn
    cases args with
    | nil =>
      cases hrun
      exact h
    | cons arg rest =>
      rw [List.length_cons] at ih
      cases hs : splitOnce '=' arg with
      | some kv =>
        rw [run_of_equals hs] at hrun
        exact ih _ (Nat.lt_succ_self _) (hassign cli kv.1 kv.2 h) hrun rfl
      | none =>
        have hkeeps := harm arg
        cases ha : arm arg with
        | value set =>
          rw [ha] at hkeeps
          cases rest with
          | nil =>
            rw [run_of_value_last hs ha] at hrun
            cases hrun
            exact h
          | cons val rest =>
            rw [run_of_value hs ha] at hrun
            exact ih _ (Nat.lt_succ_of_le (Nat.le_succ _)) (hkeeps cli val h) hrun rfl
        | flag set =>
          rw [ha] at hkeeps
          rw [run_of_flag hs ha] at hrun
          exact ih _ (Nat.lt_succ_self _) (hkeeps cli h) hrun rfl
        | exit printed =>
          rw [run_of_exit hs ha] at hrun
          cases hrun

/-- The options that have only a flag to turn them on are on. -/
structure Cli.AllOn (cli : Cli) : Prop where
  httpSpace : cli.httpSpace = true
  mixHeaderCase : cli.mixHeaderCase = true
  stripAltSvc : cli.stripAltSvc = true
  portRotate : cli.portRotate = true
  trailingDot : cli.trailingDot = true
  filterType65 : cli.filterType65 = true

namespace Cli.AllOn
variable {cli : Cli}

theorem default : (default : Cli).AllOn := ⟨rfl, rfl, rfl, rfl, rfl, rfl⟩

/-- A value changes none of them, whether it is a number or not. -/
theorem value {α : Type} (h : cli.AllOn) (v : Option α) {set : α → Cli}
    (hset : ∀ a, (set a).AllOn) : (v.elim cli set).AllOn := by
  cases v with
  | none => exact h
  | some a => exact hset a

theorem setPort (h : cli.AllOn) (val : Str) : (cli.setPort val).AllOn :=
  h.value _ fun _ => ⟨h.1, h.2, h.3, h.4, h.5, h.6⟩

theorem setFakeTtl (h : cli.AllOn) (val : Str) : (cli.setFakeTtl val).AllOn :=
  h.value _ fun _ => ⟨h.1, h.2, h.3, h.4, h.5, h.6⟩

theorem setWindowShrink (h : cli.AllOn) (val : Str) : (cli.setWindowShrink val).AllOn :=
  h.value _ fun _ => ⟨h.1, h.2, h.3, h.4, h.5, h.6⟩

/-- What stands in front of the equals sign turns none of them off. -/
theorem assign (h : cli.AllOn) (key val : Str) : (GreenTunnel.assign cli key val).AllOn := by
  unfold GreenTunnel.assign
  split_ifs
  · exact h.setPort val
  · exact ⟨h.1, h.2, h.3, h.4, h.5, h.6⟩
  · exact ⟨h.1, h.2, h.3, h.4, h.5, h.6⟩
  · exact ⟨h.1, h.2, h.3, h.4, h.5, h.6⟩
  · exact h.setFakeTtl val
  · exact ⟨h.1, h.2, h.3, h.4, h.5, h.6⟩
  · exact h.setWindowShrink val
  · exact h

/-- The options with a value leave all of them as they are, and a flag turns one on. -/
theorem arm (arg : Str) : (GreenTunnel.arm arg).Keeps AllOn := by
  unfold GreenTunnel.arm
  refine .ite (fun _ val h => h.setPort val) ?_
  refine .ite (fun _ _ h => ⟨h.1, h.2, h.3, h.4, h.5, h.6⟩) ?_
  refine .ite (fun _ _ h => ⟨h.1, h.2, h.3, h.4, h.5, h.6⟩) ?_
  refine .ite (fun _ h => ⟨h.1, h.2, h.3, h.4, h.5, h.6⟩) ?_
  refine .ite (fun _ h => ⟨rfl, h.2, h.3, h.4, h.5, h.6⟩) ?_
  refine .ite (fun _ h => ⟨h.1, rfl, h.3, h.4, h.5, h.6⟩) ?_
  refine .ite (fun _ h => ⟨h.1, h.2, rfl, h.4, h.5, h.6⟩) ?_
  refine .ite (fun _ h => ⟨h.1, h.2, h.3, rfl, h.5, h.6⟩) ?_
  refine .ite (fun _ h => ⟨h.1, h.2, h.3, h.4, rfl, h.6⟩) ?_
  refine .ite (fun _ h => ⟨h.1, h.2, h.3, h.4, h.5, rfl⟩) ?_
  refine .ite (fun _ _ h => ⟨h.1, h.2, h.3, h.4, h.5, h.6⟩) ?_
  refine .ite (fun _ val h => h.setFakeTtl val) ?_
  refine .ite (fun _ _ h => ⟨h.1, h.2, h.3, h.4, h.5, h.6⟩) ?_
  refine .ite (fun _ val h => h.setWindowShrink val) ?_
  refine .ite trivial (.ite trivial ?_)
  exact fun _ h => h

/-- No argument turns them off. -/
theorem run {args : List Str} {cli' : Cli} (h : cli.AllOn)
    (hrun : GreenTunnel.run args cli = .options cli') : cli'.AllOn :=
  run_keeps (fun _ key val h => h.assign key val) arm h hrun

end Cli.AllOn

/-! ## Arguments for every choice of options -/

theorem decimal_toDigits (n : Nat) : decimal (Nat.toDigits 10 n) = n := by
  induction n using Nat.strongRecOn with
  | ind n ih =>
    rw [Nat.toDigits_eq_if (by decide)]
    have hdigit : ∀ v < 10, (Nat.digitChar v).toNat - 48 = v := by decide
    by_cases hn : n < 10
    · rw [if_pos hn, decimal, List.foldl_cons, List.foldl_nil, hdigit n hn, Nat.zero_mul,
        Nat.zero_add]
    · have hdiv := ih (n / 10) (by omega)
      rw [decimal] at hdiv
      rw [if_neg hn, decimal, List.foldl_append, hdiv, List.foldl_cons, List.foldl_nil,
        hdigit _ (Nat.mod_lt n (by decide)), Nat.div_add_mod']

/-- A number is read back from its digits. -/
theorem parseUnsigned_toDigits {bound n : Nat} (h : n < bound) :
    parseUnsigned bound (Nat.toDigits 10 n) = some n :=
  parseUnsigned_eq_some.mpr ⟨_, Or.inl rfl, Nat.toDigits_ne_nil,
    fun _ hc => Nat.isDigit_of_mem_toDigits (by decide) (by decide) hc, decimal_toDigits n, h⟩

/-- The text that makes an address the one to listen on. -/
def bindText : IpAddr → Str
  | .v4 ip => ip.display
  | .v6 ip => '[' :: (ip.display ++ [']'])

theorem bindText_spec (ip : IpAddr) : BindText (bindText ip) ip := by
  cases ip with
  | v4 ip => exact .v4 (parseIpAddr_display (.v4 ip))
  | v6 ip => exact .v6 (readWhole_eq_some.mpr (readIpv6Addr_display ip))

/-- An option with its value behind an equals sign. -/
def equalsArg (key : String) (val : Str) : Str := key.toList ++ '=' :: val

/-- A command line for the options. -/
def Cli.toArgs (cli : Cli) : List Str :=
  "greentunnelRS".toList ::
    ([equalsArg "--port" (Nat.toDigits 10 cli.port.toNat), equalsArg "--bind" cli.bind,
      equalsArg "--dns-addr" cli.dnsAddr,
      equalsArg "--fake-ttl" (Nat.toDigits 10 cli.fakeTtl.toNat),
      equalsArg "--fake-sni" cli.fakeSni,
      equalsArg "--window-shrink" (Nat.toDigits 10 cli.windowShrink.toNat),
      equalsArg "--fallback-target" cli.fallbackTarget] ++
    if cli.verbose then ["--verbose".toList] else [])

theorem run_equalsArg {key : String} (h : '=' ∉ key.toList) (val : Str) (rest : List Str)
    (cli : Cli) : run (equalsArg key val :: rest) cli = run rest (assign cli key.toList val) :=
  run_of_equals (splitOnce_eq_some.mpr ⟨h, rfl⟩) rest cli

/-- The numbers are read back. -/
theorem Cli.setPort_toDigits (cli : Cli) (port : UInt16) :
    cli.setPort (Nat.toDigits 10 port.toNat) = { cli with port := port } := by
  rw [setPort, parseUnsigned_toDigits port.toNat_lt, Option.elim_some, UInt16.ofNat_toNat]

theorem Cli.setFakeTtl_toDigits (cli : Cli) (ttl : UInt32) :
    cli.setFakeTtl (Nat.toDigits 10 ttl.toNat) = { cli with fakeTtl := ttl } := by
  rw [setFakeTtl, parseUnsigned_toDigits ttl.toNat_lt, Option.elim_some, UInt32.ofNat_toNat]

theorem Cli.setWindowShrink_toDigits (cli : Cli) (size : USize) :
    cli.setWindowShrink (Nat.toDigits 10 size.toNat) = { cli with windowShrink := size } := by
  rw [setWindowShrink, parseUnsigned_toDigits size.toNat_lt_size, Option.elim_some,
    USize.ofNat_toNat]

/-- **Options are read back from their command line**, if those are on that only a flag
turns on. -/
theorem parseFrom_toArgs {cli : Cli} (h : cli.AllOn) :
    parseFrom cli.toArgs = .ok (.options cli) := by
  have hport : ∀ (c : Cli) val, assign c "--port".toList val = c.setPort val := fun _ _ => rfl
  have httl : ∀ (c : Cli) val, assign c "--fake-ttl".toList val = c.setFakeTtl val := fun _ _ => rfl
  have hwin : ∀ (c : Cli) val, assign c "--window-shrink".toList val = c.setWindowShrink val :=
    fun _ _ => rfl
  rw [parseFrom_eq, Cli.toArgs, List.tail_cons]
  simp only [List.cons_append, List.nil_append]
  rw [run_equalsArg (by decide), run_equalsArg (by decide), run_equalsArg (by decide),
    run_equalsArg (by decide), run_equalsArg (by decide), run_equalsArg (by decide),
    run_equalsArg (by decide), hport, httl, hwin, Cli.setPort_toDigits, Cli.setFakeTtl_toDigits,
    Cli.setWindowShrink_toDigits]
  obtain ⟨port, bind, dnsAddr, verbose, fakeTtl, fakeSni, windowShrink, _, _, _, _, _, _, target⟩ :=
    cli
  obtain ⟨rfl, rfl, rfl, rfl, rfl, rfl⟩ := h
  cases verbose with
  | false => rfl
  | true => rfl

/-- A configuration that the options can have. -/
structure ServerConfig.Possible (config : ServerConfig) : Prop where
  port_lt : config.bindAddr.port < 65536
  fakeTtl_lt : config.fakeTtl < 4294967296
  windowShrink_lt : config.windowShrink < USize.size
  httpSpace : config.httpSpace = true
  mixHeaderCase : config.mixHeaderCase = true
  stripAltSvc : config.stripAltSvc = true
  portRotate : config.portRotate = true
  trailingDot : config.trailingDot = true
  filterType65 : config.filterType65 = true

/-- **The configurations that the program runs with.**  The six options that have only a
flag are on in all of them, and everything else may be anything. -/
theorem main_serves_iff (config : ServerConfig) :
    (∃ args, main args = .ok (.serves config)) ↔ config.Possible := by
  constructor
  · rintro ⟨args, h⟩
    rw [main, parseFrom_eq] at h
    cases hrun : run args.tail default with
    | exited printed =>
      rw [hrun] at h
      cases h
    | options cli =>
      have hon := Cli.AllOn.default.run hrun
      rw [hrun] at h
      simp only [bind, Except.bind] at h
      cases haddr : bindAddr cli with
      | none =>
        rw [haddr] at h
        cases h
      | some addr =>
        rw [haddr] at h
        cases h
        have hport := (bindAddr_eq_some.mp haddr).2
        exact ⟨hport ▸ cli.port.toNat_lt, cli.fakeTtl.toNat_lt, cli.windowShrink.toNat_lt_size,
          hon.1, hon.2, hon.3, hon.4, hon.5, hon.6⟩
  · intro h
    let cli : Cli :=
      { port := UInt16.ofNat config.bindAddr.port
        bind := bindText config.bindAddr.ip
        dnsAddr := config.dnsAddr
        verbose := false
        fakeTtl := UInt32.ofNat config.fakeTtl
        fakeSni := config.fakeSni
        windowShrink := USize.ofNat config.windowShrink
        httpSpace := true
        mixHeaderCase := true
        stripAltSvc := true
        portRotate := true
        trailingDot := true
        filterType65 := true
        fallbackTarget := config.fallbackTarget }
    refine ⟨cli.toArgs, ?_⟩
    have haddr : bindAddr cli = some config.bindAddr :=
      bindAddr_eq_some.mpr ⟨bindText_spec _, (UInt16.toNat_ofNat_of_lt' h.port_lt).symm⟩
    have httl : cli.fakeTtl.toNat = config.fakeTtl := UInt32.toNat_ofNat_of_lt' h.fakeTtl_lt
    have hwin : cli.windowShrink.toNat = config.windowShrink :=
      USize.toNat_ofNat_of_lt' h.windowShrink_lt
    rw [main, parseFrom_toArgs ⟨rfl, rfl, rfl, rfl, rfl, rfl⟩]
    simp only [bind, Except.bind, haddr, httl, hwin]
    obtain ⟨⟨_, _, _, _, _, _, _, _⟩, _, _, _, _⟩ := config
    obtain ⟨-, -, -, rfl, rfl, rfl, rfl, rfl, rfl⟩ := h
    rfl

end GreenTunnel

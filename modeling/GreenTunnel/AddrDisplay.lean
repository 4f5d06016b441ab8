import GreenTunnel.AddrText

/-! # Addresses written as texts

`IpAddr.display` writes an address the way the standard library does: octets are
decimal and groups hexadecimal, the first of the longest runs of zero groups is
`::`, and an IPv4-mapped address ends in the IPv4 address.  It is read back as
the address it was written from (`parseIpAddr_display`).
-/
namespace GreenTunnel

/-! ## Numbers in a text -/

theorem toDigit_digitChar {radix v : Nat} (hr : radix ≤ 16) (hv : v < radix) :
    toDigit radix (Nat.digitChar v) = some v := by
  have hall : ∀ r ≤ 16, ∀ v < r, toDigit r (Nat.digitChar v) = some v := by decide
  exact hall radix hr v hv

/-- The digits of a number and its value. -/
theorem toDigits_values {radix : Nat} (h1 : 1 < radix) (hr : radix ≤ 16) (n : Nat) :
    ∃ vs : List Nat, (Nat.toDigits radix n).map (toDigit radix) = vs.map some ∧
      vs.foldl (fun n v => n * radix + v) 0 = n := by
  induction n using Nat.strongRecOn with
  | ind n ih =>
    rw [Nat.toDigits_eq_if h1]
    by_cases hn : n < radix
    · rw [if_pos hn]
      refine ⟨[n], ?_, ?_⟩
      · rw [List.map_singleton, toDigit_digitChar hr hn]
        rfl
      · rw [List.foldl_cons, List.foldl_nil, Nat.zero_mul, Nat.zero_add]
    · rw [if_neg hn]
      obtain ⟨vs, hvs, hval⟩ := ih (n / radix) (Nat.div_lt_self (by omega) h1)
      refine ⟨vs ++ [n % radix], ?_, ?_⟩
      · rw [List.map_append, List.map_append, hvs, List.map_singleton,
          toDigit_digitChar hr (Nat.mod_lt n (by omega))]
        rfl
      · rw [List.foldl_append, hval, List.foldl_cons, List.foldl_nil, Nat.div_add_mod']

/-- A number above zero does not begin with a zero. -/
theorem toDigits_head {radix n : Nat} (h1 : 1 < radix) (hn : 0 < n) :
    (Nat.toDigits radix n).head? ≠ some '0' := by
  induction n using Nat.strongRecOn with
  | ind n ih =>
    rw [Nat.toDigits_eq_if h1]
    by_cases hlt : n < radix
    · rw [if_pos hlt, List.head?_cons, Ne, Option.some.injEq, Nat.digitChar_eq_zero]
      omega
    · rw [if_neg hlt, List.head?_append_of_ne_nil _ Nat.toDigits_ne_nil]
      exact ih (n / radix) (Nat.div_lt_self hn h1) (Nat.div_pos (by omega) (by omega))

theorem readDigits_map {radix : Nat} {cs rest : Str} {vs : List Nat}
    (h : cs.map (toDigit radix) = vs.map some) (hrest : readDigits radix rest = ([], rest)) :
    readDigits radix (cs ++ rest) = (vs, rest) := by
  induction cs generalizing vs with
  | nil =>
    rw [List.map_nil, eq_comm, List.map_eq_nil_iff] at h
    rw [h, List.nil_append, hrest]
  | cons c cs ih =>
    cases vs with
    | nil => cases h
    | cons v vs =>
      rw [List.map_cons, List.map_cons, List.cons.injEq] at h
      rw [List.cons_append, readDigits, h.1, ih h.2]

/-- **A number is read back** from its digits, in front of anything that begins
with no digit. -/
theorem readNumber_toDigits {radix bound n : Nat} {maxDigits : Option Nat} {zero : Bool}
    {rest : Str} (h1 : 1 < radix) (hr : radix ≤ 16) (hn : n < bound)
    (hmax : ∀ k ∈ maxDigits, (Nat.toDigits radix n).length ≤ k)
    (hrest : readDigits radix rest = ([], rest)) :
    readNumber radix bound maxDigits zero (Nat.toDigits radix n ++ rest) = some (n, rest) := by
  obtain ⟨vs, hvs, hval⟩ := toDigits_values h1 hr n
  have hlen : (Nat.toDigits radix n).length = vs.length := by
    simpa only [List.length_map] using congrArg List.length hvs
  have hpos : 0 < vs.length := hlen ▸ Nat.length_toDigits_pos
  unfold readNumber
  rw [readDigits_map hvs hrest]
  dsimp only
  rw [hval, if_neg, if_neg, if_pos hn]
  · rintro ⟨-, hhead, hlong⟩
    rw [List.head?_append_of_ne_nil _ Nat.toDigits_ne_nil] at hhead
    rcases Nat.eq_zero_or_pos n with rfl | h0
    · rw [Nat.toDigits_zero, List.length_singleton] at hlen
      omega
    · exact toDigits_head h1 h0 hhead
  · rintro (hnil | hany)
    · rw [hnil] at hpos
      exact absurd hpos (Nat.lt_irrefl 0)
    · obtain ⟨k, hk, hlt⟩ := (Option.any_eq_true _ _).mp hany
      have hle := hmax k hk
      rw [decide_eq_true_eq] at hlt
      omega

/-- The characters of a number are digits. -/
theorem mem_toDigits {radix n : Nat} {c : Char} (h1 : 1 < radix) (hr : radix ≤ 16)
    (h : c ∈ Nat.toDigits radix n) : (toDigit 16 c).isSome = true := by
  obtain ⟨vs, hvs, -⟩ := toDigits_values h1 hr n
  have hmem : toDigit radix c ∈ vs.map some := hvs ▸ List.mem_map_of_mem h
  obtain ⟨v, -, hv⟩ := List.mem_map.mp hmem
  rw [toDigit_hex hr hv.symm]
  rfl

/-! ## IPv4 addresses -/

def Ipv4Addr.display (ip : Ipv4Addr) : Str :=
  Nat.toDigits 10 ip.a.toNat ++ '.' :: (Nat.toDigits 10 ip.b.toNat ++
    '.' :: (Nat.toDigits 10 ip.c.toNat ++ '.' :: Nat.toDigits 10 ip.d.toNat))

theorem readSeparator_first {α : Type} (sep : Char) (inner : Str → Option (α × Str)) (s : Str) :
    readSeparator sep 0 inner s = inner s := rfl

theorem readSeparator_next {α : Type} (sep : Char) (i : Nat) (inner : Str → Option (α × Str))
    (s : Str) : readSeparator sep (i + 1) inner (sep :: s) = inner s := by
  rw [readSeparator, if_pos (Nat.succ_pos i), readGivenChar_eq_some.mpr rfl, Option.bind_some]

/-- An IPv4 address is read back in front of anything that begins with no digit. -/
theorem readIpv4Addr_display (ip : Ipv4Addr) {rest : Str}
    (hrest : readDigits 10 rest = ([], rest)) :
    readIpv4Addr (ip.display ++ rest) = some (ip, rest) := by
  have octet : ∀ (n : UInt8) {rest : Str}, readDigits 10 rest = ([], rest) →
      readNumber 10 256 (some 3) false (Nat.toDigits 10 n.toNat ++ rest) = some (n.toNat, rest) := by
    intro n rest hrest
    refine readNumber_toDigits (by decide) (by decide) n.toNat_lt ?_ hrest
    rintro k ⟨⟩
    exact (Nat.length_toDigits_le_iff (by decide) (by decide)).mpr
      (Nat.lt_of_lt_of_le n.toNat_lt (by decide))
  have hdot : ∀ t : Str, readDigits 10 ('.' :: t) = ([], '.' :: t) := fun _ => rfl
  obtain ⟨a, b, c, d⟩ := ip
  simp only [Ipv4Addr.display, List.append_assoc, List.cons_append, readIpv4Addr,
    readSeparator_first, readSeparator_next, octet _ (hdot _), octet d hrest,
    Option.bind_eq_bind, Option.bind_some, UInt8.ofNat_toNat]

theorem readIpv4Addr_display_whole (ip : Ipv4Addr) :
    readIpv4Addr ip.display = some (ip, []) := by
  have hread := @readIpv4Addr_display ip [] rfl
  rwa [List.append_nil] at hread

/-! ## IPv6 addresses -/

/-- A run of groups. -/
structure Span where
  start : Nat
  len : Nat

/-- The first of the longest runs of zero groups: `i` groups are before `segments`,
`current` is the run that the last of them ends, and `longest` the longest so far. -/
def zeroSpan : List UInt16 → Nat → Span → Span → Span
  | [], _, longest, _ => longest
  | segment :: segments, i, longest, current =>
    if segment = 0 then
      let current : Span := ⟨if current.len = 0 then i else current.start, current.len + 1⟩
      zeroSpan segments (i + 1) (if current.len > longest.len then current else longest) current
    else zeroSpan segments (i + 1) longest ⟨0, 0⟩

/-- Groups separated by colons. -/
def displayGroups : List UInt16 → Str
  | [] => []
  | first :: tail =>
    Nat.toDigits 16 first.toNat ++ tail.flatMap fun segment => ':' :: Nat.toDigits 16 segment.toNat

def Ipv6Addr.display (ip : Ipv6Addr) : Str :=
  match ip.toIpv4Mapped with
  | some ipv4 => "::ffff:".toList ++ ipv4.display
  | none =>
    let zeroes := zeroSpan ip.segments 0 ⟨0, 0⟩ ⟨0, 0⟩
    if zeroes.len > 1 then
      displayGroups (ip.segments.take zeroes.start) ++ "::".toList ++
        displayGroups (ip.segments.drop (zeroes.start + zeroes.len))
    else displayGroups ip.segments

def IpAddr.display : IpAddr → Str
  | .v4 ip => ip.display
  | .v6 ip => ip.display

/-- The span is a run of zeros of the list. -/
def Span.IsZeros (xs : List UInt16) (span : Span) : Prop :=
  ∃ a b, xs = a ++ List.replicate span.len 0 ++ b ∧ a.length = span.start

theorem Span.IsZeros.append {xs : List UInt16} {span : Span} (h : span.IsZeros xs)
    (ys : List UInt16) : span.IsZeros (xs ++ ys) := by
  obtain ⟨a, b, rfl, ha⟩ := h
  exact ⟨a, b ++ ys, List.append_assoc _ _ _, ha⟩

theorem zeroSpan_isZeros {segments : List UInt16} (before : List UInt16) {longest current : Span}
    (hlong : longest.IsZeros before)
    (hcur : ∃ a, before = a ++ List.replicate current.len 0 ∧
      (current.len ≠ 0 → a.length = current.start)) :
    (zeroSpan segments before.length longest current).IsZeros (before ++ segments) := by
  induction segments generalizing before longest current with
  | nil => exact hlong.append []
  | cons segment segments ih =>
    have hcat : before ++ segment :: segments = (before ++ [segment]) ++ segments := by
      rw [List.append_assoc, List.singleton_append]
    have hnext : before.length + 1 = (before ++ [segment]).length := by
      rw [List.length_append, List.length_singleton]
    rw [hcat, zeroSpan, hnext]
    by_cases h0 : segment = 0
    · rw [if_pos h0]
      obtain ⟨a, ha, hstart⟩ := hcur
      -- the run in progress goes on
      have hrun : before ++ [segment] = a ++ List.replicate (current.len + 1) 0 := by
        rw [ha, h0, List.append_assoc, List.replicate_succ']
      have hat : a.length = if current.len = 0 then before.length else current.start := by
        split
        · rename_i hlen
          rw [ha, hlen, List.replicate_zero, List.append_nil]
        · rename_i hlen
          exact hstart hlen
      apply ih
      · dsimp only
        split
        · exact ⟨a, [], by rw [List.append_nil, hrun], hat⟩
        · exact hlong.append [segment]
      · exact ⟨a, hrun, fun _ => hat⟩
    · rw [if_neg h0]
      apply ih
      · exact hlong.append [segment]
      · exact ⟨before ++ [segment], by simp, fun h => absurd rfl h⟩

/-- What may follow a list of groups: nothing, or `::`. -/
def EndsGroups (rest : Str) : Prop := rest = [] ∨ ∃ t, rest = ':' :: ':' :: t

/-- What may follow a group: nothing, or a colon. -/
def EndsGroup (rest : Str) : Prop := rest = [] ∨ ∃ t, rest = ':' :: t

theorem EndsGroups.endsGroup {rest : Str} (h : EndsGroups rest) : EndsGroup rest := by
  rcases h with rfl | ⟨t, rfl⟩
  · exact Or.inl rfl
  · exact Or.inr ⟨_, rfl⟩

theorem readIpv4Addr_no_dot {s : Str} (h : '.' ∉ s) : readIpv4Addr s = none := by
  unfold readIpv4Addr
  dsimp only
  rw [readSeparator_first]
  cases hread : readNumber 10 256 (some 3) false s with
  | none => rfl
  | some p =>
    have hdot : '.' ∉ p.2 := (took_readNumber (by decide) hread).notMem h
    have hnext : readSeparator '.' 1 (readNumber 10 256 (some 3) false) p.2 = none := by
      rw [readSeparator, if_pos Nat.one_pos, readGivenChar_eq_none hdot, Option.bind_none]
    simp only [Option.bind_eq_bind, Option.bind_some, hnext, Option.bind_none]

/-- A group is not the beginning of an IPv4 address. -/
theorem readIpv4Addr_group (g : UInt16) {rest : Str} (hrest : EndsGroup rest) :
    readIpv4Addr (Nat.toDigits 16 g.toNat ++ rest) = none := by
  have hdot : '.' ∉ Nat.toDigits 16 g.toNat := fun h =>
    absurd (mem_toDigits (by decide) (Nat.le_refl 16) h) (by decide)
  rcases hrest with rfl | ⟨t, rfl⟩
  · rw [List.append_nil]
    exact readIpv4Addr_no_dot hdot
  · rw [readIpv4Addr_stopsAt rfl (by decide), readIpv4Addr_no_dot hdot, Option.map_none]

theorem readNumber_group (g : UInt16) {rest : Str} (hrest : EndsGroup rest) :
    readNumber 16 65536 (some 4) true (Nat.toDigits 16 g.toNat ++ rest) =
      some (g.toNat, rest) := by
  refine readNumber_toDigits (by decide) (by decide) g.toNat_lt ?_ ?_
  · rintro k ⟨⟩
    exact (Nat.length_toDigits_le_iff (by decide) (by decide)).mpr g.toNat_lt
  · rcases hrest with rfl | ⟨t, rfl⟩
    · rfl
    · rfl

/-- One more group is read. -/
theorem readGroups_group {left i : Nat} {s rest : Str} {g : UInt16}
    (hv4 : readSeparator ':' i readIpv4Addr s = none)
    (hg : readSeparator ':' i (readNumber 16 65536 (some 4) true) s = some (g.toNat, rest)) :
    readGroups (left + 1) i s =
      (g :: (readGroups left (i + 1) rest).1, (readGroups left (i + 1) rest).2) := by
  rw [readGroups, hv4, hg, ite_self]
  simp only [UInt16.ofNat_toNat]

/-- No more groups are read. -/
theorem readGroups_stop {left i : Nat} {rest : Str} (h : EndsGroups rest) :
    readGroups left i rest = ([], false, rest) := by
  have hnone : ∀ {α : Type} {inner : Str → Option (α × Str)}, inner [] = none →
      (∀ t, inner (':' :: t) = none) → readSeparator ':' i inner rest = none := by
    intro α inner hnil hcolon
    rcases h with rfl | ⟨t, rfl⟩
    · cases i with
      | zero => exact hnil
      | succ i => rfl
    · cases i with
      | zero => exact hcolon _
      | succ i => rw [readSeparator_next, hcolon]
  cases left with
  | zero => rfl
  | succ left =>
    rw [readGroups, hnone rfl fun _ => rfl, hnone rfl fun _ => rfl, ite_self]

/-- A colon and a group for each of `gs`. -/
theorem endsGroup_tail (gs : List UInt16) {rest : Str} (h : EndsGroups rest) :
    EndsGroup ((gs.flatMap fun segment => ':' :: Nat.toDigits 16 segment.toNat) ++ rest) := by
  cases gs with
  | nil => exact h.endsGroup
  | cons g gs => exact Or.inr ⟨_, rfl⟩

theorem readGroups_tail {gs : List UInt16} {left i : Nat} {rest : Str} (hlen : gs.length ≤ left)
    (h : EndsGroups rest) :
    readGroups left (i + 1)
      ((gs.flatMap fun segment => ':' :: Nat.toDigits 16 segment.toNat) ++ rest) =
        (gs, false, rest) := by
  induction gs generalizing left i with
  | nil => exact readGroups_stop h
  | cons g gs ih =>
    cases left with
    | zero => cases hlen
    | succ left =>
      have hend := endsGroup_tail gs h
      rw [List.flatMap_cons, List.append_assoc, List.cons_append, readGroups_group,
        ih (Nat.le_of_succ_le_succ hlen)]
      · rw [readSeparator_next, readIpv4Addr_group g hend]
      · rw [readSeparator_next, readNumber_group g hend]

/-- **Groups are read back** in front of a `::`, or alone. -/
theorem readGroups_display {gs : List UInt16} {left : Nat} {rest : Str} (hlen : gs.length ≤ left)
    (h : EndsGroups rest) : readGroups left 0 (displayGroups gs ++ rest) = (gs, false, rest) := by
  cases gs with
  | nil => exact readGroups_stop h
  | cons g gs =>
    cases left with
    | zero => cases hlen
    | succ left =>
      have hend := endsGroup_tail gs h
      rw [displayGroups, List.append_assoc, readGroups_group,
        readGroups_tail (Nat.le_of_succ_le_succ hlen) h]
      · rw [readSeparator_first, readIpv4Addr_group g hend]
      · rw [readSeparator_first, readNumber_group g hend]

theorem readGroups_display_whole {gs : List UInt16} {left : Nat} (hlen : gs.length ≤ left) :
    readGroups left 0 (displayGroups gs) = (gs, false, []) := by
  have hread := @readGroups_display gs left [] hlen (Or.inl rfl)
  rwa [List.append_nil] at hread

/-- An address of eight groups. -/
theorem readIpv6Addr_groups (ip : Ipv6Addr) :
    readIpv6Addr (displayGroups ip.segments) = some (ip, []) := by
  rw [readIpv6Addr_eq_some, readGroups_display_whole (Nat.le_of_eq ip.size)]
  exact Or.inl ⟨ip.size, rfl, rfl⟩

/-- An address of groups around a `::` that stands for zero groups. -/
theorem readIpv6Addr_compressed {ip : Ipv6Addr} {a b : List UInt16} {n : Nat} (hn : 0 < n)
    (h : ip.segments = a ++ List.replicate n 0 ++ b) :
    readIpv6Addr (displayGroups a ++ "::".toList ++ displayGroups b) = some (ip, []) := by
  have hlen : a.length + n + b.length = 8 := by
    rw [← ip.size, h, List.length_append, List.length_append, List.length_replicate]
  have ha : readGroups 8 0 (displayGroups a ++ ("::".toList ++ displayGroups b)) =
      (a, false, "::".toList ++ displayGroups b) :=
    readGroups_display (by omega) (Or.inr ⟨displayGroups b, rfl⟩)
  have hb : readGroups (8 - (a.length + 1)) 0 (displayGroups b) = (b, false, []) :=
    readGroups_display_whole (by omega)
  rw [readIpv6Addr_eq_some, List.append_assoc, ha]
  refine Or.inr ⟨?_, rfl, displayGroups b, rfl, ?_, ?_⟩
  · dsimp only
    omega
  · dsimp only
    rw [hb, h, show 8 - a.length - b.length = n by omega]
  · dsimp only
    rw [hb]

/-- The bytes of a group are those of the group. -/
theorem ofNat_be16_groupBytes (g : UInt16) :
    UInt16.ofNat (be16 (groupBytes g).1 (groupBytes g).2) = g := by
  rw [groupBytes, be16_ofNat g.toNat_lt, UInt16.ofNat_toNat]

theorem toIpv4Mapped_eq_some {ip : Ipv6Addr} {ipv4 : Ipv4Addr} (h : ip.toIpv4Mapped = some ipv4) :
    ip.segments = [0, 0, 0, 0, 0, 0xffff, UInt16.ofNat (be16 ipv4.a ipv4.b),
      UInt16.ofNat (be16 ipv4.c ipv4.d)] := by
  unfold Ipv6Addr.toIpv4Mapped at h
  split at h
  · rename_i ab cd hseg
    cases h
    rw [hseg, ofNat_be16_groupBytes, ofNat_be16_groupBytes]
  · cases h

/-- An address that ends in an IPv4 address. -/
theorem readIpv6Addr_mapped {ip : Ipv6Addr} {ipv4 : Ipv4Addr} (h : ip.toIpv4Mapped = some ipv4) :
    readIpv6Addr ("::ffff:".toList ++ ipv4.display) = some (ip, []) := by
  have htext : "::ffff:".toList ++ ipv4.display =
      ':' :: ':' :: (Nat.toDigits 16 (0xffff : UInt16).toNat ++ ':' :: ipv4.display) := rfl
  have hend : EndsGroup (':' :: ipv4.display) := Or.inr ⟨_, rfl⟩
  have hv4 : readGroups 6 1 (':' :: ipv4.display) =
      ([UInt16.ofNat (be16 ipv4.a ipv4.b), UInt16.ofNat (be16 ipv4.c ipv4.d)], true, []) := by
    rw [readGroups, if_pos (by decide), readSeparator_next, readIpv4Addr_display_whole]
  have htail : readGroups 7 0 (Nat.toDigits 16 (0xffff : UInt16).toNat ++ ':' :: ipv4.display) =
      ([0xffff, UInt16.ofNat (be16 ipv4.a ipv4.b), UInt16.ofNat (be16 ipv4.c ipv4.d)], true,
        []) := by
    rw [readGroups_group, hv4]
    · exact readIpv4Addr_group 0xffff hend
    · exact readNumber_group 0xffff hend
  rw [htext, readIpv6Addr_eq_some, readGroups_stop (Or.inr ⟨_, rfl⟩)]
  refine Or.inr ⟨Nat.zero_ne_add_one 7, rfl, _, rfl, ?_, ?_⟩
  · dsimp only [List.length_nil]
    rw [htail, toIpv4Mapped_eq_some h]
    rfl
  · dsimp only [List.length_nil]
    rw [htail]

theorem readIpv6Addr_display (ip : Ipv6Addr) : readIpv6Addr ip.display = some (ip, []) := by
  unfold Ipv6Addr.display
  cases hmapped : ip.toIpv4Mapped with
  | some ipv4 => exact readIpv6Addr_mapped hmapped
  | none =>
    dsimp only
    split
    · rename_i hlen
      obtain ⟨a, b, hseg, ha⟩ : (zeroSpan ip.segments 0 ⟨0, 0⟩ ⟨0, 0⟩).IsZeros ip.segments :=
        zeroSpan_isZeros [] ⟨[], [], rfl, rfl⟩ ⟨[], rfl, fun h => absurd rfl h⟩
      generalize zeroSpan ip.segments 0 ⟨0, 0⟩ ⟨0, 0⟩ = zeroes at hlen hseg ha ⊢
      have htake : ip.segments.take zeroes.start = a := by
        rw [hseg, ← ha, List.append_assoc, List.take_left]
      have hdrop : ip.segments.drop (zeroes.start + zeroes.len) = b := by
        have hrun : zeroes.start + zeroes.len = (a ++ List.replicate zeroes.len 0).length := by
          rw [List.length_append, List.length_replicate, ha]
        rw [hseg, hrun, List.drop_left]
      rw [htake, hdrop]
      exact readIpv6Addr_compressed (by omega) hseg
    · exact readIpv6Addr_groups ip

/-- The text of an IPv6 address begins with a colon or a group. -/
theorem readIpv4Addr_display_v6 (ip : Ipv6Addr) : readIpv4Addr ip.display = none := by
  have hgroups : ∀ (gs : List UInt16) {rest : Str}, EndsGroups rest →
      readIpv4Addr (displayGroups gs ++ rest) = none := by
    intro gs rest hrest
    cases gs with
    | nil =>
      rcases hrest with rfl | ⟨t, rfl⟩
      · rfl
      · rfl
    | cons g gs =>
      rw [displayGroups, List.append_assoc]
      exact readIpv4Addr_group g (endsGroup_tail gs hrest)
  unfold Ipv6Addr.display
  cases ip.toIpv4Mapped with
  | some ipv4 => rfl
  | none =>
    dsimp only
    split
    · rw [List.append_assoc]
      exact hgroups _ (Or.inr ⟨_, rfl⟩)
    · rw [← List.append_nil (displayGroups ip.segments)]
      exact hgroups _ (Or.inl rfl)

/-- **An address is read back from its text.** -/
theorem parseIpAddr_display (ip : IpAddr) : parseIpAddr ip.display = some ip := by
  cases ip with
  | v4 ip =>
    exact parseIpAddr_eq_some.mpr (Or.inl ⟨ip, rfl, readIpv4Addr_display_whole ip⟩)
  | v6 ip =>
    exact parseIpAddr_eq_some.mpr
      (Or.inr ⟨ip, rfl, readIpv4Addr_display_v6 ip, readIpv6Addr_display ip⟩)

/-! ## Socket addresses -/

def SocketAddr.display (addr : SocketAddr) : Str :=
  match addr.ip with
  | .v4 ip => ip.display ++ ':' :: Nat.toDigits 10 addr.port
  | .v6 ip => '[' :: (ip.display ++ ']' :: ':' :: Nat.toDigits 10 addr.port)

theorem parsePort_toDigits {port : Nat} (h : port < 65536) :
    parsePort (Nat.toDigits 10 port) = some port := by
  have hread : readNumber 10 65536 none true (Nat.toDigits 10 port ++ []) = some (port, []) :=
    readNumber_toDigits (by decide) (by decide) h (fun k hk => absurd hk (by simp)) rfl
  rw [List.append_nil] at hread
  exact readWhole_eq_some.mpr hread

end GreenTunnel

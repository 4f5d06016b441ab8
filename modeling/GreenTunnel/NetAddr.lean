import GreenTunnel.Text

/-! # Internet addresses

IPv4 and IPv6 addresses, the predicates on them, and their textual forms as the
standard library reads them: an address is read from the front of a string, and
a string is an address when nothing is left.  Octets are decimal without leading
zeros; IPv6 groups are hexadecimal, `::` stands for at least one zero group, and
the last two groups may be written as an IPv4 address.

A reader takes characters of addresses only, which `Took` says of the string
before and after it, so a string that is an address has no other characters
(`parseIpAddr_chars`).
-/
namespace GreenTunnel

structure Ipv4Addr where
  a : UInt8
  b : UInt8
  c : UInt8
  d : UInt8
  deriving DecidableEq

structure Ipv6Addr where
  segments : List UInt16
  size : segments.length = 8
  deriving DecidableEq

inductive IpAddr where
  | v4 (addr : Ipv4Addr)
  | v6 (addr : Ipv6Addr)
  deriving DecidableEq

/-- An address and a 16-bit port. -/
structure SocketAddr where
  ip : IpAddr
  port : Nat
  deriving DecidableEq

/-- The family of the address. -/
def SocketAddr.isIpv6 (addr : SocketAddr) : Bool :=
  match addr.ip with
  | .v4 _ => false
  | .v6 _ => true

/-- `127.0.0.0/8`. -/
def Ipv4Addr.isLoopback (ip : Ipv4Addr) : Bool := ip.a == 127

/-- `0.0.0.0`. -/
def Ipv4Addr.isUnspecified (ip : Ipv4Addr) : Bool := ip == ⟨0, 0, 0, 0⟩

/-- `::1`. -/
def Ipv6Addr.isLoopback (ip : Ipv6Addr) : Bool := ip.segments == [0, 0, 0, 0, 0, 0, 0, 1]

/-- `::`. -/
def Ipv6Addr.isUnspecified (ip : Ipv6Addr) : Bool := ip.segments == [0, 0, 0, 0, 0, 0, 0, 0]

/-- The high and the low byte of a group. -/
def groupBytes (g : UInt16) : UInt8 × UInt8 :=
  (UInt8.ofNat (g.toNat / 256), UInt8.ofNat g.toNat)

/-- The IPv4 address `a.b.c.d` of an IPv4-mapped address `::ffff:a.b.c.d`. -/
def Ipv6Addr.toIpv4Mapped (ip : Ipv6Addr) : Option Ipv4Addr :=
  match ip.segments with
  | [0, 0, 0, 0, 0, 0xffff, ab, cd] =>
    some ⟨(groupBytes ab).1, (groupBytes ab).2, (groupBytes cd).1, (groupBytes cd).2⟩
  | _ => none

def IpAddr.isLoopback : IpAddr → Bool
  | .v4 ip => ip.isLoopback
  | .v6 ip => ip.isLoopback

def IpAddr.isUnspecified : IpAddr → Bool
  | .v4 ip => ip.isUnspecified
  | .v6 ip => ip.isUnspecified

/-! ## Reading addresses -/

/-- The value of a digit in a base up to 16. -/
def toDigit (radix : Nat) (c : Char) : Option Nat :=
  let v :=
    if c.isDigit then some (c.toNat - 48)
    else if 'a' ≤ c ∧ c ≤ 'f' then some (c.toNat - 87)
    else if 'A' ≤ c ∧ c ≤ 'F' then some (c.toNat - 55)
    else none
  v.filter (· < radix)

/-- The digits at the front of a string, and the rest. -/
def readDigits (radix : Nat) : Str → List Nat × Str
  | [] => ([], [])
  | c :: cs =>
    match toDigit radix c with
    | some v => (v :: (readDigits radix cs).1, (readDigits radix cs).2)
    | none => ([], c :: cs)

/-- A number below `bound` of at most `maxDigits` digits. -/
def readNumber (radix bound : Nat) (maxDigits : Option Nat) (allowZeroPrefix : Bool) (s : Str) :
    Option (Nat × Str) :=
  let (digits, rest) := readDigits radix s
  let value := digits.foldl (fun n v => n * radix + v) 0
  if digits = [] ∨ maxDigits.any (· < digits.length) then none
  else if !allowZeroPrefix ∧ s.head? = some '0' ∧ 1 < digits.length then none
  else if value < bound then some (value, rest)
  else none

/-- The character `c`. -/
def readGivenChar (c : Char) : Str → Option Str
  | [] => none
  | d :: cs => if d = c then some cs else none

/-- An item of a sequence, after the separator unless it is the first. -/
def readSeparator {α : Type} (sep : Char) (index : Nat) (inner : Str → Option (α × Str)) (s : Str) :
    Option (α × Str) :=
  if index > 0 then (readGivenChar sep s).bind inner else inner s

def readIpv4Addr (s : Str) : Option (Ipv4Addr × Str) := do
  let octet := readNumber 10 256 (some 3) false
  let (a, s) ← readSeparator '.' 0 octet s
  let (b, s) ← readSeparator '.' 1 octet s
  let (c, s) ← readSeparator '.' 2 octet s
  let (d, s) ← readSeparator '.' 3 octet s
  some (⟨UInt8.ofNat a, UInt8.ofNat b, UInt8.ofNat c, UInt8.ofNat d⟩, s)

/-- Up to `left` groups from index `i` on, whether they end in an IPv4 address,
and the rest. -/
def readGroups : Nat → Nat → Str → List UInt16 × Bool × Str
  | 0, _, s => ([], false, s)
  | left + 1, i, s =>
    -- an IPv4 address takes two groups
    match if left ≥ 1 then readSeparator ':' i readIpv4Addr s else none with
    | some (v4, s) =>
      ([UInt16.ofNat (be16 v4.a v4.b), UInt16.ofNat (be16 v4.c v4.d)], true, s)
    | none =>
      match readSeparator ':' i (readNumber 16 65536 (some 4) true) s with
      | some (g, s) =>
        let r := readGroups left (i + 1) s
        (UInt16.ofNat g :: r.1, r.2)
      | none => ([], false, s)

theorem readGroups_length (left i : Nat) (s : Str) : (readGroups left i s).1.length ≤ left := by
  induction left generalizing i s with
  | zero => exact Nat.le_refl 0
  | succ left ih =>
    unfold readGroups
    split
    · rename_i h
      split at h
      · exact Nat.succ_le_succ (by assumption)
      · cases h
    · split
      · exact Nat.succ_le_succ (ih _ _)
      · exact Nat.zero_le _

def readIpv6Addr (s : Str) : Option (Ipv6Addr × Str) :=
  let head := readGroups 8 0 s
  if h : head.1.length = 8 then some (⟨head.1, h⟩, head.2.2)
  else if head.2.1 then none
  else do
    let s ← readGivenChar ':' head.2.2
    let s ← readGivenChar ':' s
    let tail := readGroups (8 - (head.1.length + 1)) 0 s
    some (⟨head.1 ++ List.replicate (8 - head.1.length - tail.1.length) 0 ++ tail.1, by
      have hh : head.1.length ≤ 8 := readGroups_length 8 0 _
      have ht : tail.1.length ≤ 8 - (head.1.length + 1) := readGroups_length _ 0 _
      rw [List.length_append, List.length_append, List.length_replicate]
      omega⟩, tail.2.2)

/-- A reader that must leave nothing. -/
def readWhole {α : Type} (r : Option (α × Str)) : Option α :=
  r.bind fun p => if p.2 = [] then some p.1 else none

/-- A string as an address. -/
def parseIpAddr (s : Str) : Option IpAddr :=
  readWhole ((readIpv4Addr s).map (fun p => (.v4 p.1, p.2)) <|>
    (readIpv6Addr s).map (fun p => (.v6 p.1, p.2)))

/-- A string as an IPv6 address. -/
def parseIpv6Addr (s : Str) : Option Ipv6Addr := readWhole (readIpv6Addr s)

/-- `:` and a port. -/
def readPort (s : Str) : Option (Nat × Str) := do
  let s ← readGivenChar ':' s
  readNumber 10 65536 none true s

/-- A scope identifier in front of the closing bracket, which is read over. -/
def skipScopeId (s : Str) : Str :=
  match (readGivenChar '%' s).bind (readNumber 10 4294967296 none true) with
  | some (_, s) => s
  | none => s

def readSocketAddrV4 (s : Str) : Option (SocketAddr × Str) := do
  let (ip, s) ← readIpv4Addr s
  let (port, s) ← readPort s
  some (⟨.v4 ip, port⟩, s)

def readSocketAddrV6 (s : Str) : Option (SocketAddr × Str) := do
  let s ← readGivenChar '[' s
  let (ip, s) ← readIpv6Addr s
  let s ← readGivenChar ']' (skipScopeId s)
  let (port, s) ← readPort s
  some (⟨.v6 ip, port⟩, s)

/-- A string as an address and a port. -/
def parseSocketAddr (s : Str) : Option SocketAddr :=
  readWhole (readSocketAddrV4 s <|> readSocketAddrV6 s)

/-! ## The characters of an address -/

/-- A digit, a letter of the hexadecimal digits, `.` or `:`. -/
def isAddrChar (c : Char) : Bool := (toDigit 16 c).isSome || c == '.' || c == ':'

theorem isAddrChar_ascii {c : Char} (h : isAddrChar c = true) : c.toNat < 128 := by
  rw [isAddrChar, Bool.or_eq_true, Bool.or_eq_true, beq_iff_eq, beq_iff_eq] at h
  rcases h with (h | rfl) | rfl
  · obtain ⟨v, hv⟩ := Option.isSome_iff_exists.mp h
    obtain ⟨hv, -⟩ := Option.filter_eq_some_iff.mp hv
    split at hv
    · rename_i hc
      exact Nat.lt_of_le_of_lt (Char.isDigit_iff_toNat.mp hc).2 (by decide)
    · split at hv
      · rename_i hc
        exact Nat.lt_of_le_of_lt (Char.le_def.mp hc.2) (by decide)
      · split at hv
        · rename_i hc
          exact Nat.lt_of_le_of_lt (Char.le_def.mp hc.2) (by decide)
        · cases hv
  · decide
  · decide

/-- Only characters of addresses were taken from the front of `s`, and left `rest`. -/
def Took (s rest : Str) : Prop := ∃ p, s = p ++ rest ∧ ∀ c ∈ p, isAddrChar c = true

theorem Took.refl (s : Str) : Took s s := ⟨[], rfl, fun _ hc => absurd hc List.not_mem_nil⟩

theorem Took.trans {s t u : Str} : Took s t → Took t u → Took s u := by
  rintro ⟨p, rfl, hp⟩ ⟨q, rfl, hq⟩
  refine ⟨p ++ q, (List.append_assoc p q u).symm, fun c hc => ?_⟩
  rcases List.mem_append.mp hc with h | h
  · exact hp c h
  · exact hq c h

theorem Took.cons {c : Char} (h : isAddrChar c = true) (s : Str) : Took (c :: s) s :=
  ⟨[c], rfl, fun d hd => by rwa [List.mem_singleton.mp hd]⟩

/-- A digit in a smaller base is one in base 16. -/
theorem toDigit_hex {radix v : Nat} {c : Char} (hr : radix ≤ 16) (h : toDigit radix c = some v) :
    toDigit 16 c = some v := by
  unfold toDigit at h ⊢
  obtain ⟨hv, hlt⟩ := Option.filter_eq_some_iff.mp h
  refine Option.filter_eq_some_iff.mpr ⟨hv, ?_⟩
  simp only [decide_eq_true_eq] at hlt ⊢
  omega

theorem isAddrChar_of_toDigit {radix v : Nat} {c : Char} (hr : radix ≤ 16)
    (h : toDigit radix c = some v) : isAddrChar c = true := by
  rw [isAddrChar, toDigit_hex hr h]
  rfl

theorem took_readDigits {radix : Nat} (hr : radix ≤ 16) (s : Str) :
    Took s (readDigits radix s).2 := by
  induction s with
  | nil => exact Took.refl []
  | cons c s ih =>
    unfold readDigits
    cases hd : toDigit radix c with
    | none => exact Took.refl _
    | some v => exact (Took.cons (isAddrChar_of_toDigit hr hd) s).trans ih

theorem took_readNumber {radix bound v : Nat} {maxDigits : Option Nat} {zero : Bool} {s rest : Str}
    (hr : radix ≤ 16) (h : readNumber radix bound maxDigits zero s = some (v, rest)) :
    Took s rest := by
  unfold readNumber at h
  simp only at h
  split at h
  · cases h
  · split at h
    · cases h
    · split at h
      · cases h
        exact took_readDigits hr s
      · cases h

theorem took_readGivenChar {c : Char} {s rest : Str} (hc : isAddrChar c = true)
    (h : readGivenChar c s = some rest) : Took s rest := by
  cases s with
  | nil => cases h
  | cons d s =>
    by_cases hd : d = c
    · rw [readGivenChar, if_pos hd, Option.some.injEq] at h
      rw [hd, h]
      exact Took.cons hc rest
    · rw [readGivenChar, if_neg hd] at h
      cases h

theorem took_readSeparator {α : Type} {sep : Char} {index : Nat} {inner : Str → Option (α × Str)}
    {s rest : Str} {v : α} (hsep : isAddrChar sep = true)
    (hinner : ∀ {s v rest}, inner s = some (v, rest) → Took s rest)
    (h : readSeparator sep index inner s = some (v, rest)) : Took s rest := by
  unfold readSeparator at h
  split at h
  · obtain ⟨t, ht, hrest⟩ := Option.bind_eq_some_iff.mp h
    exact (took_readGivenChar hsep ht).trans (hinner hrest)
  · exact hinner h

theorem took_readIpv4Addr {s rest : Str} {ip : Ipv4Addr} (h : readIpv4Addr s = some (ip, rest)) :
    Took s rest := by
  have octet : ∀ {i : Nat} {s rest : Str} {v : Nat},
      readSeparator '.' i (readNumber 10 256 (some 3) false) s = some (v, rest) → Took s rest :=
    took_readSeparator (by decide) (took_readNumber (by decide))
  simp only [readIpv4Addr, Option.bind_eq_bind, Option.bind_eq_some_iff, Option.some.injEq,
    Prod.mk.injEq] at h
  obtain ⟨⟨a, s₁⟩, h₁, ⟨b, s₂⟩, h₂, ⟨c, s₃⟩, h₃, ⟨d, s₄⟩, h₄, -, rfl⟩ := h
  exact (octet h₁).trans ((octet h₂).trans ((octet h₃).trans (octet h₄)))

theorem took_readGroups (left i : Nat) (s : Str) : Took s (readGroups left i s).2.2 := by
  induction left generalizing i s with
  | zero => exact Took.refl s
  | succ left ih =>
    unfold readGroups
    split
    · rename_i v4 t h
      split at h
      · exact took_readSeparator (by decide) took_readIpv4Addr h
      · cases h
    · split
      · rename_i g t h
        exact (took_readSeparator (by decide) (took_readNumber (by decide)) h).trans (ih _ t)
      · exact Took.refl s

theorem took_readIpv6Addr {s rest : Str} {ip : Ipv6Addr} (h : readIpv6Addr s = some (ip, rest)) :
    Took s rest := by
  unfold readIpv6Addr at h
  have hhead := took_readGroups 8 0 s
  simp only at h
  split at h
  · cases h
    exact hhead
  · split at h
    · cases h
    · simp only [Option.bind_eq_bind, Option.bind_eq_some_iff, Option.some.injEq,
        Prod.mk.injEq] at h
      obtain ⟨t, ht, u, hu, -, rfl⟩ := h
      exact hhead.trans ((took_readGivenChar (by decide) ht).trans
        ((took_readGivenChar (by decide) hu).trans (took_readGroups _ 0 u)))

theorem readWhole_eq_some {α : Type} {r : Option (α × Str)} {v : α} :
    readWhole r = some v ↔ r = some (v, []) := by
  constructor
  · intro h
    obtain ⟨⟨w, rest⟩, hr, h⟩ := Option.bind_eq_some_iff.mp h
    dsimp only at h
    split at h
    · rename_i hrest
      cases h
      rw [hr, show rest = [] from hrest]
    · cases h
  · rintro rfl
    rfl

theorem Took.all {s : Str} (h : Took s []) : ∀ c ∈ s, isAddrChar c = true := by
  obtain ⟨p, rfl, hp⟩ := h
  rwa [List.append_nil]

/-- **A string is an address** when it is an IPv4 address and nothing more, or
begins with none and is an IPv6 address. -/
theorem parseIpAddr_eq_some {s : Str} {ip : IpAddr} :
    parseIpAddr s = some ip ↔
      (∃ v4, ip = .v4 v4 ∧ readIpv4Addr s = some (v4, [])) ∨
        ∃ v6, ip = .v6 v6 ∧ readIpv4Addr s = none ∧ readIpv6Addr s = some (v6, []) := by
  rw [parseIpAddr, readWhole_eq_some]
  cases readIpv4Addr s with
  | some p =>
    obtain ⟨v4, rest⟩ := p
    constructor
    · intro h
      cases h
      exact Or.inl ⟨v4, rfl, rfl⟩
    · rintro (⟨v4, rfl, h⟩ | ⟨v6, -, h, -⟩)
      · cases h
        rfl
      · cases h
  | none =>
    constructor
    · intro h
      obtain ⟨⟨v6, rest⟩, hp, heq⟩ := Option.map_eq_some_iff.mp h
      cases heq
      exact Or.inr ⟨v6, rfl, rfl, hp⟩
    · rintro (⟨v4, -, h⟩ | ⟨v6, rfl, -, h⟩)
      · cases h
      · exact Option.map_eq_some_iff.mpr ⟨(v6, []), h, rfl⟩

/-- **A string that is an address** has characters of addresses only. -/
theorem parseIpAddr_chars {s : Str} {ip : IpAddr} (h : parseIpAddr s = some ip) :
    ∀ c ∈ s, isAddrChar c = true := by
  rcases parseIpAddr_eq_some.mp h with ⟨v4, -, hread⟩ | ⟨v6, -, -, hread⟩
  · exact (took_readIpv4Addr hread).all
  · exact (took_readIpv6Addr hread).all

/-! ## IPv6 addresses have colons -/

theorem readGivenChar_eq_none {c : Char} {s : Str} (h : c ∉ s) : readGivenChar c s = none := by
  cases s with
  | nil => rfl
  | cons d s =>
    have hd : d ≠ c := fun heq => h (heq ▸ List.mem_cons_self)
    rw [readGivenChar, if_neg hd]

theorem Took.notMem {c : Char} {s rest : Str} (ht : Took s rest) (h : c ∉ s) : c ∉ rest := by
  obtain ⟨p, rfl, -⟩ := ht
  exact fun hc => h (List.mem_append_right p hc)

/-- Without a colon the groups end after the first number or IPv4 address. -/
theorem readGroups_no_colon {left : Nat} {s : Str} (h : ':' ∉ s) :
    (readGroups left 0 s).1.length ≤ 2 := by
  have hnone : ∀ {α : Type} (inner : Str → Option (α × Str)) (i : Nat) (t : Str), ':' ∉ t →
      readSeparator ':' (i + 1) inner t = none := by
    intro α inner i t ht
    rw [readSeparator, if_pos (Nat.succ_pos i), readGivenChar_eq_none ht, Option.bind_none]
  cases left with
  | zero => exact Nat.zero_le 2
  | succ left =>
    unfold readGroups
    split
    · exact Nat.le_refl 2
    · split
      · rename_i g t hread
        have ht : ':' ∉ t :=
          (took_readSeparator (by decide) (took_readNumber (by decide)) hread).notMem h
        have hstop : (readGroups left (0 + 1) t).1 = [] := by
          cases left with
          | zero => rfl
          | succ left =>
            unfold readGroups
            rw [hnone _ 0 t ht, hnone _ 0 t ht, ite_self]
        simp only [hstop]
        exact Nat.le_succ 1
      · exact Nat.zero_le 2

theorem readIpv6Addr_no_colon {s : Str} (h : ':' ∉ s) : readIpv6Addr s = none := by
  have hlen := @readGroups_no_colon 8 s h
  have hrest : ':' ∉ (readGroups 8 0 s).2.2 := (took_readGroups 8 0 s).notMem h
  unfold readIpv6Addr
  dsimp only
  rw [dif_neg (by omega), readGivenChar_eq_none hrest]
  exact ite_self _

/-- An IPv6 address has characters of addresses, a colon among them. -/
theorem parseIpv6Addr_chars {s : Str} {ip : Ipv6Addr} (h : parseIpv6Addr s = some ip) :
    (∀ c ∈ s, isAddrChar c = true) ∧ ':' ∈ s := by
  have hread := readWhole_eq_some.mp h
  refine ⟨(took_readIpv6Addr hread).all, Classical.byContradiction fun hc => ?_⟩
  rw [readIpv6Addr_no_colon hc] at hread
  cases hread

/-- **A string without a colon** is no IPv6 address. -/
theorem parseIpAddr_no_colon {s : Str} {ip : IpAddr} (h : ':' ∉ s) (hip : parseIpAddr s = some ip) :
    ∃ v4, ip = .v4 v4 := by
  rcases parseIpAddr_eq_some.mp hip with ⟨v4, heq, -⟩ | ⟨v6, -, -, hread⟩
  · exact ⟨v4, heq⟩
  · rw [readIpv6Addr_no_colon h] at hread
    cases hread

end GreenTunnel

import GreenTunnel.NetAddr

/-! # Addresses in texts

A reader of an address stops at a character that no address goes on with, and
what follows that character does not matter (`StopsAt`).  So an address is read
in front of a port or a bracket as it is read alone, and a socket address is an
address and a port (`parseSocketAddr_v4`, `parseSocketAddr_v6`).
-/
namespace GreenTunnel

/-! ## Where a reader stops -/

/-- `r` takes no more than it would take without `c` and what follows it. -/
def StopsAt {α : Type} (c : Char) (r : Str → Option (α × Str)) : Prop :=
  ∀ s rest, r (s ++ c :: rest) = (r s).map fun p => (p.1, p.2 ++ c :: rest)

section
variable {α β : Type} {c d : Char}

theorem StopsAt.pure (v : α) : StopsAt c fun s => some (v, s) := fun _ _ => rfl

/-- One reader after another. -/
theorem StopsAt.bind {r : Str → Option (α × Str)} {f : α → Str → Option (β × Str)}
    (hr : StopsAt c r) (hf : ∀ a, StopsAt c (f a)) :
    StopsAt c fun s => (r s).bind fun p => f p.1 p.2 := by
  intro s rest
  dsimp only
  rw [hr s rest]
  cases r s with
  | none => rfl
  | some p => exact hf p.1 p.2 rest

theorem readGivenChar_eq_some {s t : Str} : readGivenChar c s = some t ↔ s = c :: t := by
  cases s with
  | nil => simp [readGivenChar]
  | cons d s =>
    by_cases hd : d = c
    · simp [readGivenChar, hd]
    · simp [readGivenChar, hd]

theorem readGivenChar_append (h : c ≠ d) (s rest : Str) :
    readGivenChar d (s ++ c :: rest) = (readGivenChar d s).map (· ++ c :: rest) := by
  cases s with
  | nil => exact if_neg h
  | cons e s =>
    rw [List.cons_append, readGivenChar, readGivenChar]
    by_cases he : e = d
    · rw [if_pos he, if_pos he, Option.map_some]
    · rw [if_neg he, if_neg he, Option.map_none]

theorem readDigits_append {radix : Nat} (h : toDigit radix c = none) (s rest : Str) :
    readDigits radix (s ++ c :: rest) =
      ((readDigits radix s).1, (readDigits radix s).2 ++ c :: rest) := by
  induction s with
  | nil =>
    simp only [List.nil_append, readDigits, h]
  | cons d s ih =>
    rw [List.cons_append, readDigits, readDigits, ih]
    cases toDigit radix d with
    | none => rfl
    | some v => rfl

theorem readNumber_stopsAt {radix bound : Nat} {maxDigits : Option Nat} {zero : Bool}
    (h : toDigit radix c = none) : StopsAt c (readNumber radix bound maxDigits zero) := by
  intro s rest
  unfold readNumber
  rw [readDigits_append h]
  dsimp only
  by_cases hnone : (readDigits radix s).1 = [] ∨
      maxDigits.any (· < (readDigits radix s).1.length) = true
  · rw [if_pos hnone, if_pos hnone, Option.map_none]
  · have hhead : (s ++ c :: rest).head? = s.head? := by
      cases s with
      | nil => exact absurd (Or.inl rfl) hnone
      | cons d s => rfl
    rw [if_neg hnone, if_neg hnone, hhead]
    split
    · rfl
    · split
      · rfl
      · rfl

theorem readSeparator_stopsAt {sep : Char} {index : Nat} {inner : Str → Option (α × Str)}
    (hsep : c ≠ sep) (h : StopsAt c inner) : StopsAt c (readSeparator sep index inner) := by
  intro s rest
  unfold readSeparator
  by_cases hi : index > 0
  · rw [if_pos hi, if_pos hi, readGivenChar_append hsep]
    cases readGivenChar sep s with
    | none => rfl
    | some t => exact h t rest
  · rw [if_neg hi, if_neg hi]
    exact h s rest

theorem toDigit_eq_none {radix : Nat} (hr : radix ≤ 16) (h : toDigit 16 c = none) :
    toDigit radix c = none := by
  cases hc : toDigit radix c with
  | none => rfl
  | some v => exact absurd (toDigit_hex hr hc) (by simp [h])

theorem readIpv4Addr_stopsAt (h : toDigit 16 c = none) (hdot : c ≠ '.') :
    StopsAt c readIpv4Addr := by
  have octet : ∀ i, StopsAt c (readSeparator '.' i (readNumber 10 256 (some 3) false)) := fun i =>
    readSeparator_stopsAt hdot (readNumber_stopsAt (toDigit_eq_none (by decide) h))
  exact (octet 0).bind fun w => (octet 1).bind fun x => (octet 2).bind fun y =>
    (octet 3).bind fun z =>
      StopsAt.pure (⟨UInt8.ofNat w, UInt8.ofNat x, UInt8.ofNat y, UInt8.ofNat z⟩ : Ipv4Addr)

theorem toDigit_of_not_isAddrChar (h : isAddrChar c = false) : toDigit 16 c = none := by
  cases hc : toDigit 16 c with
  | none => rfl
  | some v =>
    rw [isAddrChar_of_toDigit (Nat.le_refl 16) hc] at h
    cases h

theorem readGroups_append (h : isAddrChar c = false) (left i : Nat) (s rest : Str) :
    readGroups left i (s ++ c :: rest) =
      ((readGroups left i s).1, (readGroups left i s).2.1,
        (readGroups left i s).2.2 ++ c :: rest) := by
  have hdigit := toDigit_of_not_isAddrChar h
  have hcolon : c ≠ ':' := by
    rintro rfl
    cases h
  have hdot : c ≠ '.' := by
    rintro rfl
    cases h
  have hv4 : ∀ i, StopsAt c (readSeparator ':' i readIpv4Addr) := fun i =>
    readSeparator_stopsAt hcolon (readIpv4Addr_stopsAt hdigit hdot)
  have hgroup : ∀ i, StopsAt c (readSeparator ':' i (readNumber 16 65536 (some 4) true)) := fun i =>
    readSeparator_stopsAt hcolon (readNumber_stopsAt hdigit)
  induction left generalizing i s with
  | zero => rfl
  | succ left ih =>
    have hlast : (if left ≥ 1 then readSeparator ':' i readIpv4Addr (s ++ c :: rest) else none) =
        (if left ≥ 1 then readSeparator ':' i readIpv4Addr s else none).map
          fun p => (p.1, p.2 ++ c :: rest) := by
      by_cases hleft : left ≥ 1
      · rw [if_pos hleft, if_pos hleft, hv4 i s rest]
      · rw [if_neg hleft, if_neg hleft, Option.map_none]
    unfold readGroups
    rw [hlast, hgroup i s rest]
    cases (if left ≥ 1 then readSeparator ':' i readIpv4Addr s else none) with
    | some p => rfl
    | none =>
      cases readSeparator ':' i (readNumber 16 65536 (some 4) true) s with
      | none => rfl
      | some p => simp only [Option.map_some, Option.map_none, ih]

/-- **What is read as an IPv6 address**: eight groups, or fewer around a `::`. -/
theorem readIpv6Addr_eq_some {s rest : Str} {ip : Ipv6Addr} :
    readIpv6Addr s = some (ip, rest) ↔
      (readGroups 8 0 s).1.length = 8 ∧ ip.segments = (readGroups 8 0 s).1 ∧
          rest = (readGroups 8 0 s).2.2 ∨
        (readGroups 8 0 s).1.length ≠ 8 ∧ (readGroups 8 0 s).2.1 = false ∧
          ∃ t, (readGroups 8 0 s).2.2 = ':' :: ':' :: t ∧
            ip.segments = (readGroups 8 0 s).1 ++
              List.replicate (8 - (readGroups 8 0 s).1.length -
                (readGroups (8 - ((readGroups 8 0 s).1.length + 1)) 0 t).1.length) 0 ++
              (readGroups (8 - ((readGroups 8 0 s).1.length + 1)) 0 t).1 ∧
            rest = (readGroups (8 - ((readGroups 8 0 s).1.length + 1)) 0 t).2.2 := by
  obtain ⟨segments, size⟩ := ip
  unfold readIpv6Addr
  dsimp only
  by_cases h8 : (readGroups 8 0 s).1.length = 8
  · rw [dif_pos h8]
    constructor
    · intro h
      cases h
      exact Or.inl ⟨h8, rfl, rfl⟩
    · rintro (⟨-, rfl, rfl⟩ | ⟨hne, -⟩)
      · rfl
      · exact absurd h8 hne
  · rw [dif_neg h8]
    cases (readGroups 8 0 s).2.1 with
    | true =>
      constructor
      · intro h
        cases h
      · rintro (⟨heq, -⟩ | ⟨-, hv4, -⟩)
        · exact absurd heq h8
        · cases hv4
    | false =>
      constructor
      · intro h
        obtain ⟨u, hu, h⟩ := Option.bind_eq_some_iff.mp h
        obtain ⟨t, ht, h⟩ := Option.bind_eq_some_iff.mp h
        cases h
        refine Or.inr ⟨h8, rfl, t, ?_, rfl, rfl⟩
        rw [readGivenChar_eq_some.mp hu, readGivenChar_eq_some.mp ht]
      · rintro (⟨heq, -⟩ | ⟨-, -, t, ht, rfl, rfl⟩)
        · exact absurd heq h8
        · refine Option.bind_eq_some_iff.mpr ⟨':' :: t, readGivenChar_eq_some.mpr ht, ?_⟩
          exact Option.bind_eq_some_iff.mpr ⟨t, readGivenChar_eq_some.mpr rfl, rfl⟩

/-- An IPv6 address is read in front of a character of no address. -/
theorem readIpv6Addr_append (h : isAddrChar c = false) {s : Str} {ip : Ipv6Addr}
    (hs : readIpv6Addr s = some (ip, [])) (rest : Str) :
    readIpv6Addr (s ++ c :: rest) = some (ip, c :: rest) := by
  rw [readIpv6Addr_eq_some, readGroups_append h]
  rcases readIpv6Addr_eq_some.mp hs with ⟨h8, hseg, hnil⟩ | ⟨h8, hv4, t, ht, hseg, hnil⟩
  · exact Or.inl ⟨h8, hseg, by rw [← hnil, List.nil_append]⟩
  · refine Or.inr ⟨h8, hv4, t ++ c :: rest, ?_, ?_, ?_⟩
    · rw [ht, List.cons_append, List.cons_append]
    · rw [readGroups_append h]
      exact hseg
    · rw [readGroups_append h, ← hnil, List.nil_append]

/-- What is read up to a character of no address is read without it. -/
theorem readIpv6Addr_of_append (h : isAddrChar c = false) {s rest : Str} {ip : Ipv6Addr}
    (hs : readIpv6Addr (s ++ c :: rest) = some (ip, c :: rest)) :
    readIpv6Addr s = some (ip, []) := by
  have hcolon : c ≠ ':' := by
    rintro rfl
    cases h
  rw [readIpv6Addr_eq_some, readGroups_append h] at hs
  rcases hs with ⟨h8, hseg, hrest⟩ | ⟨h8, hv4, t, ht, hseg, hrest⟩
  · exact readIpv6Addr_eq_some.mpr (Or.inl ⟨h8, hseg, (List.append_left_eq_self.mp hrest.symm).symm⟩)
  · -- the two colons stand in front of the character
    obtain ⟨t', htail, rfl⟩ : ∃ t', (readGroups 8 0 s).2.2 = ':' :: ':' :: t' ∧
        t = t' ++ c :: rest := by
      rcases hgroups : (readGroups 8 0 s).2.2 with _ | ⟨x, _ | ⟨y, t'⟩⟩
      · rw [hgroups] at ht
        exact absurd (List.cons.inj ht).1 hcolon
      · rw [hgroups] at ht
        exact absurd (List.cons.inj (List.cons.inj ht).2).1 hcolon
      · rw [hgroups, List.cons_append, List.cons_append, List.cons.injEq, List.cons.injEq] at ht
        obtain ⟨rfl, rfl, ht⟩ := ht
        exact ⟨t', rfl, ht.symm⟩
    rw [readGroups_append h] at hseg hrest
    exact readIpv6Addr_eq_some.mpr
      (Or.inr ⟨h8, hv4, t', htail, hseg, (List.append_left_eq_self.mp hrest.symm).symm⟩)

end

/-! ## Socket addresses -/

/-- A string as a port. -/
def parsePort (s : Str) : Option Nat := readWhole (readNumber 10 65536 none true s)

theorem readPort_eq {digits : Str} {port : Nat} (h : parsePort digits = some port) :
    readPort (':' :: digits) = some (port, []) := by
  rw [readPort, readGivenChar_eq_some.mpr rfl]
  exact readWhole_eq_some.mp h

section
variable {t digits : Str} {port : Nat}

theorem parseIpAddr_eq_v4 {ip : Ipv4Addr} :
    parseIpAddr t = some (.v4 ip) ↔ readIpv4Addr t = some (ip, []) := by
  rw [parseIpAddr_eq_some]
  constructor
  · rintro (⟨v4, heq, h⟩ | ⟨v6, heq, -⟩)
    · cases heq
      exact h
    · cases heq
  · intro h
    exact Or.inl ⟨ip, rfl, h⟩

theorem parseIpAddr_eq_v6 {ip : Ipv6Addr} :
    parseIpAddr t = some (.v6 ip) ↔ readIpv4Addr t = none ∧ readIpv6Addr t = some (ip, []) := by
  rw [parseIpAddr_eq_some]
  constructor
  · rintro (⟨v4, heq, -⟩ | ⟨v6, heq, h⟩)
    · cases heq
    · cases heq
      exact h
  · intro h
    exact Or.inr ⟨ip, rfl, h⟩

/-- An IPv4 address, a colon and a port. -/
theorem parseSocketAddr_v4 {ip : Ipv4Addr} (ht : parseIpAddr t = some (.v4 ip))
    (hport : parsePort digits = some port) :
    parseSocketAddr (t ++ ':' :: digits) = some ⟨.v4 ip, port⟩ := by
  have hip : readIpv4Addr (t ++ ':' :: digits) = some (ip, ':' :: digits) := by
    rw [readIpv4Addr_stopsAt rfl (by decide), parseIpAddr_eq_v4.mp ht]
    rfl
  rw [parseSocketAddr, readSocketAddrV4, hip, readWhole_eq_some]
  simp only [Option.bind_eq_bind, Option.bind_some, readPort_eq hport]
  rfl

/-- An IPv6 address in brackets, a colon and a port. -/
theorem parseSocketAddr_v6 {ip : Ipv6Addr} (ht : parseIpAddr t = some (.v6 ip))
    (hport : parsePort digits = some port) :
    parseSocketAddr ('[' :: (t ++ ']' :: ':' :: digits)) = some ⟨.v6 ip, port⟩ := by
  have hip : readIpv6Addr (t ++ ']' :: ':' :: digits) = some (ip, ']' :: ':' :: digits) :=
    readIpv6Addr_append rfl (parseIpAddr_eq_v6.mp ht).2 _
  have hv4 : readSocketAddrV4 ('[' :: (t ++ ']' :: ':' :: digits)) = none := rfl
  have hscope : skipScopeId (']' :: ':' :: digits) = ']' :: ':' :: digits := rfl
  rw [parseSocketAddr, hv4, readSocketAddrV6, readGivenChar_eq_some.mpr rfl, readWhole_eq_some]
  simp only [Option.bind_eq_bind, Option.bind_some, hip, hscope,
    readGivenChar_eq_some.mpr rfl, readPort_eq hport]
  rfl

/-- An address is not a socket address. -/
theorem parseSocketAddr_address {ip : IpAddr} (ht : parseIpAddr t = some ip) :
    parseSocketAddr t = none := by
  have hbracket : readSocketAddrV6 t = none := by
    have hno : '[' ∉ t := fun h => absurd (parseIpAddr_chars ht _ h) (by decide)
    rw [readSocketAddrV6, readGivenChar_eq_none hno]
    rfl
  have hport : readSocketAddrV4 t = none := by
    rcases parseIpAddr_eq_some.mp ht with ⟨v4, -, h⟩ | ⟨v6, -, h, -⟩
    · rw [readSocketAddrV4, h]
      rfl
    · rw [readSocketAddrV4, h]
      rfl
  rw [parseSocketAddr, hport, hbracket]
  rfl

end

end GreenTunnel

import GreenTunnel.ClientHello

/-! # Which names the parser accepts (`tls/parser.rs`)

A name is nested when it lies in the body of the extension it was read from, that body
in the block of extensions, and its entry is a host name.  The parser takes the first
extension that names the server and reads the length of the name there; it compares it
with the end of the data, and with neither the length of the extension nor that of the
block, and it does not read the type of the name.  So what it accepts is nested exactly
for the data in which these fields agree anyhow (`accepts_only_nested_iff`).
-/
namespace GreenTunnel

/-- The name lies in the body of a server_name extension, the body in the block of
extensions, and the name is a host name. -/
def ProperlyNested (data : Bytes) (info : SniInfo) : Prop :=
  ∃ start stop pos extLen, ExtensionBlock data start stop ∧
    start ≤ pos ∧ pos + 4 + extLen ≤ stop ∧
    be16At data pos = some sniExtensionType ∧ be16At data (pos + 2) = some extLen ∧
    info.hostnameOffset = pos + 9 ∧ pos + 9 + info.hostnameLength ≤ pos + 4 + extLen ∧
    data[pos + 6]? = some 0

def AcceptsOnlyNested (data : Bytes) : Prop :=
  ∀ info, findSniInfo data = .ok (some info) → ProperlyNested data info

/-- Walking the extensions from a position leads to the first that names the server. -/
inductive ServerNameAt (data : Bytes) (stop : Nat) : Nat → Nat → Prop where
  | here {pos : Nat} :
      pos + 4 ≤ stop →
      be16At data pos = some sniExtensionType →
      ServerNameAt data stop pos pos
  | behind {pos extType extLen first : Nat} :
      pos + 4 ≤ stop →
      be16At data pos = some extType →
      extType ≠ sniExtensionType →
      be16At data (pos + 2) = some extLen →
      ServerNameAt data stop (pos + 4 + extLen) first →
      ServerNameAt data stop pos first

/-- The lengths that the parser does not compare agree, and so does the type that it
does not read: where the first server_name extension of the block has a name that the
data have room for, the extension has room for it too, and the block for the extension. -/
def FieldsAgree (data : Bytes) : Prop :=
  ∀ start stop pos extLen len, ExtensionBlock data start stop →
    ServerNameAt data stop start pos →
    be16At data (pos + 2) = some extLen → be16At data (pos + 7) = some len →
    pos + 9 + len ≤ data.length →
      5 + len ≤ extLen ∧ pos + 4 + extLen ≤ stop ∧ data[pos + 6]? = some 0

theorem ServerNameAt.le {data : Bytes} {stop pos first : Nat}
    (h : ServerNameAt data stop pos first) : pos ≤ first := by
  induction h with
  | here => exact Nat.le_refl _
  | behind _ _ _ _ _ ih => omega

theorem ServerNameAt.extType {data : Bytes} {stop pos first : Nat}
    (h : ServerNameAt data stop pos first) : be16At data first = some sniExtensionType := by
  induction h with
  | here _ ht => exact ht
  | behind _ _ _ _ _ ih => exact ih

/-- **The walk to a name** goes to the first server_name extension and reads the length
of the name there. -/
theorem sniAt_iff_first {data : Bytes} {stop pos : Nat} {info : SniInfo} :
    SniAt data stop pos info ↔ ∃ first extLen len, ServerNameAt data stop pos first ∧
      be16At data (first + 2) = some extLen ∧ be16At data (first + 7) = some len ∧
      first + 9 + len ≤ data.length ∧ info = ⟨first + 9, len⟩ := by
  constructor
  · intro h
    induction h with
    | found hs ht hl hlen hle => exact ⟨_, _, _, .here hs ht, hl, hlen, hle, rfl⟩
    | skip hs ht hne hl _ ih =>
      obtain ⟨first, extLen, len, hfirst, hrest⟩ := ih
      exact ⟨first, extLen, len, .behind hs ht hne hl hfirst, hrest⟩
  · rintro ⟨first, extLen, len, hfirst, hl, hlen, hle, rfl⟩
    induction hfirst with
    | here hs ht => exact .found hs ht hl hlen hle
    | behind hs ht hne hl' _ ih => exact .skip hs ht hne hl' (ih hl hlen hle)

/-- **When the parser accepts only nested names**: when the fields it does not check
agree with the one it reads. -/
theorem accepts_only_nested_iff (data : Bytes) : AcceptsOnlyNested data ↔ FieldsAgree data := by
  constructor
  · intro h start stop pos extLen len hblock hfirst hl hlen hle
    have hfound : findSniInfo data = .ok (some ⟨pos + 9, len⟩) := by
      apply findSniInfo_eq_some.mpr
      exact ⟨start, stop, hblock, sniAt_iff_first.mpr ⟨_, _, _, hfirst, hl, hlen, hle, rfl⟩⟩
    obtain ⟨start', stop', pos', extLen', hblock', -, hstop, -, hl', hoff, hin, htype⟩ := h _ hfound
    obtain ⟨rfl, rfl⟩ := hblock.unique hblock'
    obtain rfl : pos = pos' := Nat.add_right_cancel hoff
    obtain rfl := Option.some.inj (hl.symm.trans hl')
    change pos + 9 + len ≤ pos + 4 + extLen at hin
    exact ⟨by omega, hstop, htype⟩
  · intro h info hfound
    obtain ⟨start, stop, hblock, hs⟩ := findSniInfo_eq_some.mp hfound
    obtain ⟨first, extLen, len, hfirst, hl, hlen, hle, rfl⟩ := sniAt_iff_first.mp hs
    obtain ⟨hext, hstop, htype⟩ := h start stop first extLen len hblock hfirst hl hlen hle
    refine ⟨start, stop, first, extLen, hblock, hfirst.le, hstop, hfirst.extType, hl, rfl, ?_,
      htype⟩
    show first + 9 + len ≤ first + 4 + extLen
    omega

/-- The hello for `a.b`, with an empty server_name extension by its length. -/
def helloWithEmptyExtension : Bytes :=
  (buildSyntheticClientHello (some "a.b".toList) false).set 55 0

/-- The name is accepted although its extension has no room for it. -/
theorem accepts_only_nested_fails : ¬ ∀ data, AcceptsOnlyNested data := by
  intro h
  obtain ⟨_, _, pos, extLen, -, -, -, -, hl, hoff, hin, -⟩ :=
    h helloWithEmptyExtension ⟨61, 3⟩ (by decide)
  obtain rfl : 52 = pos := Nat.add_right_cancel (m := 9) hoff
  cases hl.symm.trans (show be16At helloWithEmptyExtension 54 = some 0 by decide)
  exact absurd hin (by decide)

-- a name that is not a host name is accepted too
example : findSniInfo ((buildSyntheticClientHello (some "a.b".toList) false).set 58 1) =
    .ok (some ⟨61, 3⟩) := by decide

end GreenTunnel

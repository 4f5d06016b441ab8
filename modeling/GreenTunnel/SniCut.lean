import GreenTunnel.HelloPipeline

/-! # Where the cut falls in a name with a `www` prefix (`proxy.rs`)

`calculateSniCutOffset` takes the length from the server name and looks for the
prefix in the host of the CONNECT request.  The cut is drawn behind a prefix that it
finds there, if the name is long enough for the range not to be empty; otherwise a
short name can be cut in its prefix, or right behind it (`cut_behind_www_iff`).
-/
namespace GreenTunnel
open Checked

/-- The host of the CONNECT request begins with `www.`. -/
def opensWithWww (host : Str) : Bool :=
  (bytePrefix 4 host).any (eqIgnoreAsciiCase · "www.".toList)

/-- The bytes left out of the middle. -/
def startOffset (host : Str) : Nat := if opensWithWww host then 4 else 0

def minCut (n start : Nat) : Nat := max (start + (n - start) / 2 - 1) (start + 2)

def maxCut (n start : Nat) : Nat := min (start + (n - start) / 2 + 1) (n - 2)

theorem calculateSniCutOffset_of_long {n : Nat} (hn : 6 < n) (host : Str) (draw : Nat) :
    calculateSniCutOffset n host draw =
      if minCut n (startOffset host) ≤ maxCut n (startOffset host) then
        drawIn (minCut n (startOffset host)) (maxCut n (startOffset host)) draw
      else .ok (n / 2) := by
  unfold calculateSniCutOffset
  rw [if_pos hn, sub_of_le (by omega)]
  rfl

/-- Every draw cuts a name of `n` bytes behind its first four. -/
def AlwaysBehindFour (n : Nat) (host : Str) : Prop :=
  ∀ draw, ∃ cut, calculateSniCutOffset n host draw = .ok cut ∧ 4 < cut ∧ cut < n

/-- When the host shows the prefix, seven bytes are too few for a cut behind it. -/
theorem alwaysBehindFour_www {n : Nat} (hn : 6 < n) {host : Str}
    (hwww : opensWithWww host = true) : AlwaysBehindFour n host ↔ 8 ≤ n := by
  have hstart : startOffset host = 4 := if_pos hwww
  simp only [AlwaysBehindFour, calculateSniCutOffset_of_long hn, hstart]
  by_cases h8 : 8 ≤ n
  · have hrange : minCut n 4 ≤ maxCut n 4 := by
      unfold minCut maxCut
      omega
    simp only [if_pos hrange, drawIn_forall hrange]
    refine iff_of_true (fun v hlo hhi => ?_) h8
    unfold minCut at hlo
    unfold maxCut at hhi
    omega
  · -- the range is empty, and the cut in the middle is in the prefix
    have hrange : ¬ minCut n 4 ≤ maxCut n 4 := by
      unfold minCut maxCut
      omega
    simp only [if_neg hrange]
    refine iff_of_false (fun h => ?_) h8
    obtain ⟨cut, hcut, h4, -⟩ := h 0
    cases hcut
    omega

/-- When it does not, the least cut is one before the middle of the whole name. -/
theorem alwaysBehindFour_other {n : Nat} (hn : 6 < n) {host : Str}
    (hwww : ¬ opensWithWww host = true) : AlwaysBehindFour n host ↔ 12 ≤ n := by
  have hstart : startOffset host = 0 := if_neg hwww
  have hrange : minCut n 0 ≤ maxCut n 0 := by
    unfold minCut maxCut
    omega
  simp only [AlwaysBehindFour, calculateSniCutOffset_of_long hn, hstart, if_pos hrange,
    drawIn_forall hrange]
  constructor
  · intro h
    have := h (minCut n 0) (Nat.le_refl _) hrange
    unfold minCut at this
    omega
  · intro h12 v hlo hhi
    unfold minCut at hlo
    unfold maxCut at hhi
    omega

/-- A ClientHello whose server name is longer than six bytes and begins with `www.` in
some spelling. -/
structure WwwHello (data : Bytes) (info : SniInfo) : Prop where
  found : findSniInfo data = .ok (some info)
  long : 6 < info.hostnameLength
  www : ∃ spelled, eqIgnoreAsciiCase spelled "www.".toList = true ∧
    (data.drop info.hostnameOffset).take 4 = utf8Bytes spelled

/-- Whatever is drawn, the cut falls behind the prefix and before the end of the name:
the first record ends before the name does, and the second begins behind the first byte
of what follows the prefix. -/
def CutBehindWww (data : Bytes) (info : SniInfo) (host : Str) : Prop :=
  ∀ draw, ∃ cut rec1 rec2,
    calculateSniCutOffset info.hostnameLength host draw = .ok cut ∧
    4 < cut ∧ cut < info.hostnameLength ∧
    fragmentAtOffset data (info.hostnameOffset + cut) = .ok (rec1, some rec2) ∧
    rec1.payload = (data.take (info.hostnameOffset + cut)).drop tlsRecordHeaderSize ∧
    rec2.payload = data.drop (info.hostnameOffset + cut)

/-- The records follow from the cut. -/
theorem cutBehindWww_iff {data : Bytes} {info : SniInfo} {host : Str}
    (h : findSniInfo data = .ok (some info)) :
    CutBehindWww data info host ↔ AlwaysBehindFour info.hostnameLength host := by
  constructor
  · intro hcuts draw
    obtain ⟨cut, -, -, hcut, hlo, hhi, -⟩ := hcuts draw
    exact ⟨cut, hcut, hlo, hhi⟩
  · intro hcuts draw
    obtain ⟨cut, hcut, hlo, hhi⟩ := hcuts draw
    have hb := findSniInfo_bounds h
    have hsplit : tlsRecordHeaderSize < info.hostnameOffset + cut := by
      rw [tlsRecordHeaderSize]
      omega
    obtain ⟨rec1, rec2, hfrag, hhalves⟩ :=
      fragmentAtOffset_splitAt hsplit (show info.hostnameOffset + cut < data.length by omega)
    obtain ⟨_, _, _, -, -, -, rfl, rfl⟩ := hhalves.halves
    exact ⟨cut, _, _, hcut, hlo, hhi, hfrag, rfl, rfl⟩

/-- **When the cut falls behind the prefix**: when the name has twelve bytes, or eight
and the host of the CONNECT request begins with `www.` too. -/
theorem cut_behind_www_iff (data : Bytes) (info : SniInfo) (host : Str)
    (h : WwwHello data info) :
    CutBehindWww data info host ↔
      12 ≤ info.hostnameLength ∨ 8 ≤ info.hostnameLength ∧ opensWithWww host = true := by
  rw [cutBehindWww_iff h.found]
  have hlong := h.long
  by_cases hwww : opensWithWww host = true
  · rw [alwaysBehindFour_www hlong hwww]
    exact ⟨fun h8 => Or.inr ⟨h8, hwww⟩, fun h => h.elim (by omega) And.left⟩
  · rw [alwaysBehindFour_other hlong hwww]
    exact ⟨Or.inl, fun h => h.elim id fun h => absurd h.2 hwww⟩

/-- The hello for `www.a.b`. -/
def helloForWww : Bytes := buildSyntheticClientHello (some "www.a.b".toList) false

theorem wwwHello_helloForWww : WwwHello helloForWww ⟨61, 7⟩ where
  found := by decide
  long := by decide
  www := ⟨"www.".toList, by decide, by decide⟩

theorem cut_behind_www_example :
    CutBehindWww helloForWww ⟨61, 7⟩ "www.a.b".toList ↔
      12 ≤ 7 ∨ 8 ≤ 7 ∧ opensWithWww "www.a.b".toList = true :=
  cut_behind_www_iff helloForWww ⟨61, 7⟩ "www.a.b".toList wwwHello_helloForWww

/-- The name `www.a.b` is cut in its prefix. -/
theorem cut_behind_www_fails :
    ¬ ∀ data info host, WwwHello data info → CutBehindWww data info host := by
  intro h
  obtain ⟨cut, -, -, hcut, h4, -⟩ := h _ _ "www.a.b".toList wwwHello_helloForWww 0
  rw [show calculateSniCutOffset 7 "www.a.b".toList 0 = .ok 3 by decide] at hcut
  cases hcut
  exact absurd h4 (by decide)

end GreenTunnel

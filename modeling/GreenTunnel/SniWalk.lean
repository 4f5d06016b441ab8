import GreenTunnel.ClientHello

/-! # What the walk to the host name reads

The parser's answer depends on less than the whole record.  Cut off behind the
name, the record still leads to it (`sniAt_take`, `extensionBlock_take`), and cut
off before its end it leads to nothing (`findSniInfo_cut_off`); and the record's
own length field is never read, so a record whose header has been rewritten leads
to the same name (`SameBut`).
-/
namespace GreenTunnel

/-! ## Cutting the data off -/

theorem extensionBlock_take {data : Bytes} {n pos stop : Nat} :
    ExtensionBlock (data.take n) pos stop ↔ ExtensionBlock data pos stop ∧ pos ≤ n := by
  constructor
  · rintro ⟨⟨h0, h5⟩, h1, h2, h3, h4⟩
    rw [getElem?_take_eq_some] at h0 h5 h1 h3
    rw [be16At_take] at h2 h4
    exact ⟨.intro ⟨h0.1, h5.1⟩ h1.1 h2.1 h3.1 h4.1, by omega⟩
  · rintro ⟨⟨⟨h0, h5⟩, h1, h2, h3, h4⟩, hn⟩
    exact .intro
      ⟨getElem?_take_eq_some.mpr ⟨h0, by omega⟩, getElem?_take_eq_some.mpr ⟨h5, by omega⟩⟩
      (getElem?_take_eq_some.mpr ⟨h1, by omega⟩) (be16At_take.mpr ⟨h2, by omega⟩)
      (getElem?_take_eq_some.mpr ⟨h3, by omega⟩) (be16At_take.mpr ⟨h4, by omega⟩)

/-- The walk over a prefix is the walk over the data, as long as the name it
leads to lies in the prefix. -/
theorem sniAt_take {data : Bytes} {n stop pos : Nat} {info : SniInfo} :
    SniAt (data.take n) stop pos info ↔
      SniAt data stop pos info ∧ info.hostnameOffset + info.hostnameLength ≤ n := by
  constructor
  · intro h
    induction h with
    | @found pos _ len hs ht hl hlen hle =>
      rw [List.length_take] at hle
      rw [be16At_take] at ht hl hlen
      refine ⟨.found hs ht.1 hl.1 hlen.1 (by omega), ?_⟩
      show pos + 9 + len ≤ n
      omega
    | skip hs ht hne hl _ ih =>
      rw [be16At_take] at ht hl
      exact ⟨.skip hs ht.1 hne hl.1 ih.1, ih.2⟩
  · rintro ⟨h, hn⟩
    induction h with
    | @found pos _ len hs ht hl hlen hle =>
      change pos + 9 + len ≤ n at hn
      refine .found hs (be16At_take.mpr ⟨ht, by omega⟩) (be16At_take.mpr ⟨hl, by omega⟩)
        (be16At_take.mpr ⟨hlen, by omega⟩) ?_
      rw [List.length_take]
      omega
    | skip hs ht hne hl hrest ih =>
      have := hrest.bounds
      exact .skip hs (be16At_take.mpr ⟨ht, by omega⟩) hne (be16At_take.mpr ⟨hl, by omega⟩) (ih hn)

/-- A prefix that ends before the end of the name hides it. -/
theorem findSniInfo_take_eq_none {data : Bytes} {info : SniInfo} {n : Nat}
    (h : findSniInfo data = .ok (some info)) (hn : n < info.hostnameOffset + info.hostnameLength) :
    findSniInfo (data.take n) = .ok none := by
  rw [findSniInfo_eq_none]
  intro pos stop info' hb hs
  rw [extensionBlock_take] at hb
  rw [sniAt_take] at hs
  have h' := findSniInfo_eq_some.mpr ⟨pos, stop, hb.1, hs.1⟩
  rw [h, Except.ok.injEq, Option.some.injEq] at h'
  subst h'
  omega

/-- A prefix that holds the name leads to it. -/
theorem findSniInfo_take_eq_some {data : Bytes} {info : SniInfo} {n : Nat}
    (h : findSniInfo data = .ok (some info)) (hn : info.hostnameOffset + info.hostnameLength ≤ n) :
    findSniInfo (data.take n) = .ok (some info) := by
  obtain ⟨pos, stop, hb, hs⟩ := findSniInfo_eq_some.mp h
  have hpos : pos ≤ n := by
    have := hs.bounds
    omega
  apply findSniInfo_eq_some.mpr
  exact ⟨pos, stop, extensionBlock_take.mpr ⟨hb, hpos⟩, sniAt_take.mpr ⟨hs, hn⟩⟩

/-- **Cutting the data off hides the name or leaves it alone.**  The answer is
lost exactly when the prefix ends before the name does, and a prefix never leads
to a name that the whole does not lead to. -/
theorem findSniInfo_cut_off (data : Bytes) :
    (∃ info, findSniInfo data = .ok (some info) ∧
      ∀ n, findSniInfo (data.take n) =
        .ok (if info.hostnameOffset + info.hostnameLength ≤ n then some info else none)) ∨
    (findSniInfo data = .ok none ∧ ∀ n, findSniInfo (data.take n) = .ok none) := by
  obtain ⟨r, hr, -⟩ := findSniInfo_spec data
  rcases r with _ | info
  · right
    refine ⟨hr, ?_⟩
    intro n
    apply findSniInfo_eq_none.mpr
    intro pos stop info hb hs
    apply findSniInfo_eq_none.mp hr pos stop info
    · exact (extensionBlock_take.mp hb).1
    · exact (sniAt_take.mp hs).1
  · left
    refine ⟨info, hr, ?_⟩
    intro n
    by_cases hn : info.hostnameOffset + info.hostnameLength ≤ n
    · rw [if_pos hn]
      exact findSniInfo_take_eq_some hr hn
    · rw [if_neg hn]
      exact findSniInfo_take_eq_none hr (Nat.lt_of_not_le hn)

/-! ## Rewriting the record header -/

/-- `data'` is `data` with another record length field. -/
def SameBut (data data' : Bytes) : Prop :=
  data'.length = data.length ∧ ∀ i, i ≠ 3 → i ≠ 4 → data'[i]? = data[i]?

theorem SameBut.be16At {data data' : Bytes} (h : SameBut data data') {i : Nat} (hi : 5 ≤ i) :
    be16At data' i = be16At data i :=
  be16At_congr (h.2 i (by omega) (by omega)) (h.2 (i + 1) (by omega) (by omega))

theorem SameBut.symm {data data' : Bytes} (h : SameBut data data') : SameBut data' data :=
  ⟨h.1.symm, fun i h3 h4 => (h.2 i h3 h4).symm⟩

theorem SameBut.extensionBlock {data data' : Bytes} (h : SameBut data data') {pos stop : Nat}
    (hb : ExtensionBlock data pos stop) : ExtensionBlock data' pos stop := by
  obtain ⟨⟨h0, h5⟩, h1, h2, h3, h4⟩ := hb
  refine .intro ⟨?_, ?_⟩ ?_ ?_ ?_ ?_
  · rw [h.2 0 (by omega) (by omega), h0]
  · rw [h.2 5 (by omega) (by omega), h5]
  · rw [h.2 _ (by omega) (by omega), h1]
  · rw [h.be16At (by omega), h2]
  · rw [h.2 _ (by omega) (by omega), h3]
  · rw [h.be16At (by omega), h4]

theorem SameBut.sniAt {data data' : Bytes} (h : SameBut data data') {pos stop : Nat}
    {info : SniInfo} (hpos : 5 ≤ pos) (hs : SniAt data stop pos info) :
    SniAt data' stop pos info := by
  induction hs with
  | found hs ht hl hlen hle =>
    exact .found hs ((h.be16At (by omega)).trans ht) ((h.be16At (by omega)).trans hl)
      ((h.be16At (by omega)).trans hlen) (h.1 ▸ hle)
  | skip hs ht hne hl _ ih =>
    exact .skip hs ((h.be16At (by omega)).trans ht) hne ((h.be16At (by omega)).trans hl)
      (ih (by omega))

/-- **The record length field is not read.** -/
theorem SameBut.findSniInfo {data data' : Bytes} (h : SameBut data data') :
    findSniInfo data' = findSniInfo data := by
  obtain ⟨r, hr, hiff⟩ := findSniInfo_spec data
  obtain ⟨r', hr', hiff'⟩ := findSniInfo_spec data'
  have hrr : r' = r := by
    apply Option.ext
    intro info
    rw [hiff', hiff]
    constructor
    · rintro ⟨pos, stop, hb, hs⟩
      exact ⟨pos, stop, h.symm.extensionBlock hb, h.symm.sniAt (by have := hb.le; omega) hs⟩
    · rintro ⟨pos, stop, hb, hs⟩
      exact ⟨pos, stop, h.extensionBlock hb, h.sniAt (by have := hb.le; omega) hs⟩
  rw [hr, hr', hrr]

end GreenTunnel

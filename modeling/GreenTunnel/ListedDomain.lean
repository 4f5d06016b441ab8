import GreenTunnel.AsciiCase
import GreenTunnel.HttpText

/-! # Listed domains and label boundaries (`utils.rs`)

A host belongs to a listed domain when it is that domain or a name below it: the
domain begins at a label.  `isPaddingIncompatibleDomain` compares suffixes of the
lower case, and so takes hosts that end in a listed domain inside a label, or with a
letter that is ASCII only in lower case.  The classification is right exactly for the
other hosts (`classification_iff`).
-/
namespace GreenTunnel

/-- What stands in front of a name: nothing, or labels with a dot behind them. -/
def AtLabel (front : Str) : Prop := front = [] ∨ front.getLast? = some '.'

/-- The host is a listed domain or ends with a dot and a listed domain, ignoring ASCII
case. -/
def BelongsToListed (host : Str) : Prop :=
  ∃ d ∈ paddingIncompatibleDomains, eqIgnoreAsciiCase host d = true ∨
    ∃ labels name, host = labels ++ '.' :: name ∧ eqIgnoreAsciiCase name d = true

/-- Wherever the host ends in a listed domain, in lower case, that is ASCII and begins
at a label; or it is the `instagram.com` of a `cdninstagram.com` that does. -/
def ListedAtLabel (host : Str) : Prop :=
  ∀ front tail, host = front ++ tail → toLowercase tail ∈ paddingIncompatibleDomains →
    (∀ c ∈ tail, c.toNat < 128) ∧
      (AtLabel front ∨ toLowercase tail = "instagram.com".toList ∧
        ∃ labels cdn, front = labels ++ cdn ∧ eqIgnoreAsciiCase cdn "cdn".toList = true ∧
          AtLabel labels)

theorem listed_ascii {d : Str} (h : d ∈ paddingIncompatibleDomains) :
    (∀ c ∈ d, c.toNat < 128) ∧ d.map Char.toLower = d := by
  have hall : ∀ d ∈ paddingIncompatibleDomains,
      d.all (fun c => c.toNat < 128) = true ∧ d.map Char.toLower = d := by decide
  exact ⟨List.all_iff_forall_prop.mp (hall d h).1, (hall d h).2⟩

/-- Of two listed domains one is the end of the other only if they are
`cdninstagram.com` and `instagram.com`. -/
theorem listed_suffix {d e m : Str} (hd : d ∈ paddingIncompatibleDomains)
    (he : e ∈ paddingIncompatibleDomains) (h : d = m ++ e) :
    m = [] ∨ m = "cdn".toList ∧ d = "cdninstagram.com".toList ∧ e = "instagram.com".toList := by
  have hall : ∀ d ∈ paddingIncompatibleDomains, ∀ e ∈ paddingIncompatibleDomains,
      e <:+ d → d = e ∨ d = "cdn".toList ++ e ∧
        d = "cdninstagram.com".toList ∧ e = "instagram.com".toList := by decide
  rcases hall d hd e he ⟨m, h.symm⟩ with heq | ⟨hm, hde⟩
  · exact Or.inl (List.self_eq_append_left.mp (heq ▸ h))
  · exact Or.inr ⟨List.append_cancel_right (h.symm.trans hm), hde⟩

/-- A text equals a listed domain ignoring ASCII case exactly when it is ASCII and
its lower case is the domain. -/
theorem eqIgnoreAsciiCase_listed {d tail : Str} (hd : d ∈ paddingIncompatibleDomains) :
    eqIgnoreAsciiCase tail d = true ↔
      (∀ c ∈ tail, c.toNat < 128) ∧ toLowercase tail = d := by
  obtain ⟨hascii, hlower⟩ := listed_ascii hd
  rw [eqIgnoreAsciiCase_iff, hlower]
  constructor
  · intro h
    have htail : ∀ c ∈ tail, c.toNat < 128 := by
      intro c hc
      apply ascii_of_toLower
      apply hascii
      rw [← h]
      exact List.mem_map_of_mem hc
    exact ⟨htail, (toLowercase_ascii htail).trans h⟩
  · rintro ⟨htail, h⟩
    rw [← toLowercase_ascii htail, h]

/-- A host that belongs to a listed domain is that domain with labels in front. -/
theorem belongsToListed_iff {host : Str} :
    BelongsToListed host ↔ ∃ d ∈ paddingIncompatibleDomains, ∃ front tail,
      host = front ++ tail ∧ AtLabel front ∧ eqIgnoreAsciiCase tail d = true := by
  constructor
  · rintro ⟨d, hd, h | ⟨labels, name, rfl, h⟩⟩
    · exact ⟨d, hd, [], host, rfl, Or.inl rfl, h⟩
    · exact ⟨d, hd, labels ++ ['.'], name, by simp, Or.inr List.getLast?_concat, h⟩
  · rintro ⟨d, hd, front, tail, rfl, hfront, h⟩
    refine ⟨d, hd, ?_⟩
    rcases hfront with rfl | hdot
    · exact Or.inl h
    · obtain ⟨labels, rfl⟩ := List.getLast?_eq_some_iff.mp hdot
      exact Or.inr ⟨labels, tail, by simp, h⟩

theorem incompatible_iff {host : Str} :
    isPaddingIncompatibleDomain host = true ↔
      ∃ front tail, host = front ++ tail ∧ toLowercase tail ∈ paddingIncompatibleDomains := by
  rw [isPaddingIncompatibleDomain, List.any_eq_true]
  simp only [List.isSuffixOf_iff_suffix]
  constructor
  · rintro ⟨d, hd, h⟩
    obtain ⟨front, tail, hhost, rfl⟩ := (suffix_toLowercase (listed_ascii hd).1).mp h
    exact ⟨front, tail, hhost, hd⟩
  · rintro ⟨front, tail, hhost, hd⟩
    exact ⟨_, hd, (suffix_toLowercase (listed_ascii hd).1).mpr ⟨front, tail, hhost, rfl⟩⟩

/-- The end of a text at a label is a dot, unless it is the whole text. -/
theorem AtLabel.of_append {front m : Str} (h : AtLabel (front ++ m)) (hm : m ≠ []) :
    m.getLast? = some '.' := by
  rcases h with hnil | hdot
  · exact absurd (List.append_eq_nil_iff.mp hnil).2 hm
  · rwa [List.getLast?_append_of_ne_nil _ hm] at hdot

/-- A host is classified wherever it belongs to a listed domain. -/
theorem incompatible_of_belongs {host : Str} (h : BelongsToListed host) :
    isPaddingIncompatibleDomain host = true := by
  obtain ⟨d, hd, front, tail, rfl, -, htail⟩ := belongsToListed_iff.mp h
  refine incompatible_iff.mpr ⟨front, tail, rfl, ?_⟩
  rwa [((eqIgnoreAsciiCase_listed hd).mp htail).2]

/-- Where a host belongs to a listed domain, every listed domain it ends in stands at a
label, or is the `instagram.com` of that domain. -/
theorem listedAtLabel_of_belongs {host : Str} (h : BelongsToListed host) :
    ListedAtLabel host := by
  intro front tail hhost hlisted
  obtain ⟨d, hd, front', tail', hhost', hfront', htail'⟩ := belongsToListed_iff.mp h
  obtain ⟨hascii, rfl⟩ := (eqIgnoreAsciiCase_listed hd).mp htail'
  rcases List.append_eq_append_iff.mp (hhost.symm.trans hhost') with
    ⟨m, rfl, rfl⟩ | ⟨m, rfl, rfl⟩
  · -- the domain found at a label is the shorter one
    rw [toLowercase_append] at hlisted
    rcases listed_suffix hlisted hd rfl with hnil | ⟨hcdn, -, -⟩
    · obtain rfl := eq_nil_of_toLowercase hnil
      exact ⟨hascii, Or.inl (by rwa [List.append_nil] at hfront')⟩
    · -- `cdn` would have to end with a dot
      have hm : m ≠ [] := fun hnil => by simp [hnil, toLowercase] at hcdn
      obtain ⟨s, rfl⟩ := List.getLast?_eq_some_iff.mp (hfront'.of_append hm)
      rw [toLowercase_concat (by decide)] at hcdn
      exact absurd (congrArg List.getLast? hcdn) (by rw [List.getLast?_concat]; decide)
  · rw [toLowercase_append] at hd
    have hm : ∀ c ∈ m, c.toNat < 128 := fun c hc => hascii c (List.mem_append_left _ hc)
    refine ⟨fun c hc => hascii c (List.mem_append_right _ hc), ?_⟩
    rcases listed_suffix hd hlisted rfl with hnil | ⟨hcdn, -, htail⟩
    · obtain rfl := eq_nil_of_toLowercase hnil
      exact Or.inl (by rwa [List.append_nil])
    · refine Or.inr ⟨htail, front', m, rfl, ?_, hfront'⟩
      rw [eqIgnoreAsciiCase_iff, ← toLowercase_ascii hm, hcdn]
      decide

/-- **When the classification is right**: when no listed domain stands inside a label. -/
theorem classification_iff (host : Str) :
    (isPaddingIncompatibleDomain host = true ↔ BelongsToListed host) ↔ ListedAtLabel host := by
  constructor
  · intro h front tail hhost hlisted
    have hclass := incompatible_iff.mpr ⟨front, tail, hhost, hlisted⟩
    exact listedAtLabel_of_belongs (h.mp hclass) front tail hhost hlisted
  · intro h
    refine ⟨fun hclass => ?_, incompatible_of_belongs⟩
    obtain ⟨front, tail, rfl, hlisted⟩ := incompatible_iff.mp hclass
    obtain ⟨hascii, hlabel | ⟨htail, labels, cdn, rfl, hcdn, hlabels⟩⟩ := h front tail rfl hlisted
    · exact belongsToListed_iff.mpr ⟨_, hlisted, front, tail, rfl, hlabel,
        (eqIgnoreAsciiCase_listed hlisted).mpr ⟨hascii, rfl⟩⟩
    · have hinsta : eqIgnoreAsciiCase tail "instagram.com".toList = true :=
        (eqIgnoreAsciiCase_listed (by decide)).mpr ⟨hascii, htail⟩
      exact belongsToListed_iff.mpr ⟨"cdninstagram.com".toList, by decide, labels, cdn ++ tail,
        List.append_assoc _ _ _, hlabels,
        (eqIgnoreAsciiCase_append (eqIgnoreAsciiCase_length hcdn)).mpr ⟨hcdn, hinsta⟩⟩

theorem classification_fails :
    ¬ ∀ host, isPaddingIncompatibleDomain host = true ↔ BelongsToListed host := by
  intro h
  have hlabel := listedAtLabel_of_belongs ((h "notfacebook.com".toList).mp (by decide +kernel))
  rcases (hlabel "not".toList "facebook.com".toList (by decide) (by decide +kernel)).2 with
    hdot | ⟨hinsta, -⟩
  · rcases hdot with hnil | hdot
    · exact absurd hnil (by decide)
    · exact absurd hdot (by decide)
  · exact absurd hinsta (by decide +kernel)

-- the Kelvin sign is no `k` of ASCII, and its lower case is
example : isPaddingIncompatibleDomain "faceboo\u212a.com".toList = true := by decide +kernel

end GreenTunnel

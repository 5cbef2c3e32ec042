import ExternalTrusty.TrustyMem

namespace ExternalTrusty.Dev

variable {arch : ArmArch} {par attr : UInt64} {inf inf' : NsMemPageInfo}

/-- Both formats keep the address that was translated. -/
theorem par2attr_physaddr (h : arch.par2attr par = some attr) (hf : par &&& parF = 0) :
    nsPtePhysaddr attr = nsPtePhysaddr par := by
  cases arch with
  | arm64 =>
    cases h
    exact nsPtePhysaddr_long par
  | arm32 =>
    by_cases hlpae : par &&& parLpae ≠ 0
    · rw [ArmArch.par2attr, par2attrArm32, if_pos hlpae] at h
      cases h
      exact nsPtePhysaddr_long par
    · by_cases hss : par &&& parSs ≠ 0
      · rw [ArmArch.par2attr, par2attrArm32, if_neg hlpae, if_pos hss] at h
        cases h
      · have hshort : ShortFormat par := ⟨not_not.mp hlpae, not_not.mp hss, hf⟩
        rw [ArmArch.par2attr, par2attrArm32_short hshort] at h
        obtain ⟨hphys, _⟩ := shortAttributes_fields (innerIndex par) (innerIndex_lt par)
          (outerIndex par) (outerIndex_lt par) (decide (par &&& parSh ≠ 0))
        cases h
        rw [nsPtePhysaddr, or_outside hphys]
        exact nsPtePhysaddr_idem par

/-- What is encoded in place of two previous contents: the address that was translated, twice,
and nothing that depends on what was there. -/
def NamesTranslated (arch : ArmArch) (par : UInt64) (inf inf' : NsMemPageInfo) : Prop :=
  ∃ r r', trustyEncodePageInfo arch par inf = some (0, r) ∧
    trustyEncodePageInfo arch par inf' = some (0, r') ∧
    (nsPtePhysaddr r.attr = nsPtePhysaddr par ∧ nsPtePhysaddr r'.attr = nsPtePhysaddr par) ∧
    (r.paddr = nsPtePhysaddr par ∧ r'.paddr = nsPtePhysaddr par) ∧ r = r'

theorem trustyEncodePageInfo_eq (hf : par &&& parF = 0) (h : arch.par2attr par = some attr) :
    trustyEncodePageInfo arch par inf = some (0, { inf with attr := attr }) := by
  rw [trustyEncodePageInfo, if_neg (not_not_intro hf), h, Option.map_some]

/-- The page is named just when both previous contents named it already, and agreed on how it is
to be shared: only the attributes are ever set. -/
theorem namesTranslated_iff (hf : par &&& parF = 0) (h : arch.par2attr par = some attr) :
    NamesTranslated arch par inf inf' ↔
      (inf.paddr = nsPtePhysaddr par ∧ inf'.paddr = nsPtePhysaddr par) ∧
        inf.ffaMemAttr = inf'.ffaMemAttr ∧ inf.ffaMemPerm = inf'.ffaMemPerm := by
  have hattr := par2attr_physaddr h hf
  constructor
  · rintro ⟨r, r', hr, hr', _, hpaddr, hsame⟩
    rw [trustyEncodePageInfo_eq hf h] at hr hr'
    cases hr
    cases hr'
    obtain ⟨_, _, hmem, hperm⟩ := NsMemPageInfo.mk.inj hsame
    exact ⟨hpaddr, hmem, hperm⟩
  · rintro ⟨⟨hp, hp'⟩, hmem, hperm⟩
    refine ⟨_, _, trustyEncodePageInfo_eq hf h, trustyEncodePageInfo_eq hf h, ⟨hattr, hattr⟩,
      ⟨hp, hp'⟩, ?_⟩
    simp only [NsMemPageInfo.mk.injEq]
    exact ⟨trivial, hp.trans hp'.symm, hmem, hperm⟩

/-- The page at 0x80000000, for a structure that named it already. -/
theorem sameAddress_named :
    NamesTranslated .arm64 0xff00000080000000 ⟨0, 0x80000000, 0x2f, 2⟩ ⟨7, 0x80000000, 0x2f, 2⟩ ↔
      (0x80000000 = nsPtePhysaddr 0xff00000080000000 ∧
        0x80000000 = nsPtePhysaddr 0xff00000080000000) ∧
        (0x2f : UInt8) = 0x2f ∧ (2 : UInt8) = 2 :=
  namesTranslated_iff (by decide) rfl

/-- The page at 0x80000000 is encoded without its address: what stays is the 0x1000 of before. -/
theorem staleAddress_kept :
    trustyEncodePageInfo .arm64 0xff00000080000000 ⟨0, 0x1000, 0, 0⟩ =
        some (0, ⟨0x00ff000080000000, 0x1000, 0, 0⟩) ∧
      ¬NamesTranslated .arm64 0xff00000080000000 ⟨0, 0x1000, 0, 0⟩ ⟨0, 0x2000, 0, 0⟩ := by
  have hrun : trustyEncodePageInfo .arm64 0xff00000080000000 ⟨0, 0x1000, 0, 0⟩ =
      some (0, ⟨0x00ff000080000000, 0x1000, 0, 0⟩) := by decide
  refine ⟨hrun, ?_⟩
  rintro ⟨r, _, hr, _, _, ⟨hpaddr, _⟩, _⟩
  rw [hrun] at hr
  cases hr
  exact absurd hpaddr (by decide)

end ExternalTrusty.Dev

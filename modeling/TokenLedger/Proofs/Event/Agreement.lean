/-
# Events about one token agree on its hashes

The eight kinds of events name their token in five ways, and a payload may spell the version of its
properties in any way. Whatever the route, events about one token agree on the hash of its
collection. They agree on the hash of the token unless the version is zero with two signs: a version
other than zero has its sign from its value, but the canonical text of a zero keeps the sign of the
spelling (`Decimal.sameText_iff_zerosAgree`), and a new token has the zero without a minus sign.

Key definitions: `Decimal.ZerosAgree`, `Identity.Collide`.
Key theorems: `Identity.SameToken.tokenHash_iff`, `Event.hashes_agree`, `Event.decode_toRaw`.
-/
import TokenLedger.Proofs.Event.RoundTrip
import TokenLedger.Proofs.Identity.Separation

namespace TokenLedger

/-! ### Versions of one value -/

namespace Decimal

variable {d e : Decimal}

/-- If two decimals are zero, they have one sign. -/
def ZerosAgree (d e : Decimal) : Prop :=
  d.value = 0 → e.value = 0 → d.negative = e.negative

theorem negative_eq_iff_zerosAgree (h : d.value = e.value) :
    d.negative = e.negative ↔ ZerosAgree d e := by
  constructor
  · intro hn _ _
    exact hn
  · intro hz
    by_cases h0 : d.value = 0
    · exact hz h0 (h ▸ h0)
    · exact negative_eq_of_value_eq h h0

/-- **Spellings of one number have one canonical text**, unless they are zeros of two signs. -/
theorem sameText_iff_zerosAgree {s : String} (h : d.value = e.value)
    (hs : d.canonicalText = .ok s) : SameText d e ↔ ZerosAgree d e := by
  rw [← negative_eq_iff_zerosAgree h]
  constructor
  · intro ht
    exact (sameText_iff_sameRounding.mp ht).1
  · intro hn
    have he : e.canonicalText = .ok s := by
      rw [← canonicalText_eq_of_value_eq hn h]
      exact hs
    exact ⟨s, hs, he⟩

end Decimal

/-! ### Identities of one token -/

namespace Identity

variable {i j : Identity} {s t : String}

/-- Two identities have texts that differ, but have one hash. -/
def Collide (i j : Identity) : Prop :=
  ∃ s t, i.tokenText = .ok s ∧ j.tokenText = .ok t ∧ s ≠ t ∧ Sha256.ofText s = Sha256.ofText t

theorem SameToken.collectionHash_eq (h : SameToken i j) : i.collectionHash = j.collectionHash := by
  obtain ⟨ha, hc, -, -⟩ := h
  unfold collectionHash collectionText
  rw [ha, hc]

theorem SameToken.sameText_iff (h : SameToken i j) (hs : i.tokenText = .ok s) :
    SameText i j ↔ Decimal.ZerosAgree i.propertyVersion j.propertyVersion := by
  obtain ⟨ha, hc, hn, hv⟩ := h
  obtain ⟨v, hv', -⟩ := tokenText_eq_ok_iff.mp hs
  have hname : i.nameText = j.nameText := by
    unfold nameText collectionText
    rw [ha, hc, hn]
  rw [Identity.sameText_iff, Decimal.sameText_iff_zerosAgree hv hv', and_iff_right hname]

/-- The hashes of a token's identities agree if the zeros do, and otherwise only by a collision. -/
theorem SameToken.tokenHash_iff (h : SameToken i j) (hs : i.tokenText = .ok s)
    (ht : j.tokenText = .ok t) : Sha256.ofText s = Sha256.ofText t ↔
      Decimal.ZerosAgree i.propertyVersion j.propertyVersion ∨ Collide i j := by
  rw [← h.sameText_iff hs]
  constructor
  · intro hash
    by_cases hst : s = t
    · subst hst
      exact .inl ⟨s, hs, ht⟩
    · exact .inr ⟨s, t, hs, ht, hst, hash⟩
  · rintro (⟨r, hr, hr'⟩ | ⟨s', t', hs', ht', -, hash⟩)
    · rw [hs] at hr
      rw [ht] at hr'
      cases hr
      cases hr'
      rfl
    · rw [hs] at hs'
      rw [ht] at ht'
      cases hs'
      cases ht'
      exact hash

end Identity

/-! ### Events about one token -/

namespace Event

variable {raw₁ raw₂ : RawEvent} {e₁ e₂ : Event}

/-- A raw event that is decoded has an activity, with the hashes of its token's identity. -/
theorem ofRawEvent_of_decode {raw : RawEvent} {e : Event}
    (h : decode raw.tag raw.payload = .ok (some e)) :
    ∃ i text, e.identity = .ok i ∧ i.tokenText = .ok text ∧
      ∀ version time index, ∃ a, Activity.ofRawEvent version time index raw = .ok (some a) ∧
        a.tokenHash = Sha256.ofText text ∧ a.collectionHash = i.collectionHash := by
  obtain ⟨i, text, hi, -, ht, hactivity⟩ := Decoded.ofEvent_ok ⟨raw.tag, raw.payload, h⟩
  refine ⟨i, text, hi, ht, fun version time index => ?_⟩
  obtain ⟨a, ha, htoken, hcollection⟩ := hactivity version time index raw
  refine ⟨a, ?_, htoken, hcollection⟩
  unfold Activity.ofRawEvent
  simp only [h, ha]

/-- **Events about one token agree on its hashes**, unless they spell version zero with two signs.
Either event may be of any kind, and stand anywhere in any transaction. Zeros of two signs give one
hash only if their texts collide. -/
theorem hashes_agree (h₁ : decode raw₁.tag raw₁.payload = .ok (some e₁))
    (h₂ : decode raw₂.tag raw₂.payload = .ok (some e₂)) :
    ∃ i₁ i₂, e₁.identity = .ok i₁ ∧ e₂.identity = .ok i₂ ∧
      ∀ version₁ time₁ index₁ version₂ time₂ index₂, ∃ a₁ a₂,
        Activity.ofRawEvent version₁ time₁ index₁ raw₁ = .ok (some a₁) ∧
        Activity.ofRawEvent version₂ time₂ index₂ raw₂ = .ok (some a₂) ∧
        (i₁.tokenHash = .ok a₁.tokenHash ∧ i₁.collectionHash = a₁.collectionHash) ∧
        (i₂.tokenHash = .ok a₂.tokenHash ∧ i₂.collectionHash = a₂.collectionHash) ∧
        (Identity.SameToken i₁ i₂ → a₁.collectionHash = a₂.collectionHash ∧
          (a₁.tokenHash = a₂.tokenHash ↔
            Decimal.ZerosAgree i₁.propertyVersion i₂.propertyVersion ∨
              Identity.Collide i₁ i₂)) := by
  obtain ⟨i₁, text₁, hi₁, ht₁, hactivity₁⟩ := ofRawEvent_of_decode h₁
  obtain ⟨i₂, text₂, hi₂, ht₂, hactivity₂⟩ := ofRawEvent_of_decode h₂
  refine ⟨i₁, i₂, hi₁, hi₂, fun version₁ time₁ index₁ version₂ time₂ index₂ => ?_⟩
  obtain ⟨a₁, ha₁, htoken₁, hcollection₁⟩ := hactivity₁ version₁ time₁ index₁
  obtain ⟨a₂, ha₂, htoken₂, hcollection₂⟩ := hactivity₂ version₂ time₂ index₂
  refine ⟨a₁, a₂, ha₁, ha₂, ⟨?_, hcollection₁.symm⟩, ⟨?_, hcollection₂.symm⟩,
    fun hsame => ⟨?_, ?_⟩⟩
  · rw [htoken₁, Identity.tokenHash, ht₁]
    rfl
  · rw [htoken₂, Identity.tokenHash, ht₂]
    rfl
  · rw [hcollection₁, hcollection₂]
    exact hsame.collectionHash_eq
  · rw [htoken₁, htoken₂]
    exact hsame.tokenHash_iff ht₁ ht₂

/-! ### A mint and a burn -/

/-- A raw event that describes a token event. -/
def toRaw (e : Event) : RawEvent :=
  ⟨.text "0x1", 0, 0, .text e.kind.tag, .text e.toJson.text⟩

/-- It is decoded as the event that it describes. -/
theorem decode_toRaw {e : Event} (h : e.Regular) :
    decode (toRaw e).tag (toRaw e).payload = .ok (some e) :=
  decode_of_regular h

def minted : Event :=
  .mint ⟨"0x1", "a", "b"⟩ .zero

/-- The end of the same token, with its version and creator in another spelling. -/
def burnt (version : Decimal) : Event :=
  .burn ⟨⟨"0x01", "a", "b"⟩, version⟩ .zero

theorem regular_minted : minted.Regular :=
  regular_of_decimals nofun (List.forall_mem_singleton.mpr Decimal.zero_payable)

theorem regular_burnt {version : Decimal} (h : version.Payable) : (burnt version).Regular :=
  regular_of_decimals nofun
    (List.forall_mem_cons.mpr ⟨h, List.forall_mem_singleton.mpr Decimal.zero_payable⟩)

theorem identity_minted : minted.identity = .ok ⟨"0x1", "a", "b", .zero⟩ :=
  TokenData.identity_ok Decimal.zero_inRange

theorem identity_burnt {version : Decimal} (h : version.Payable) :
    (burnt version).identity = .ok ⟨"0x01", "a", "b", version⟩ :=
  TokenData.identity_ok h.inRange

theorem sameToken_burnt (n : Bool) (x : ℤ) :
    Identity.SameToken ⟨"0x1", "a", "b", .zero⟩ ⟨"0x01", "a", "b", ⟨n, 0, x⟩⟩ := by
  refine ⟨?_, rfl, rfl, ?_⟩
  · show Address.canonical "0x1" = Address.canonical "0x01"
    decide
  · have hzero : Decimal.zero.value = 0 := Decimal.value_eq_zero_iff.mpr rfl
    have hspelled : (⟨n, 0, x⟩ : Decimal).value = 0 := Decimal.value_eq_zero_iff.mpr rfl
    exact hzero.trans hspelled.symm

/-- A version of two places behind the point is the same to the hashes. -/
theorem hashes_agree_of_places : ∃ a₁ a₂,
    Activity.ofRawEvent 1 (.ofSeconds 0 0) 0 (toRaw minted) = .ok (some a₁) ∧
    Activity.ofRawEvent 2 (.ofSeconds 0 0) 0 (toRaw (burnt ⟨false, 0, -2⟩)) = .ok (some a₂) ∧
    a₁.collectionHash = a₂.collectionHash ∧ a₁.tokenHash = a₂.tokenHash := by
  have hpayable : (⟨false, 0, -2⟩ : Decimal).Payable := Decimal.payable_of_zero rfl (by decide)
  obtain ⟨i₁, i₂, hi₁, hi₂, hashes⟩ :=
    hashes_agree (decode_toRaw regular_minted) (decode_toRaw (regular_burnt hpayable))
  cases identity_minted.symm.trans hi₁
  cases (identity_burnt hpayable).symm.trans hi₂
  obtain ⟨a₁, a₂, ha₁, ha₂, -, -, hagree⟩ := hashes 1 (.ofSeconds 0 0) 0 2 (.ofSeconds 0 0) 0
  obtain ⟨hcollection, htoken⟩ := hagree (sameToken_burnt false (-2))
  exact ⟨a₁, a₂, ha₁, ha₂, hcollection, htoken.mpr (.inl fun _ _ => rfl)⟩

/-- A minus sign before the zero is not. -/
theorem hashes_differ_of_minus_zero : ∃ e₁ e₂ i₁ i₂ a₁ a₂,
    decode (toRaw minted).tag (toRaw minted).payload = .ok (some e₁) ∧
    decode (toRaw (burnt ⟨true, 0, 0⟩)).tag (toRaw (burnt ⟨true, 0, 0⟩)).payload = .ok (some e₂) ∧
    e₁.identity = .ok i₁ ∧ e₂.identity = .ok i₂ ∧ Identity.SameToken i₁ i₂ ∧
    Activity.ofRawEvent 1 (.ofSeconds 0 0) 0 (toRaw minted) = .ok (some a₁) ∧
    Activity.ofRawEvent 2 (.ofSeconds 0 0) 0 (toRaw (burnt ⟨true, 0, 0⟩)) = .ok (some a₂) ∧
    a₁.tokenHash ≠ a₂.tokenHash := by
  have hpayable : (⟨true, 0, 0⟩ : Decimal).Payable := Decimal.payable_of_zero rfl (by decide)
  have h₁ := decode_toRaw regular_minted
  have h₂ := decode_toRaw (regular_burnt hpayable)
  have hi₁ := identity_minted
  have hi₂ := identity_burnt hpayable
  obtain ⟨i₁, text₁, hi₁', ht₁, hactivity₁⟩ := ofRawEvent_of_decode h₁
  obtain ⟨i₂, text₂, hi₂', ht₂, hactivity₂⟩ := ofRawEvent_of_decode h₂
  cases hi₁.symm.trans hi₁'
  cases hi₂.symm.trans hi₂'
  obtain ⟨a₁, ha₁, htoken₁, -⟩ := hactivity₁ 1 (.ofSeconds 0 0) 0
  obtain ⟨a₂, ha₂, htoken₂, -⟩ := hactivity₂ 2 (.ofSeconds 0 0) 0
  refine ⟨_, _, _, _, a₁, a₂, h₁, h₂, hi₁, hi₂, sameToken_burnt true 0, ha₁, ha₂, ?_⟩
  have hne : (⟨"0x1", "a", "b", .zero⟩ : Identity).tokenHash ≠
      (⟨"0x01", "a", "b", ⟨true, 0, 0⟩⟩ : Identity).tokenHash := by
    decide +kernel
  intro heq
  apply hne
  rw [Identity.tokenHash, Identity.tokenHash, ht₁, ht₂]
  rw [htoken₁, htoken₂] at heq
  exact congrArg Except.ok heq

end Event
end TokenLedger

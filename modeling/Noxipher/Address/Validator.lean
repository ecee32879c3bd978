import Noxipher.Address.Canonical

namespace Noxipher

open Bech32m

/-- Only an address error is caught. -/
def validateAddress (address : String) : Except PyError Bool :=
  match decodeAddress address with
  | .ok _ => .ok true
  | .error (.addressError _) => .ok false
  | .error e => .error e

def validateAddressForNetwork (address : String) (expected_network : Network) : Except PyError Bool :=
  match decodeAddress address with
  | .ok (_, network, _) => .ok (network = expected_network)
  | .error (.addressError _) => .ok false
  | .error e => .error e

def getAddressType (address : String) : Except PyError String := do
  let (addr_type, _, _) ← decodeAddress address
  return addr_type.str

/-- A text without letters of both cases. -/
def OneCase (text : List Char) : Prop := lower text = text ∨ text.map Char.toUpper = text

/-- The text is what encoding writes for the contents, in lower case or all of it in upper case. -/
def Spells (address : String) (contents : AddrType × Network × Bytes) : Prop :=
  OneCase address.toList ∧
    encodeAddress contents.2.2 contents.1 contents.2.1 = .ok (String.ofList (lower address.toList))

theorem toLower_printable {x : Char} (h : 33 ≤ x.toLower.toNat ∧ x.toLower.toNat ≤ 126) :
    33 ≤ x.toNat ∧ x.toNat ≤ 126 := by
  have hascii : ∀ n < 127, 33 ≤ (Char.ofNat n).toLower.toNat → 33 ≤ n := by decide +kernel
  rcases Nat.lt_or_ge x.toNat 127 with hlt | hge
  · have hlow := hascii x.toNat hlt
    rw [Char.ofNat_toNat] at hlow
    exact ⟨hlow h.1, by omega⟩
  · have hkept : x.toLower = x := by
      unfold Char.toLower
      rw [dif_neg]
      rintro ⟨-, hupper⟩
      have hval : x.val.toNat ≤ 90 := hupper
      have hsame : x.val.toNat = x.toNat := rfl
      omega
    rw [hkept] at h
    omega

/-- In a text of one case only the lower case counts. -/
theorem bech32mDecode_lower {bech : List Char} (hcase : OneCase bech)
    {r : List Char × List Nat} (h : bech32mDecode (lower bech) = .ok r) : bech32mDecode bech = .ok r := by
  obtain ⟨hrp, data⟩ := r
  obtain ⟨symbols, hdecoded⟩ := bech32mDecode_ok h
  have hidem : lower (lower bech) = lower bech := by
    have hchar : ∀ x ∈ lower bech, x.toLower = x := by
      have hascii : ∀ n < 127, (Char.ofNat n).toLower.toLower = (Char.ofNat n).toLower := by decide +kernel
      intro x hx
      obtain ⟨y, hy, rfl⟩ := List.mem_map.mp hx
      have hy' := (toLower_printable (hdecoded.printable _ hx)).2
      have hsame := hascii y.toNat (by omega)
      rwa [Char.ofNat_toNat] at hsame
    conv_rhs => rw [← List.map_id (lower bech)]
    exact List.map_congr_left hchar
  have hrange : bech.any (fun x => x.toNat < 33 || x.toNat > 126) = false := by
    rw [List.any_eq_false]
    intro x hx
    have hx' : x.toLower ∈ lower bech := List.mem_map_of_mem hx
    have hprint := toLower_printable (hdecoded.printable _ hx')
    simp only [Bool.or_eq_true, decide_eq_true_eq]
    omega
  have hmixed : ¬ (bech.map Char.toLower ≠ bech ∧ bech.map Char.toUpper ≠ bech) := by
    rintro ⟨hl, hu⟩
    rcases hcase with hcase | hcase
    · exact hl hcase
    · exact hu hcase
  have hmixed' : ¬ (bech.map Char.toLower ≠ lower bech ∧ (lower bech).map Char.toUpper ≠ lower bech) :=
    fun hboth => hboth.1 rfl
  have hlower : (lower bech).map Char.toLower = bech.map Char.toLower := hidem
  have hrange' : (lower bech).any (fun x => x.toNat < 33 || x.toNat > 126) = false := by
    rw [List.any_eq_false]
    intro x hx
    have hprint := hdecoded.printable x hx
    simp only [Bool.or_eq_true, decide_eq_true_eq]
    omega
  unfold bech32mDecode at h ⊢
  simp only [hrange', hlower, Bool.false_eq_true, if_false, if_neg hmixed'] at h
  simp only [hrange, Bool.false_eq_true, if_false, if_neg hmixed]
  exact h

/-- A text is accepted with some contents exactly when it spells them. -/
theorem decodeAddress_iff_spells {address : String} {contents : AddrType × Network × Bytes} :
    decodeAddress address = .ok contents ↔ Spells address contents := by
  obtain ⟨addr_type, network, payload⟩ := contents
  constructor
  · intro h
    obtain ⟨hrp, symbols, data5, hdecoded⟩ := decodeAddress_ok h
    exact ⟨hdecoded.text.one_case, hdecoded.encode⟩
  · rintro ⟨hcase, hencode⟩
    have hkey : (addr_type, network) ∈ HRP_TABLE.keys := by
      rw [← Dict.get?_isSome]
      cases hget : HRP_TABLE.get? (addr_type, network) with
      | none =>
        simp only [encodeAddress, hget] at hencode
        cases hencode
      | some hrp => rfl
    obtain ⟨written, hwritten, hback⟩ := encodeAddress_decodes payload addr_type network hkey
    rw [hencode] at hwritten
    cases hwritten
    obtain ⟨parts, hparts, hrest⟩ := bind_ok_iff.mp hback
    rw [String.toList_ofList] at hparts
    exact bind_ok_iff.mpr ⟨parts, bech32mDecode_lower hcase hparts, hrest⟩

/-- The two that answer with a truth value never raise and accept exactly the texts that spell an address; the type is
returned for these and an address error raised for all others; and such a text has one kind and belongs to one network. -/
theorem validators_exact (address : String) :
    (∃ valid, validateAddress address = .ok valid ∧ (valid = true ↔ ∃ contents, Spells address contents)) ∧
    (∀ network, ∃ valid, validateAddressForNetwork address network = .ok valid ∧
      (valid = true ↔ ∃ addr_type payload, Spells address (addr_type, network, payload))) ∧
    (∀ kind, getAddressType address = .ok kind ↔
      ∃ addr_type network payload, Spells address (addr_type, network, payload) ∧ kind = addr_type.str) ∧
    ((∃ msg, getAddressType address = .error (.addressError msg)) ↔ ¬ ∃ contents, Spells address contents) ∧
    ∀ contents other, Spells address contents → Spells address other → contents = other := by
  have hunique : ∀ contents other, Spells address contents → Spells address other → contents = other := by
    intro contents other h h'
    have hboth := (decodeAddress_iff_spells.mpr h).symm.trans (decodeAddress_iff_spells.mpr h')
    exact Except.ok.inj hboth
  refine ⟨?_, ?_, ?_, ?_, hunique⟩
  · cases hdecode : decodeAddress address with
    | ok contents =>
      refine ⟨true, by rw [validateAddress, hdecode], ?_⟩
      exact iff_of_true rfl ⟨contents, decodeAddress_iff_spells.mp hdecode⟩
    | error e =>
      obtain ⟨msg, rfl⟩ := decodeAddress_error hdecode
      refine ⟨false, by rw [validateAddress, hdecode], iff_of_false Bool.false_ne_true ?_⟩
      rintro ⟨contents, hspells⟩
      rw [decodeAddress_iff_spells.mpr hspells] at hdecode
      cases hdecode
  · intro network
    cases hdecode : decodeAddress address with
    | ok contents =>
      obtain ⟨addr_type, found, payload⟩ := contents
      refine ⟨found = network, by rw [validateAddressForNetwork, hdecode], ?_⟩
      rw [decide_eq_true_iff]
      have hspells := decodeAddress_iff_spells.mp hdecode
      constructor
      · rintro rfl
        exact ⟨addr_type, payload, hspells⟩
      · rintro ⟨addr_type', payload', hspells'⟩
        exact congrArg (fun contents => contents.2.1) (hunique _ _ hspells hspells')
    | error e =>
      obtain ⟨msg, rfl⟩ := decodeAddress_error hdecode
      refine ⟨false, by rw [validateAddressForNetwork, hdecode], iff_of_false Bool.false_ne_true ?_⟩
      rintro ⟨addr_type, payload, hspells⟩
      rw [decodeAddress_iff_spells.mpr hspells] at hdecode
      cases hdecode
  · intro kind
    constructor
    · intro h
      obtain ⟨⟨addr_type, network, payload⟩, hdecode, h⟩ := bind_ok_iff.mp h
      exact ⟨addr_type, network, payload, decodeAddress_iff_spells.mp hdecode, (Except.ok.inj h).symm⟩
    · rintro ⟨addr_type, network, payload, hspells, rfl⟩
      rw [getAddressType, decodeAddress_iff_spells.mpr hspells]
      rfl
  · cases hdecode : decodeAddress address with
    | ok contents =>
      refine iff_of_false ?_ (fun hnone => hnone ⟨contents, decodeAddress_iff_spells.mp hdecode⟩)
      rintro ⟨msg, h⟩
      rw [getAddressType, hdecode] at h
      cases h
    | error e =>
      obtain ⟨msg, rfl⟩ := decodeAddress_error hdecode
      refine iff_of_true ⟨msg, by rw [getAddressType, hdecode]; rfl⟩ ?_
      rintro ⟨contents, hspells⟩
      rw [decodeAddress_iff_spells.mpr hspells] at hdecode
      cases hdecode

end Noxipher

import Noxipher.Address.RoundTrip
import Noxipher.Core.Text

namespace Noxipher

namespace Bech32m

/-- A text that decodes: in lower case a part, a separator and symbols, of which the last six are the checksum. -/
structure Decoded (bech hrp symbols : List Char) (data : List Nat) : Prop where
  printable : ∀ x ∈ bech, 33 ≤ x.toNat ∧ x.toNat ≤ 126
  one_case : lower bech = bech ∨ bech.map Char.toUpper = bech
  split : lower bech = hrp++ '1'::symbols
  charset : ∀ x ∈ symbols, x ∈ CHARSET
  length : 6 ≤ symbols.length
  verified : verifyChecksum hrp (symbols.map CHARSET.idxOf) = true
  data_eq : data = (symbols.map CHARSET.idxOf).take (symbols.length-6)

/-- The last occurrence of a character splits the text, and it does not occur behind it. -/
theorem rfind_split {c : Char} {s : List Char} (h : 0 ≤ rfind c s) :
    s = s.take (rfind c s).toNat++c::s.drop ((rfind c s).toNat+1) := by
  unfold rfind at h ⊢
  cases hidx : s.reverse.idxOf? c with
  | none =>
    rw [hidx] at h
    have hneg : (0 : Int) ≤ -1 := h
    omega
  | some k =>
    obtain ⟨hk, hget, -⟩ := List.idxOf?_eq_some_iff.mp hidx
    rw [List.length_reverse] at hk
    rw [List.getElem_reverse] at hget
    have hpos : ((s.length : Int)-1-k).toNat = s.length-1-k := by omega
    dsimp only
    rw [hpos, ← hget, List.getElem_cons_drop, List.take_append_drop]

theorem bech32mDecode_ok {bech hrp : List Char} {data : List Nat} (h : bech32mDecode bech = .ok (hrp, data)) :
    ∃ symbols, Decoded bech hrp symbols data := by
  unfold bech32mDecode at h
  simp only at h
  split_ifs at h with hrange hcase hsep hdata hsum
  cases h
  push Not at hsep
  have hsplit := rfind_split (c := '1') (s := bech.map Char.toLower) (by omega)
  refine ⟨(bech.map Char.toLower).drop ((rfind '1' (bech.map Char.toLower)).toNat+1), ?_⟩
  constructor
  · intro x hx
    have hnot := List.any_eq_false.mp (Bool.not_eq_true _ ▸ hrange) x hx
    simp only [Bool.or_eq_true, decide_eq_true_eq] at hnot
    omega
  · by_contra hmixed
    push Not at hmixed
    exact hcase hmixed
  · exact hsplit
  · intro x hx
    exact of_decide_eq_true (List.all_eq_true.mp hdata x hx)
  · rw [List.length_drop]
    omega
  · exact hsum
  · rw [List.length_map]

/-- Every symbol of the charset is written by its digit. -/
theorem charset_idxOf : ∀ x ∈ CHARSET, charsetGet (CHARSET.idxOf x) = .ok x ∧ CHARSET.idxOf x < 32 ∧ x ≠ '1' := by
  intro x hx
  have hlt : CHARSET.idxOf x < 32 := List.idxOf_lt_length_iff.mpr hx
  have hsymbol : symbol (CHARSET.idxOf x) = x := by
    rw [symbol, List.getD_eq_getElem?_getD, List.getElem?_idxOf hx]
    rfl
  obtain ⟨hget, -, hone, -, -⟩ := charset_spec _ hlt
  rw [hsymbol] at hget hone
  exact ⟨hget, hlt, hone⟩

namespace Decoded

variable {bech hrp symbols : List Char} {data : List Nat}

theorem digits_lt (h : Decoded bech hrp symbols data) : ∀ d ∈ symbols.map CHARSET.idxOf, d < 32 := by
  intro d hd
  obtain ⟨x, hx, rfl⟩ := List.mem_map.mp hd
  exact (charset_idxOf x (h.charset x hx)).2.1

theorem data_lt (h : Decoded bech hrp symbols data) : ∀ d ∈ data, d < 32 := by
  intro d hd
  rw [h.data_eq] at hd
  exact h.digits_lt d (List.mem_of_mem_take hd)

theorem hrp_ascii (h : Decoded bech hrp symbols data) : ∀ x ∈ hrp, x.toNat < 128 := by
  have hascii : ∀ n < 127, (Char.ofNat n).toLower.toNat < 128 := by decide +kernel
  intro x hx
  have hmem : x ∈ lower bech := by
    rw [h.split]
    exact List.mem_append_left _ hx
  obtain ⟨y, hy, rfl⟩ := List.mem_map.mp hmem
  have hlow := hascii y.toNat (by have := (h.printable y hy).2; omega)
  rwa [Char.ofNat_toNat] at hlow

/-- The symbols are the digits read, followed by the checksum of the part and these digits. -/
theorem digits_eq (h : Decoded bech hrp symbols data) :
    symbols.map CHARSET.idxOf = data++createChecksum hrp data := by
  have hsplit : data++(symbols.map CHARSET.idxOf).drop (symbols.length-6) = symbols.map CHARSET.idxOf := by
    rw [h.data_eq]
    exact List.take_append_drop _ _
  have hlength : ((symbols.map CHARSET.idxOf).drop (symbols.length-6)).length = 6 := by
    have hlong := h.length
    rw [List.length_drop, List.length_map]
    omega
  have hverified := h.verified
  rw [← hsplit] at hverified
  have hsum := verifyChecksum_unique hrp data _ hlength h.hrp_ascii h.data_lt
    (fun d hd => h.digits_lt d (List.mem_of_mem_drop hd)) hverified
  rw [← hsum]
  exact hsplit.symm

/-- What was decoded is encoded to the text in lower case. -/
theorem encode (h : Decoded bech hrp symbols data) : bech32mEncode hrp data = .ok (lower bech) := by
  have hwrite : traverse charsetGet (data++createChecksum hrp data) = .ok symbols := by
    rw [← h.digits_eq]
    have hback : traverse charsetGet (symbols.map CHARSET.idxOf) =
        .ok ((symbols.map CHARSET.idxOf).map symbol) :=
      traverse_eq_map _ _ _ (fun d hd => (charset_spec d (h.digits_lt d hd)).1)
    rw [hback, List.map_map]
    congr 1
    conv_rhs => rw [← List.map_id symbols]
    apply List.map_congr_left
    intro x hx
    obtain ⟨hget, hlt, -⟩ := charset_idxOf x (h.charset x hx)
    rw [(charset_spec _ hlt).1] at hget
    exact Except.ok.inj hget
  rw [bech32mEncode, hwrite, ok_bind, h.split]
  simp

end Decoded

end Bech32m

open Bech32m

/-- Every prefix of the reverse table belongs to its entry of the table, and has no separator. -/
theorem hrpReverse_spec : ∀ p ∈ HRP_REVERSE.entries,
    HRP_TABLE.get? p.2 = some p.1 ∧ '1' ∉ p.1.toList ∧ p.1.toList.head? = some 'm' := by decide

/-- An address that decodes: its text, the prefix of its type and network, and its payload regrouped. -/
structure DecodedAddress (address : String) (addr_type : AddrType) (network : Network) (payload : Bytes)
    (hrp symbols : List Char) (data5 : List Nat) : Prop where
  text : Decoded address.toList hrp symbols data5
  prefix_known : HRP_REVERSE.get? (String.ofList hrp) = some (addr_type, network)
  regrouped : convertbits data5 5 8 false = .ok (payload.map UInt8.toNat)

theorem decodeAddress_ok {address : String} {addr_type : AddrType} {network : Network} {payload : Bytes}
    (h : decodeAddress address = .ok (addr_type, network, payload)) :
    ∃ hrp symbols data5, DecodedAddress address addr_type network payload hrp symbols data5 := by
  obtain ⟨⟨hrp, data5⟩, hdecode, h⟩ := bind_ok_iff.mp h
  obtain ⟨symbols, htext⟩ := bech32mDecode_ok hdecode
  simp only at h
  cases hget : HRP_REVERSE.get? (String.ofList hrp) with
  | none =>
    rw [hget] at h
    cases h
  | some info =>
    rw [hget] at h
    obtain ⟨digits, hconv, h⟩ := bind_ok_iff.mp h
    cases h
    refine ⟨hrp, symbols, data5, htext, hget, ?_⟩
    have hbytes := (convertbits_unpad_ok (by decide) htext.data_lt hconv).1
    rw [hconv, List.map_map]
    congr 1
    conv_lhs => rw [← List.map_id digits]
    apply List.map_congr_left
    intro d hd
    have hlt := hbytes d hd
    simp only [Function.comp_apply, id_eq, UInt8.toNat_ofNat']
    omega

namespace DecodedAddress

variable {address : String} {addr_type : AddrType} {network : Network} {payload : Bytes} {hrp symbols : List Char}
  {data5 : List Nat}

theorem hrp_spec (h : DecodedAddress address addr_type network payload hrp symbols data5) :
    HRP_TABLE.get? (addr_type, network) = some (String.ofList hrp) ∧ '1' ∉ hrp ∧ hrp.head? = some 'm' := by
  have hspec := hrpReverse_spec _ (Dict.mem_of_get? _ h.prefix_known)
  rwa [String.toList_ofList] at hspec

theorem encode (h : DecodedAddress address addr_type network payload hrp symbols data5) :
    encodeAddress payload addr_type network = .ok (String.ofList (lower address.toList)) := by
  have hpad := convertbits_repad (by decide) (by decide) h.text.data_lt h.regrouped
  simp only [encodeAddress, h.hrp_spec.1, hpad, ok_bind, String.toList_ofList, h.text.encode]
  rfl

end DecodedAddress

/-- An accepted address is what encoding its contents writes, up to case: in lower case it is accepted with the same
contents, and no other text is. -/
theorem decodeAddress_canonical (address : String) (addr_type : AddrType) (network : Network) (payload : Bytes)
    (h : decodeAddress address = .ok (addr_type, network, payload)) :
    encodeAddress payload addr_type network = .ok (String.ofList (lower address.toList)) ∧
    decodeAddress (String.ofList (lower address.toList)) = .ok (addr_type, network, payload) ∧
    ∀ other, decodeAddress other = .ok (addr_type, network, payload) → lower other.toList = lower address.toList := by
  obtain ⟨hrp, symbols, data5, hdecoded⟩ := decodeAddress_ok h
  have hencode := hdecoded.encode
  have hkey : (addr_type, network) ∈ HRP_TABLE.keys := by
    rw [← Dict.get?_isSome, hdecoded.hrp_spec.1]
    rfl
  refine ⟨hencode, ?_, ?_⟩
  · obtain ⟨written, hwritten, hback⟩ := encodeAddress_decodes payload addr_type network hkey
    rw [hencode] at hwritten
    cases hwritten
    exact hback
  · intro other hother
    obtain ⟨hrp', symbols', data5', hdecoded'⟩ := decodeAddress_ok hother
    have hsame := hdecoded'.encode
    rw [hencode] at hsame
    have htext := congrArg String.toList (Except.ok.inj hsame)
    rw [String.toList_ofList, String.toList_ofList] at htext
    exact htext.symm

/-- An address in upper case. -/
theorem decodeAddress_canonical_upper :
    encodeAddress [0x73, 1, 2] .dust .preprod = .ok (String.ofList (lower "MN_DUST_PREPROD1WVQSYRN0L5M".toList)) :=
  (decodeAddress_canonical "MN_DUST_PREPROD1WVQSYRN0L5M" .dust .preprod [0x73, 1, 2] (by decide +kernel)).1

end Noxipher

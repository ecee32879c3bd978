import Noxipher.Address.Checksum
import Noxipher.Address.Regroup

namespace Noxipher

namespace Bech32m

/-- A printable character that lower-casing leaves alone. -/
def LowerPrintable (c : Char) : Prop := 33 ≤ c.toNat ∧ c.toNat ≤ 126 ∧ c.toLower = c

instance (c : Char) : Decidable (LowerPrintable c) := instDecidableAnd

def symbol (d : Nat) : Char := CHARSET.getD d 'q'

theorem charset_spec : ∀ d < 32, charsetGet d = .ok (symbol d) ∧ LowerPrintable (symbol d) ∧
    symbol d ≠ '1' ∧ symbol d ∈ CHARSET ∧ CHARSET.idxOf (symbol d) = d := by decide

theorem idxOf?_first (c : Char) (before after : List Char) (h : c ∉ before) :
    (before ++ c::after).idxOf? c = some before.length := by
  induction before with
  | nil => simp [List.idxOf?_cons]
  | cons b before ih =>
    simp only [List.mem_cons, not_or] at h
    simp [List.idxOf?_cons, ih h.2, Ne.symm h.1]

/-- The separator is found after the human readable part, since no symbol is a '1'. -/
theorem rfind_separator (hrp symbols : List Char) (h : '1' ∉ symbols) :
    rfind '1' (hrp ++ ['1'] ++ symbols) = hrp.length := by
  have hrev : (hrp ++ ['1'] ++ symbols).reverse = symbols.reverse ++ '1'::hrp.reverse := by simp
  have hidx := idxOf?_first '1' symbols.reverse hrp.reverse (by simpa using h)
  unfold rfind
  rw [hrev, hidx]
  simp only [List.length_append, List.length_singleton, List.length_reverse]
  omega

/-- Digits are written as symbols, which are read back as the digits. -/
theorem symbols_spec (digits : List Nat) (h : ∀ d ∈ digits, d < 32) :
    traverse charsetGet digits = .ok (digits.map symbol) ∧
    (∀ x ∈ digits.map symbol, LowerPrintable x ∧ x ≠ '1' ∧ x ∈ CHARSET) ∧
    (digits.map symbol).map CHARSET.idxOf = digits := by
  refine ⟨traverse_eq_map charsetGet symbol digits (fun d hm => (charset_spec d (h d hm)).1), ?_, ?_⟩
  · intro x hx
    obtain ⟨d, hm, rfl⟩ := List.mem_map.mp hx
    obtain ⟨-, hprint, hone, hmem, -⟩ := charset_spec d (h d hm)
    exact ⟨hprint, hone, hmem⟩
  · rw [List.map_map]
    conv_rhs => rw [← List.map_id digits]
    exact List.map_congr_left (fun d hm => (charset_spec d (h d hm)).2.2.2.2)

/-- Printable lower case text passes the range check and is its own lower case. -/
theorem printable_guards (chars : List Char) (h : ∀ x ∈ chars, LowerPrintable x) :
    chars.any (fun x => x.toNat < 33 || x.toNat > 126) = false ∧ chars.map Char.toLower = chars := by
  constructor
  · rw [List.any_eq_false]
    intro x hx
    have hprint := h x hx
    simp only [Bool.or_eq_true, decide_eq_true_eq]
    unfold LowerPrintable at hprint
    omega
  · conv_rhs => rw [← List.map_id chars]
    exact List.map_congr_left (fun x hx => (h x hx).2.2)

/-- A printable text with a valid checksum is split at its separator. -/
theorem decode_joined (hrp symbols : List Char) (hne : hrp ≠ []) (hlen : 6 ≤ symbols.length)
    (hprint : ∀ x ∈ hrp ++ ['1'] ++ symbols, LowerPrintable x) (hsym : ∀ x ∈ symbols, x ≠ '1' ∧ x ∈ CHARSET)
    (hverify : verifyChecksum hrp (symbols.map CHARSET.idxOf) = true) :
    bech32mDecode (hrp ++ ['1'] ++ symbols) =
      .ok (hrp, (symbols.map CHARSET.idxOf).take (symbols.length-6)) := by
  obtain ⟨hrange, hlower⟩ := printable_guards _ hprint
  have hsep : rfind '1' (hrp ++ ['1'] ++ symbols) = hrp.length := by
    apply rfind_separator
    intro hm
    exact (hsym '1' hm).1 rfl
  have hpos : 0 < hrp.length := List.length_pos_iff.mpr hne
  have hguard : ¬ ((hrp.length : Int) < 1 ∨ (hrp.length : Int)+7 > (hrp ++ ['1'] ++ symbols).length) := by
    simp only [List.length_append, List.length_singleton]
    push_cast
    omega
  have htake : (hrp ++ ['1'] ++ symbols).take hrp.length = hrp := by simp
  have hdrop : (hrp ++ ['1'] ++ symbols).drop (hrp.length+1) = symbols := by simp [List.drop_append]
  have hall : symbols.all (fun x => x ∈ CHARSET) = true := by
    rw [List.all_eq_true]
    intro x hx
    simpa using (hsym x hx).2
  simp only [bech32mDecode, hrange, Bool.false_eq_true, if_false, hlower, ne_eq, not_true_eq_false,
    false_and, hsep, if_neg hguard, Int.toNat_natCast, htake, hdrop, hall, hverify, List.length_map]

/-- Decoding what was encoded returns the part and the digits before the checksum. -/
theorem decode_encode (hrp : List Char) (data : List Nat) (hne : hrp ≠ [])
    (hh : ∀ x ∈ hrp, LowerPrintable x) (hd : ∀ d ∈ data, d < 32) :
    ∃ chars, bech32mEncode hrp data = .ok chars ∧ bech32mDecode chars = .ok (hrp, data) := by
  let digits := data ++ createChecksum hrp data
  have hdigits : ∀ d ∈ digits, d < 32 := by
    intro d hm
    rcases List.mem_append.mp hm with hm | hm
    · exact hd d hm
    · exact createChecksum_lt hrp data d hm
  have hlen : digits.length = data.length+6 := by simp [digits, createChecksum_length]
  obtain ⟨hwrite, hsym, hback⟩ := symbols_spec digits hdigits
  have hprint : ∀ x ∈ hrp ++ ['1'] ++ digits.map symbol, LowerPrintable x := by
    intro x hx
    simp only [List.mem_append, List.mem_singleton] at hx
    rcases hx with (hx | rfl) | hx
    · exact hh x hx
    · decide
    · exact (hsym x hx).1
  have hverify : verifyChecksum hrp digits = true := by
    apply verify_createChecksum hrp data _ hd
    intro x hx
    have h := (hh x hx).2.1
    omega
  have hdata : digits.take (digits.length-6) = data := by
    rw [hlen, Nat.add_sub_cancel]
    simp [digits]
  refine ⟨hrp ++ ['1'] ++ digits.map symbol, ?_, ?_⟩
  · simp only [bech32mEncode]
    change (traverse charsetGet digits >>= _) = _
    rw [hwrite]
    rfl
  · rw [decode_joined hrp (digits.map symbol) hne (by simp [hlen]) hprint (fun x hx => (hsym x hx).2)
      (by rw [hback]; exact hverify), hback, List.length_map, hdata]

end Bech32m

open Bech32m

/-- Every entry of the table is printable lower case and is its own inverse's key. -/
theorem hrpTable_spec : ∀ p ∈ HRP_TABLE.entries, p.2.toList ≠ [] ∧
    p.2.toList.all (fun x => LowerPrintable x) = true ∧ HRP_REVERSE.get? p.2 = some p.1 := by decide

theorem encodeAddress_decodes (payload : Bytes) (addr_type : AddrType) (network : Network)
    (h : (addr_type, network) ∈ HRP_TABLE.keys) :
    ∃ address, encodeAddress payload addr_type network = .ok address ∧
      decodeAddress address = .ok (addr_type, network, payload) := by
  obtain ⟨hrp, hget⟩ := Option.isSome_iff_exists.mp ((Dict.get?_isSome _ _).mpr h)
  obtain ⟨hne, hall, hrev⟩ := hrpTable_spec _ (Dict.mem_of_get? _ hget)
  have hchars : ∀ x ∈ hrp.toList, LowerPrintable x := by simpa using hall
  have hbytes : ∀ d ∈ payload.map UInt8.toNat, d < 2^8 := by
    intro d hd
    obtain ⟨b, -, rfl⟩ := List.mem_map.mp hd
    exact b.toNat_lt
  obtain ⟨data5, k, hconv, hk, hlen, hval, hdig⟩ :=
    convertbits_pad 8 5 (by decide) (payload.map UInt8.toNat) hbytes
  obtain ⟨chars, henc, hdec⟩ := decode_encode hrp.toList data5 hne hchars hdig
  have hback : convertbits data5 5 8 false = .ok (payload.map UInt8.toNat) :=
    convertbits_unpad 5 8 k (by decide) data5 _ hdig hbytes hk (by omega) hlen hval
  refine ⟨String.ofList chars, ?_, ?_⟩
  · simp only [encodeAddress, hget, hconv, henc, ok_bind]
    rfl
  · have hpay : (payload.map UInt8.toNat).map UInt8.ofNat = payload := by
      simp [Function.comp_def]
    simp only [decodeAddress, String.toList_ofList, hdec, ok_bind, String.ofList_toList, hrev, hback,
      hpay]
    rfl

theorem convertLoop_error {frombits tobits : Nat} {data ret : List Nat} {acc bits : Nat} {e : PyError}
    (h : convertLoop frombits tobits data acc bits ret = .error e) : ∃ msg, e = .addressError msg := by
  induction data generalizing acc bits ret with
  | nil => cases h
  | cons value data ih =>
    unfold convertLoop at h
    split_ifs at h with hlarge
    · cases h
      exact ⟨_, rfl⟩
    · exact ih h

theorem convertbits_error {data : List Nat} {frombits tobits : Nat} {pad : Bool} {e : PyError}
    (h : convertbits data frombits tobits pad = .error e) : ∃ msg, e = .addressError msg := by
  rcases bind_error_iff.mp h with hloop | ⟨⟨acc, bits, ret⟩, -, h⟩
  · exact convertLoop_error hloop
  · simp only at h
    split_ifs at h with hpad hbits hrest
    all_goals cases h
    exact ⟨_, rfl⟩

theorem bech32mDecode_error {bech : List Char} {e : PyError} (h : bech32mDecode bech = .error e) :
    ∃ msg, e = .addressError msg := by
  unfold bech32mDecode at h
  simp only at h
  split_ifs at h with hrange hcase hsep hdata hsum
  all_goals
    cases h
    exact ⟨_, rfl⟩

/-- Text that does not decode is refused with an address error. -/
theorem decodeAddress_error {address : String} {e : PyError} (h : decodeAddress address = .error e) :
    ∃ msg, e = .addressError msg := by
  rcases bind_error_iff.mp h with hdecode | ⟨⟨hrp, data5⟩, -, h⟩
  · exact bech32mDecode_error hdecode
  · simp only at h
    cases hget : HRP_REVERSE.get? (String.ofList hrp) with
    | none =>
      rw [hget] at h
      cases h
      exact ⟨_, rfl⟩
    | some info =>
      rw [hget] at h
      rcases bind_error_iff.mp h with hconv | ⟨payload, -, h⟩
      · exact convertbits_error hconv
      · cases h

/-- Decoding an encoded address returns its type, its network and its payload. -/
theorem decode_encodeAddress (payload : Bytes) (addr_type : AddrType) (network : Network)
    (h : (addr_type, network) ∈ HRP_TABLE.keys) :
    (encodeAddress payload addr_type network >>= decodeAddress) = .ok (addr_type, network, payload) := by
  obtain ⟨address, henc, hdec⟩ := encodeAddress_decodes payload addr_type network h
  rw [henc, ok_bind, hdec]

theorem decode_encodeAddress_dust :
    (encodeAddress [0x73, 1, 2] .dust .preprod >>= decodeAddress) = .ok (.dust, .preprod, [0x73, 1, 2]) :=
  decode_encodeAddress [0x73, 1, 2] .dust .preprod (by decide)

end Noxipher

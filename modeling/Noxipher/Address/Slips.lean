import Noxipher.Address.Canonical

namespace Noxipher

namespace Bech32m

/-- The feedback of five bits shows in the lowest five: only no bits give nothing there. -/
theorem taps_low : ∀ top < 32, taps top % 32 = 0 → top = 0 := by decide

/-- A zero symbol empties no register but the empty one. -/
theorem polymodStep_faithful : XorFold.Faithful polymodStep 30 := by
  intro chk hchk hzero
  rw [polymodStep_eq, Nat.xor_zero] at hzero
  have hsame := Nat.xor_eq_zero_iff.mp hzero
  have hmask : chk &&& 0x1FFFFFF = chk % 2^25 := Nat.and_two_pow_sub_one_eq_mod chk 25
  rw [hmask, Nat.shiftLeft_eq, Nat.shiftRight_eq_div_pow] at hsame
  have htop : chk/2^25 = 0 := taps_low _ (by omega) (by omega)
  have hnone : taps 0 = 0 := by simp [taps]
  rw [htop, hnone] at hsame
  omega

/-- Two texts with one prefix of symbols and one suffix are not both valid when the difference between does not
cancel by itself. -/
theorem verify_differs {hrp : List Char} {before mid mid' after : List Nat} (hh : ∀ x ∈ hrp, x.toNat < 128)
    (hd : ∀ d ∈ before++mid++mid'++after, d < 32) (hlen : mid.length = mid'.length)
    (herror : (List.zipWith (· ^^^ ·) mid mid').foldl polymodStep 0 ≠ 0)
    (h : verifyChecksum hrp (before++mid++after) = true) : verifyChecksum hrp (before++mid'++after) = false := by
  have hstart : polymod (hrpExpand hrp) < 2^30 := by
    have hnone := polymod_lt hrp [] hh (by simp)
    rwa [List.append_nil] at hnone
  have hlt : ∀ d ∈ before++mid++mid'++after, d < 2^30 := by
    intro d hmem
    have hdigit := hd d hmem
    omega
  have hne := polymodStep_faithful.foldl_ne polymodStep_linear polymodStep_lt hstart hlt hlen herror
  unfold verifyChecksum polymod at h ⊢
  rw [List.foldl_append, decide_eq_true_iff] at h
  rw [List.foldl_append, decide_eq_false_iff_not]
  intro hother
  exact hne (h.trans hother.symm)

/-- One wrong symbol does not cancel. -/
theorem replaced_error {v w : Nat} (hv : v < 32) (hw : w < 32) (hne : v ≠ w) :
    (List.zipWith (· ^^^ ·) [v] [w]).foldl polymodStep 0 ≠ 0 := by
  have hlt : v ^^^ w < 2^5 := Nat.xor_lt_two_pow hv hw
  have hdiffer : v ^^^ w ≠ 0 := by
    intro hzero
    exact hne (Nat.xor_eq_zero_iff.mp hzero)
  show polymodStep 0 (v ^^^ w) ≠ 0
  rw [polymodStep_small 0 _ (by norm_num) hlt]
  omega

/-- Two symbols in the wrong order do not cancel each other. -/
theorem swapped_error {v w : Nat} (hv : v < 32) (hw : w < 32) (hne : v ≠ w) :
    (List.zipWith (· ^^^ ·) [v, w] [w, v]).foldl polymodStep 0 ≠ 0 := by
  have hlt : v ^^^ w < 2^5 := Nat.xor_lt_two_pow hv hw
  have hdiffer : v ^^^ w ≠ 0 := by
    intro hzero
    exact hne (Nat.xor_eq_zero_iff.mp hzero)
  show polymodStep (polymodStep 0 (v ^^^ w)) (w ^^^ v) ≠ 0
  rw [Nat.xor_comm w v, polymodStep_small 0 _ (by norm_num) hlt, polymodStep_small _ _ (by omega) hlt]
  omega

theorem idxOf_inj {x y : Char} (hx : x ∈ CHARSET) (h : CHARSET.idxOf x = CHARSET.idxOf y) : x = y :=
  (List.idxOf_inj hx).mp h

/-- Upper case forgets lower case. -/
theorem upper_lower {x : Char} (h : x.toNat ≤ 126) : x.toLower.toUpper = x.toUpper := by
  have hall : ∀ n < 127, (Char.ofNat n).toLower.toUpper = (Char.ofNat n).toUpper := by decide +kernel
  have hx := hall x.toNat (by omega)
  rwa [Char.ofNat_toNat] at hx

/-- A text of one case is told by its lower case and the case of its first letter. -/
theorem one_case_inj {text other : List Char} (hprint : ∀ x ∈ text, x.toNat ≤ 126)
    (hprint' : ∀ x ∈ other, x.toNat ≤ 126) (hcase : lower text = text ∨ text.map Char.toUpper = text)
    (hcase' : lower other = other ∨ other.map Char.toUpper = other)
    (hhead : text.head? = other.head?) (hletter : (lower text).head? = some 'm') (hlower : lower text = lower other) :
    text = other := by
  have hupper {t : List Char} (hp : ∀ x ∈ t, x.toNat ≤ 126) : (lower t).map Char.toUpper = t.map Char.toUpper := by
    rw [lower, List.map_map]
    exact List.map_congr_left (fun x hx => upper_lower (hp x hx))
  -- the first letter is 'm' in a text of lower case, and 'M' in one of upper case
  have hmixed {t t' : List Char} (hsame : t.head? = t'.head?) (hm : (lower t).head? = some 'm') (hl : lower t = t)
      (hu : t'.map Char.toUpper = t') : False := by
    rw [hl, hsame] at hm
    have hfirst : (t'.map Char.toUpper).head? = some 'M' := by
      rw [List.head?_map, hm]
      rfl
    rw [hu, hm] at hfirst
    exact absurd (Option.some.inj hfirst) (by decide)
  rcases hcase with hl | hu
  · rcases hcase' with hl' | hu'
    · rw [← hl, ← hl', hlower]
    · exact (hmixed hhead hletter hl hu').elim
  · rcases hcase' with hl' | hu'
    · rw [hlower] at hletter
      exact (hmixed hhead.symm hletter hl' hu).elim
    · rw [← hu, ← hu', ← hupper hprint, ← hupper hprint', hlower]

end Bech32m

open Bech32m

section Slips

variable {address other : String} {addr_type addr_type' : AddrType} {network network' : Network}
  {payload payload' : Bytes} {hrp symbols hrp' symbols' : List Char} {data5 data5' : List Nat}

theorem DecodedAddress.no_separator (h : DecodedAddress address addr_type network payload hrp symbols data5) :
    '1' ∉ symbols := by
  intro hmem
  exact (charset_idxOf '1' (h.text.charset '1' hmem)).2.2 rfl

/-- Of two accepted texts with one beginning up to the separator, each begins with the same part. -/
theorem DecodedAddress.same_hrp (h : DecodedAddress address addr_type network payload hrp symbols data5)
    {tail : List Char} (htail : lower address.toList = hrp'++ '1'::tail) : hrp = hrp' ∧ symbols = tail := by
  have hsplit := h.text.split.symm.trans htail
  obtain ⟨hhrp, -, hsymbols⟩ := (List.append_cons_inj_of_notMem h.hrp_spec.2.1 h.no_separator).mp hsplit
  exact ⟨hhrp, hsymbols⟩

/-- Two accepted texts that are the same up to case are the same when they begin alike. -/
theorem DecodedAddress.same_text (h : DecodedAddress address addr_type network payload hrp symbols data5)
    (h' : DecodedAddress other addr_type' network' payload' hrp' symbols' data5')
    (hlower : lower address.toList = lower other.toList) (hhead : address.toList.head? = other.toList.head?) :
    address.toList = other.toList := by
  have hletter : (lower address.toList).head? = some 'm' := by
    have hm := h.hrp_spec.2.2
    rw [h.text.split]
    cases hrp with
    | nil => cases hm
    | cons x hrp => exact hm
  exact one_case_inj (fun x hx => (h.text.printable x hx).2) (fun x hx => (h'.text.printable x hx).2)
    h.text.one_case h'.text.one_case hhead hletter hlower

/-- Two accepted texts that differ only between the separator and a common rest agree there, unless the difference of
their symbols cancels by itself. -/
theorem DecodedAddress.no_slip (h : DecodedAddress address addr_type network payload hrp symbols data5)
    (h' : DecodedAddress other addr_type' network' payload' hrp' symbols' data5') {front mid mid' back : List Char}
    (htext : address.toList = front++mid++back) (htext' : other.toList = front++mid'++back)
    (hfront : ∃ tail, lower front = hrp++ '1'::tail) (hlen : mid.length = mid'.length)
    (herror : lower mid ≠ lower mid' → (∀ x ∈ lower mid++lower mid', x ∈ CHARSET) →
      (List.zipWith (· ^^^ ·) ((lower mid).map CHARSET.idxOf)
        ((lower mid').map CHARSET.idxOf)).foldl polymodStep 0 ≠ 0) :
    mid = mid' := by
  obtain ⟨tail, hfront⟩ := hfront
  have hlowered {text part : List Char} (hparts : text = front++part++back) :
      lower text = hrp++ '1'::(tail++lower part++lower back) := by
    rw [hparts, lower, List.map_append, List.map_append]
    show lower front++lower part++lower back = _
    rw [hfront]
    simp
  have hlower := hlowered htext
  have hlower' := hlowered htext'
  obtain ⟨-, hsymbols⟩ := h.same_hrp hlower
  obtain ⟨hhrp, hsymbols'⟩ := h'.same_hrp hlower'
  by_cases hsame : lower mid = lower mid'
  · have hhead : address.toList.head? = other.toList.head? := by
      rw [htext, htext', List.append_assoc, List.append_assoc]
      cases front with
      | nil => cases hrp <;> cases hfront
      | cons x front => rfl
    have hequal := h.same_text h' (by rw [hlower, hlower', hsame]) hhead
    rw [htext, htext'] at hequal
    exact List.append_cancel_left (List.append_cancel_right hequal)
  · have hverified := h.text.verified
    have hverified' := h'.text.verified
    have hdigits := h.text.digits_lt
    have hdigits' := h'.text.digits_lt
    rw [hsymbols, List.map_append, List.map_append] at hverified hdigits
    rw [hhrp, hsymbols', List.map_append, List.map_append] at hverified'
    rw [hsymbols', List.map_append, List.map_append] at hdigits'
    simp only [List.mem_append] at hdigits hdigits'
    have hall : ∀ d ∈ tail.map CHARSET.idxOf++(lower mid).map CHARSET.idxOf++(lower mid').map CHARSET.idxOf++
        (lower back).map CHARSET.idxOf, d < 32 := by
      intro d hd
      simp only [List.mem_append] at hd
      rcases hd with ((hd | hd) | hd) | hd
      · exact hdigits d (Or.inl (Or.inl hd))
      · exact hdigits d (Or.inl (Or.inr hd))
      · exact hdigits' d (Or.inl (Or.inr hd))
      · exact hdigits d (Or.inr hd)
    have hcharset : ∀ x ∈ lower mid++lower mid', x ∈ CHARSET := by
      intro x hx
      rcases List.mem_append.mp hx with hx | hx
      · exact h.text.charset x (by simp [hsymbols, hx])
      · exact h'.text.charset x (by simp [hsymbols', hx])
    have hfails := verify_differs h.text.hrp_ascii hall (by simp [lower, hlen]) (herror hsame hcharset) hverified
    rw [hfails] at hverified'
    cases hverified'

/-- What stands before a position behind the separator begins with the part and the separator. -/
theorem DecodedAddress.front (h : DecodedAddress address addr_type network payload hrp symbols data5) {i : Nat}
    (hi : rfind '1' (lower address.toList) < i) : ∃ tail, lower (address.toList.take i) = hrp++ '1'::tail := by
  have hsep := rfind_separator hrp symbols h.no_separator
  rw [List.append_assoc, List.singleton_append, ← h.text.split] at hsep
  rw [hsep] at hi
  obtain ⟨k, rfl⟩ : ∃ k, i = hrp.length+(k+1) := ⟨i-hrp.length-1, by omega⟩
  refine ⟨symbols.take k, ?_⟩
  have htake : lower (address.toList.take (hrp.length+(k+1))) = (lower address.toList).take (hrp.length+(k+1)) :=
    List.map_take
  rw [htake, h.text.split, List.take_length_add_append, List.take_succ_cons]

/-- Text that an accepted address would have to agree with is refused. -/
theorem refused_of_differs (hdiffers : ∀ contents, decodeAddress other ≠ .ok contents) :
    ∃ msg, decodeAddress other = .error (.addressError msg) := by
  cases hdecode : decodeAddress other with
  | ok contents => exact absurd hdecode (hdiffers contents)
  | error e =>
    obtain ⟨msg, rfl⟩ := decodeAddress_error hdecode
    exact ⟨msg, rfl⟩

/-- One character behind the separator replaced. -/
theorem replaced_refused (h : decodeAddress address = .ok (addr_type, network, payload)) {i : Nat} {c d : Char}
    (hi : rfind '1' (lower address.toList) < i) (hget : address.toList[i]? = some c) (hne : d ≠ c) :
    ∃ msg, decodeAddress (String.ofList (address.toList.set i d)) = .error (.addressError msg) := by
  obtain ⟨hrp, symbols, data5, hdecoded⟩ := decodeAddress_ok h
  obtain ⟨hbound, hc⟩ := List.getElem?_eq_some_iff.mp hget
  apply refused_of_differs
  intro contents hother
  obtain ⟨hrp', symbols', data5', hdecoded'⟩ := decodeAddress_ok hother
  have htext : address.toList = address.toList.take i++[c]++address.toList.drop (i+1) := by
    rw [List.append_assoc, List.singleton_append, ← hc, List.getElem_cons_drop, List.take_append_drop]
  have htext' : (String.ofList (address.toList.set i d)).toList =
      address.toList.take i++[d]++address.toList.drop (i+1) := by
    rw [String.toList_ofList, List.set_eq_take_append_cons_drop, if_pos hbound, List.append_assoc,
      List.singleton_append]
  have hsame := hdecoded.no_slip hdecoded' htext htext' (hdecoded.front hi) rfl ?_
  · exact hne (List.cons.inj hsame).1.symm
  · intro hdiffer hcharset
    have hc' := hcharset c.toLower (by simp [lower])
    have hd' := hcharset d.toLower (by simp [lower])
    apply replaced_error (charset_idxOf _ hc').2.1 (charset_idxOf _ hd').2.1
    intro hidx
    exact hdiffer (congrArg (fun x => [x]) (idxOf_inj hc' hidx))

/-- Two neighbours behind the separator swapped. -/
theorem swapped_refused (h : decodeAddress address = .ok (addr_type, network, payload)) {i : Nat} {c d : Char}
    (hi : rfind '1' (lower address.toList) < i) (hget : address.toList[i]? = some c)
    (hnext : address.toList[i+1]? = some d) (hne : c ≠ d) :
    ∃ msg, decodeAddress (String.ofList ((address.toList.set i d).set (i+1) c)) = .error (.addressError msg) := by
  obtain ⟨hrp, symbols, data5, hdecoded⟩ := decodeAddress_ok h
  obtain ⟨hbound, hc⟩ := List.getElem?_eq_some_iff.mp hget
  obtain ⟨hbound', hd⟩ := List.getElem?_eq_some_iff.mp hnext
  apply refused_of_differs
  intro contents hother
  obtain ⟨hrp', symbols', data5', hdecoded'⟩ := decodeAddress_ok hother
  have htext : address.toList = address.toList.take i++[c, d]++address.toList.drop (i+2) := by
    rw [List.append_assoc, List.cons_append, List.singleton_append, ← hd, List.getElem_cons_drop, ← hc,
      List.getElem_cons_drop, List.take_append_drop]
  have htext' : (String.ofList ((address.toList.set i d).set (i+1) c)).toList =
      address.toList.take i++[d, c]++address.toList.drop (i+2) := by
    have hfirst := congrArg (fun l => (l.set i d).set (i+1) c) htext
    rw [String.toList_ofList, hfirst]
    have hlength : (address.toList.take i).length = i := by
      rw [List.length_take]
      omega
    simp [hlength]
  have hsame := hdecoded.no_slip hdecoded' htext htext' (hdecoded.front hi) rfl ?_
  · exact hne (List.cons.inj hsame).1
  · intro hdiffer hcharset
    have hc' := hcharset c.toLower (by simp [lower])
    have hd' := hcharset d.toLower (by simp [lower])
    apply swapped_error (charset_idxOf _ hc').2.1 (charset_idxOf _ hd').2.1
    intro hidx
    have hsymbol := idxOf_inj hc' hidx
    exact hdiffer (by simp [lower, hsymbol])

end Slips

/-- A wrong character, or two neighbours in the wrong order, behind the separator of an accepted address are refused
with an address error, wherever they stand. -/
theorem slips_caught (address : String) (contents : AddrType × Network × Bytes)
    (h : decodeAddress address = .ok contents) :
    (∀ (i : Nat) (c d : Char), rfind '1' (lower address.toList) < i → address.toList[i]? = some c → d ≠ c →
      ∃ msg, decodeAddress (String.ofList (address.toList.set i d)) = .error (.addressError msg)) ∧
    (∀ (i : Nat) (c d : Char), rfind '1' (lower address.toList) < i → address.toList[i]? = some c →
      address.toList[i+1]? = some d → c ≠ d →
      ∃ msg, decodeAddress (String.ofList ((address.toList.set i d).set (i+1) c)) = .error (.addressError msg)) := by
  obtain ⟨addr_type, network, payload⟩ := contents
  constructor
  · intro i c d hi hget hne
    exact replaced_refused h hi hget hne
  · intro i c d hi hget hnext hne
    exact swapped_refused h hi hget hnext hne

/-- A new separator near the end, and the two characters in front of it swapped. -/
theorem slips_caught_sample :
    (∃ msg, decodeAddress (String.ofList ("mn_dust_preprod1wvqsyrn0l5m".toList.set 20 '1')) = .error (.addressError msg)) ∧
    ∃ msg, decodeAddress (String.ofList (("mn_dust_preprod1wvqsyrn0l5m".toList.set 18 's').set 19 'q')) =
      .error (.addressError msg) := by
  obtain ⟨hreplaced, hswapped⟩ := slips_caught "mn_dust_preprod1wvqsyrn0l5m" (.dust, .preprod, [0x73, 1, 2])
    (by decide +kernel)
  exact ⟨hreplaced 20 'y' '1' (by decide +kernel) (by decide +kernel) (by decide),
    hswapped 18 'q' 's' (by decide +kernel) (by decide +kernel) (by decide +kernel) (by decide)⟩

end Noxipher

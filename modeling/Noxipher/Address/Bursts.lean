import Noxipher.Address.Slips

namespace Noxipher

namespace Bech32m

/-- While the register has room for all symbols still to come, it ends empty only when it was empty and all of them
are zero. -/
theorem foldl_room {ds : List Nat} {chk : Nat} (hlen : ds.length ≤ 6) (hd : ∀ d ∈ ds, d < 32)
    (hroom : chk < 2^(30-5*ds.length)) (h : ds.foldl polymodStep chk = 0) : chk = 0 ∧ ∀ d ∈ ds, d = 0 := by
  induction ds generalizing chk with
  | nil => exact ⟨h, by simp⟩
  | cons d ds ih =>
    rw [List.length_cons] at hlen hroom
    have hdigit := hd d (by simp)
    have hnext : (2 : Nat)^(30-5*ds.length) = 32*2^(30-5*(ds.length+1)) := by
      have hexp : 30-5*ds.length = 30-5*(ds.length+1)+5 := by omega
      rw [hexp, Nat.pow_add]
      omega
    have hsmall : chk < 2^25 := lt_of_lt_of_le hroom (Nat.pow_le_pow_right (by decide) (by omega))
    rw [List.foldl_cons, polymodStep_small chk d hsmall hdigit] at h
    obtain ⟨hzero, hrest⟩ := ih (by omega) (fun x hx => hd x (by simp [hx])) (by omega) h
    refine ⟨by omega, ?_⟩
    intro x hx
    rcases List.mem_cons.mp hx with rfl | hx
    · omega
    · exact hrest x hx

/-- Differences of up to six neighbouring symbols do not cancel each other. -/
theorem burst_error {vs ws : List Nat} (hlen : vs.length = ws.length) (hshort : vs.length ≤ 6)
    (hv : ∀ v ∈ vs, v < 32) (hw : ∀ w ∈ ws, w < 32) (hne : vs ≠ ws) :
    (List.zipWith (· ^^^ ·) vs ws).foldl polymodStep 0 ≠ 0 := by
  intro hzero
  have hdigits : ∀ d ∈ List.zipWith (· ^^^ ·) vs ws, d < 32 := by
    intro d hd
    obtain ⟨i, hi, rfl⟩ := List.mem_iff_getElem.mp hd
    rw [List.getElem_zipWith]
    exact Nat.xor_lt_two_pow (n := 5) (hv _ (List.getElem_mem _)) (hw _ (List.getElem_mem _))
  have hlength : (List.zipWith (· ^^^ ·) vs ws).length ≤ 6 := by
    rw [List.length_zipWith]
    omega
  obtain ⟨-, hall⟩ := foldl_room hlength hdigits (by positivity) hzero
  apply hne
  apply List.ext_getElem hlen
  intro i hi hi'
  have hmem : vs[i] ^^^ ws[i] ∈ List.zipWith (· ^^^ ·) vs ws := by
    have hbound : i < (List.zipWith (· ^^^ ·) vs ws).length := by
      rw [List.length_zipWith]
      omega
    have hget := List.getElem_mem hbound
    rwa [List.getElem_zipWith] at hget
  exact Nat.xor_eq_zero_iff.mp (hall _ hmem)

theorem map_idxOf_inj {xs ys : List Char} (hx : ∀ x ∈ xs, x ∈ CHARSET)
    (h : xs.map CHARSET.idxOf = ys.map CHARSET.idxOf) : xs = ys := by
  have hlen := congrArg List.length h
  simp only [List.length_map] at hlen
  apply List.ext_getElem hlen
  intro i hi hi'
  have hget := List.getElem_of_eq h (by rwa [List.length_map])
  rw [List.getElem_map, List.getElem_map] at hget
  exact idxOf_inj (hx _ (List.getElem_mem hi)) hget

end Bech32m

open Bech32m

/-- Whatever is written over up to six neighbouring characters behind the separator of an accepted address, the text is
refused with an address error, as soon as one of them changed. -/
theorem bursts_caught (address : String) (contents : AddrType × Network × Bytes) (front mid mid' back : List Char)
    (h : decodeAddress address = .ok contents) (htext : address.toList = front++mid++back)
    (hfront : rfind '1' (lower address.toList) < front.length) (hlen : mid'.length = mid.length)
    (hshort : mid.length ≤ 6) (hne : mid' ≠ mid) :
    ∃ msg, decodeAddress (String.ofList (front++mid'++back)) = .error (.addressError msg) := by
  obtain ⟨addr_type, network, payload⟩ := contents
  obtain ⟨hrp, symbols, data5, hdecoded⟩ := decodeAddress_ok h
  apply refused_of_differs
  intro contents' hother
  obtain ⟨hrp', symbols', data5', hdecoded'⟩ := decodeAddress_ok hother
  have hbegin : ∃ tail, lower front = hrp++ '1'::tail := by
    obtain ⟨tail, htail⟩ := hdecoded.front hfront
    refine ⟨tail, ?_⟩
    rw [← htail, htext, List.append_assoc, List.take_left]
  have hsame := hdecoded.no_slip hdecoded' htext (by rw [String.toList_ofList]) hbegin hlen.symm ?_
  · exact hne hsame.symm
  · intro hdiffer hcharset
    have hdigit (part : List Char) (hpart : ∀ x ∈ part, x ∈ CHARSET) : ∀ d ∈ part.map CHARSET.idxOf, d < 32 := by
      intro d hd
      obtain ⟨x, hx, rfl⟩ := List.mem_map.mp hd
      exact (charset_idxOf x (hpart x hx)).2.1
    have hmid : ∀ x ∈ lower mid, x ∈ CHARSET := fun x hx => hcharset x (List.mem_append_left _ hx)
    have hmid' : ∀ x ∈ lower mid', x ∈ CHARSET := fun x hx => hcharset x (List.mem_append_right _ hx)
    apply burst_error (by simp [lower, hlen]) (by simpa [lower] using hshort) (hdigit _ hmid) (hdigit _ hmid')
    intro hidx
    exact hdiffer (map_idxOf_inj hmid hidx)

/-- Six symbols in the middle of an address overwritten. -/
theorem bursts_caught_sample :
    ∃ msg, decodeAddress (String.ofList ("mn_dust_preprod1w".toList++"111111".toList++"0l5m".toList)) =
      .error (.addressError msg) :=
  bursts_caught "mn_dust_preprod1wvqsyrn0l5m" (.dust, .preprod, [0x73, 1, 2]) "mn_dust_preprod1w".toList "vqsyrn".toList
    "111111".toList "0l5m".toList (by decide +kernel) (by decide +kernel) (by decide +kernel) (by decide) (by decide)
    (by decide)

end Noxipher

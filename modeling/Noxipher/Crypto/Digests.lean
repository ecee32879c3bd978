import Noxipher.Core.Failures
import Noxipher.Crypto.Keys
import Noxipher.Library.Blocks

namespace Noxipher

variable (keys : KeyFunctions)

/-- `value.to_bytes(16, "little")` -/
def u128Bytes (value : Int) : Except Failure Bytes :=
  if value < 0 then .error (.overflowError "can't convert negative int to unsigned")
  else if 2^128 ≤ value then .error (.overflowError "int too big to convert")
  else .ok (leBytes 16 value.toNat)

/-- `coin_commitment` -/
def coinCommitment (nonce token_type : Bytes) (value : Int) (recipient_is_user : Bool) (recipient_hash : Bytes) :
    Except Failure Bytes := do
  let amount ← u128Bytes value
  let flag := if recipient_is_user then [1] else [0]
  return (keys.sha256 (encodeStr "midnight:zswap-cc[v1]"++nonce++token_type++amount++flag++recipient_hash)).val

/-- Different texts with one digest. -/
def KeyFunctions.Collide (xs ys : Bytes) : Prop := xs ≠ ys ∧ keys.sha256 xs = keys.sha256 ys

theorem KeyFunctions.eq_or_collide {xs ys : Bytes} (h : (keys.sha256 xs).val = (keys.sha256 ys).val) :
    xs = ys ∨ keys.Collide xs ys := by
  rcases Decidable.em (xs = ys) with heq | hne
  · exact Or.inl heq
  · exact Or.inr ⟨hne, Subtype.ext h⟩

section Sampling

/-- The text of the inner hash. -/
def roundInput (seed : Bytes) (round_idx : Nat) : Bytes := leBytes 8 round_idx++seed

/-- The text of the outer hash. -/
def domainInput (domain_separator seed : Bytes) (round_idx : Nat) : Bytes :=
  domain_separator++(keys.sha256 (roundInput seed round_idx)).val

/-- What one round of the loop has to offer. -/
def sampleRound (domain_separator seed : Bytes) (round_idx : Nat) : Bytes :=
  (keys.sha256 (domainInput keys domain_separator seed round_idx)).val

/-- The 32 bytes of round `i` in a sample. -/
def window (i : Nat) (bs : Bytes) : Bytes := (bs.drop (32*i)).take 32

variable {keys} {domain_separator seed : Bytes}

@[simp] theorem sampleRound_length (round_idx : Nat) :
    (sampleRound keys domain_separator seed round_idx).length = 32 :=
  (keys.sha256 _).property

/-- The rounds so far, cut at the length, are what the loop has collected. -/
theorem sampleLoop_eq {length : Nat} (fuel round_idx : Nat) (hfuel : length ≤ 32*round_idx+fuel) :
    sampleLoop keys length domain_separator seed fuel round_idx
      ((joined (sampleRound keys domain_separator seed) round_idx).take length) =
      (joined (sampleRound keys domain_separator seed) (round_idx+fuel)).take length := by
  have hlen (n : Nat) : (joined (sampleRound keys domain_separator seed) n).length = 32*n :=
    joined_length sampleRound_length n
  induction fuel generalizing round_idx with
  | zero => rfl
  | succ fuel ih =>
    rw [sampleLoop, List.length_take, hlen]
    split_ifs with hmore
    · have hmin : min length (32*round_idx) = 32*round_idx := by omega
      have hcut : (sampleRound keys domain_separator seed round_idx).take (min 32 (length-32*round_idx)) =
          (sampleRound keys domain_separator seed round_idx).take (length-32*round_idx) := by
        rw [List.take_eq_take_iff, sampleRound_length]
        omega
      have hround : (joined (sampleRound keys domain_separator seed) round_idx).take length++
          (sampleRound keys domain_separator seed round_idx).take (min 32 (length-32*round_idx)) =
          (joined (sampleRound keys domain_separator seed) (round_idx+1)).take length := by
        rw [joined_succ, List.take_append, hlen, hcut]
      have hnext := ih (round_idx+1) (by omega)
      rw [← hround, show round_idx+1+fuel = round_idx+(fuel+1) by omega] at hnext
      rw [hmin]
      exact hnext
    · exact take_joined sampleRound_length (by omega) (by omega)

theorem sampleBytes_eq {length n : Nat} (hn : length ≤ 32*n) :
    sampleBytes keys length domain_separator seed =
      (joined (sampleRound keys domain_separator seed) n).take length := by
  have hloop : sampleLoop keys length domain_separator seed length 0
      ((joined (sampleRound keys domain_separator seed) 0).take length) =
      (joined (sampleRound keys domain_separator seed) (0+length)).take length :=
    sampleLoop_eq length 0 (by omega)
  rw [joined_zero, List.take_nil] at hloop
  rw [sampleBytes, hloop]
  exact take_joined sampleRound_length (by omega) hn

theorem sampleBytes_length (length : Nat) : (sampleBytes keys length domain_separator seed).length = length := by
  rw [sampleBytes_eq (n := length) (by omega), List.length_take, joined_length sampleRound_length]
  omega

theorem sampleBytes_take {m length : Nat} (h : m ≤ length) :
    (sampleBytes keys length domain_separator seed).take m = sampleBytes keys m domain_separator seed := by
  rw [sampleBytes_eq (n := length) (by omega), sampleBytes_eq (n := length) (by omega), List.take_take,
    Nat.min_eq_left h]

theorem window_sampleBytes {length i : Nat} (h : 32*(i+1) ≤ length) :
    window i (sampleBytes keys length domain_separator seed) = sampleRound keys domain_separator seed i := by
  rw [sampleBytes_eq (n := length) (by omega), window, List.drop_take, List.take_take, Nat.min_eq_left (by omega)]
  exact joined_window sampleRound_length (by omega)

/-- The eight bytes tell rounds apart. -/
theorem roundInput_inj {seed other : Bytes} {i j : Nat} (hi : i < 2^64) (hj : j < 2^64)
    (h : roundInput seed i = roundInput other j) : i = j ∧ seed = other := by
  obtain ⟨hround, hseed⟩ := List.append_inj h (by simp)
  have hvalue := congrArg leValue hround
  rw [leValue_leBytes_of_lt 8 i (by omega), leValue_leBytes_of_lt 8 j (by omega)] at hvalue
  exact ⟨hvalue, hseed⟩

/-- Equal rounds have the same domain, number and seed, or show a collision. -/
theorem sampleRound_inj {domain other : Bytes} {seed other_seed : Bytes} {i j : Nat} (hi : i < 2^64) (hj : j < 2^64)
    (h : sampleRound keys domain seed i = sampleRound keys other other_seed j) :
    (domain = other ∧ i = j ∧ seed = other_seed) ∨
      keys.Collide (domainInput keys domain seed i) (domainInput keys other other_seed j) ∨
      keys.Collide (roundInput seed i) (roundInput other_seed j) := by
  rcases keys.eq_or_collide h with houter | houter
  · obtain ⟨hdomain, hinner⟩ := List.append_inj' houter (by
      rw [(keys.sha256 _).property, (keys.sha256 _).property])
    rcases keys.eq_or_collide hinner with hround | hround
    · obtain ⟨hij, hseed⟩ := roundInput_inj hi hj hround
      exact Or.inl ⟨hdomain, hij, hseed⟩
    · exact Or.inr (Or.inr hround)
  · exact Or.inr (Or.inl houter)

/-- A sample has its length, a shorter one begins it, and a full round that two samples have in common comes from one
domain, one round and one seed unless the hash collides at what was hashed. -/
theorem samples_bind {length other_length : Nat} (h : length ≤ 32*2^64) (hother : other_length ≤ 32*2^64)
    (keys : KeyFunctions) (domain other seed other_seed : Bytes) :
    (sampleBytes keys length domain seed).length = length ∧
    (∀ m ≤ length, (sampleBytes keys length domain seed).take m = sampleBytes keys m domain seed) ∧
    ∀ i j, 32*(i+1) ≤ length → 32*(j+1) ≤ other_length →
      window i (sampleBytes keys length domain seed) = window j (sampleBytes keys other_length other other_seed) →
      (domain = other ∧ i = j ∧ seed = other_seed) ∨
        keys.Collide (domainInput keys domain seed i) (domainInput keys other other_seed j) ∨
        keys.Collide (roundInput seed i) (roundInput other_seed j) := by
  refine ⟨sampleBytes_length length, fun m hm => sampleBytes_take hm, ?_⟩
  intro i j hi hj hsame
  rw [window_sampleBytes hi, window_sampleBytes hj] at hsame
  exact sampleRound_inj (by omega) (by omega) hsame

theorem samples_bind_sample :
    window 1 (sampleBytes plainKeys 64 (encodeStr "midnight:esk") [7]) =
        window 1 (sampleBytes plainKeys 64 (encodeStr "midnight:esk") [7, 0]) ∧
      plainKeys.Collide (roundInput [7] 1) (roundInput [7, 0] 1) := by
  have hbind := (samples_bind (by decide : 64 ≤ 32*2^64) (by decide : 64 ≤ 32*2^64) plainKeys
    (encodeStr "midnight:esk") (encodeStr "midnight:esk") [7] [7, 0]).2.2 1 1 (by decide) (by decide)
  have hsame : window 1 (sampleBytes plainKeys 64 (encodeStr "midnight:esk") [7]) =
      window 1 (sampleBytes plainKeys 64 (encodeStr "midnight:esk") [7, 0]) := by decide +kernel
  refine ⟨hsame, ?_⟩
  rcases hbind hsame with ⟨-, -, hseed⟩ | ⟨hne, -⟩ | hround
  · cases hseed
  · exact absurd (by decide +kernel) hne
  · exact hround

end Sampling

end Noxipher

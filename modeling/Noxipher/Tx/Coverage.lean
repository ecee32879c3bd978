import Noxipher.Tx.Retry

namespace Noxipher

/-- Every stored signature signs the payload rebuilt from the submitted intent that holds it. -/
def Serialized.Covered (out : Serialized) : Prop :=
  ∀ r ∈ out.log, ∃ stx d intent, out.tx_data.standard = some stx ∧ stx.intents = some d ∧
    d.get? r.segment = some intent ∧ r.CoveredBy intent

/-- The signatures depend on the payload alone. -/
def MidnightWallet.Deterministic (wallet : MidnightWallet) : Prop :=
  (∀ n payload, wallet.unshielded.signer.sign n payload = wallet.unshielded.signer.sign 0 payload) ∧
  (∀ n payload, wallet.dust.signer.sign n payload = wallet.dust.signer.sign 0 payload)

namespace TransactionBuilder

/-- Serializing once more what a run left behind signs the same payloads and, with deterministic signers,
gives the same bytes. -/
def RetryAgrees (network_id : String) (rnd : Bytes) (wallet : MidnightWallet) (out : Serialized) : Prop :=
  ∀ rnd' draw', rnd' = rnd ∨ rnd ≠ List.replicate 32 0 →
    ∃ again, serializeTransaction network_id rnd' wallet draw' out.tx_data = .ok again ∧
      again.log.map SignRecord.payload = out.log.map SignRecord.payload ∧
      (wallet.Deterministic → again.bytes = out.bytes)

section Run

variable {network_id : String} {rnd : Bytes} {wallet : MidnightWallet} {draw : Nat} {tx_data : TxData}
  {out : Serialized}

theorem serializeTransaction_ok :
    serializeTransaction network_id rnd wallet draw tx_data = .ok out ↔
      ∃ t1 t2, prepareStandard network_id tx_data = .ok t1 ∧ bindRandomness rnd t1 = .ok t2 ∧
        signTransaction wallet draw t2 = .ok (out.tx_data, out.log) ∧
        ∃ stx midnight_tx_bytes, out.tx_data.standard = some stx ∧
          serializeStandardTransaction stx = .ok midnight_tx_bytes ∧
          serializeRawMidnightTx midnight_tx_bytes = .ok out.bytes := by
  simp only [serializeTransaction, bind_ok_iff, pure_ok, required_ok_iff, Except.ok.injEq]
  constructor
  · intro ⟨t1, h1, t2, h2, signed, h3, stx, hs, mid, hm, bytes, hb, ho⟩
    cases ho
    exact ⟨t1, t2, h1, h2, h3, stx, mid, hs, hm, hb⟩
  · intro ⟨t1, t2, h1, h2, h3, stx, mid, hs, hm, hb⟩
    exact ⟨t1, h1, t2, h2, _, h3, stx, hs, mid, hm, out.bytes, hb, rfl⟩

theorem prepareStandard_flag {t : TxData} (h : prepareStandard network_id tx_data = .ok t) :
    t.requires_unshielded_signature = tx_data.requires_unshielded_signature := by
  by_cases haction : tx_data.type = some "contract_deploy" ∨ tx_data.type = some "contract_call"
  · obtain ⟨d, intent, action, -, -, -, rfl⟩ := prepareStandard_action haction h
    rfl
  · by_cases hoffer : tx_data.type = some "shielded_transfer"
    · obtain ⟨offer, -, rfl⟩ := prepareStandard_offer haction hoffer h
      rfl
    · rw [prepareStandard, if_neg haction, if_neg hoffer] at h
      cases h
      rfl

theorem bindRandomness_flag {t : TxData} (h : bindRandomness rnd tx_data = .ok t) :
    t.requires_unshielded_signature = tx_data.requires_unshielded_signature := by
  rcases bindRandomness_cases h with ⟨rfl, -⟩ | ⟨stx, d, -, -, rfl⟩ <;> rfl

end Run

/-- A run that signs: the dictionary as the loop finds it, the steps of the loop, and what they leave behind. -/
structure SigningRun (network_id : String) (rnd : Bytes) (wallet : MidnightWallet) (draw : Nat) (tx_data : TxData)
    (out : Serialized) where
  found : TxData
  stx : StandardTransaction
  intents : Dict IntLike Intent
  signed : Dict IntLike Intent
  steps : List SegmentStep
  prepared : Prepared found
  bound : ∀ rnd', rnd' = rnd ∨ rnd ≠ List.replicate 32 0 → Bound rnd' found
  flag : found.requires_unshielded_signature = some true
  sign : signTransaction wallet draw found = .ok (out.tx_data, out.log)
  standard : found.standard = some stx
  segments : stx.intents = some intents
  before : intents.entries = steps.map (fun s => (s.key, s.before))
  after : signed.entries = steps.map (fun s => (s.key, s.after))
  left : out.tx_data = { found with standard := some { stx with intents := some signed } }
  log : out.log = steps.flatMap SegmentStep.records
  offers : (startingIntents network_id tx_data).entries.map (fun p => p.2.offers) =
    steps.map (fun s => s.before.offers)

theorem serializeTransaction_run {network_id : String} {rnd : Bytes} {wallet : MidnightWallet} {draw : Nat}
    {tx_data : TxData} {out : Serialized} (hflag : tx_data.requires_unshielded_signature = some true)
    (h : serializeTransaction network_id rnd wallet draw tx_data = .ok out) :
    Nonempty (SigningRun network_id rnd wallet draw tx_data out) := by
  obtain ⟨t1, t2, h1, h2, h3, -⟩ := serializeTransaction_ok.mp h
  have hflag2 : t2.requires_unshielded_signature = some true := by
    rw [bindRandomness_flag h2, prepareStandard_flag h1, hflag]
  obtain ⟨stx, d, d', steps, hs, hd, hb, ha, ht, hl⟩ := signTransaction_ok hflag2 h3
  obtain ⟨stx1, d1, hs1, hd1, hoff⟩ := bindRandomness_offers h2 hs hd
  refine ⟨⟨t2, stx, d, d', steps, (prepareStandard_prepared h1).bind h2,
    fun rnd' hrnd => bindRandomness_bound h2 hrnd, hflag2, h3, hs, hd, hb, ha, ht, hl, ?_⟩⟩
  rw [prepareStandard_offers h1 hs1 hd1, hoff, hb, List.map_map]
  rfl

namespace SigningRun

variable {network_id : String} {rnd : Bytes} {wallet : MidnightWallet} {draw : Nat} {tx_data : TxData}
  {out : Serialized} (run : SigningRun network_id rnd wallet draw tx_data out)

include run

theorem submitted : out.tx_data.standard = some { run.stx with intents := some run.signed } := by
  rw [run.left]

/-- The offers the caller gave are the offers the steps find. -/
theorem forall_iff {P : Intent → Prop} (hP : ∀ i j : Intent, i.offers = j.offers → P i → P j) :
    (∀ s ∈ run.steps, P s.before) ↔ ∀ p ∈ (startingIntents network_id tx_data).entries, P p.2 :=
  ⟨forall_offers hP run.offers.symm, forall_offers hP run.offers⟩

theorem covered_iff : out.Covered ↔ ∀ p ∈ (startingIntents network_id tx_data).entries, p.2.ReadyToSign := by
  rw [← run.forall_iff (fun _ _ => Intent.ReadyToSign.congr)]
  constructor
  · intro hc s hs
    apply s.covered_iff.mp
    intro r hr
    have hlog : r ∈ out.log := by
      rw [run.log]
      exact List.mem_flatMap.mpr ⟨s, hs, hr⟩
    obtain ⟨stx, d, intent, hstx, hd, hget, hcov⟩ := hc r hlog
    rw [run.submitted] at hstx
    cases hstx
    cases hd
    rw [(s.stored hr).1, (Dict.get?_of_map run.after).mpr ⟨s, hs, rfl, rfl⟩] at hget
    cases hget
    exact hcov
  · intro hready r hr
    rw [run.log] at hr
    obtain ⟨s, hs, hr⟩ := List.mem_flatMap.mp hr
    have hget : run.signed.get? r.segment = some s.after :=
      (Dict.get?_of_map run.after).mpr ⟨s, hs, (s.stored hr).1.symm, rfl⟩
    exact ⟨_, run.signed, s.after, run.submitted, rfl, hget, s.covered_iff.mpr (hready s hs) r hr⟩

/-- The retry starts from the segments as the first run left them. -/
theorem nothingToSign_of_retry (hready : ∀ s ∈ run.steps, s.before.ReadyToSign)
    (hretry : RetryAgrees network_id rnd wallet out) : ∀ s ∈ run.steps, s.before.NothingToSign := by
  obtain ⟨again, hrun, hp, -⟩ := hretry rnd draw (Or.inl rfl)
  obtain ⟨t1, t2, h1, h2, h3, -⟩ := serializeTransaction_ok.mp hrun
  rw [(run.prepared.sign run.flag run.sign).again] at h1
  cases h1
  rw [((run.bound rnd (Or.inl rfl)).sign run.flag run.sign).again] at h2
  cases h2
  have hflag : out.tx_data.requires_unshielded_signature = some true := by rw [run.left, run.flag]
  obtain ⟨stx, d, d', steps', hs, hd, hb, -, -, hl⟩ := signTransaction_ok hflag h3
  rw [run.submitted] at hs
  cases hs
  cases hd
  rw [run.log, hl] at hp
  exact SegmentStep.run_resigned (hb.symm.trans run.after) (fun s hs => (hready s hs).unsigned) hp

/-- Without offers the loop does nothing, whatever it draws. -/
theorem sign_idle (hnone : ∀ s ∈ run.steps, s.before.NothingToSign) (draw' : Nat) :
    signTransaction wallet draw' run.found = .ok (run.found, []) := by
  have hloop : signLoop wallet draw' run.intents.entries { intents := run.intents } =
      .ok { intents := run.intents } := by
    apply signLoop_idle
    intro p hp
    rw [run.before] at hp
    obtain ⟨s, hmem, rfl⟩ := List.mem_map.mp hp
    exact ⟨⟨s.seg_id, s.parsed⟩, hnone s hmem, (Dict.get?_of_map run.before).mpr ⟨s, hmem, rfl, rfl⟩⟩
  rw [signTransaction, if_pos (by rw [run.flag]; rfl)]
  simp only [run.standard, run.segments, required_some, ok_bind, hloop, pure_ok]
  rw [← run.segments, ← run.standard]

theorem retry_of_nothingToSign (h : serializeTransaction network_id rnd wallet draw tx_data = .ok out)
    (hnone : ∀ s ∈ run.steps, s.before.NothingToSign) : RetryAgrees network_id rnd wallet out := by
  intro rnd' draw' hrnd
  have hidle := run.sign.symm.trans (run.sign_idle hnone draw)
  simp only [Except.ok.injEq, Prod.mk.injEq] at hidle
  obtain ⟨hsame, hlog⟩ := hidle
  obtain ⟨-, -, -, -, -, hbytes⟩ := serializeTransaction_ok.mp h
  refine ⟨out, serializeTransaction_ok.mpr ⟨run.found, run.found, ?_, (run.bound rnd' hrnd).again, ?_, hbytes⟩,
    rfl, fun _ => rfl⟩
  · rw [hsame]
    exact run.prepared.again
  · rw [run.sign_idle hnone, hsame, hlog]

end SigningRun

/-- Every signature in a submitted offer is one the loop made for that offer. -/
theorem stored_logged {network_id : String} {rnd : Bytes} {wallet : MidnightWallet} {draw : Nat}
    {tx_data : TxData} {out : Serialized} (hflag : tx_data.requires_unshielded_signature = some true)
    (h : serializeTransaction network_id rnd wallet draw tx_data = .ok out) {stx : StandardTransaction}
    {d : Dict IntLike Intent} (hs : out.tx_data.standard = some stx) (hd : stx.intents = some d) {key : IntLike}
    {intent : Intent} (hi : d.get? key = some intent) {slot : OfferSlot} {offer : UnshieldedOffer}
    (ho : present (slot.offer intent) = some offer) :
    ∃ r ∈ out.log, r.segment = key ∧ r.slot = slot ∧ offer.signatures = some [r.signature] := by
  obtain ⟨run⟩ := serializeTransaction_run hflag h
  rw [run.submitted] at hs
  cases hs
  cases hd
  obtain ⟨s, hmem, hkey, rfl⟩ := (Dict.get?_of_map run.after).mp hi
  obtain ⟨r, hr, hslot, hsig⟩ := s.logged ho
  refine ⟨r, ?_, (s.stored hr).1.trans hkey, hslot, hsig⟩
  rw [run.log]
  exact List.mem_flatMap.mpr ⟨s, hmem, hr⟩

/-- The signatures of a run cover what is submitted exactly when no segment has a second offer or a signature
from before; they stay the same on a retry only when there is nothing to sign. -/
theorem serializeTransaction_covered_iff (network_id : String) (rnd : Bytes) (wallet : MidnightWallet) (draw : Nat)
    (tx_data : TxData) (out : Serialized) (hflag : tx_data.requires_unshielded_signature = some true)
    (h : serializeTransaction network_id rnd wallet draw tx_data = .ok out) :
    (out.Covered ↔ ∀ p ∈ (startingIntents network_id tx_data).entries, p.2.ReadyToSign) ∧
    (out.Covered ∧ RetryAgrees network_id rnd wallet out ↔
      ∀ p ∈ (startingIntents network_id tx_data).entries, p.2.NothingToSign) := by
  obtain ⟨run⟩ := serializeTransaction_run hflag h
  have hidle := run.forall_iff (fun _ _ => Intent.NothingToSign.congr)
  refine ⟨run.covered_iff, ?_⟩
  rw [← hidle]
  constructor
  · intro ⟨hc, hretry⟩
    apply run.nothingToSign_of_retry _ hretry
    rw [run.forall_iff (fun _ _ => Intent.ReadyToSign.congr)]
    exact run.covered_iff.mp hc
  · intro hnone
    refine ⟨run.covered_iff.mpr ?_, run.retry_of_nothingToSign h hnone⟩
    intro p hp
    exact (hidle.mp hnone p hp).ready

/-- Signatures of 64 bytes that depend on the payload alone. -/
def lengthSigner (public_key : Bytes) : Sr25519Signer :=
  ⟨public_key, fun _ payload => List.replicate 64 (UInt8.ofNat payload.length)⟩

def signingWallet : MidnightWallet :=
  ⟨⟨lengthSigner (List.replicate 32 3), "night"⟩, ⟨[], [], "shielded"⟩,
    ⟨lengthSigner (List.replicate 32 4), .preprod⟩, ZswapState.new⟩

def offerToSign : UnshieldedOffer :=
  ⟨some [⟨7, List.replicate 32 3, 0, List.replicate 32 2, 3⟩], some [⟨5, List.replicate 32 7, 0⟩], some []⟩

/-- One segment with the given offers. -/
def transferToSign (guaranteed fallible : Option UnshieldedOffer) : TxData :=
  let intent : Intent := {
    guaranteed_unshielded_offer := guaranteed
    fallible_unshielded_offer := fallible
    ttl := some 1800
    actions := some []
    binding_commitment := some (List.replicate 32 8) }
  { type := some "unshielded_transfer"
    standard := some {
      network_id := some "preprod"
      intents := some (Dict.ofList [(.str "0", intent)])
      binding_randomness := some (List.replicate 32 5) }
    fee := some 2
    requires_unshielded_signature := some true }

theorem serializeTransaction_covered_sample :
    ∃ out, serializeTransaction "preprod" (List.replicate 32 9) signingWallet 0
        (transferToSign (some offerToSign) none) = .ok out ∧ out.Covered ∧
      ¬ RetryAgrees "preprod" (List.replicate 32 9) signingWallet out := by
  obtain ⟨out, hout⟩ : ∃ out, serializeTransaction "preprod" (List.replicate 32 9) signingWallet 0
      (transferToSign (some offerToSign) none) = .ok out :=
    exists_ok (by decide +kernel)
  obtain ⟨hcov, hretry⟩ := serializeTransaction_covered_iff "preprod" (List.replicate 32 9) signingWallet 0
    (transferToSign (some offerToSign) none) out rfl hout
  have hc : out.Covered := by
    apply hcov.mpr
    intro p hp
    obtain rfl := List.mem_singleton.mp hp
    refine ⟨Or.inr rfl, ?_⟩
    intro slot offer ho
    cases slot <;> cases ho
    rfl
  refine ⟨out, hout, hc, ?_⟩
  intro hr
  have hnone := hretry.mp ⟨hc, hr⟩ _ (List.mem_singleton_self _) .guaranteed
  cases hnone

/-- With both offers the second signature covers the first, and a retry of a plain transfer signs over the
signature of the first try. -/
theorem signature_over_signature :
    (∃ out, serializeTransaction "preprod" (List.replicate 32 9) signingWallet 0
        (transferToSign (some offerToSign) (some offerToSign)) = .ok out ∧ ¬ out.Covered) ∧
    signingWallet.Deterministic ∧
    ∃ out again, serializeTransaction "preprod" (List.replicate 32 9) signingWallet 0
        (transferToSign (some offerToSign) none) = .ok out ∧
      serializeTransaction "preprod" (List.replicate 32 9) signingWallet 0 out.tx_data = .ok again ∧
      again.bytes ≠ out.bytes := by
  refine ⟨?_, ⟨fun _ _ => rfl, fun _ _ => rfl⟩, ?_⟩
  · obtain ⟨out, hout⟩ : ∃ out, serializeTransaction "preprod" (List.replicate 32 9) signingWallet 0
        (transferToSign (some offerToSign) (some offerToSign)) = .ok out :=
      exists_ok (by decide +kernel)
    refine ⟨out, hout, ?_⟩
    intro hc
    obtain ⟨run⟩ := serializeTransaction_run rfl hout
    have hready := run.covered_iff.mp hc _ (List.mem_singleton_self _)
    rcases hready.single with hg | hf
    · cases hg
    · cases hf
  · have hrun : (serializeTransaction "preprod" (List.replicate 32 9) signingWallet 0
        (transferToSign (some offerToSign) none) >>= fun out =>
          serializeTransaction "preprod" (List.replicate 32 9) signingWallet 0 out.tx_data >>= fun again =>
            .ok (decide (again.bytes = out.bytes))) = .ok false := by
      decide +kernel
    obtain ⟨out, hout, hrest⟩ := bind_ok_iff.mp hrun
    obtain ⟨again, hagain, hne⟩ := bind_ok_iff.mp hrest
    exact ⟨out, again, hout, hagain, of_decide_eq_false (Except.ok.inj hne)⟩

end TransactionBuilder

end Noxipher

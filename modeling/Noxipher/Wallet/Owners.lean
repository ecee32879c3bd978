import Noxipher.Tx.Outputs

namespace Noxipher

namespace MidnightWallet

/-- The wallet's address on the DUST side or on the NIGHT side. -/
def ownAddress (wallet : MidnightWallet) (dust_side : Bool) : Except PyError String :=
  if dust_side then wallet.dust.address else .ok wallet.unshielded.address

/-- The NIGHT address is the one its constructor computes. -/
def Derived (sha256 : Bytes → Bytes) (wallet : MidnightWallet) : Prop :=
  ∃ network, UnshieldedWallet.new sha256 wallet.unshielded.signer network = .ok wallet.unshielded

/-- The payload of the wallet's address on one side. -/
def ownPayload (sha256 : Bytes → Bytes) (wallet : MidnightWallet) (dust_side : Bool) : Bytes :=
  if dust_side then 0x73::wallet.dust.publicKey else sha256 wallet.unshielded.publicKey

end MidnightWallet

theorem encodeAddress_ok {payload : Bytes} {addr_type : AddrType} {network : Network} {address : String}
    (h : encodeAddress payload addr_type network = .ok address) :
    decodeAddress address = .ok (addr_type, network, payload) := by
  have hkey : (addr_type, network) ∈ HRP_TABLE.keys := by
    apply (Dict.get?_isSome _ _).mp
    cases hget : HRP_TABLE.get? (addr_type, network) with
    | none =>
      rw [encodeAddress, hget] at h
      cases h
    | some hrp => rfl
  obtain ⟨encoded, henc, hdec⟩ := encodeAddress_decodes payload addr_type network hkey
  rw [h] at henc
  cases henc
  exact hdec

/-- Decoding an own address gives the digest or the prefixed key it was made of. -/
theorem MidnightWallet.ownAddress_decodes {sha256 : Bytes → Bytes} {wallet : MidnightWallet} {dust_side : Bool}
    {address : String} (hwallet : wallet.Derived sha256) (hown : wallet.ownAddress dust_side = .ok address) :
    ∃ kind network, decodeAddress address = .ok (kind, network, wallet.ownPayload sha256 dust_side) := by
  cases dust_side with
  | true =>
    have haddress : encodeAddress (0x73::wallet.dust.publicKey) .dust wallet.dust.network = .ok address := hown
    exact ⟨_, _, encodeAddress_ok haddress⟩
  | false =>
    obtain ⟨network, hnew⟩ := hwallet
    obtain ⟨computed, hcomputed, hnew⟩ := bind_ok_iff.mp hnew
    have hsame : computed = address := by
      have hnight : wallet.unshielded.address = address := Except.ok.inj hown
      rw [← hnight, ← Except.ok.inj hnew]
    rw [hsame] at hcomputed
    exact ⟨_, _, encodeAddress_ok hcomputed⟩

/-- The digest may be the key itself; the prefixed key is one byte longer and never is. -/
theorem MidnightWallet.ownPayload_eq_key (sha256 : Bytes → Bytes) (wallet : MidnightWallet) (dust_side : Bool) :
    wallet.ownPayload sha256 dust_side = TransactionBuilder.ownerKey wallet dust_side ↔
      dust_side = false ∧ sha256 wallet.unshielded.publicKey = wallet.unshielded.publicKey := by
  cases dust_side with
  | true =>
    constructor
    · intro h
      have hlen := congrArg List.length h
      change wallet.dust.publicKey.length+1 = wallet.dust.publicKey.length at hlen
      omega
    · intro ⟨hside, _⟩
      cases hside
  | false =>
    constructor
    · intro h
      exact ⟨rfl, h⟩
    · intro ⟨_, h⟩
      exact h

namespace TransactionBuilder

variable {client : NoxipherClient} {rnd : Bytes} {wallet : MidnightWallet} {address : String} {amount : Int}
  {fee : Option Int} {ttl : Int} {token_type : Bytes} {use_dust : Bool} {tx : TxData} {sha256 : Bytes → Bytes}
  {dust_side : Bool}

/-- A transfer to an own address puts the payload of the address where change has the key. -/
theorem own_transfer_owners (hwallet : wallet.Derived sha256) (hown : wallet.ownAddress dust_side = .ok address)
    (hamount : 0 < amount)
    (hbuilt : buildUnshieldedTransfer client rnd wallet address amount fee ttl token_type use_dust = .ok tx) :
    ∃ inputs recipient change,
      tx.guaranteedOffer = some ⟨some inputs, some (recipient::change), some []⟩ ∧
      (∀ spend ∈ inputs, spend.owner = ownerKey wallet use_dust) ∧
      (∀ output ∈ change, output.owner = ownerKey wallet use_dust) ∧
      (∃ kind network, decodeAddress address = .ok (kind, network, recipient.owner)) ∧
      recipient.owner = wallet.ownPayload sha256 dust_side := by
  obtain ⟨kind, network, recipient_bytes, inputs, change, hdecode, hoffer, hin, hchange⟩ :=
    buildUnshieldedTransfer_owners hbuilt
  obtain ⟨_, _, hpayload⟩ := MidnightWallet.ownAddress_decodes hwallet hown
  rw [recipientOutputs, if_pos hamount] at hoffer
  have hbytes : recipient_bytes = wallet.ownPayload sha256 dust_side := by
    rw [hdecode] at hpayload
    exact (Prod.mk.inj (Prod.mk.inj (Except.ok.inj hpayload)).2).2
  exact ⟨inputs, _, change, hoffer, hin, hchange, ⟨kind, network, hdecode⟩, hbytes⟩

/-- The owner of an output to the wallet's own address is the owner of its inputs and change on that side only
for a NIGHT key that is its own digest. -/
theorem own_output_owner_iff (hwallet : wallet.Derived sha256) (hown : wallet.ownAddress dust_side = .ok address)
    (hamount : 0 < amount)
    (hbuilt : buildUnshieldedTransfer client rnd wallet address amount fee ttl token_type use_dust = .ok tx) :
    ∃ inputs recipient change,
      tx.guaranteedOffer = some ⟨some inputs, some (recipient::change), some []⟩ ∧
      (∀ spend ∈ inputs, spend.owner = ownerKey wallet use_dust) ∧
      (∀ output ∈ change, output.owner = ownerKey wallet use_dust) ∧
      (∃ kind network, decodeAddress address = .ok (kind, network, recipient.owner)) ∧
      (recipient.owner = ownerKey wallet dust_side ↔
        dust_side = false ∧ sha256 wallet.unshielded.publicKey = wallet.unshielded.publicKey) := by
  obtain ⟨inputs, recipient, change, hoffer, hin, hchange, hdecode, howner⟩ :=
    own_transfer_owners hwallet hown hamount hbuilt
  refine ⟨inputs, recipient, change, hoffer, hin, hchange, hdecode, ?_⟩
  rw [howner]
  exact wallet.ownPayload_eq_key sha256 dust_side

end TransactionBuilder

/-- The SHA-256 digest of the sample NIGHT key. -/
def sampleDigest : Bytes :=
  [100, 138, 165, 197, 121, 251, 48, 243, 138, 247, 68, 217, 125, 110, 200, 64, 199, 169, 18, 119, 164, 153, 160,
   215, 128, 243, 231, 49, 78, 202, 9, 11]

/-- A transfer of the sample wallet to its derived address: one input, the payment and the change. -/
theorem sample_self_transfer :
    ∃ wallet address tx, wallet.Derived (fun _ => sampleDigest) ∧
      wallet.unshielded.publicKey = List.replicate 32 3 ∧ wallet.ownAddress false = .ok address ∧
      TransactionBuilder.buildUnshieldedTransfer sampleClient (List.replicate 32 9) wallet address 500 (some 100) 1800
        RawTokenType.NATIVE_NIGHT false = .ok tx ∧
      tx.guaranteedOffer = some ⟨some [⟨5000, List.replicate 32 3, 0, List.replicate 32 0, 1⟩],
        some [⟨500, sampleDigest, 0⟩, ⟨4400, List.replicate 32 3, 0⟩], some []⟩ := by
  obtain ⟨address, hencode, hdecode⟩ := encodeAddress_decodes sampleDigest .unshielded .preprod (by decide)
  let wallet : MidnightWallet := { sampleWallet with unshielded := { sampleWallet.unshielded with address := address } }
  have hwallet : wallet.Derived (fun _ => sampleDigest) := by
    refine ⟨.preprod, ?_⟩
    rw [UnshieldedWallet.new, Sr25519Signer.computeAddress, hencode]
    rfl
  obtain ⟨tx, htx, hoffer⟩ := TransactionBuilder.sample_transfer wallet hdecode
  exact ⟨wallet, address, tx, hwallet, rfl, rfl, htx, hoffer⟩

theorem own_output_owner_sample :
    ∃ tx : TxData, ∃ (inputs : List UtxoSpend) (recipient : UtxoOutput) (change : List UtxoOutput),
      tx.guaranteedOffer = some ⟨some inputs, some (recipient::change), some []⟩ ∧
      ¬ (recipient.owner = List.replicate 32 3) := by
  obtain ⟨wallet, address, tx, hwallet, hkey, hown, htx, -⟩ := sample_self_transfer
  obtain ⟨inputs, recipient, change, hoffer, -, -, -, hiff⟩ :=
    TransactionBuilder.own_output_owner_iff hwallet hown (by decide) htx
  refine ⟨tx, inputs, recipient, change, hoffer, ?_⟩
  intro howner
  have hfixed := (hiff.mp (howner.trans hkey.symm)).2
  rw [hkey] at hfixed
  exact absurd hfixed (by decide)

/-- Paying itself, the wallet writes the digest as owner next to change and inputs under its key. -/
theorem self_payment_owned_otherwise :
    ∃ wallet address tx, ∃ (spend : UtxoSpend) (recipient change : UtxoOutput),
      wallet.Derived (fun _ => sampleDigest) ∧ wallet.ownAddress false = .ok address ∧
      TransactionBuilder.buildUnshieldedTransfer sampleClient (List.replicate 32 9) wallet address 500 (some 100) 1800
        RawTokenType.NATIVE_NIGHT false = .ok tx ∧
      tx.guaranteedOffer = some ⟨some [spend], some [recipient, change], some []⟩ ∧
      recipient.owner ≠ spend.owner ∧ recipient.owner ≠ change.owner := by
  obtain ⟨wallet, address, tx, hwallet, -, hown, htx, hoffer⟩ := sample_self_transfer
  have hne : sampleDigest ≠ List.replicate 32 3 := by decide
  exact ⟨wallet, address, tx, _, _, _, hwallet, hown, htx, hoffer, hne, hne⟩

end Noxipher

import Noxipher.Tx.Writable

namespace Noxipher

/-- A number that the compact form has a mode for. -/
def Compact (n : Int) : Prop := 0 ≤ n ∧ n < 2^536

theorem encodeScaleInt_compact {n : Int} : (∃ x, encodeScaleInt n = .ok x) ↔ Compact n := encodeScaleInt_returns_iff

/-- A length that a Python object can have is compact. -/
theorem compact_count {n : Nat} (h : n ≤ 2^63) : Compact n := by
  obtain ⟨form, -, hwritten, -⟩ := encodeScaleInt_form n (lt_of_le_of_lt h (by decide))
  exact encodeScaleInt_compact.mp ⟨_, hwritten⟩

/-- A list with a count and items that can be written. -/
def VecFits {α : Type} (fits : α → Prop) (items : List α) : Prop := Compact items.length ∧ ∀ a ∈ items, fits a

theorem serializeVec_fits {α : Type} {item : α → Except PyError Bytes} {fits : α → Prop}
    (hitem : ∀ a, (∃ x, item a = .ok x) ↔ fits a) (items : List α) :
    (∃ x, serializeVec item items = .ok x) ↔ VecFits fits items := by
  rw [serializeVec_returns_iff, encodeScaleInt_compact, VecFits]
  simp only [hitem]

/-- Byte strings are written as they are. -/
theorem serializeVec_bytes (items : List Bytes) :
    (∃ x, serializeVec .ok items = (.ok x : Except PyError Bytes)) ↔ Compact items.length := by
  have hraw (b : Bytes) : (∃ x, (Except.ok b : Except PyError Bytes) = .ok x) ↔ True := by simp
  rw [serializeVec_fits hraw, VecFits]
  simp

theorem serializeBytes_returns_iff {data : Bytes} : (∃ x, serializeBytes data = .ok x) ↔ Compact data.length := by
  rw [serializeBytes, gather_returns_iff]
  simp only [List.forall_mem_cons, encodeScaleInt_compact]
  simp

theorem byteOf_returns_iff {n : Int} : (∃ x, byteOf n = .ok x) ↔ 0 ≤ n ∧ n < 256 := by
  unfold byteOf
  split_ifs with h <;> simp [h]

/-- The fields of an input are in their ranges. -/
structure UtxoSpend.Fits (spend : UtxoSpend) : Prop where
  value : 0 ≤ spend.value ∧ spend.value < 2^128
  type_ : 0 ≤ spend.type_ ∧ spend.type_ < 256
  output_no : 0 ≤ spend.output_no ∧ spend.output_no < 2^32

theorem serializeUtxoSpend_fits (spend : UtxoSpend) : (∃ x, serializeUtxoSpend spend = .ok x) ↔ spend.Fits := by
  rw [serializeUtxoSpend_returns_iff, serializeU128_returns_iff, byteOf_returns_iff, serializeU32_returns_iff]
  exact ⟨fun ⟨hvalue, htype, hno⟩ => ⟨hvalue, htype, hno⟩, fun h => ⟨h.value, h.type_, h.output_no⟩⟩

structure UtxoOutput.Fits (output : UtxoOutput) : Prop where
  value : 0 ≤ output.value ∧ output.value < 2^128
  type_ : 0 ≤ output.type_ ∧ output.type_ < 256

theorem serializeUtxoOutput_fits (output : UtxoOutput) : (∃ x, serializeUtxoOutput output = .ok x) ↔ output.Fits := by
  rw [serializeUtxoOutput_returns_iff, serializeU128_returns_iff, byteOf_returns_iff]
  exact ⟨fun ⟨hvalue, htype⟩ => ⟨hvalue, htype⟩, fun h => ⟨h.value, h.type_⟩⟩

/-- Both lists of an offer are there and fit; the signatures may be missing. -/
structure UnshieldedOffer.Fits (offer : UnshieldedOffer) : Prop where
  inputs : ∃ inputs, offer.inputs = some inputs ∧ VecFits UtxoSpend.Fits inputs
  outputs : ∃ outputs, offer.outputs = some outputs ∧ VecFits UtxoOutput.Fits outputs
  signatures : Compact (offer.signatures.getD []).length

theorem serializeUnshieldedOffer_fits {offer : UnshieldedOffer} :
    (∃ x, serializeUnshieldedOffer offer = .ok x) ↔ offer.Fits := by
  rw [serializeUnshieldedOffer_returns_iff, serializeVec_bytes]
  simp only [serializeVec_fits serializeUtxoSpend_fits, serializeVec_fits serializeUtxoOutput_fits]
  exact ⟨fun ⟨hin, hout, hsigs⟩ => ⟨hin, hout, hsigs⟩, fun h => ⟨h.inputs, h.outputs, h.signatures⟩⟩

/-- The texts and byte strings of an action have compact lengths. -/
def ContractAction.Fits : ContractAction → Prop
  | .deploy bytecode initial_state => Compact bytecode.length ∧ Compact (initial_state.getD []).length
  | .call _ entry_point args => Compact (encodeStr entry_point).length ∧ Compact (args.getD []).length

theorem serializeContractAction_fits (action : ContractAction) :
    (∃ x, serializeContractAction action = .ok x) ↔ action.Fits := by
  cases action with
  | deploy bytecode initial_state =>
    rw [serializeContractAction, gather_returns_iff]
    simp only [List.forall_mem_cons, serializeBytes_returns_iff]
    simp [ContractAction.Fits]
  | call address entry_point args =>
    rw [serializeContractAction, gather_returns_iff]
    simp only [List.forall_mem_cons, serializeBytes_returns_iff]
    simp [ContractAction.Fits]

/-- The offers that are there fit, the actions do, and ttl and commitment are there. -/
structure Intent.Fits (intent : Intent) : Prop where
  guaranteed : ∀ offer, present intent.guaranteed_unshielded_offer = some offer → offer.Fits
  fallible : ∀ offer, present intent.fallible_unshielded_offer = some offer → offer.Fits
  ttl : ∃ ttl, intent.ttl = some ttl ∧ 0 ≤ ttl ∧ ttl < 2^32
  actions : VecFits ContractAction.Fits (intent.actions.getD [])
  commitment : intent.binding_commitment.isSome

/-- A key that is read as a number of 32 bits. -/
def SegmentId (key : IntLike) : Prop := ∃ seg_id, key.toInt = .ok seg_id ∧ 0 ≤ seg_id ∧ seg_id < 2^32

/-- Bytes, or text that is read as hex. -/
def HexOrBytes.Readable (h : HexOrBytes) : Prop := ∃ b, h.toBytes = .ok b

/-- The lists of a shielded offer have compact counts, and its root is readable. -/
structure ZswapOffer.Fits (offer : ZswapOffer) : Prop where
  spend_proofs : Compact offer.spend_proofs.length
  output_proofs : Compact offer.output_proofs.length
  zswap_memos : Compact (offer.zswap_memos.getD []).length
  merkle_root : ∀ root, offer.merkle_root = some root → root.Readable

theorem serializeZswapOffer_fits {offer : ZswapOffer} : (∃ x, serializeZswapOffer offer = .ok x) ↔ offer.Fits := by
  have htag (payload : Bytes) : ∃ x, taggedSerialize "zswap-offer[v1]" payload = .ok x :=
    taggedSerialize_returns (by decide) payload
  have hroot : (∃ x, ((offer.merkle_root.getD (.bytes (List.replicate 32 0))).toBytes >>=
      fun root => .ok (normalizeRoot root)) = .ok x) ↔ ∀ root, offer.merkle_root = some root → root.Readable := by
    rw [bind_returns_iff]
    cases offer.merkle_root with
    | none => simp [HexOrBytes.toBytes]
    | some root => simp [HexOrBytes.Readable]
  unfold serializeZswapOffer
  rw [bind_returns_iff]
  simp only [htag, and_true, gather_returns_iff, List.forall_mem_cons, serializeVec_bytes, hroot]
  constructor
  · rintro ⟨hspends, houtputs, hmemos, hreadable, -⟩
    exact ⟨hspends, houtputs, hmemos, hreadable⟩
  · intro h
    exact ⟨h.spend_proofs, h.output_proofs, h.zswap_memos, h.merkle_root, by simp⟩

mutual

/-- Lengths and integers are compact at every level of an argument. -/
def PyValue.Fits : PyValue → Prop
  | .bytes b => Compact b.length
  | .str s => Compact (encodeStr s).length
  | .int n => Compact n
  | .list xs => Compact xs.length ∧ ArgListFits xs
  | .dict items => ArgItemsFit items
  | .none | .bool _ | .other => True

def ArgListFits : List PyValue → Prop
  | [] => True
  | x::xs => x.Fits ∧ ArgListFits xs

def ArgItemsFit : List (String × PyValue) → Prop
  | [] => True
  | p::ps => p.2.Fits ∧ ArgItemsFit ps

end

mutual

theorem serializeContractArgs_fits : ∀ value : PyValue, (∃ x, serializeContractArgs value = .ok x) ↔ value.Fits
  | .none => by simp [serializeContractArgs, PyValue.Fits]
  | .bytes b => by rw [serializeContractArgs, serializeBytes_returns_iff, PyValue.Fits]
  | .str s => by rw [serializeContractArgs, serializeBytes_returns_iff, PyValue.Fits]
  | .bool b => by simp [serializeContractArgs, PyValue.Fits]
  | .int n => by rw [serializeContractArgs, encodeScaleInt_compact, PyValue.Fits]
  | .list xs => by
    have hitems := serializeArgList_fits xs
    rw [serializeContractArgs, PyValue.Fits, ← hitems, ← encodeScaleInt_compact]
    simp only [bind_returns_iff, pure_ok, Except.ok.injEq, exists_eq', and_true, exists_and_right]
  | .dict items => by
    rw [serializeContractArgs, PyValue.Fits]
    exact serializeArgItems_fits items
  | .other => by simp [serializeContractArgs, PyValue.Fits]

theorem serializeArgList_fits : ∀ xs : List PyValue, (∃ x, serializeArgList xs = .ok x) ↔ ArgListFits xs
  | [] => by simp [serializeArgList, ArgListFits]
  | x::xs => by
    rw [serializeArgList, ArgListFits, ← serializeContractArgs_fits x, ← serializeArgList_fits xs]
    simp only [bind_returns_iff, pure_ok, Except.ok.injEq, exists_eq', and_true, exists_and_right]

theorem serializeArgItems_fits : ∀ ps : List (String × PyValue), (∃ x, serializeArgItems ps = .ok x) ↔ ArgItemsFit ps
  | [] => by simp [serializeArgItems, ArgItemsFit]
  | p::ps => by
    rw [serializeArgItems, ArgItemsFit, ← serializeContractArgs_fits p.2, ← serializeArgItems_fits ps]
    simp only [bind_returns_iff, pure_ok, Except.ok.injEq, exists_eq', and_true, exists_and_right]

end

/-- Every item that needs one has an opening item in its place or before it. -/
def Led {α : Type} (needs opens : α → Prop) (items : List α) : Prop :=
  ∀ before a after, items = before++a::after → needs a → ∃ b ∈ before++[a], opens b

section Led

variable {α : Type} {needs opens : α → Prop}

theorem led_nil : Led needs opens [] := by
  intro before a after hsplit
  cases before <;> cases hsplit

/-- Behind an item that opens everything is led; one that does not must not need it. -/
theorem led_cons {a : α} {items : List α} :
    Led needs opens (a::items) ↔ opens a ∨ ¬ needs a ∧ Led needs opens items := by
  constructor
  · intro h
    by_cases hopens : opens a
    · exact Or.inl hopens
    · right
      constructor
      · intro hneeds
        obtain ⟨b, hb, hb'⟩ := h [] a items rfl hneeds
        rw [List.mem_singleton.mp hb] at hb'
        exact hopens hb'
      · intro before c after hsplit hneeds
        obtain ⟨b, hb, hb'⟩ := h (a::before) c after (by rw [hsplit, List.cons_append]) hneeds
        rcases List.mem_cons.mp hb with rfl | hb
        · exact absurd hb' hopens
        · exact ⟨b, hb, hb'⟩
  · intro h before c after hsplit hneeds
    cases before with
    | nil =>
      cases hsplit
      rcases h with hopens | ⟨hnone, -⟩
      · exact ⟨a, by simp, hopens⟩
      · exact absurd hneeds hnone
    | cons first before =>
      cases hsplit
      rcases h with hopens | ⟨-, hrest⟩
      · exact ⟨a, by simp, hopens⟩
      · obtain ⟨b, hb, hb'⟩ := hrest before c after rfl hneeds
        exact ⟨b, List.mem_cons_of_mem _ hb, hb'⟩

/-- An opening value written under a key leads like an entry that stands there. -/
theorem led_setEntry {κ ν : Type} [DecidableEq κ] {needs opens : κ × ν → Prop} {k : κ} {v : ν} (h : opens (k, v))
    (entries : List (κ × ν)) :
    Led needs opens (setEntry k v entries) ↔ Led needs (fun p => p.1 = k ∨ opens p) entries := by
  induction entries with
  | nil =>
    rw [setEntry, led_cons]
    exact iff_of_true (Or.inl h) led_nil
  | cons p entries ih =>
    by_cases hp : p.1 = k
    · rw [setEntry, if_pos hp, led_cons, led_cons, hp]
      exact iff_of_true (Or.inl h) (Or.inl (Or.inl rfl))
    · rw [setEntry, if_neg hp, led_cons, led_cons, ih]
      simp [hp]

end Led

namespace TransactionBuilder

/-- An offer that waits for a signer, and one that assigns it. -/
def HasFallible (p : IntLike × Intent) : Prop := (present p.2.fallible_unshielded_offer).isSome

def HasGuaranteed (p : IntLike × Intent) : Prop := (present p.2.guaranteed_unshielded_offer).isSome

theorem serializeIntent_fits {intent : Intent} : (∃ x, serializeIntent intent = .ok x) ↔ intent.Fits := by
  have httl : (∃ x, (required "ttl" intent.ttl >>= serializeU32) = .ok x) ↔
      ∃ ttl, intent.ttl = some ttl ∧ 0 ≤ ttl ∧ ttl < 2^32 := by
    simp only [bind_returns_iff, required_ok_iff, serializeU32_returns_iff]
  have hcommitment : (∃ x, required "binding_commitment" intent.binding_commitment = .ok x) ↔
      intent.binding_commitment.isSome := by
    simp only [required_ok_iff, Option.isSome_iff_exists]
  rw [serializeIntent_returns_iff, serializeOptionalOffer_returns_iff, serializeOptionalOffer_returns_iff, httl,
    serializeVec_fits serializeContractAction_fits, hcommitment]
  simp only [serializeUnshieldedOffer_fits]
  exact ⟨fun ⟨hg, hf, ht, ha, hc⟩ => ⟨hg, hf, ht, ha, hc⟩,
    fun h => ⟨h.guaranteed, h.fallible, h.ttl, h.actions, h.commitment⟩⟩

theorem segmentFits_fits {p : IntLike × Intent} : SegmentFits p ↔ SegmentId p.1 ∧ p.2.Fits := by
  rw [segmentFits_iff, SegmentId]
  simp only [serializeU32_returns_iff, serializeIntent_fits]
  constructor
  · rintro ⟨seg_id, hkey, hrange, hfits⟩
    exact ⟨⟨seg_id, hkey, hrange⟩, hfits⟩
  · rintro ⟨⟨seg_id, hkey, hrange⟩, hfits⟩
    exact ⟨seg_id, hkey, hrange, hfits⟩

/-- The shielded offers are written when their number, ids and fields fit. -/
theorem serializeCoins_fits {coins : Dict IntLike ZswapOffer} :
    (∃ x, serializeSegments serializeZswapOffer coins = .ok x) ↔
      Compact coins.entries.length ∧ ∀ p ∈ coins.entries, SegmentId p.1 ∧ p.2.Fits := by
  rw [serializeSegments_returns_iff, encodeScaleInt_compact]
  simp only [serializeU32_returns_iff, serializeZswapOffer_fits, SegmentId]
  constructor
  · rintro ⟨hcount, h⟩
    refine ⟨hcount, ?_⟩
    intro p hp
    obtain ⟨seg_id, hkey, hrange, hfits⟩ := h p hp
    exact ⟨⟨seg_id, hkey, hrange⟩, hfits⟩
  · rintro ⟨hcount, h⟩
    refine ⟨hcount, ?_⟩
    intro p hp
    obtain ⟨⟨seg_id, hkey, hrange⟩, hfits⟩ := h p hp
    exact ⟨seg_id, hkey, hrange, hfits⟩

/-- Once a signer is assigned every later offer has one. -/
theorem assignments_signed_of_isSome (wallet : MidnightWallet) {signer : Option Sr25519Signer} (h : signer.isSome)
    (entries : List (IntLike × Intent)) : ∀ a ∈ assignments wallet signer entries, a.signer.isSome := by
  induction entries generalizing signer with
  | nil => simp [assignments]
  | cons p entries ih =>
    obtain ⟨key, intent⟩ := p
    have hnext : (nextSigner wallet signer intent).isSome := by
      unfold nextSigner
      cases present intent.guaranteed_unshielded_offer with
      | none => exact h
      | some offer => rfl
    intro a ha
    rcases List.mem_append.mp ha with hhere | hrest
    · rcases List.mem_append.mp hhere with hg | hf
      · rw [(mem_guaranteedAssignment hg).2.2]
        rfl
      · rw [(mem_fallibleAssignment hf).2.2]
        exact hnext
    · exact ih hnext a hrest

/-- Every offer has a signer exactly when each fallible one is led by a guaranteed one. -/
theorem assignments_signed_iff (wallet : MidnightWallet) (entries : List (IntLike × Intent)) :
    (∀ a ∈ assignments wallet none entries, a.signer.isSome) ↔ Led HasFallible HasGuaranteed entries := by
  induction entries with
  | nil => exact iff_of_true (by simp [assignments]) led_nil
  | cons p entries ih =>
    obtain ⟨key, intent⟩ := p
    rw [led_cons, ← ih]
    by_cases hg : HasGuaranteed (key, intent)
    · refine iff_of_true ?_ (Or.inl hg)
      obtain ⟨offer, hoffer⟩ := Option.isSome_iff_exists.mp hg
      have hnext (signer : Option Sr25519Signer) :
          nextSigner wallet signer intent = some (routedSigner wallet offer) := by
        unfold nextSigner
        dsimp only at hoffer
        rw [hoffer]
      intro a ha
      rw [assignments, hnext] at ha
      rcases List.mem_append.mp ha with hhere | hrest
      · rcases List.mem_append.mp hhere with hg | hf
        · rw [(mem_guaranteedAssignment hg).2.2]
          rfl
        · rw [(mem_fallibleAssignment hf).2.2]
          rfl
      · exact assignments_signed_of_isSome wallet rfl entries a hrest
    · have hmissing : present intent.guaranteed_unshielded_offer = none := Option.not_isSome_iff_eq_none.mp hg
      have hfallible : (∀ a ∈ fallibleAssignment none key intent, a.signer.isSome) ↔ ¬ HasFallible (key, intent) := by
        unfold fallibleAssignment HasFallible
        cases present intent.fallible_unshielded_offer <;> simp
      rw [assignments, nextSigner, guaranteedAssignment, hmissing]
      simp only [Option.toList_none, List.map_nil, List.nil_append, List.forall_mem_append, hfallible, hg, false_or]

end TransactionBuilder

end Noxipher

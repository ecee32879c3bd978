import Noxipher.Tx.Coverage

namespace Noxipher

/-- An offer the signing loop meets, with the signer that is assigned when it is signed. -/
structure Assignment where
  segment : IntLike
  slot : OfferSlot
  offer : UnshieldedOffer
  signer : Option Sr25519Signer

namespace Assignment

def place (a : Assignment) : IntLike × OfferSlot := (a.segment, a.slot)

/-- The signer is there, and its key owns every input. -/
def Owned (a : Assignment) : Prop :=
  ∃ signer, a.signer = some signer ∧ ∀ spend ∈ a.offer.inputs.getD [], spend.owner = signer.public_key

/-- The record says that the assigned signer signed in this place. -/
def Made (a : Assignment) (r : SignRecord) : Prop :=
  (r.segment, r.slot) = a.place ∧ ∃ signer, a.signer = some signer ∧ r.signer_key = signer.public_key ∧
    ∃ n, r.signature = signer.sign n r.payload

end Assignment

namespace TransactionBuilder

/-- The DUST side signs when the first input is its own, and the NIGHT side otherwise. -/
def routedSigner (wallet : MidnightWallet) (offer : UnshieldedOffer) : Sr25519Signer :=
  if ((offer.inputs.getD []).head?.map UtxoSpend.owner).getD [] = wallet.dust.publicKey then wallet.dust.signer
  else wallet.unshielded.signer

theorem routedSigner_wallet (wallet : MidnightWallet) (offer : UnshieldedOffer) :
    routedSigner wallet offer = wallet.dust.signer ∨ routedSigner wallet offer = wallet.unshielded.signer := by
  unfold routedSigner
  split_ifs
  · exact Or.inl rfl
  · exact Or.inr rfl

/-- Only a guaranteed offer assigns the signer. -/
def nextSigner (wallet : MidnightWallet) (signer : Option Sr25519Signer) (intent : Intent) : Option Sr25519Signer :=
  match present intent.guaranteed_unshielded_offer with
  | some offer => some (routedSigner wallet offer)
  | none => signer

def guaranteedAssignment (wallet : MidnightWallet) (key : IntLike) (intent : Intent) : List Assignment :=
  (present intent.guaranteed_unshielded_offer).toList.map
    (fun offer => ⟨key, .guaranteed, offer, some (routedSigner wallet offer)⟩)

def fallibleAssignment (signer : Option Sr25519Signer) (key : IntLike) (intent : Intent) : List Assignment :=
  (present intent.fallible_unshielded_offer).toList.map (fun offer => ⟨key, .fallible, offer, signer⟩)

/-- The offers of the segments in the order of the loop, each with the signer assigned last. -/
def assignments (wallet : MidnightWallet) : Option Sr25519Signer → List (IntLike × Intent) → List Assignment
  | _, [] => []
  | signer, (key, intent)::entries =>
    guaranteedAssignment wallet key intent++fallibleAssignment (nextSigner wallet signer intent) key intent++
      assignments wallet (nextSigner wallet signer intent) entries

/-- The segment id is a number, and what is to be signed can be serialized. -/
def Signable (p : IntLike × Intent) : Prop :=
  ∃ seg_id, p.1.toInt = .ok seg_id ∧
    (p.2.NothingToSign ∨ ∃ payload, getUnshieldedSigningPayload seg_id p.2 = .ok payload)

section Steps

variable {wallet : MidnightWallet} {draw : Nat} {key : IntLike} {seg_id : Int} {intent : Intent} {st : SignState}

theorem signGuaranteed_made {r : Intent × SignState} (h : signGuaranteed wallet draw key seg_id intent st = .ok r) :
    ∃ records, r.2.log = st.log++records ∧ r.2.signer = nextSigner wallet st.signer intent ∧
      r.1.fallible_unshielded_offer = intent.fallible_unshielded_offer ∧
      List.Forall₂ Assignment.Made (guaranteedAssignment wallet key intent) records := by
  unfold signGuaranteed at h
  unfold nextSigner guaranteedAssignment
  cases ho : present intent.guaranteed_unshielded_offer with
  | none =>
    rw [ho] at h
    cases h
    exact ⟨[], (List.append_nil _).symm, rfl, rfl, List.Forall₂.nil⟩
  | some offer =>
    rw [ho] at h
    obtain ⟨inputs, hin, h⟩ := bind_ok_iff.mp h
    obtain ⟨payload, -, h⟩ := bind_ok_iff.mp h
    cases h
    have hsigner : routedSigner wallet offer = if (inputs.head?.map UtxoSpend.owner).getD [] = wallet.dust.publicKey
        then wallet.dust.signer else wallet.unshielded.signer := by
      rw [routedSigner, required_ok_iff.mp hin, Option.getD_some]
    refine ⟨[_], rfl, ?_, rfl, ?_⟩
    · simp only [hsigner]
    · apply List.Forall₂.cons _ List.Forall₂.nil
      exact ⟨rfl, _, rfl, by rw [hsigner], _, by rw [hsigner]⟩

theorem signFallible_made {r : Intent × SignState} (h : signFallible draw key seg_id intent st = .ok r) :
    ∃ records, r.2.log = st.log++records ∧ r.2.signer = st.signer ∧
      List.Forall₂ Assignment.Made (fallibleAssignment st.signer key intent) records := by
  unfold signFallible at h
  unfold fallibleAssignment
  cases ho : present intent.fallible_unshielded_offer with
  | none =>
    rw [ho] at h
    cases h
    exact ⟨[], (List.append_nil _).symm, rfl, List.Forall₂.nil⟩
  | some offer =>
    rw [ho] at h
    obtain ⟨payload, -, h⟩ := bind_ok_iff.mp h
    obtain ⟨signer, hsigner, h⟩ := bind_ok_iff.mp h
    cases h
    have hlast : st.signer = some signer := by
      unfold SignState.lastSigner at hsigner
      cases hst : st.signer with
      | none =>
        rw [hst] at hsigner
        cases hsigner
      | some last =>
        rw [hst] at hsigner
        cases hsigner
        rfl
    refine ⟨[_], rfl, rfl, ?_⟩
    apply List.Forall₂.cons _ List.Forall₂.nil
    exact ⟨rfl, signer, hlast, rfl, _, rfl⟩

theorem signSegment_made {st' : SignState} (h : signSegment wallet draw key intent st = .ok st') :
    ∃ records, st'.log = st.log++records ∧ st'.signer = nextSigner wallet st.signer intent ∧
      List.Forall₂ Assignment.Made (guaranteedAssignment wallet key intent++
        fallibleAssignment (nextSigner wallet st.signer intent) key intent) records := by
  obtain ⟨seg_id, -, h⟩ := bind_ok_iff.mp h
  obtain ⟨first, hg, h⟩ := bind_ok_iff.mp h
  obtain ⟨second, hf, h⟩ := bind_ok_iff.mp h
  cases h
  obtain ⟨guaranteed, hlog, hsigner, hkeep, hmade⟩ := signGuaranteed_made hg
  obtain ⟨fallible, hlog', hsigner', hmade'⟩ := signFallible_made hf
  have hsame : fallibleAssignment first.2.signer key first.1 =
      fallibleAssignment (nextSigner wallet st.signer intent) key intent := by
    rw [fallibleAssignment, hkeep, hsigner, fallibleAssignment]
  rw [hsame] at hmade'
  refine ⟨guaranteed++fallible, ?_, hsigner'.trans hsigner, List.rel_append hmade hmade'⟩
  rw [hlog', hlog, List.append_assoc]

/-- The loop makes one record for each assignment, in order. -/
theorem signLoop_made {entries : List (IntLike × Intent)} {st' : SignState}
    (h : signLoop wallet draw entries st = .ok st') :
    ∃ records, st'.log = st.log++records ∧
      List.Forall₂ Assignment.Made (assignments wallet st.signer entries) records := by
  induction entries generalizing st with
  | nil =>
    cases h
    exact ⟨[], (List.append_nil _).symm, List.Forall₂.nil⟩
  | cons p entries ih =>
    obtain ⟨key, intent⟩ := p
    obtain ⟨next, hsegment, h⟩ := bind_ok_iff.mp h
    obtain ⟨first, hlog, hsigner, hmade⟩ := signSegment_made hsegment
    obtain ⟨rest, hlog', hmade'⟩ := ih h
    rw [hsigner] at hmade'
    refine ⟨first++rest, ?_, List.rel_append hmade hmade'⟩
    rw [hlog', hlog, List.append_assoc]

/-- An offer that is there is serialized when it can be, and a missing one always is. -/
theorem serializeOptionalOffer_returns_iff {o : Option UnshieldedOffer} :
    (∃ x, serializeOptionalOffer o = .ok x) ↔
      ∀ offer, present o = some offer → ∃ y, serializeUnshieldedOffer offer = .ok y := by
  unfold serializeOptionalOffer
  cases present o with
  | none => simp
  | some offer => simp [gather_returns_iff]

theorem serializeIntent_returns_iff :
    (∃ x, serializeIntent intent = .ok x) ↔
      (∃ x, serializeOptionalOffer intent.guaranteed_unshielded_offer = .ok x) ∧
      (∃ x, serializeOptionalOffer intent.fallible_unshielded_offer = .ok x) ∧
      (∃ x, (required "ttl" intent.ttl >>= serializeU32) = .ok x) ∧
      (∃ x, serializeVec serializeContractAction (intent.actions.getD []) = .ok x) ∧
      ∃ x, required "binding_commitment" intent.binding_commitment = .ok x := by
  unfold serializeIntent
  rw [gather_returns_iff]
  simp

theorem signingPayload_returns_iff :
    (∃ x, getUnshieldedSigningPayload seg_id intent = .ok x) ↔
      (∃ x, serializeU32 seg_id = .ok x) ∧ ∃ y, serializeIntent intent = .ok y := by
  unfold getUnshieldedSigningPayload
  rw [gather_returns_iff]
  simp

/-- An offer that can be serialized still can with one signature in it. -/
theorem serializeUnshieldedOffer_signed {offer : UnshieldedOffer} {x : Bytes} (sig : Bytes)
    (h : serializeUnshieldedOffer offer = .ok x) :
    ∃ y, serializeUnshieldedOffer { offer with signatures := some [sig] } = .ok y := by
  have hparts := gather_returns_iff.mp ⟨x, h⟩
  have hcount : encodeScaleInt (1 : Nat) = .ok [4] := by decide
  have hsig : ∃ z, serializeVec .ok [sig] = (.ok z : Except PyError Bytes) := by
    rw [serializeVec, List.length_singleton, hcount]
    exact ⟨_, rfl⟩
  apply gather_returns_iff.mpr
  simp only [List.forall_mem_cons, Option.getD_some] at hparts ⊢
  exact ⟨hparts.1, hparts.2.1, hsig, by simp⟩

theorem serializeOptionalOffer_signed {offer : UnshieldedOffer} {o : Option UnshieldedOffer} (sig : Bytes)
    (ho : present o = some offer) (h : ∃ x, serializeOptionalOffer o = .ok x) :
    ∃ y, serializeOptionalOffer (some { offer with signatures := some [sig] }) = .ok y := by
  obtain ⟨y, hy⟩ := serializeOptionalOffer_returns_iff.mp h offer ho
  apply serializeOptionalOffer_returns_iff.mpr
  intro signed hsigned
  rw [present_signed] at hsigned
  cases hsigned
  exact serializeUnshieldedOffer_signed sig hy

/-- A payload that exists still does after one offer of the intent was signed. -/
theorem signingPayload_signed {slot : OfferSlot} {offer : UnshieldedOffer} {x : Bytes} (sig : Bytes)
    (ho : present (slot.offer intent) = some offer) (h : getUnshieldedSigningPayload seg_id intent = .ok x) :
    ∃ y, getUnshieldedSigningPayload seg_id (slot.write { offer with signatures := some [sig] } intent) = .ok y := by
  obtain ⟨hid, hintent⟩ := signingPayload_returns_iff.mp ⟨x, h⟩
  obtain ⟨hg, hf, hrest⟩ := serializeIntent_returns_iff.mp hintent
  apply signingPayload_returns_iff.mpr
  refine ⟨hid, serializeIntent_returns_iff.mpr ?_⟩
  cases slot with
  | guaranteed => exact ⟨serializeOptionalOffer_signed sig ho hg, hf, hrest⟩
  | fallible => exact ⟨hg, serializeOptionalOffer_signed sig ho hf, hrest⟩

/-- What can be serialized has inputs to route by. -/
theorem signingPayload_inputs {offer : UnshieldedOffer} {x : Bytes}
    (ho : present intent.guaranteed_unshielded_offer = some offer)
    (h : getUnshieldedSigningPayload seg_id intent = .ok x) : ∃ inputs, offer.inputs = some inputs := by
  obtain ⟨-, hintent⟩ := signingPayload_returns_iff.mp ⟨x, h⟩
  obtain ⟨hg, -⟩ := serializeIntent_returns_iff.mp hintent
  obtain ⟨y, hy⟩ := serializeOptionalOffer_returns_iff.mp hg offer ho
  obtain ⟨z, rest, hz, -, -⟩ := gather_cons_ok.mp hy
  obtain ⟨inputs, hin, -⟩ := bind_ok_iff.mp hz
  exact ⟨inputs, required_ok_iff.mp hin⟩

/-- An offer with a payload is signed by the signer it is routed to. -/
theorem signGuaranteed_present {offer : UnshieldedOffer} {x : Bytes}
    (ho : present intent.guaranteed_unshielded_offer = some offer)
    (h : getUnshieldedSigningPayload seg_id intent = .ok x) :
    let signer := routedSigner wallet offer
    let sig := signer.sign (draw+st.log.length) x
    signGuaranteed wallet draw key seg_id intent st =
      .ok (OfferSlot.guaranteed.write { offer with signatures := some [sig] } intent,
        { st with
          signer := some signer
          log := st.log++[⟨key, seg_id, .guaranteed, signer.public_key, x, sig⟩] }) := by
  obtain ⟨inputs, hin⟩ := signingPayload_inputs ho h
  unfold signGuaranteed routedSigner
  rw [ho]
  simp only [hin, required_some, ok_bind, h, Option.getD_some]
  rfl

theorem signFallible_present {offer : UnshieldedOffer} {signer : Sr25519Signer} {x : Bytes}
    (ho : present intent.fallible_unshielded_offer = some offer) (hlast : st.signer = some signer)
    (h : getUnshieldedSigningPayload seg_id intent = .ok x) :
    let sig := signer.sign (draw+st.log.length) x
    signFallible draw key seg_id intent st =
      .ok (OfferSlot.fallible.write { offer with signatures := some [sig] } intent,
        { st with log := st.log++[⟨key, seg_id, .fallible, signer.public_key, x, sig⟩] }) := by
  have hsigner : st.lastSigner = .ok signer := by
    unfold SignState.lastSigner
    rw [hlast]
  unfold signFallible
  rw [ho]
  simp only [h, ok_bind, hsigner]
  rfl

theorem signGuaranteed_runs (wallet : MidnightWallet) (draw : Nat) (key : IntLike) (st : SignState) {x : Bytes}
    (h : getUnshieldedSigningPayload seg_id intent = .ok x) :
    ∃ r, signGuaranteed wallet draw key seg_id intent st = .ok r ∧
      ∃ y, getUnshieldedSigningPayload seg_id r.1 = .ok y := by
  cases ho : present intent.guaranteed_unshielded_offer with
  | none =>
    refine ⟨(intent, st), ?_, x, h⟩
    rw [signGuaranteed, ho]
  | some offer =>
    have hslot : present (OfferSlot.guaranteed.offer intent) = some offer := ho
    exact ⟨_, signGuaranteed_present ho h, signingPayload_signed _ hslot h⟩

theorem signFallible_runs (draw : Nat) {x : Bytes} (h : getUnshieldedSigningPayload seg_id intent = .ok x)
    (hsigner : ∀ a ∈ fallibleAssignment st.signer key intent, a.signer.isSome) :
    ∃ r, signFallible draw key seg_id intent st = .ok r := by
  cases ho : present intent.fallible_unshielded_offer with
  | none =>
    refine ⟨(intent, st), ?_⟩
    rw [signFallible, ho]
  | some offer =>
    have hmem : (⟨key, .fallible, offer, st.signer⟩ : Assignment) ∈ fallibleAssignment st.signer key intent := by
      simp [fallibleAssignment, ho]
    obtain ⟨signer, hlast⟩ := Option.isSome_iff_exists.mp (hsigner _ hmem)
    exact ⟨_, signFallible_present ho hlast h⟩

theorem signSegment_runs (draw : Nat) (hready : Signable (key, intent))
    (hsigner : ∀ a ∈ fallibleAssignment (nextSigner wallet st.signer intent) key intent, a.signer.isSome) :
    ∃ st', signSegment wallet draw key intent st = .ok st' := by
  obtain ⟨seg_id, hkey, hready⟩ := hready
  have hkey : key.toInt = .ok seg_id := hkey
  rw [signSegment, hkey, ok_bind]
  rcases hready with hidle | ⟨payload, hpayload⟩
  · have hg : present intent.guaranteed_unshielded_offer = none := hidle .guaranteed
    have hf : present intent.fallible_unshielded_offer = none := hidle .fallible
    simp only [signGuaranteed, hg, ok_bind, signFallible, hf]
    exact ⟨_, rfl⟩
  · obtain ⟨first, hfirst, y, hy⟩ := signGuaranteed_runs wallet draw key st hpayload
    obtain ⟨-, -, hlast, hkeep, -⟩ := signGuaranteed_made hfirst
    have hsame : fallibleAssignment first.2.signer key first.1 =
        fallibleAssignment (nextSigner wallet st.signer intent) key intent := by
      rw [fallibleAssignment, hkeep, hlast, fallibleAssignment]
    rw [← hsame] at hsigner
    obtain ⟨second, hsecond⟩ := signFallible_runs draw hy hsigner
    rw [hfirst, ok_bind, hsecond, ok_bind]
    exact ⟨_, rfl⟩

/-- Nothing stops the loop when all segments are signable and every assignment has a signer. -/
theorem signLoop_runs (draw : Nat) (st : SignState) {entries : List (IntLike × Intent)}
    (hready : ∀ p ∈ entries, Signable p)
    (hsigner : ∀ a ∈ assignments wallet st.signer entries, a.signer.isSome) :
    ∃ st', signLoop wallet draw entries st = .ok st' := by
  induction entries generalizing st with
  | nil => exact ⟨st, rfl⟩
  | cons p entries ih =>
    obtain ⟨key, intent⟩ := p
    have hfallible : ∀ a ∈ fallibleAssignment (nextSigner wallet st.signer intent) key intent, a.signer.isSome := by
      intro a ha
      apply hsigner a
      exact List.mem_append_left _ (List.mem_append_right _ ha)
    obtain ⟨next, hnext⟩ := signSegment_runs draw (hready (key, intent) (by simp)) hfallible
    obtain ⟨-, -, hlast, -⟩ := signSegment_made hnext
    have hrest : ∀ a ∈ assignments wallet next.signer entries, a.signer.isSome := by
      intro a ha
      rw [hlast] at ha
      exact hsigner a (List.mem_append_right _ ha)
    obtain ⟨st', hst'⟩ := ih next (fun q hq => hready q (by simp [hq])) hrest
    rw [signLoop, hnext, ok_bind]
    exact ⟨st', hst'⟩

end Steps

section Assigned

variable {wallet : MidnightWallet} {signer : Option Sr25519Signer} {entries : List (IntLike × Intent)} {a : Assignment}

theorem mem_guaranteedAssignment {key : IntLike} {intent : Intent} (h : a ∈ guaranteedAssignment wallet key intent) :
    a.place = (key, .guaranteed) ∧ present intent.guaranteed_unshielded_offer = some a.offer ∧
      a.signer = some (routedSigner wallet a.offer) := by
  obtain ⟨offer, ho, rfl⟩ := List.mem_map.mp h
  exact ⟨rfl, Option.mem_toList.mp ho, rfl⟩

theorem mem_fallibleAssignment {key : IntLike} {intent : Intent} (h : a ∈ fallibleAssignment signer key intent) :
    a.place = (key, .fallible) ∧ present intent.fallible_unshielded_offer = some a.offer ∧ a.signer = signer := by
  obtain ⟨offer, ho, rfl⟩ := List.mem_map.mp h
  exact ⟨rfl, Option.mem_toList.mp ho, rfl⟩

/-- An assignment belongs to an offer of its segment; a guaranteed one is routed by that offer. -/
theorem mem_assignments (h : a ∈ assignments wallet signer entries) :
    ∃ intent, (a.segment, intent) ∈ entries ∧ present (a.slot.offer intent) = some a.offer ∧
      (a.slot = .guaranteed → a.signer = some (routedSigner wallet a.offer)) := by
  induction entries generalizing signer with
  | nil => cases h
  | cons p entries ih =>
    obtain ⟨key, intent⟩ := p
    rcases List.mem_append.mp h with hhere | hrest
    · refine ⟨intent, ?_⟩
      rcases List.mem_append.mp hhere with hg | hf
      · obtain ⟨hplace, ho, hsigner⟩ := mem_guaranteedAssignment hg
        obtain ⟨hkey, hslot⟩ := Prod.mk.inj hplace
        rw [hkey, hslot]
        exact ⟨List.mem_cons_self, ho, fun _ => hsigner⟩
      · obtain ⟨hplace, ho, -⟩ := mem_fallibleAssignment hf
        obtain ⟨hkey, hslot⟩ := Prod.mk.inj hplace
        rw [hkey, hslot]
        refine ⟨List.mem_cons_self, ho, ?_⟩
        intro hguaranteed
        cases hguaranteed
    · obtain ⟨found, hmem, ho, hrouted⟩ := ih hrest
      exact ⟨found, List.mem_cons_of_mem _ hmem, ho, hrouted⟩

/-- Every offer that is there has its assignment. -/
theorem exists_assignment (wallet : MidnightWallet) (signer : Option Sr25519Signer) {key : IntLike}
    {intent : Intent} {slot : OfferSlot} {offer : UnshieldedOffer} (hmem : (key, intent) ∈ entries)
    (ho : present (slot.offer intent) = some offer) :
    ∃ a ∈ assignments wallet signer entries, a.place = (key, slot) ∧ a.offer = offer := by
  induction entries generalizing signer with
  | nil => cases hmem
  | cons p entries ih =>
    obtain ⟨key', intent'⟩ := p
    rcases List.mem_cons.mp hmem with heq | hmem
    · cases heq
      cases slot with
      | guaranteed =>
        refine ⟨⟨key, .guaranteed, offer, some (routedSigner wallet offer)⟩, ?_, rfl, rfl⟩
        apply List.mem_append_left _ (List.mem_append_left _ _)
        exact List.mem_map.mpr ⟨offer, Option.mem_toList.mpr ho, rfl⟩
      | fallible =>
        refine ⟨⟨key, .fallible, offer, nextSigner wallet signer intent⟩, ?_, rfl, rfl⟩
        apply List.mem_append_left _ (List.mem_append_right _ _)
        exact List.mem_map.mpr ⟨offer, Option.mem_toList.mpr ho, rfl⟩
    · obtain ⟨a, ha, hfound⟩ := ih (nextSigner wallet signer intent') hmem
      exact ⟨a, List.mem_append_right _ ha, hfound⟩

/-- With distinct segment keys no place is assigned twice. -/
theorem assignments_nodup (wallet : MidnightWallet) (signer : Option Sr25519Signer) (h : (entries.map Prod.fst).Nodup) :
    ((assignments wallet signer entries).map Assignment.place).Nodup := by
  induction entries generalizing signer with
  | nil => exact List.nodup_nil
  | cons p entries ih =>
    obtain ⟨key, intent⟩ := p
    obtain ⟨hkey, hrest⟩ := List.nodup_cons.mp h
    have hone (slot : OfferSlot) (o : Option UnshieldedOffer) (f : UnshieldedOffer → Assignment)
        (hf : ∀ offer, (f offer).place = (key, slot)) : ((o.toList.map f).map Assignment.place).Nodup := by
      cases o with
      | none => exact List.nodup_nil
      | some offer => exact List.nodup_singleton _
    rw [assignments, List.map_append, List.map_append]
    refine List.nodup_append.mpr ⟨List.nodup_append.mpr ⟨?_, ?_, ?_⟩, ih _ hrest, ?_⟩
    · exact hone .guaranteed _ _ (fun _ => rfl)
    · exact hone .fallible _ _ (fun _ => rfl)
    · intro x hx y hy hxy
      obtain ⟨b, hb, rfl⟩ := List.mem_map.mp hx
      obtain ⟨c, hc, rfl⟩ := List.mem_map.mp hy
      rw [(mem_guaranteedAssignment hb).1, (mem_fallibleAssignment hc).1] at hxy
      cases hxy
    · intro x hx y hy hxy
      obtain ⟨c, hc, rfl⟩ := List.mem_map.mp hy
      obtain ⟨found, hfound, -, -⟩ := mem_assignments hc
      have hplace : x.1 = key := by
        rcases List.mem_append.mp hx with hx | hx
        · obtain ⟨b, hb, rfl⟩ := List.mem_map.mp hx
          rw [(mem_guaranteedAssignment hb).1]
        · obtain ⟨b, hb, rfl⟩ := List.mem_map.mp hx
          rw [(mem_fallibleAssignment hb).1]
      apply hkey
      rw [← hplace, hxy]
      exact List.mem_map.mpr ⟨_, hfound, rfl⟩

/-- Assigned signers are the wallet's. -/
theorem assignments_signer (hsigner : ∀ s, signer = some s → s = wallet.dust.signer ∨ s = wallet.unshielded.signer)
    (h : a ∈ assignments wallet signer entries) :
    ∀ s, a.signer = some s → s = wallet.dust.signer ∨ s = wallet.unshielded.signer := by
  induction entries generalizing signer with
  | nil => cases h
  | cons p entries ih =>
    obtain ⟨key, intent⟩ := p
    have hnext : ∀ s, nextSigner wallet signer intent = some s →
        s = wallet.dust.signer ∨ s = wallet.unshielded.signer := by
      intro s hs
      unfold nextSigner at hs
      cases ho : present intent.guaranteed_unshielded_offer with
      | none =>
        rw [ho] at hs
        exact hsigner s hs
      | some offer =>
        rw [ho] at hs
        cases hs
        exact routedSigner_wallet wallet offer
    rcases List.mem_append.mp h with hhere | hrest
    · intro s hs
      rcases List.mem_append.mp hhere with hg | hf
      · rw [(mem_guaranteedAssignment hg).2.2] at hs
        cases hs
        exact routedSigner_wallet wallet a.offer
      · rw [(mem_fallibleAssignment hf).2.2] at hs
        exact hnext s hs
    · exact ih hnext hrest

end Assigned

/-- Within one offer all inputs belong to the DUST key or all to the NIGHT key. -/
def OffersOwned (wallet : MidnightWallet) (intents : Dict IntLike Intent) : Prop :=
  ∀ key intent slot offer, intents.get? key = some intent → present (OfferSlot.offer slot intent) = some offer →
    (∀ spend ∈ offer.inputs.getD [], spend.owner = wallet.dust.publicKey) ∨
    ∀ spend ∈ offer.inputs.getD [], spend.owner = wallet.unshielded.publicKey

/-- Every offer holds a signature that was made for it by the side of the wallet whose key owns its inputs. -/
def SignedByOwners (wallet : MidnightWallet) (intents : Dict IntLike Intent) (log : List SignRecord) : Prop :=
  ∀ key intent slot offer, intents.get? key = some intent → present (OfferSlot.offer slot intent) = some offer →
    ∃ signer, (signer = wallet.dust.signer ∨ signer = wallet.unshielded.signer) ∧
      (∀ spend ∈ offer.inputs.getD [], spend.owner = signer.public_key) ∧
      ∃ r ∈ log, r.segment = key ∧ r.slot = slot ∧ offer.signatures = some [r.signature] ∧
        r.signer_key = signer.public_key ∧ ∃ n, r.signature = signer.sign n r.payload

/-- Every segment can be signed, and the signer assigned last owns the inputs of each fallible offer. -/
def FallibleRouted (wallet : MidnightWallet) (intents : Dict IntLike Intent) : Prop :=
  (∀ p ∈ intents.entries, Signable p) ∧
  ∀ a ∈ assignments wallet none intents.entries, a.slot = .fallible → a.Owned

/-- The serialization arrives at the signing loop with these segments. -/
structure ReachesSigning (network_id : String) (rnd : Bytes) (tx_data ready : TxData) (stx : StandardTransaction)
    (intents : Dict IntLike Intent) : Prop where
  stages : ∃ t, prepareStandard network_id tx_data = .ok t ∧ bindRandomness rnd t = .ok ready
  flag : ready.requires_unshielded_signature = some true
  standard : ready.standard = some stx
  segments : stx.intents = some intents

section Run

variable {network_id : String} {rnd : Bytes} {wallet : MidnightWallet} {tx_data ready : TxData}
  {stx : StandardTransaction} {intents : Dict IntLike Intent}

/-- What reaches the signing loop is signed by it. -/
theorem signTransaction_loop (wallet : MidnightWallet) (draw : Nat)
    (hflag : ready.requires_unshielded_signature = some true) (hstandard : ready.standard = some stx)
    (hintents : stx.intents = some intents) :
    signTransaction wallet draw ready = (signLoop wallet draw intents.entries { intents := intents } >>=
      fun st => .ok ({ ready with standard := some { stx with intents := some st.intents } }, st.log)) := by
  rw [signTransaction, hflag, Option.getD_some, if_pos rfl, hstandard, required_some, ok_bind, hintents, required_some,
    ok_bind]
  rfl

/-- A guaranteed offer is always signed by the owner of its inputs. -/
theorem guaranteed_owned (howned : OffersOwned wallet intents) {a : Assignment}
    (ha : a ∈ assignments wallet none intents.entries) (hslot : a.slot = .guaranteed) : a.Owned := by
  obtain ⟨intent, hmem, ho, hsigner⟩ := mem_assignments ha
  refine ⟨_, hsigner hslot, ?_⟩
  have hsides := howned a.segment intent a.slot a.offer (intents.get?_of_mem hmem) ho
  unfold routedSigner
  cases hin : a.offer.inputs.getD [] with
  | nil => simp
  | cons first rest =>
    rw [hin] at hsides
    rw [List.head?_cons, Option.map_some, Option.getD_some]
    split_ifs with hdust
    · rcases hsides with hall | hall
      · exact hall
      · intro spend hspend
        rw [hall spend hspend, ← hall first List.mem_cons_self, hdust]
        rfl
    · rcases hsides with hall | hall
      · exact absurd (hall first List.mem_cons_self) hdust
      · exact hall

theorem inputs_kept {o p : Option UnshieldedOffer} {offer : UnshieldedOffer}
    (h : o.map UnshieldedOffer.body = p.map UnshieldedOffer.body) (ho : o = some offer) :
    ∃ found, p = some found ∧ found.inputs = offer.inputs := by
  rw [ho, Option.map_some] at h
  obtain ⟨found, hfound, hsame⟩ := Option.map_eq_some_iff.mp h.symm
  have hinputs : found.body.inputs = offer.body.inputs := by rw [hsame]
  exact ⟨found, hfound, hinputs⟩

theorem step_signable (s : SegmentStep) : Signable (s.key, s.before) := by
  refine ⟨s.seg_id, s.parsed, ?_⟩
  cases hr : s.records with
  | nil => exact Or.inl (s.nothingToSign_of_records hr)
  | cons r rest => exact Or.inr ⟨r.payload, s.head_payload hr⟩

/-- After a loop that returned, every logged signature is in the offer it was made for. -/
theorem signLoop_stored {draw : Nat} {st : SignState}
    (hst : signLoop wallet draw intents.entries { intents := intents } = .ok st) {r : SignRecord} (hr : r ∈ st.log)
    {intent : Intent} {offer : UnshieldedOffer} (hget : st.intents.get? r.segment = some intent)
    (hoffer : r.slot.offer intent = some offer) : offer.signatures = some [r.signature] := by
  obtain ⟨steps, -, hafter, hlog⟩ := signLoop_ok (List.nil_append intents.entries).symm hst
  rw [List.nil_append] at hafter hlog
  rw [hlog] at hr
  obtain ⟨s, hs, hrecord⟩ := List.mem_flatMap.mp hr
  obtain ⟨hkey, -, stored, hstored, hsigned⟩ := s.stored hrecord
  have hsame : st.intents.get? r.segment = some s.after := (Dict.get?_of_map hafter).mpr ⟨s, hs, hkey.symm, rfl⟩
  rw [hget] at hsame
  rw [Option.some.inj hsame, hstored] at hoffer
  rw [← Option.some.inj hoffer]
  exact hsigned

theorem owned_of_signedByOwners {draw : Nat} {st : SignState}
    (hst : signLoop wallet draw intents.entries { intents := intents } = .ok st)
    (howners : SignedByOwners wallet st.intents st.log) {a : Assignment}
    (ha : a ∈ assignments wallet none intents.entries) : a.Owned := by
  obtain ⟨steps, hbefore, hafter, -⟩ := signLoop_ok (List.nil_append intents.entries).symm hst
  obtain ⟨records, hrecords, hmade⟩ := signLoop_made hst
  rw [List.nil_append] at hafter hrecords
  obtain ⟨intent, hmem, ho, -⟩ := mem_assignments ha
  rw [← hbefore] at hmem
  obtain ⟨s, hs, hpair⟩ := List.mem_map.mp hmem
  obtain ⟨hkey, rfl⟩ := Prod.mk.inj hpair
  obtain ⟨offer, hoffer, hinputs⟩ := inputs_kept (s.offer_kept a.slot).symm ho
  have hget : st.intents.get? a.segment = some s.after := (Dict.get?_of_map hafter).mpr ⟨s, hs, hkey, rfl⟩
  obtain ⟨signer, -, howns, r, hr, hsegment, hslot, -, hsigner, -⟩ :=
    howners a.segment s.after a.slot offer hget hoffer
  rw [hrecords] at hr
  obtain ⟨b, hb, hplace, made, hbsigner, hmadekey, -⟩ := forall₂_mem_right hmade hr
  have hab : b = a := by
    have hnodup := assignments_nodup wallet none intents.nodup
    apply List.inj_on_of_nodup_map hnodup hb ha
    rw [← hplace, hsegment, hslot]
    rfl
  refine ⟨made, by rw [← hab]; exact hbsigner, ?_⟩
  intro spend hspend
  rw [← hmadekey, hsigner]
  apply howns
  rwa [hinputs]

theorem signedByOwners_of_owned {draw : Nat} {st : SignState}
    (hst : signLoop wallet draw intents.entries { intents := intents } = .ok st)
    (howned : ∀ a ∈ assignments wallet none intents.entries, a.Owned) : SignedByOwners wallet st.intents st.log := by
  obtain ⟨steps, hbefore, hafter, -⟩ := signLoop_ok (List.nil_append intents.entries).symm hst
  obtain ⟨records, hrecords, hmade⟩ := signLoop_made hst
  rw [List.nil_append] at hafter hrecords
  intro key intent slot offer hget ho
  obtain ⟨s, hs, hkey, rfl⟩ := (Dict.get?_of_map hafter).mp hget
  obtain ⟨found, hfound, hinputs⟩ := inputs_kept (s.offer_kept slot) ho
  have hentry : (key, s.before) ∈ intents.entries := by
    rw [← hbefore, ← hkey]
    exact List.mem_map.mpr ⟨s, hs, rfl⟩
  obtain ⟨a, ha, hplace, hoffer⟩ := exists_assignment wallet none hentry hfound
  obtain ⟨signer, hsigner, howns⟩ := howned a ha
  obtain ⟨r, hr, hmadeplace, made, hmadesigner, hmadekey, n, hsig⟩ := forall₂_mem_left hmade ha
  rw [← hrecords] at hr
  rw [hsigner] at hmadesigner
  cases hmadesigner
  obtain ⟨rfl, rfl⟩ := Prod.mk.inj (hmadeplace.trans hplace)
  have hstored := signLoop_stored hst hr hget (Option.eq_some_of_filter_eq_some ho)
  refine ⟨signer, assignments_signer (by simp) ha signer hsigner, ?_, r, hr, rfl, rfl, hstored, hmadekey, n, hsig⟩
  intro spend hspend
  apply howns
  rwa [hoffer, hinputs]

/-- After a loop that returned, all offers are signed by their owners exactly when all assignments are. -/
theorem signedByOwners_iff {draw : Nat} {st : SignState}
    (hst : signLoop wallet draw intents.entries { intents := intents } = .ok st) :
    SignedByOwners wallet st.intents st.log ↔ ∀ a ∈ assignments wallet none intents.entries, a.Owned :=
  ⟨fun howners _ ha => owned_of_signedByOwners hst howners ha, signedByOwners_of_owned hst⟩

/-- The signing loop routes every signature to the owner of the inputs exactly when all segments can be signed
and each fallible offer comes after a guaranteed offer of its own owner, with no other in between. -/
theorem signTransaction_owners_iff (draw : Nat) (hreach : ReachesSigning network_id rnd tx_data ready stx intents)
    (howned : OffersOwned wallet intents) :
    (∃ signed log, signTransaction wallet draw ready =
        .ok ({ ready with standard := some { stx with intents := some signed } }, log) ∧
      SignedByOwners wallet signed log ∧
      ∀ out, serializeTransaction network_id rnd wallet draw tx_data = .ok out →
        out.tx_data = { ready with standard := some { stx with intents := some signed } } ∧ out.log = log) ↔
    FallibleRouted wallet intents := by
  have hloop := signTransaction_loop wallet draw hreach.flag hreach.standard hreach.segments
  constructor
  · intro ⟨signed, log, hsign, howners, _⟩
    rw [hloop] at hsign
    obtain ⟨st, hst, hsign⟩ := bind_ok_iff.mp hsign
    cases hsign
    constructor
    · obtain ⟨steps, hbefore, -, -⟩ := signLoop_ok (List.nil_append intents.entries).symm hst
      intro p hp
      rw [← hbefore] at hp
      obtain ⟨s, -, rfl⟩ := List.mem_map.mp hp
      exact step_signable s
    · intro a ha _
      exact (signedByOwners_iff hst).mp howners a ha
  · intro ⟨hready, hfallible⟩
    have hall : ∀ a ∈ assignments wallet none intents.entries, a.Owned := by
      intro a ha
      cases hslot : a.slot with
      | guaranteed => exact guaranteed_owned howned ha hslot
      | fallible => exact hfallible a ha hslot
    have hsome : ∀ a ∈ assignments wallet none intents.entries, a.signer.isSome := by
      intro a ha
      obtain ⟨signer, hsigner, -⟩ := hall a ha
      rw [hsigner]
      rfl
    obtain ⟨st, hst⟩ := signLoop_runs draw { intents := intents } hready hsome
    have hsign := hloop
    rw [hst, ok_bind] at hsign
    refine ⟨st.intents, st.log, hsign, (signedByOwners_iff hst).mpr hall, ?_⟩
    intro out hout
    obtain ⟨t1, t2, h1, h2, h3, -⟩ := serializeTransaction_ok.mp hout
    obtain ⟨t, hprepare, hbind⟩ := hreach.stages
    rw [hprepare] at h1
    cases h1
    rw [hbind] at h2
    cases h2
    rw [hsign] at h3
    obtain ⟨hdata, hlog⟩ := Prod.mk.inj (Except.ok.inj h3)
    exact ⟨hdata.symm, hlog.symm⟩

end Run

/-- The segment of the sample transfer. -/
def segmentToSign (guaranteed fallible : Option UnshieldedOffer) : Intent where
  guaranteed_unshielded_offer := guaranteed
  fallible_unshielded_offer := fallible
  ttl := some 1800
  actions := some []
  binding_commitment := some (List.replicate 32 8)

def standardToSign (guaranteed fallible : Option UnshieldedOffer) : StandardTransaction where
  network_id := some "preprod"
  intents := some (Dict.ofList [(.str "0", segmentToSign guaranteed fallible)])
  binding_randomness := some (List.replicate 32 5)

theorem transferToSign_reaches (guaranteed fallible : Option UnshieldedOffer) :
    ReachesSigning "preprod" (List.replicate 32 9) (transferToSign guaranteed fallible)
      (transferToSign guaranteed fallible) (standardToSign guaranteed fallible)
      (Dict.ofList [(.str "0", segmentToSign guaranteed fallible)]) :=
  ⟨⟨_, rfl, rfl⟩, rfl, rfl, rfl⟩

/-- The sample offer belongs to the NIGHT key. -/
theorem transferToSign_owned (guaranteed fallible : Option UnshieldedOffer)
    (hg : ∀ offer, guaranteed = some offer → offer = offerToSign)
    (hf : ∀ offer, fallible = some offer → offer = offerToSign) :
    OffersOwned signingWallet (Dict.ofList [(.str "0", segmentToSign guaranteed fallible)]) := by
  intro key intent slot offer hget ho
  right
  have hentry := Dict.mem_of_get? _ hget
  obtain ⟨-, rfl⟩ := Prod.mk.inj (List.mem_singleton.mp hentry)
  have hoffer : offer = offerToSign := by
    have hslot := Option.eq_some_of_filter_eq_some ho
    cases slot with
    | guaranteed => exact hg offer hslot
    | fallible => exact hf offer hslot
  rw [hoffer]
  decide

theorem signTransaction_owners_sample :
    ∃ signed log, SignedByOwners signingWallet signed log ∧
      ∃ t, signTransaction signingWallet 0 (transferToSign (some offerToSign) (some offerToSign)) = .ok (t, log) := by
  have howned := transferToSign_owned (some offerToSign) (some offerToSign) (by simp) (by simp)
  have hrouted : FallibleRouted signingWallet
      (Dict.ofList [(.str "0", segmentToSign (some offerToSign) (some offerToSign))]) := by
    constructor
    · intro p hp
      rw [List.mem_singleton.mp hp]
      exact ⟨0, by decide, Or.inr (exists_ok (by decide +kernel))⟩
    · intro a ha _
      have hlist : assignments signingWallet none
          (Dict.ofList [(.str "0", segmentToSign (some offerToSign) (some offerToSign))]).entries =
          [⟨.str "0", .guaranteed, offerToSign, some signingWallet.unshielded.signer⟩,
            ⟨.str "0", .fallible, offerToSign, some signingWallet.unshielded.signer⟩] := rfl
      rw [hlist] at ha
      refine ⟨signingWallet.unshielded.signer, ?_, ?_⟩
      · rcases List.mem_cons.mp ha with rfl | ha
        · rfl
        · rw [List.mem_singleton.mp ha]
      · have hoffer : a.offer = offerToSign := by
          rcases List.mem_cons.mp ha with rfl | ha
          · rfl
          · rw [List.mem_singleton.mp ha]
        rw [hoffer]
        decide
  obtain ⟨signed, log, hsign, howners, -⟩ :=
    (signTransaction_owners_iff 0 (transferToSign_reaches _ _) howned).mpr hrouted
  exact ⟨signed, log, howners, _, hsign⟩

/-- A fallible offer on its own is not signed at all: no signer was assigned. -/
theorem lone_fallible_unsigned :
    OffersOwned signingWallet (Dict.ofList [(.str "0", segmentToSign none (some offerToSign))]) ∧
    signTransaction signingWallet 0 (transferToSign none (some offerToSign)) =
      .error (.unboundLocalError "signer") := by
  refine ⟨transferToSign_owned none (some offerToSign) (by simp) (by simp), ?_⟩
  rfl

end TransactionBuilder

end Noxipher

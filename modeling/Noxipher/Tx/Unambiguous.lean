import Noxipher.Tx.ScalarFields
import Mathlib.Data.List.Perm.Basic

namespace Noxipher

open PrefixCode

/-- Both sides keep the widths. -/
def Both {α : Type} (p : α → Prop) (a b : α) : Prop := p a ∧ p b

def UtxoSpend.Sized (spend : UtxoSpend) : Prop := spend.owner.length = 32 ∧ spend.intent_hash.length = 32

def UtxoOutput.Sized (output : UtxoOutput) : Prop := output.owner.length = 32

structure UnshieldedOffer.Sized (offer : UnshieldedOffer) : Prop where
  inputs : ∀ l ∈ offer.inputs, ∀ spend ∈ l, spend.Sized
  outputs : ∀ l ∈ offer.outputs, ∀ output ∈ l, output.Sized
  signatures : ∀ sig ∈ offer.signatures.getD [], sig.length = 64

def ContractAction.Sized : ContractAction → Prop
  | deploy _ _ => True
  | call address _ _ => address.length = 32

structure Intent.Sized (intent : Intent) : Prop where
  guaranteed : ∀ offer ∈ present intent.guaranteed_unshielded_offer, offer.Sized
  fallible : ∀ offer ∈ present intent.fallible_unshielded_offer, offer.Sized
  actions : ∀ action ∈ intent.actions.getD [], action.Sized
  binding_commitment : ∀ c ∈ intent.binding_commitment, c.length = 32

/-- A missing list of signatures is read as empty. -/
def UnshieldedOffer.normalize (offer : UnshieldedOffer) : UnshieldedOffer :=
  { offer with signatures := some (offer.signatures.getD []) }

def ContractAction.normalize : ContractAction → ContractAction
  | deploy bytecode initial_state => deploy bytecode (some (initial_state.getD []))
  | call address entry_point args => call address entry_point (some (args.getD []))

/-- An absent or empty offer is read as none, missing actions as an empty list. -/
def Intent.normalize (intent : Intent) : Intent where
  guaranteed_unshielded_offer := (present intent.guaranteed_unshielded_offer).map UnshieldedOffer.normalize
  fallible_unshielded_offer := (present intent.fallible_unshielded_offer).map UnshieldedOffer.normalize
  ttl := intent.ttl
  actions := some ((intent.actions.getD []).map ContractAction.normalize)
  binding_commitment := intent.binding_commitment

/-- The segment ids as integers, each with its intent as it is read. -/
def StandardTransaction.segments (stx : StandardTransaction) : List (Except PyError Int × Intent) :=
  (stx.intents.getD Dict.empty).entries.map (fun p => (p.1.toInt, p.2.normalize))

structure StandardTransaction.Sized (stx : StandardTransaction) : Prop where
  no_coins : stx.fallible_coins.getD Dict.empty = Dict.empty
  intents : ∀ d ∈ stx.intents, ∀ p ∈ d.entries, p.2.Sized
  distinct : (stx.segments.map Prod.fst).Nodup
  binding_randomness : ∀ r ∈ stx.binding_randomness, r.length = 32

/-- The same transaction up to the order in which the intents were inserted. -/
def StandardTransaction.Equivalent (a b : StandardTransaction) : Prop :=
  a.network_id = b.network_id ∧ a.segments.Perm b.segments ∧ a.binding_randomness = b.binding_randomness

theorem serializeUtxoSpend_splits : Splits (Both UtxoSpend.Sized) Eq serializeUtxoSpend := by
  have howner : ∀ a b, Both UtxoSpend.Sized a b → a.owner.length = b.owner.length :=
    fun a b hr => hr.1.1.trans hr.2.1.symm
  have hhash : ∀ a b, Both UtxoSpend.Sized a b → a.intent_hash.length = b.intent_hash.length :=
    fun a b hr => hr.1.2.trans hr.2.2.symm
  have hfields : Splits (Both UtxoSpend.Sized) _ _ :=
    (serializeU128_splits.field UtxoSpend.value).cons
      ((splits_raw UtxoSpend.owner howner).cons
        ((byteOf_splits.field UtxoSpend.type_).cons
          ((splits_raw UtxoSpend.intent_hash hhash).cons
            (serializeU32_splits.field UtxoSpend.output_no).last)))
  refine hfields.mono (fun _ _ hr => hr) ?_
  intro a b _ ⟨h1, h2, h3, h4, h5⟩
  cases a
  cases b
  simp_all

theorem serializeUtxoOutput_splits : Splits (Both UtxoOutput.Sized) Eq serializeUtxoOutput := by
  have howner : ∀ a b, Both UtxoOutput.Sized a b → a.owner.length = b.owner.length :=
    fun a b hr => hr.1.trans hr.2.symm
  have hfields : Splits (Both UtxoOutput.Sized) _ _ :=
    (serializeU128_splits.field UtxoOutput.value).cons
      ((splits_raw UtxoOutput.owner howner).cons (byteOf_splits.field UtxoOutput.type_).last)
  refine hfields.mono (fun _ _ hr => hr) ?_
  intro a b _ ⟨h1, h2, h3⟩
  cases a
  cases b
  simp_all

/-- A vector of items that are read back exactly. -/
theorem serializeVec_eq {α : Type} {R : α → α → Prop} {item : α → Except PyError Bytes}
    (h : Splits R Eq item) :
    Splits (fun xs ys => ∀ a ∈ xs, ∀ b ∈ ys, R a b) Eq (serializeVec item) := by
  refine (serializeVec_splits h).mono (fun _ _ hr => hr) ?_
  intro xs ys _ he
  rwa [List.forall₂_eq_eq_eq] at he

theorem serializeUnshieldedOffer_splits :
    Splits (Both UnshieldedOffer.Sized) (fun a b => a.normalize = b.normalize) serializeUnshieldedOffer := by
  have hin : Splits (Both UnshieldedOffer.Sized) (fun a b => a.inputs = b.inputs)
      (fun a => required "inputs" a.inputs >>= serializeVec serializeUtxoSpend) := by
    refine ((required_eq "inputs" (serializeVec_eq serializeUtxoSpend_splits)).comap UnshieldedOffer.inputs).mono ?_
      (fun _ _ _ he => he)
    intro a b hr xs hx ys hy p hp q hq
    exact ⟨hr.1.inputs xs hx p hp, hr.2.inputs ys hy q hq⟩
  have hout : Splits (Both UnshieldedOffer.Sized) (fun a b => a.outputs = b.outputs)
      (fun a => required "outputs" a.outputs >>= serializeVec serializeUtxoOutput) := by
    refine ((required_eq "outputs" (serializeVec_eq serializeUtxoOutput_splits)).comap UnshieldedOffer.outputs).mono ?_
      (fun _ _ _ he => he)
    intro a b hr xs hx ys hy p hp q hq
    exact ⟨hr.1.outputs xs hx p hp, hr.2.outputs ys hy q hq⟩
  have hsig : Splits (Both UnshieldedOffer.Sized) (fun a b => a.signatures.getD [] = b.signatures.getD [])
      (fun a => serializeVec .ok (a.signatures.getD [])) := by
    refine ((serializeVec_eq rawBytes_splits).comap (fun a : UnshieldedOffer => a.signatures.getD [])).mono ?_
      (fun _ _ _ he => he)
    intro a b hr x hx y hy
    exact (hr.1.signatures x hx).trans (hr.2.signatures y hy).symm
  refine (hin.cons (hout.cons hsig.last)).mono (fun _ _ hr => hr) ?_
  intro a b _ ⟨h1, h2, h3⟩
  simp only [UnshieldedOffer.normalize, h1, h2, h3]

theorem serializeContractAction_splits :
    Splits (Both ContractAction.Sized) (fun a b => a.normalize = b.normalize) serializeContractAction := by
  have hdeploy : Splits (fun _ _ => True) _ _ :=
    (serializeBytes_splits.field (fun p : Bytes × Option Bytes => p.1)).cons
      (serializeBytes_splits.field (fun p : Bytes × Option Bytes => p.2.getD [])).last
  have hcall : Splits (fun a b : Bytes × String × Option Bytes => a.1.length = b.1.length) _ _ :=
    (splits_raw (fun p : Bytes × String × Option Bytes => p.1) (fun _ _ hr => hr)).cons
      ((serializeText_splits.field (fun p : Bytes × String × Option Bytes => p.2.1)).cons
        (serializeBytes_splits.field (fun p : Bytes × String × Option Bytes => p.2.2.getD [])).last)
  intro a b x y s t hr ha hb he
  cases a with
  | deploy bytecode initial_state =>
    obtain ⟨x1, x2, hx1, hx2, rfl⟩ := gather_cons_ok.mp ha
    cases hx1
    cases b with
    | deploy bytecode' initial_state' =>
      obtain ⟨y1, y2, hy1, hy2, rfl⟩ := gather_cons_ok.mp hb
      cases hy1
      simp only [List.cons_append, List.cons.injEq, true_and, List.nil_append] at he
      obtain ⟨⟨h1, h2⟩, hst⟩ := hdeploy (bytecode, initial_state) (bytecode', initial_state') x2 y2 s t
        trivial hx2 hy2 he
      exact ⟨congrArg₂ (fun b s => ContractAction.deploy b (some s)) h1 h2, hst⟩
    | call address entry_point args =>
      obtain ⟨y1, y2, hy1, -, rfl⟩ := gather_cons_ok.mp hb
      cases hy1
      exact absurd (List.cons.inj he).1 (by decide)
  | call address entry_point args =>
    obtain ⟨x1, x2, hx1, hx2, rfl⟩ := gather_cons_ok.mp ha
    cases hx1
    cases b with
    | deploy bytecode initial_state =>
      obtain ⟨y1, y2, hy1, -, rfl⟩ := gather_cons_ok.mp hb
      cases hy1
      exact absurd (List.cons.inj he).1 (by decide)
    | call address' entry_point' args' =>
      obtain ⟨y1, y2, hy1, hy2, rfl⟩ := gather_cons_ok.mp hb
      cases hy1
      simp only [List.cons_append, List.cons.injEq, true_and, List.nil_append] at he
      have hlen : address.length = address'.length := hr.1.trans hr.2.symm
      obtain ⟨⟨h1, h2, h3⟩, hst⟩ := hcall (address, entry_point, args) (address', entry_point', args')
        x2 y2 s t hlen hx2 hy2 he
      simp only at h1 h2 h3
      exact ⟨by simp only [ContractAction.normalize, h1, h2, h3], hst⟩

/-- The option byte tells whether a non-empty offer follows. -/
theorem serializeOptionalOffer_eq :
    serializeOptionalOffer = fun o => optional 1 0 serializeUnshieldedOffer (present o) := by
  funext o
  unfold serializeOptionalOffer
  cases present o <;> rfl

theorem serializeOptionalOffer_splits :
    Splits (fun o p => ∀ a ∈ present o, ∀ b ∈ present p, Both UnshieldedOffer.Sized a b)
      (fun o p => (present o).map UnshieldedOffer.normalize = (present p).map UnshieldedOffer.normalize)
      serializeOptionalOffer := by
  have hopt := (Splits.option (show (1 : UInt8) ≠ 0 by decide) serializeUnshieldedOffer_splits).comap present
  rw [serializeOptionalOffer_eq]
  refine hopt.mono (fun _ _ hr => hr) ?_
  intro o p _ he
  cases hp : present o with
  | none =>
    rw [hp] at he
    cases hq : present p with
    | none => rfl
    | some b => rw [hq] at he; cases he
  | some a =>
    rw [hp] at he
    cases hq : present p with
    | none => rw [hq] at he; cases he
    | some b =>
      rw [hq] at he
      cases he with
      | some hab => simp only [Option.map_some, hab]

/-- Equal vectors of actions, up to the defaults. -/
theorem serializeActions_splits :
    Splits (fun xs ys => ∀ a ∈ xs, ∀ b ∈ ys, Both ContractAction.Sized a b)
      (fun xs ys => xs.map ContractAction.normalize = ys.map ContractAction.normalize)
      (serializeVec serializeContractAction) := by
  refine (serializeVec_splits serializeContractAction_splits).mono (fun _ _ hr => hr) ?_
  intro xs ys _ he
  rw [← List.forall₂_eq_eq_eq, List.forall₂_map_left_iff, List.forall₂_map_right_iff]
  exact he

theorem serializeIntent_splits :
    Splits (Both Intent.Sized) (fun a b => a.normalize = b.normalize) serializeIntent := by
  have hg : Splits (Both Intent.Sized) _ _ :=
    (serializeOptionalOffer_splits.comap Intent.guaranteed_unshielded_offer).mono
      (fun _ _ hr o ho p hp => ⟨hr.1.guaranteed o ho, hr.2.guaranteed p hp⟩) (fun _ _ _ he => he)
  have hf : Splits (Both Intent.Sized) _ _ :=
    (serializeOptionalOffer_splits.comap Intent.fallible_unshielded_offer).mono
      (fun _ _ hr o ho p hp => ⟨hr.1.fallible o ho, hr.2.fallible p hp⟩) (fun _ _ _ he => he)
  have httl : Splits (Both Intent.Sized) (fun a b => a.ttl = b.ttl)
      (fun a => required "ttl" a.ttl >>= serializeU32) :=
    ((required_eq "ttl" serializeU32_splits).comap Intent.ttl).mono
      (fun _ _ _ _ _ _ _ => trivial) (fun _ _ _ he => he)
  have hact : Splits (Both Intent.Sized) _ _ :=
    (serializeActions_splits.comap (fun a : Intent => a.actions.getD [])).mono
      (fun _ _ hr a ha b hb => ⟨hr.1.actions a ha, hr.2.actions b hb⟩) (fun _ _ _ he => he)
  have hbind : Splits (Both Intent.Sized) (fun a b => a.binding_commitment = b.binding_commitment)
      (fun a => required "binding_commitment" a.binding_commitment) :=
    ((requiredBytes_splits "binding_commitment").comap Intent.binding_commitment).mono
      (fun _ _ hr x hx y hy => (hr.1.binding_commitment x hx).trans (hr.2.binding_commitment y hy).symm)
      (fun _ _ _ he => he)
  refine (hg.cons (hf.cons (httl.cons (hact.cons hbind.last)))).mono (fun _ _ hr => hr) ?_
  intro a b _ ⟨h1, h2, h3, h4, h5⟩
  simp only [Intent.normalize, h1, h2, h3, h4, h5]

/-- The serializer reads an intent only through its normal form. -/
theorem present_normalize (o : Option UnshieldedOffer) :
    present ((present o).map UnshieldedOffer.normalize) = (present o).map UnshieldedOffer.normalize := by
  cases h : present o with
  | none => rfl
  | some a => simp [present, Option.filter, UnshieldedOffer.normalize, UnshieldedOffer.truthy]

theorem serializeOptionalOffer_normalize (o : Option UnshieldedOffer) :
    serializeOptionalOffer ((present o).map UnshieldedOffer.normalize) = serializeOptionalOffer o := by
  unfold serializeOptionalOffer
  rw [present_normalize]
  cases present o with
  | none => rfl
  | some a => rfl

theorem serializeContractAction_normalize (action : ContractAction) :
    serializeContractAction action.normalize = serializeContractAction action := by
  cases action <;> rfl

theorem serializeActions_normalize (actions : List ContractAction) :
    serializeVec serializeContractAction (actions.map ContractAction.normalize) =
      serializeVec serializeContractAction actions := by
  simp only [serializeVec, List.length_map, List.map_map, Function.comp_def, serializeContractAction_normalize]

theorem serializeIntent_normalize (intent : Intent) :
    serializeIntent intent.normalize = serializeIntent intent := by
  unfold serializeIntent Intent.normalize
  simp only [serializeOptionalOffer_normalize, Option.getD_some, serializeActions_normalize]

section Segments

variable {ν : Type}

theorem sortedByInt_ok {d : Dict IntLike ν} {l : List (Int × ν)} (h : sortedByInt d = .ok l) :
    ∃ keyed : List (Int × ν), l = sortOn Prod.fst keyed ∧
      keyed.map (fun p => (Except.ok p.1, p.2)) = d.entries.map (fun p => (p.1.toInt, p.2)) := by
  obtain ⟨keyed, hk, hl⟩ := bind_ok_iff.mp h
  cases hl
  refine ⟨keyed, rfl, ?_⟩
  clear h
  generalize d.entries = es at hk
  induction es generalizing keyed with
  | nil => cases hk; rfl
  | cons p es ih =>
    obtain ⟨b, bs, hb, hbs, rfl⟩ := traverse_cons_ok.mp hk
    obtain ⟨n, hn, hb'⟩ := bind_ok_iff.mp hb
    cases hb'
    rw [List.map_cons, List.map_cons, ih bs hbs, hn]

/-- One entry of the map: the segment id, then the value. -/
def serializeEntry (item : ν → Except PyError Bytes) (p : Int × ν) : Except PyError Bytes :=
  gather [serializeU32 p.1, item p.2]

/-- Once the keys are sorted the map is written as a vector of entries. -/
theorem serializeSegments_sorted {item : ν → Except PyError Bytes} {d : Dict IntLike ν}
    {l : List (Int × ν)} (h : sortedByInt d = .ok l) :
    serializeSegments item d = serializeVec (serializeEntry item) l := by
  have hlen : d.entries.length = l.length := by
    obtain ⟨keyed, rfl, hk⟩ := sortedByInt_ok h
    have he := congrArg List.length hk
    rw [(sortOn_perm Prod.fst keyed).length_eq]
    simpa using he.symm
  unfold serializeSegments serializeVec
  rw [h, hlen]
  cases encodeScaleInt l.length with
  | error e => rfl
  | ok count =>
    change gather (.ok count :: l.map (serializeEntry item)) = gather [.ok count, gather (l.map (serializeEntry item))]
    simp only [gather, ok_bind, pure, Except.pure]
    cases gather (l.map (serializeEntry item)) with
    | error e => rfl
    | ok r => simp

theorem serializeSegments_ok {item : ν → Except PyError Bytes} {d : Dict IntLike ν} {x : Bytes}
    (h : serializeSegments item d = .ok x) :
    ∃ l, sortedByInt d = .ok l ∧ serializeVec (serializeEntry item) l = .ok x := by
  have hs := h
  obtain ⟨count, -, hrest⟩ := bind_ok_iff.mp h
  obtain ⟨l, hl, -⟩ := bind_ok_iff.mp hrest
  rw [serializeSegments_sorted hl] at hs
  exact ⟨l, hl, hs⟩

theorem serializeSegments_splits {p : ν → Prop} {f : ν → ν} {item : ν → Except PyError Bytes}
    (h : Splits (Both p) (fun a b => f a = f b) item) :
    Splits (Both (fun d : Dict IntLike ν => ∀ q ∈ d.entries, p q.2))
      (fun d e => ∃ l m, sortedByInt d = .ok l ∧ sortedByInt e = .ok m ∧
        l.map (Prod.map id f) = m.map (Prod.map id f)) (serializeSegments item) := by
  have hvalues {d : Dict IntLike ν} {l : List (Int × ν)} (hd : ∀ q ∈ d.entries, p q.2)
      (hl : sortedByInt d = .ok l) : ∀ q ∈ l, p q.2 := by
    obtain ⟨keyed, rfl, hk⟩ := sortedByInt_ok hl
    intro q hq
    have hmem : (Except.ok q.1, q.2) ∈ d.entries.map (fun p => (p.1.toInt, p.2)) := by
      rw [← hk]
      exact List.mem_map_of_mem ((sortOn_perm _ _).mem_iff.mp hq)
    obtain ⟨r, hr, he⟩ := List.mem_map.mp hmem
    rw [← (Prod.mk.inj he).2]
    exact hd r hr
  have hentry : Splits (fun a b : Int × ν => Both p a.2 b.2) _ (serializeEntry item) :=
    (serializeU32_splits.field Prod.fst).cons (h.comap Prod.snd).last
  intro d e x y s t hr ha hb he
  obtain ⟨l, hl, hlx⟩ := serializeSegments_ok ha
  obtain ⟨m, hm, hmy⟩ := serializeSegments_ok hb
  obtain ⟨hlm, hst⟩ := serializeVec_splits hentry l m x y s t
    (fun a ha b hb => ⟨hvalues hr.1 hl a ha, hvalues hr.2 hm b hb⟩) hlx hmy he
  refine ⟨⟨l, m, hl, hm, ?_⟩, hst⟩
  rw [← List.forall₂_eq_eq_eq, List.forall₂_map_left_iff, List.forall₂_map_right_iff]
  exact hlm.imp (fun a b hab => Prod.ext hab.1 hab.2)

end Segments

theorem taggedSerialize_inj {tag : String} {p q x : Bytes} (hp : taggedSerialize tag p = .ok x)
    (hq : taggedSerialize tag q = .ok x) : p = q := by
  obtain ⟨n, r, hn, hr, rfl⟩ := gather_cons_ok.mp hp
  obtain ⟨m, r', hm, hr', he⟩ := gather_cons_ok.mp hq
  have hnm : n = m := Except.ok.inj (hn.symm.trans hm)
  cases hr
  cases hr'
  simpa [hnm] using he

/-- The four fields of the payload, one after another. -/
theorem serializeStandardTransaction_ok {stx : StandardTransaction} {x : Bytes}
    (h : serializeStandardTransaction stx = .ok x) :
    ∃ payload, gather [required "network_id" stx.network_id >>= fun net => serializeBytes (encodeStr net),
        required "intents" stx.intents >>= serializeSegments serializeIntent,
        serializeSegments serializeZswapOffer (stx.fallible_coins.getD Dict.empty),
        required "binding_randomness" stx.binding_randomness] = .ok payload ∧
      taggedSerialize "standard-tx[v1]" payload = .ok x := bind_ok_iff.mp h

/-- Two maps whose sorted entries are read the same. -/
def SameSorted (a b : StandardTransaction) : Prop :=
  ∃ d e l m, a.intents = some d ∧ b.intents = some e ∧ sortedByInt d = .ok l ∧ sortedByInt e = .ok m ∧
    l.map (Prod.map id Intent.normalize) = m.map (Prod.map id Intent.normalize)

/-- Without shielded coins the payload tells the network, the sorted intents and the randomness. -/
theorem standardPayload_splits :
    Splits (Both StandardTransaction.Sized)
      (fun a b => a.network_id = b.network_id ∧ SameSorted a b ∧ a.binding_randomness = b.binding_randomness)
      (fun a => gather [required "network_id" a.network_id >>= fun net => serializeBytes (encodeStr net),
        required "intents" a.intents >>= serializeSegments serializeIntent,
        serializeSegments serializeZswapOffer (a.fallible_coins.getD Dict.empty),
        required "binding_randomness" a.binding_randomness]) := by
  have hnet : Splits (Both StandardTransaction.Sized) (fun a b => a.network_id = b.network_id)
      (fun a => required "network_id" a.network_id >>= fun net => serializeBytes (encodeStr net)) :=
    ((required_eq "network_id" serializeText_splits).comap StandardTransaction.network_id).mono
      (fun _ _ _ _ _ _ _ => trivial) (fun _ _ _ he => he)
  have hint : Splits (Both StandardTransaction.Sized) SameSorted
      (fun a => required "intents" a.intents >>= serializeSegments serializeIntent) := by
    refine ((required_splits "intents" (serializeSegments_splits serializeIntent_splits)).comap
      StandardTransaction.intents).mono
      (fun _ _ hr d hd e he => ⟨hr.1.intents d hd, hr.2.intents e he⟩) ?_
    intro a b _ ⟨d, e, hd, he, l, m, hl, hm, hlm⟩
    exact ⟨d, e, l, m, hd, he, hl, hm, hlm⟩
  have hcoins : Splits (Both StandardTransaction.Sized) (fun _ _ => True)
      (fun a => serializeSegments serializeZswapOffer (a.fallible_coins.getD Dict.empty)) := by
    intro a b x y s t hr ha hb he
    simp only [hr.1.no_coins] at ha
    simp only [hr.2.no_coins] at hb
    have hxy : x = y := Except.ok.inj (ha.symm.trans hb)
    rw [hxy] at he
    exact ⟨trivial, List.append_cancel_left he⟩
  have hrand : Splits (Both StandardTransaction.Sized) (fun a b => a.binding_randomness = b.binding_randomness)
      (fun a => required "binding_randomness" a.binding_randomness) :=
    ((requiredBytes_splits "binding_randomness").comap StandardTransaction.binding_randomness).mono
      (fun _ _ hr x hx y hy => (hr.1.binding_randomness x hx).trans (hr.2.binding_randomness y hy).symm)
      (fun _ _ _ he => he)
  refine (hnet.cons (hint.cons (hcoins.cons hrand.last))).mono (fun _ _ hr => hr) ?_
  intro a b _ ⟨h1, h2, _, h4⟩
  exact ⟨h1, h2, h4⟩

theorem segments_of_sorted {stx : StandardTransaction} {d : Dict IntLike Intent} {l : List (Int × Intent)}
    (hd : stx.intents = some d) (hl : sortedByInt d = .ok l) :
    ∃ keyed : List (Int × Intent), l.map (Prod.map id Intent.normalize) = sortOn Prod.fst keyed ∧
      stx.segments = keyed.map (Prod.map Except.ok id) := by
  obtain ⟨keyed, rfl, hk⟩ := sortedByInt_ok hl
  refine ⟨keyed.map (Prod.map id Intent.normalize),
    sortOn_map Prod.fst Prod.fst (Prod.map id Intent.normalize) (fun _ => rfl) keyed, ?_⟩
  have he := congrArg (List.map (Prod.map id Intent.normalize)) hk
  simp only [List.map_map] at he ⊢
  rw [StandardTransaction.segments, hd]
  exact he.symm

theorem ok_pair_injective {ε α β : Type} : Function.Injective (Prod.map (Except.ok (ε := ε)) (id : β → β) :
    α × β → Except ε α × β) := by
  intro p q h
  exact Prod.ext (Except.ok.inj (Prod.mk.inj h).1) (Prod.mk.inj h).2

/-- The sorted maps agree exactly when one is a reordering of the other. -/
theorem sameSorted_iff {a b : StandardTransaction} {d e : Dict IntLike Intent} {l m : List (Int × Intent)}
    (hd : a.intents = some d) (he : b.intents = some e) (hl : sortedByInt d = .ok l)
    (hm : sortedByInt e = .ok m) (hn : (a.segments.map Prod.fst).Nodup) :
    l.map (Prod.map id Intent.normalize) = m.map (Prod.map id Intent.normalize) ↔ a.segments.Perm b.segments := by
  obtain ⟨keyed, hk, hka⟩ := segments_of_sorted hd hl
  obtain ⟨keyed', hk', hkb⟩ := segments_of_sorted he hm
  rw [hk, hk', hka, hkb, List.map_perm_map_iff ok_pair_injective]
  constructor
  · intro hs
    have hp := sortOn_perm Prod.fst keyed
    rw [hs] at hp
    exact hp.symm.trans (sortOn_perm Prod.fst keyed')
  · intro hp
    apply sortOn_eq_of_perm Prod.fst hp
    rw [hka, List.map_map] at hn
    apply List.Nodup.of_map (Except.ok : Int → Except PyError Int)
    rw [List.map_map]
    exact hn

theorem serializeEntry_normalize (p : Int × Intent) :
    serializeEntry serializeIntent (Prod.map id Intent.normalize p) = serializeEntry serializeIntent p := by
  simp only [serializeEntry, Prod.map_fst, Prod.map_snd, id, serializeIntent_normalize]

/-- Entries that are read the same are written the same. -/
theorem serializeVec_entries {l m : List (Int × Intent)}
    (h : l.map (Prod.map id Intent.normalize) = m.map (Prod.map id Intent.normalize)) :
    serializeVec (serializeEntry serializeIntent) l = serializeVec (serializeEntry serializeIntent) m := by
  have hmap (l : List (Int × Intent)) : (l.map (Prod.map id Intent.normalize)).map (serializeEntry serializeIntent) =
      l.map (serializeEntry serializeIntent) := by
    rw [List.map_map]
    exact List.map_congr_left (fun p _ => serializeEntry_normalize p)
  have hlen := congrArg List.length h
  simp only [List.length_map] at hlen
  unfold serializeVec
  rw [← hmap l, ← hmap m, h, hlen]

/-- Equivalent transactions are written the same. -/
theorem serializeStandardTransaction_congr {a b : StandardTransaction} {x y : Bytes} (ha : a.Sized)
    (hb : b.Sized) (hx : serializeStandardTransaction a = .ok x) (hy : serializeStandardTransaction b = .ok y)
    (h : a.Equivalent b) : x = y := by
  obtain ⟨p, hp, hpx⟩ := serializeStandardTransaction_ok hx
  obtain ⟨q, hq, hqy⟩ := serializeStandardTransaction_ok hy
  obtain ⟨hnet, hseg, hrand⟩ := h
  have hpq : p = q := by
    obtain ⟨-, p', -, hp', -⟩ := gather_cons_ok.mp hp
    obtain ⟨pi, -, hpi, -, -⟩ := gather_cons_ok.mp hp'
    obtain ⟨-, q', -, hq', -⟩ := gather_cons_ok.mp hq
    obtain ⟨qi, -, hqi, -, -⟩ := gather_cons_ok.mp hq'
    obtain ⟨d, hd, hsd⟩ := bind_ok_iff.mp hpi
    obtain ⟨e, he, hse⟩ := bind_ok_iff.mp hqi
    obtain ⟨l, hl, hlx⟩ := serializeSegments_ok hsd
    obtain ⟨m, hm, hmy⟩ := serializeSegments_ok hse
    have hda := required_ok_iff.mp hd
    have heb := required_ok_iff.mp he
    have hlm := serializeVec_entries ((sameSorted_iff hda heb hl hm ha.distinct).mpr hseg)
    have hint : (required "intents" a.intents >>= serializeSegments serializeIntent) =
        (required "intents" b.intents >>= serializeSegments serializeIntent) := by
      rw [hd, he, ok_bind, ok_bind, serializeSegments_sorted hl, serializeSegments_sorted hm, hlm]
    rw [hnet, hint, ha.no_coins, hrand] at hp
    rw [hb.no_coins] at hq
    exact Except.ok.inj (hp.symm.trans hq)
  rw [hpq] at hpx
  exact Except.ok.inj (hpx.symm.trans hqy)

theorem signingPayload_splits :
    Splits (Both (fun p : Int × Intent => p.2.Sized)) (fun a b => a.1 = b.1 ∧ a.2.normalize = b.2.normalize)
      (fun p => getUnshieldedSigningPayload p.1 p.2) := by
  have hfields : Splits (Both (fun p : Int × Intent => p.2.Sized)) _ _ :=
    (splits_raw (fun _ => encodeStr "midnight:unshielded-sig[v1]") (fun _ _ _ => rfl)).cons
      ((serializeU32_splits.field Prod.fst).cons (serializeIntent_splits.comap Prod.snd).last)
  exact hfields.mono (fun _ _ hr => hr) (fun _ _ _ he => he.2)

/-- Equal bytes mean the same transaction up to the order of the intents, and equal signing payloads the
same segment and intent. -/
theorem encoding_unambiguous :
    (∀ (a b : StandardTransaction) (x y : Bytes), a.Sized → b.Sized →
      serializeStandardTransaction a = .ok x → serializeStandardTransaction b = .ok y →
        (x = y ↔ a.Equivalent b)) ∧
    (∀ (s s' : Int) (i i' : Intent) (x y : Bytes), i.Sized → i'.Sized →
      getUnshieldedSigningPayload s i = .ok x → getUnshieldedSigningPayload s' i' = .ok y →
        (x = y ↔ s = s' ∧ i.normalize = i'.normalize)) := by
  constructor
  · intro a b x y ha hb hx hy
    constructor
    · intro hxy
      obtain ⟨p, hp, hpx⟩ := serializeStandardTransaction_ok hx
      obtain ⟨q, hq, hqy⟩ := serializeStandardTransaction_ok hy
      rw [hxy] at hpx
      rw [← taggedSerialize_inj hpx hqy] at hq
      obtain ⟨hnet, ⟨d, e, l, m, hd, he, hl, hm, hlm⟩, hrand⟩ := standardPayload_splits.agree ⟨ha, hb⟩ hp hq
      exact ⟨hnet, (sameSorted_iff hd he hl hm ha.distinct).mp hlm, hrand⟩
    · exact serializeStandardTransaction_congr ha hb hx hy
  · intro s s' i i' x y hi hi' hx hy
    constructor
    · intro hxy
      rw [← hxy] at hy
      have hr : Both (fun p : Int × Intent => p.2.Sized) (s, i) (s', i') := ⟨hi, hi'⟩
      exact signingPayload_splits.agree hr hx hy
    · intro ⟨hs, hn⟩
      have he : getUnshieldedSigningPayload s i = getUnshieldedSigningPayload s' i' := by
        unfold getUnshieldedSigningPayload
        rw [← serializeIntent_normalize i, ← serializeIntent_normalize i', hn, hs]
      exact Except.ok.inj (hx.symm.trans (he.trans hy))

def sampleOffer : UnshieldedOffer :=
  ⟨some [⟨7, List.replicate 32 1, 0, List.replicate 32 2, 3⟩], some [⟨5, List.replicate 32 4, 0⟩], none⟩

def sampleSegment (ttl : Int) : Intent where
  guaranteed_unshielded_offer := some sampleOffer
  ttl := some ttl
  actions := some [.call (List.replicate 32 6) "increment" none]
  binding_commitment := some (List.replicate 32 8)

/-- Two segments in a given order of insertion. -/
def sampleTransaction (first second : String) : StandardTransaction where
  network_id := some "preprod"
  intents := some (Dict.ofList [(.str first, sampleSegment 60), (.str second, sampleSegment 60)])
  binding_randomness := some (List.replicate 32 5)

theorem sampleSegment_sized (ttl : Int) : (sampleSegment ttl).Sized := by
  have hoffer : sampleOffer.Sized := by
    constructor <;> simp [sampleOffer, UtxoSpend.Sized, UtxoOutput.Sized]
  constructor
  · intro offer ho
    cases ho
    exact hoffer
  · intro offer ho
    cases ho
  · intro action ha
    rw [List.mem_singleton.mp ha]
    rfl
  · intro c hc
    cases hc
    rfl

theorem sampleTransaction_sized {first second : String} (hne : first ≠ second)
    (hd : (IntLike.str first).toInt ≠ (IntLike.str second).toInt) : (sampleTransaction first second).Sized := by
  have hentries : (Dict.ofList [(IntLike.str first, sampleSegment 60), (IntLike.str second, sampleSegment 60)]).entries =
      [(.str first, sampleSegment 60), (.str second, sampleSegment 60)] := by
    simp [Dict.ofList, Dict.set, Dict.empty, setEntry, hne]
  constructor
  · rfl
  · intro d hmem p hp
    cases hmem
    rw [hentries] at hp
    simp only [List.mem_cons, List.not_mem_nil, or_false] at hp
    rcases hp with rfl | rfl <;> exact sampleSegment_sized 60
  · simp [StandardTransaction.segments, sampleTransaction, hentries, hd]
  · intro r hr
    cases hr
    rfl

theorem encoding_unambiguous_sample :
    (sampleTransaction "0" "7").Sized ∧ (sampleTransaction "7" "00").Sized ∧
    ∃ x y, serializeStandardTransaction (sampleTransaction "0" "7") = .ok x ∧
      serializeStandardTransaction (sampleTransaction "7" "00") = .ok y ∧
      (x = y ↔ (sampleTransaction "0" "7").Equivalent (sampleTransaction "7" "00")) := by
  have ha : (sampleTransaction "0" "7").Sized := sampleTransaction_sized (by decide) (by decide)
  have hb : (sampleTransaction "7" "00").Sized := sampleTransaction_sized (by decide) (by decide)
  obtain ⟨x, hx⟩ : ∃ x, serializeStandardTransaction (sampleTransaction "0" "7") = .ok x := ⟨_, rfl⟩
  obtain ⟨y, hy⟩ : ∃ y, serializeStandardTransaction (sampleTransaction "7" "00") = .ok y := ⟨_, rfl⟩
  exact ⟨ha, hb, x, y, hx, hy, encoding_unambiguous.1 _ _ x y ha hb hx hy⟩

end Noxipher

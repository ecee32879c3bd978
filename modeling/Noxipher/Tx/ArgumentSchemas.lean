import Noxipher.Tx.ScalarFields

namespace Noxipher

open PrefixCode

/-- The type of a contract argument: the scalar types, lists of one type, and structures of named fields. -/
inductive ArgSchema where
  | none
  | bytes
  | str
  | bool
  | int
  | list (item : ArgSchema)
  | struct (fields : List (String × ArgSchema))

namespace ArgSchema

mutual

/-- The values of a schema; a structure has its fields in order. -/
def Admits : ArgSchema → PyValue → Prop
  | .none, .none => True
  | .bytes, .bytes _ => True
  | .str, .str _ => True
  | .bool, .bool _ => True
  | .int, .int n => 0 ≤ n
  | .list item, .list xs => ∀ x ∈ xs, Admits item x
  | .struct fields, .dict items => AdmitsFields fields items
  | _, _ => False

def AdmitsFields : List (String × ArgSchema) → List (String × PyValue) → Prop
  | [], [] => True
  | field::fields, item::items => item.1 = field.1 ∧ Admits field.2 item.2 ∧ AdmitsFields fields items
  | _, _ => False

end

/-- Both values have the schema. -/
def BothAdmit (schema : ArgSchema) (a b : PyValue) : Prop := schema.Admits a ∧ schema.Admits b

def BothAdmitFields (fields : List (String × ArgSchema)) (xs ys : List (String × PyValue)) : Prop :=
  AdmitsFields fields xs ∧ AdmitsFields fields ys

end ArgSchema

theorem serializeArgList_eq (xs : List PyValue) : serializeArgList xs = gather (xs.map serializeContractArgs) := by
  induction xs with
  | nil => rfl
  | cons x xs ih => rw [serializeArgList, ih, List.map_cons, gather]

/-- A list is a vector of arguments. -/
theorem serializeContractArgs_list (xs : List PyValue) :
    serializeContractArgs (.list xs) = gather [encodeScaleInt xs.length, gather (xs.map serializeContractArgs)] := by
  rw [serializeContractArgs, serializeArgList_eq]
  simp only [gather, pure_ok, ok_bind, List.append_nil, bind_ok]

theorem boolByte_splits :
    Splits (fun _ _ => True) Eq (fun b : Bool => (.ok [if b then 1 else 0] : Except PyError Bytes)) := by
  apply splits_width 1
  · intro b x hx
    cases hx
    rfl
  · intro a b x _ ha hb
    cases ha
    cases a <;> cases b <;> simp_all

namespace ArgSchema

/-- A scalar type whose values are written by an encoder of its own. -/
theorem scalar_splits {β : Type} {schema : ArgSchema} {enc : β → Except PyError Bytes} (form : β → PyValue)
    (hform : ∀ a, schema.Admits a → ∃ a', a = form a') (h : Splits (fun _ _ => True) Eq enc)
    (henc : ∀ a', serializeContractArgs (form a') = enc a') : Splits (BothAdmit schema) Eq serializeContractArgs := by
  apply h.ofForm form
  · intro a b ⟨ha, hb⟩
    obtain ⟨a', rfl⟩ := hform a ha
    obtain ⟨b', rfl⟩ := hform b hb
    exact ⟨a', b', rfl, rfl, trivial⟩
  · exact henc
  · intro a b he
    rw [he]

/-- Lists of a type whose values are told apart. -/
theorem list_splits {item : ArgSchema} (h : Splits (BothAdmit item) Eq serializeContractArgs) :
    Splits (BothAdmit (.list item)) Eq serializeContractArgs := by
  apply (Splits.vector encodeCount_splits h).ofForm PyValue.list
  · intro a b ⟨ha, hb⟩
    cases a <;> simp only [Admits] at ha
    cases b <;> simp only [Admits] at hb
    refine ⟨_, _, rfl, rfl, ?_⟩
    intro p hp
    obtain ⟨hx, hy⟩ := List.of_mem_zip hp
    exact ⟨ha p.1 hx, hb p.2 hy⟩
  · exact serializeContractArgs_list
  · intro xs ys he
    rw [List.forall₂_eq_eq_eq] at he
    rw [he]

/-- One more field in front of fields that are told apart. -/
theorem fields_cons_splits {field : String × ArgSchema} {fields : List (String × ArgSchema)}
    (hfield : Splits (BothAdmit field.2) Eq serializeContractArgs)
    (hfields : Splits (BothAdmitFields fields) Eq serializeArgItems) :
    Splits (BothAdmitFields (field::fields)) Eq serializeArgItems := by
  intro xs ys x y s t ⟨hx, hy⟩ hxs hys he
  cases xs with
  | nil => simp only [AdmitsFields] at hx
  | cons p ps =>
    cases ys with
    | nil => simp only [AdmitsFields] at hy
    | cons q qs =>
      obtain ⟨hpname, hp, hps⟩ := hx
      obtain ⟨hqname, hq, hqs⟩ := hy
      obtain ⟨x1, hx1, hxs⟩ := bind_ok_iff.mp hxs
      obtain ⟨x2, hx2, hxs⟩ := bind_ok_iff.mp hxs
      obtain ⟨y1, hy1, hys⟩ := bind_ok_iff.mp hys
      obtain ⟨y2, hy2, hys⟩ := bind_ok_iff.mp hys
      cases hxs
      cases hys
      rw [List.append_assoc, List.append_assoc] at he
      obtain ⟨hvalue, hrest⟩ := hfield p.2 q.2 x1 y1 _ _ ⟨hp, hq⟩ hx1 hy1 he
      obtain ⟨htail, hst⟩ := hfields ps qs x2 y2 s t ⟨hps, hqs⟩ hx2 hy2 hrest
      have hhead : p = q := Prod.ext (hpname.trans hqname.symm) hvalue
      exact ⟨by rw [hhead, htail], hst⟩

theorem fields_nil_splits : Splits (BothAdmitFields []) Eq serializeArgItems := by
  intro xs ys x y s t ⟨hx, hy⟩ hxs hys he
  cases xs with
  | cons p ps => simp only [AdmitsFields] at hx
  | nil =>
    cases ys with
    | cons q qs => simp only [AdmitsFields] at hy
    | nil =>
      cases hxs
      cases hys
      exact ⟨rfl, he⟩

mutual

/-- Values of one schema are told apart by what is written, whatever stands after it. -/
theorem splits : ∀ schema : ArgSchema, Splits (BothAdmit schema) Eq serializeContractArgs
  | .none => by
    have hempty : Splits (fun _ _ => True) Eq (fun _ : Unit => (.ok [] : Except PyError Bytes)) := by
      intro a b x y s t _ hx hy he
      cases hx
      cases hy
      exact ⟨rfl, he⟩
    apply scalar_splits (fun _ : Unit => PyValue.none) ?_ hempty (fun _ => by rw [serializeContractArgs])
    intro a ha
    cases a <;> simp only [Admits] at ha
    exact ⟨(), rfl⟩
  | .bytes => by
    apply scalar_splits PyValue.bytes ?_ serializeBytes_splits (fun _ => by rw [serializeContractArgs])
    intro a ha
    cases a <;> simp only [Admits] at ha
    exact ⟨_, rfl⟩
  | .str => by
    apply scalar_splits PyValue.str ?_ serializeText_splits (fun _ => by rw [serializeContractArgs])
    intro a ha
    cases a <;> simp only [Admits] at ha
    exact ⟨_, rfl⟩
  | .bool => by
    apply scalar_splits PyValue.bool ?_ boolByte_splits (fun _ => by rw [serializeContractArgs])
    intro a ha
    cases a <;> simp only [Admits] at ha
    exact ⟨_, rfl⟩
  | .int => by
    apply scalar_splits PyValue.int ?_ encodeScaleInt_splits (fun _ => by rw [serializeContractArgs])
    intro a ha
    cases a <;> simp only [Admits] at ha
    exact ⟨_, rfl⟩
  | .list item => list_splits (splits item)
  | .struct fields => by
    apply (fields_splits fields).ofForm PyValue.dict
    · intro a b ⟨ha, hb⟩
      cases a <;> simp only [Admits] at ha
      cases b <;> simp only [Admits] at hb
      exact ⟨_, _, rfl, rfl, ha, hb⟩
    · intro items
      rw [serializeContractArgs]
    · intro xs ys he
      rw [he]

theorem fields_splits : ∀ fields : List (String × ArgSchema), Splits (BothAdmitFields fields) Eq serializeArgItems
  | [] => fields_nil_splits
  | field::fields => fields_cons_splits (splits field.2) (fields_splits fields)

end

end ArgSchema

/-- Arguments of one schema can be read back from what is written, whatever stands after it. -/
theorem contract_args_decodable (schema : ArgSchema) (a b : PyValue) (x y s t : Bytes) (ha : schema.Admits a)
    (hb : schema.Admits b) (hx : serializeContractArgs a = .ok x) (hy : serializeContractArgs b = .ok y)
    (he : x++s = y++t) : a = b ∧ s = t :=
  schema.splits a b x y s t ⟨ha, hb⟩ hx hy he

/-- A structure of an absent value, a list of numbers and a flag: no other value of its schema has its bytes. -/
theorem contract_args_decodable_sample :
    let schema : ArgSchema := .struct [("memo", .none), ("amounts", .list .int), ("urgent", .bool)]
    let value : PyValue := .dict [("memo", .none), ("amounts", .list [.int 1, .int 100]), ("urgent", .bool true)]
    let counted : PyValue := .dict [("memo", .none), ("amounts", .list ([1, 100].map .int)), ("urgent", .bool true)]
    schema.Admits value ∧ schema.Admits counted ∧ serializeContractArgs value = .ok [8, 4, 145, 1, 1] ∧
      serializeContractArgs counted = .ok [8, 4, 145, 1, 1] ∧ value = counted ∧
      ∀ v, schema.Admits v → serializeContractArgs v = .ok [8, 4, 145, 1, 1] → value = v := by
  intro schema value counted
  have hadmits : schema.Admits value := by simp [schema, value, ArgSchema.Admits, ArgSchema.AdmitsFields]
  have hadmits' : schema.Admits counted := by simp [schema, counted, ArgSchema.Admits, ArgSchema.AdmitsFields]
  have hwritten : serializeContractArgs value = .ok [8, 4, 145, 1, 1] := by decide +kernel
  have hwritten' : serializeContractArgs counted = .ok [8, 4, 145, 1, 1] := by decide +kernel
  have hsame := contract_args_decodable schema value counted _ _ [1] [1] hadmits hadmits' hwritten hwritten' rfl
  refine ⟨hadmits, hadmits', hwritten, hwritten', hsame.1, ?_⟩
  intro v hv hx
  exact (contract_args_decodable schema value v _ _ [] [] hadmits hv hwritten hx rfl).1

end Noxipher

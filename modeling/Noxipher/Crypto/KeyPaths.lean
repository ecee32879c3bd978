import Noxipher.Crypto.Keys
import Noxipher.Library.Ratchet

namespace Noxipher

/-- The last three components of `m/44'/2400'/account'/role/index`. -/
structure KeyPath where
  account : Int
  role : Int
  index : Int
  deriving DecidableEq

/-- A component as it enters a derivation: its four bytes, and which of the two functions packs them. -/
inductive Child where
  | hardened (packed : Bytes)
  | normal (packed : Bytes)
  deriving DecidableEq

namespace KeyDerivation

variable (keys : KeyFunctions)

def packHardened (index : Int) : Except PyError Child := do
  let packed ← packIndex (index.lor HARDENED)
  return .hardened packed

def packNormal (index : Int) : Except PyError Child := do
  let packed ← packIndex index
  return .normal packed

/-- The key and the message of the HMAC of a child, in a parent key and chain code. -/
def hmacInput (parent : Bytes × Bytes) : Child → Bytes × Bytes
  | .hardened packed => (parent.2, 0::parent.1++packed)
  | .normal packed => (parent.2, (keys.pairFromSeed parent.1).1++packed)

/-- A child key and chain code. -/
def hmacOutput (call : Bytes × Bytes) : Bytes × Bytes := hmacHalves keys call.1 call.2

end KeyDerivation

namespace KeyPath

variable (keys : KeyFunctions)

def derive (seed_64 : Bytes) (path : KeyPath) : Except PyError Bytes :=
  KeyDerivation.deriveKey keys seed_64 path.account path.role path.index

/-- The five components, packed one after the other. -/
def children (path : KeyPath) : Except PyError (List Child) := do
  let purpose ← KeyDerivation.packHardened 44
  let coin ← KeyDerivation.packHardened MIDNIGHT_COIN_TYPE
  let owner ← KeyDerivation.packHardened path.account
  let branch ← KeyDerivation.packNormal path.role
  let leaf ← KeyDerivation.packNormal path.index
  return [purpose, coin, owner, branch, leaf]

/-- The calls of HMAC below the master key, one a level, each with the key and the chain code of its parent. -/
def hmacTrace (seed_64 : Bytes) (path : KeyPath) : Except PyError (List ((Bytes × Bytes) × (Bytes × Bytes))) := do
  let children ← path.children
  return Ratchet.trace (KeyDerivation.hmacInput keys) (KeyDerivation.hmacOutput keys)
    (KeyDerivation.deriveMaster keys seed_64) children

/-- The level of the first component in which two paths differ; the first two are the same in all paths. -/
def firstDifference (path other : KeyPath) : Nat :=
  if path.account ≠ other.account then 2 else if path.role ≠ other.role then 3 else 4

/-- Two derivations from a seed: they are the same up to the level where the paths part, and call HMAC with different
messages there under one chain code; and when they end in one key, then at some level HMAC answers different calls with
one key or one chain code. -/
def Separated (seed_64 : Bytes) (path other : KeyPath) : Prop :=
  ∃ run run', path.hmacTrace keys seed_64 = .ok run ∧ other.hmacTrace keys seed_64 = .ok run' ∧
    run.take (path.firstDifference other) = run'.take (path.firstDifference other) ∧
    (∃ parent message message', run[path.firstDifference other]? = some (parent, (parent.2, message)) ∧
      run'[path.firstDifference other]? = some (parent, (parent.2, message')) ∧ message ≠ message') ∧
    (path.derive keys seed_64 = other.derive keys seed_64 → ∃ (level : Nat) (call call' : Bytes × Bytes),
      (run.map Prod.snd)[level]? = some call ∧ (run'.map Prod.snd)[level]? = some call' ∧ call ≠ call' ∧
      ((KeyDerivation.hmacHalves keys call.1 call.2).1 = (KeyDerivation.hmacHalves keys call'.1 call'.2).1 ∨
        (KeyDerivation.hmacHalves keys call.1 call.2).2 = (KeyDerivation.hmacHalves keys call'.1 call'.2).2))

end KeyPath

namespace KeyDerivation

variable (keys : KeyFunctions)

/-- Either derivation function is a packed component and one call of HMAC. -/
theorem ckdHardened_eq (parent : Bytes × Bytes) (index : Int) :
    ckdHardened keys parent.1 parent.2 index =
      packHardened index >>= fun child => .ok (hmacOutput keys (hmacInput keys parent child)) := by
  unfold ckdHardened packHardened
  cases packIndex (index.lor HARDENED) <;> rfl

theorem ckdNormal_eq (parent : Bytes × Bytes) (index : Int) :
    ckdNormal keys parent.1 parent.2 index =
      packNormal index >>= fun child => .ok (hmacOutput keys (hmacInput keys parent child)) := by
  unfold ckdNormal packNormal
  cases packIndex index <;> rfl

/-- A derived key is what the chain of calls over the packed components ends in. -/
theorem deriveKey_eq (seed_64 : Bytes) (path : KeyPath) :
    path.derive keys seed_64 = path.children >>= fun children =>
      .ok (Ratchet.final (hmacInput keys) (hmacOutput keys) (deriveMaster keys seed_64) children).1 := by
  simp only [KeyPath.derive, deriveKey, ckdHardened_eq, ckdNormal_eq, KeyPath.children]
  cases packHardened 44 with
  | error e => rfl
  | ok purpose =>
  cases packHardened MIDNIGHT_COIN_TYPE with
  | error e => rfl
  | ok coin =>
  cases packHardened path.account with
  | error e => rfl
  | ok owner =>
  cases packNormal path.role with
  | error e => rfl
  | ok branch =>
  cases packNormal path.index with
  | error e => rfl
  | ok leaf => rfl

/-- A call shows the chain code it is made under. -/
theorem hmacInput_chain (parent : Bytes × Bytes) (child : Child) : (hmacInput keys parent child).1 = parent.2 := by
  cases child <;> rfl

/-- In one parent the components of a kind are told apart by their bytes. -/
theorem hmacInput_hardened_ne (parent : Bytes × Bytes) {packed packed' : Bytes} (hne : packed ≠ packed') :
    (hmacInput keys parent (.hardened packed)).2 ≠ (hmacInput keys parent (.hardened packed')).2 := by
  intro h
  exact hne (List.append_cancel_left h)

theorem hmacInput_normal_ne (parent : Bytes × Bytes) {packed packed' : Bytes} (hne : packed ≠ packed') :
    (hmacInput keys parent (.normal packed)).2 ≠ (hmacInput keys parent (.normal packed')).2 := by
  intro h
  exact hne (List.append_cancel_left h)

end KeyDerivation

namespace KeyPath

open KeyDerivation

variable {keys : KeyFunctions}

/-- The packed components of every path begin with those of 44' and 2400'. -/
def front : List Child := [.hardened [0x80, 0, 0, 44], .hardened [0x80, 0, 9, 0x60]]

/-- A path with the bytes of its three components. -/
structure PackedAs (path : KeyPath) (account role index : Bytes) : Prop where
  account_ok : packIndex (path.account.lor HARDENED) = .ok account
  role_ok : packIndex path.role = .ok role
  index_ok : packIndex path.index = .ok index
  children_ok : path.children = .ok (front++[.hardened account, .normal role, .normal index])

theorem packed_of_children {path : KeyPath} {packed : List Child} (h : path.children = .ok packed) :
    ∃ account role index, path.PackedAs account role index := by
  have hpurpose : packHardened 44 = .ok (.hardened [0x80, 0, 0, 44]) := by decide +kernel
  have hcoin : packHardened MIDNIGHT_COIN_TYPE = .ok (.hardened [0x80, 0, 9, 0x60]) := by decide +kernel
  have hstages := h
  rw [children, hpurpose, hcoin, ok_bind, ok_bind] at hstages
  obtain ⟨owner, howner, hstages⟩ := bind_ok_iff.mp hstages
  obtain ⟨branch, hbranch, hstages⟩ := bind_ok_iff.mp hstages
  obtain ⟨leaf, hleaf, hstages⟩ := bind_ok_iff.mp hstages
  obtain ⟨account, haccount, howner⟩ := bind_ok_iff.mp howner
  obtain ⟨role, hrole, hbranch⟩ := bind_ok_iff.mp hbranch
  obtain ⟨index, hindex, hleaf⟩ := bind_ok_iff.mp hleaf
  cases howner
  cases hbranch
  cases hleaf
  cases hstages
  exact ⟨account, role, index, haccount, hrole, hindex, h⟩

/-- Paths whose packed components part at the level of their first difference are separated. -/
theorem separated_of_split {seed_64 : Bytes} {path other : KeyPath} (before : List Child) {after after' : List Child}
    {i j : Child} (h : path.children = .ok (before++i::after)) (h' : other.children = .ok (before++j::after'))
    (hlen : after.length = after'.length) (hfirst : path.firstDifference other = before.length)
    (hne : ∀ parent, (hmacInput keys parent i).2 ≠ (hmacInput keys parent j).2) :
    Separated keys seed_64 path other := by
  let master := deriveMaster keys seed_64
  let parent := Ratchet.final (hmacInput keys) (hmacOutput keys) master before
  have hcall (child : Child) : hmacInput keys parent child = (parent.2, (hmacInput keys parent child).2) :=
    Prod.ext (hmacInput_chain keys parent child) rfl
  refine ⟨Ratchet.trace (hmacInput keys) (hmacOutput keys) master (before++i::after),
    Ratchet.trace (hmacInput keys) (hmacOutput keys) master (before++j::after'), ?_, ?_, ?_, ?_, ?_⟩
  · rw [hmacTrace, h]
    rfl
  · rw [hmacTrace, h']
    rfl
  · rw [hfirst, Ratchet.trace_take, Ratchet.trace_take]
  · refine ⟨parent, (hmacInput keys parent i).2, (hmacInput keys parent j).2, ?_, ?_, hne parent⟩
    · rw [hfirst, Ratchet.trace_get, ← hcall]
    · rw [hfirst, Ratchet.trace_get, ← hcall]
  · intro hkeys
    rw [deriveKey_eq, deriveKey_eq, h, h'] at hkeys
    have hshown (p p' : Bytes × Bytes) (c c' : Child) (hsame : hmacInput keys p c = hmacInput keys p' c') :
        p.2 = p'.2 := by
      have hfst := congrArg Prod.fst hsame
      rwa [hmacInput_chain, hmacInput_chain] at hfst
    have hcalls : Ratchet.calls (hmacInput keys) (hmacOutput keys) master (before++i::after) ≠
        Ratchet.calls (hmacInput keys) (hmacOutput keys) master (before++j::after') := by
      intro hsame
      have hget := Ratchet.calls_get (hmacInput keys) (hmacOutput keys) master before i after
      rw [hsame, Ratchet.calls_get] at hget
      exact hne parent (congrArg Prod.snd (Option.some.inj hget)).symm
    exact Ratchet.collision (hmacInput keys) (hmacOutput keys) Prod.snd Prod.fst hshown _ _ master master
      (by simp [hlen]) hcalls (Except.ok.inj hkeys)

/-- Paths with one packed component at that level are not. -/
theorem not_separated_of_same {seed_64 : Bytes} {path other : KeyPath} (before : List Child)
    {after after' : List Child} {i : Child} (h : path.children = .ok (before++i::after))
    (h' : other.children = .ok (before++i::after')) (hfirst : path.firstDifference other = before.length) :
    ¬ Separated keys seed_64 path other := by
  rintro ⟨run, run', hrun, hrun', -, ⟨parent, message, message', hget, hget', hne⟩, -⟩
  rw [hmacTrace, h] at hrun
  rw [hmacTrace, h'] at hrun'
  cases hrun
  cases hrun'
  rw [hfirst, Ratchet.trace_get] at hget hget'
  have hsame := hget.symm.trans hget'
  cases hsame
  exact hne rfl

/-- An accepted path has its components packed. -/
theorem packed_of_derive {seed_64 key : Bytes} {path : KeyPath} (h : path.derive keys seed_64 = .ok key) :
    ∃ account role index, path.PackedAs account role index := by
  rw [deriveKey_eq] at h
  obtain ⟨packed, hpacked, -⟩ := bind_ok_iff.mp h
  exact packed_of_children hpacked

namespace PackedAs

variable {seed_64 : Bytes} {path other : KeyPath} {account role index account' role' index' : Bytes}

/-- Two packed accounts are one only when the accounts are the same or the offset apart. -/
theorem account_congr (h : path.PackedAs account role index) (h' : other.PackedAs account' role' index') :
    account = account' ↔ path.account = other.account ∨ (path.account-other.account).natAbs = 2^31 := by
  rw [← lor_hardened_congr (packIndex_hardened_range h.account_ok) (packIndex_hardened_range h'.account_ok)]
  constructor
  · rintro rfl
    exact packIndex_injective h.account_ok h'.account_ok
  · intro hsame
    have haccount := h.account_ok
    rw [hsame, h'.account_ok] at haccount
    exact (Except.ok.inj haccount).symm

theorem role_congr (h : path.PackedAs account role index) (h' : other.PackedAs account' role' index') :
    role = role' ↔ path.role = other.role := by
  constructor
  · rintro rfl
    exact packIndex_injective h.role_ok h'.role_ok
  · intro hsame
    have hrole := h.role_ok
    rw [hsame, h'.role_ok] at hrole
    exact (Except.ok.inj hrole).symm

theorem accounts_separated (h : path.PackedAs account role index) (h' : other.PackedAs account' role' index')
    (hne : path.account ≠ other.account) (hapart : (path.account-other.account).natAbs ≠ 2^31) :
    Separated keys seed_64 path other := by
  have hfirst : path.firstDifference other = front.length := by
    rw [firstDifference, if_pos hne]
    rfl
  refine separated_of_split front h.children_ok h'.children_ok rfl hfirst ?_
  intro parent
  apply hmacInput_hardened_ne
  intro hsame
  rcases (h.account_congr h').mp hsame with haccount | hoff
  · exact hne haccount
  · exact hapart hoff

theorem roles_separated (h : path.PackedAs account role index) (h' : other.PackedAs account' role' index')
    (haccount : path.account = other.account) (hne : path.role ≠ other.role) : Separated keys seed_64 path other := by
  obtain rfl := (h.account_congr h').mpr (Or.inl haccount)
  let before := front++[Child.hardened account]
  have hfirst : path.firstDifference other = before.length := by
    rw [firstDifference, if_neg (not_not.mpr haccount), if_pos hne]
    rfl
  have hsplit : path.children = .ok (before++[.normal role, .normal index]) := h.children_ok
  have hsplit' : other.children = .ok (before++[.normal role', .normal index']) := h'.children_ok
  refine separated_of_split before hsplit hsplit' rfl hfirst ?_
  intro parent
  apply hmacInput_normal_ne
  intro hsame
  exact hne ((h.role_congr h').mp hsame)

theorem indices_separated (h : path.PackedAs account role index) (h' : other.PackedAs account' role' index')
    (haccount : path.account = other.account) (hrole : path.role = other.role) (hne : path.index ≠ other.index) :
    Separated keys seed_64 path other := by
  obtain rfl := (h.account_congr h').mpr (Or.inl haccount)
  obtain rfl := (h.role_congr h').mpr hrole
  let before := front++[Child.hardened account, Child.normal role]
  have hfirst : path.firstDifference other = before.length := by
    rw [firstDifference, if_neg (not_not.mpr haccount), if_neg (not_not.mpr hrole)]
    rfl
  have hsplit : path.children = .ok (before++[.normal index]) := h.children_ok
  have hsplit' : other.children = .ok (before++[.normal index']) := h'.children_ok
  refine separated_of_split before hsplit hsplit' rfl hfirst ?_
  intro parent
  apply hmacInput_normal_ne
  rintro rfl
  exact hne (packIndex_injective h.index_ok h'.index_ok)

theorem not_separated (h : path.PackedAs account role index) (h' : other.PackedAs account' role' index')
    (hapart : (path.account-other.account).natAbs = 2^31) : ¬ Separated keys seed_64 path other := by
  obtain rfl := (h.account_congr h').mpr (Or.inr hapart)
  have hfirst : path.firstDifference other = front.length := by
    rw [firstDifference, if_pos]
    · rfl
    · intro hsame
      rw [hsame, Int.sub_self] at hapart
      cases hapart
  exact not_separated_of_same front h.children_ok h'.children_ok hfirst

end PackedAs

/-- Two different paths that a derivation accepts are separated at the level where they first differ exactly when
their accounts are not the offset of a hardened index apart. -/
theorem paths_separated_iff {seed_64 key key' : Bytes} {path other : KeyPath}
    (h : path.derive keys seed_64 = .ok key) (h' : other.derive keys seed_64 = .ok key') (hne : path ≠ other) :
    Separated keys seed_64 path other ↔ (path.account-other.account).natAbs ≠ 2^31 := by
  obtain ⟨account, role, index, hpacked⟩ := packed_of_derive h
  obtain ⟨account', role', index', hpacked'⟩ := packed_of_derive h'
  constructor
  · intro hseparated hapart
    exact hpacked.not_separated hpacked' hapart hseparated
  · intro hapart
    by_cases haccount : path.account = other.account
    · by_cases hrole : path.role = other.role
      · apply hpacked.indices_separated hpacked' haccount hrole
        intro hindex
        apply hne
        cases path
        cases other
        simp only at haccount hrole hindex
        rw [haccount, hrole, hindex]
      · exact hpacked.roles_separated hpacked' haccount hrole
    · exact hpacked.accounts_separated hpacked' haccount hapart

/-- The first keys of the first two accounts. -/
theorem paths_separated_sample :
    ∃ key key', derive plainKeys [1, 2, 3] ⟨0, 0, 0⟩ = .ok key ∧ derive plainKeys [1, 2, 3] ⟨1, 0, 0⟩ = .ok key' ∧
      Separated plainKeys [1, 2, 3] ⟨0, 0, 0⟩ ⟨1, 0, 0⟩ := by
  have hfirst : packIndex 0 = .ok [0, 0, 0, 0] := by decide
  have hzero : packIndex (Int.lor 0 HARDENED) = .ok [0x80, 0, 0, 0] := by decide
  have hone : packIndex (Int.lor 1 HARDENED) = .ok [0x80, 0, 0, 1] := by decide
  obtain ⟨key, hkey⟩ := deriveKey_returns plainKeys hzero hfirst hfirst [1, 2, 3]
  obtain ⟨key', hkey'⟩ := deriveKey_returns plainKeys hone hfirst hfirst [1, 2, 3]
  have hkey : derive plainKeys [1, 2, 3] ⟨0, 0, 0⟩ = .ok key := hkey
  have hkey' : derive plainKeys [1, 2, 3] ⟨1, 0, 0⟩ = .ok key' := hkey'
  exact ⟨key, key', hkey, hkey', (paths_separated_iff hkey hkey' (by decide)).mpr (by decide)⟩

/-- Account 0 and account 2^31 are accepted and have the same calls and the same key, whatever HMAC is. -/
theorem hardened_spelling (keys : KeyFunctions) (seed_64 : Bytes) :
    ∃ key, derive keys seed_64 ⟨0, 0, 0⟩ = .ok key ∧ derive keys seed_64 ⟨2^31, 0, 0⟩ = .ok key ∧
      hmacTrace keys seed_64 ⟨0, 0, 0⟩ = hmacTrace keys seed_64 ⟨2^31, 0, 0⟩ ∧
      ¬ Separated keys seed_64 ⟨0, 0, 0⟩ ⟨2^31, 0, 0⟩ := by
  have hfirst : packIndex 0 = .ok [0, 0, 0, 0] := by decide
  have hzero : packIndex (Int.lor 0 HARDENED) = .ok [0x80, 0, 0, 0] := by decide
  obtain ⟨key, hkey⟩ := deriveKey_returns keys hzero hfirst hfirst seed_64
  have hkey : derive keys seed_64 ⟨0, 0, 0⟩ = .ok key := hkey
  have hsame : children ⟨0, 0, 0⟩ = children ⟨2^31, 0, 0⟩ := by decide +kernel
  have hother : derive keys seed_64 ⟨2^31, 0, 0⟩ = .ok key := by
    rw [deriveKey_eq, ← hsame, ← deriveKey_eq]
    exact hkey
  obtain ⟨account, role, index, hpacked⟩ := packed_of_derive hkey
  obtain ⟨account', role', index', hpacked'⟩ := packed_of_derive hother
  exact ⟨key, hkey, hother, by rw [hmacTrace, hmacTrace, hsame], hpacked.not_separated hpacked' rfl⟩

theorem hardened_account_aliased :
    ∃ key, derive plainKeys [1, 2, 3] ⟨0, 0, 0⟩ = .ok key ∧ derive plainKeys [1, 2, 3] ⟨2^31, 0, 0⟩ = .ok key ∧
      hmacTrace plainKeys [1, 2, 3] ⟨0, 0, 0⟩ = hmacTrace plainKeys [1, 2, 3] ⟨2^31, 0, 0⟩ ∧
      ¬ Separated plainKeys [1, 2, 3] ⟨0, 0, 0⟩ ⟨2^31, 0, 0⟩ :=
  hardened_spelling plainKeys [1, 2, 3]

end KeyPath

end Noxipher

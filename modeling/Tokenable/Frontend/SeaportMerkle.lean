import Mathlib.Data.ZMod.Defs
import Mathlib.Order.Fin.Basic
import Tokenable.Js.Hex
import Tokenable.Merkle.SortedTree

/-!
# The Merkle tree of a collection bid

`SeaportMerkleTree` of `merkle.ts`: the leaves are the hashes of token ids, sorted, and siblings are
sorted before they are hashed. `seaportVerifies` is the check of Seaport's criteria resolution.
-/

namespace Frontend
open Js Merkle

section Words

/-- 32 bytes as the big-endian number that they denote. `Buffer.compare` orders them as the numbers
are. -/
abbrev Bytes32 := Fin (2 ^ 256)

def bytes32Hex (w : Bytes32) : JsStr := js "0x" ++ padStart 64 '0' (hexOf w)

/-- `hexToBytes` of a text of 32 bytes. -/
def bytes32OfHex (hex : JsStr) : Bytes32 := Fin.ofNat (2 ^ 256) (hexNat (hex.drop 2))

/-- `toHex(n)`; a negative number throws. -/
def toHex (n : ℤ) : Except JsStr JsStr :=
  if n < 0 then .error (js "IntegerOutOfRangeError") else .ok (js "0x" ++ hexOf n.toNat)

/-- `pad(hex, { size: 32 })`; a longer text throws. -/
def pad32 (hex : JsStr) : Except JsStr JsStr :=
  let digits := hex.drop 2
  if 64 < digits.length then .error (js "SizeExceedsPaddingSizeError")
  else .ok (js "0x" ++ padStart 64 '0' digits)

theorem bytes32OfHex_bytes32Hex (w : Bytes32) : bytes32OfHex (bytes32Hex w) = w := by
  obtain ⟨-, -, hnumber⟩ := padded_spec w.isLt
  apply Fin.ext
  change hexNat (padStart 64 '0' (hexOf w)) % 2 ^ 256 = w
  rw [hnumber, Nat.mod_eq_of_lt w.isLt]

end Words

section Tree

variable (keccak256 : List Bytes32 → Bytes32)

def hashSeaportIdentifier (identifier : ℤ) : Except JsStr JsStr := do
  let hex ← toHex identifier
  let padded ← pad32 hex
  pure (bytes32Hex (keccak256 [bytes32OfHex padded]))

def hashPair : Bytes32 → Bytes32 → Bytes32 := sortedPair fun left right => keccak256 [left, right]

/-- The leaves of a tree in ascending order. -/
structure SeaportMerkleTree where
  leaves : List Bytes32

def leavesOf : List ℤ → Except JsStr (List Bytes32)
  | [] => .ok []
  | id :: ids => do
    let hash ← hashSeaportIdentifier keccak256 id
    let leaves ← leavesOf ids
    pure (bytes32OfHex hash :: leaves)

namespace SeaportMerkleTree

def new (identifiers : List ℤ) : Except JsStr SeaportMerkleTree := do
  if identifiers.isEmpty then .error (js "SeaportMerkleTree: at least one identifier is required")
  else
    let leaves ← leavesOf keccak256 identifiers
    pure ⟨sortLeaves leaves⟩

def getHexRoot (t : SeaportMerkleTree) : JsStr :=
  match root (hashPair keccak256) t.leaves with
  | some r => bytes32Hex r
  | none => bytes32Hex 0

def getCriteriaProof (t : SeaportMerkleTree) (identifier : ℤ) : Except JsStr (List JsStr) := do
  let hash ← hashSeaportIdentifier keccak256 identifier
  pure ((proofOf (hashPair keccak256) t.leaves (bytes32OfHex hash)).map bytes32Hex)

end SeaportMerkleTree

/-- The contract hashes the identifier and joins the elements of the proof to it; of the two, the
smaller one stands first. -/
def seaportVerifies (identifier root : Bytes32) (criteriaProof : List Bytes32) : Bool :=
  criteriaProof.foldl (fun computed p =>
    if p < computed then keccak256 [p, computed] else keccak256 [computed, p])
    (keccak256 [identifier]) = root

end Tree

section Identifiers

variable {keccak256 : List Bytes32 → Bytes32} {id : ℤ} {ids : List ℤ}

def wordOf (id : ℤ) : Bytes32 := Fin.ofNat (2 ^ 256) id.toNat

def IsTokenId (id : ℤ) : Prop := 0 ≤ id ∧ id < 2 ^ 256

theorem hashSeaportIdentifier_eq (h : IsTokenId id) :
    hashSeaportIdentifier keccak256 id = .ok (bytes32Hex (keccak256 [wordOf id])) := by
  obtain ⟨hnonneg, hlt⟩ := h
  have hnat : id.toNat < 2 ^ 256 := by omega
  have hhex : toHex id = .ok (js "0x" ++ hexOf id.toNat) := if_neg (by omega)
  have hlength : (hexOf id.toNat).length ≤ 64 := by
    apply length_hexOf_le (by omega)
    calc id.toNat < 2 ^ 256 := hnat
      _ = 16 ^ 64 := by norm_num
  have hpad : pad32 (js "0x" ++ hexOf id.toNat) = .ok (js "0x" ++ padStart 64 '0' (hexOf id.toNat)) :=
    if_neg (Nat.not_lt.2 hlength)
  have hword : bytes32OfHex (js "0x" ++ padStart 64 '0' (hexOf id.toNat)) = wordOf id := by
    change Fin.ofNat (2 ^ 256) (hexNat (padStart 64 '0' (hexOf id.toNat))) = wordOf id
    rw [(padded_spec hnat).2.2]
    rfl
  change (toHex id >>= fun hex => pad32 hex >>= fun padded =>
    pure (bytes32Hex (keccak256 [bytes32OfHex padded]))) = _
  rw [hhex]
  change (pad32 (js "0x" ++ hexOf id.toNat) >>= fun padded =>
    pure (bytes32Hex (keccak256 [bytes32OfHex padded]))) = _
  rw [hpad, ← hword]
  rfl

theorem leavesOf_eq (h : ∀ id ∈ ids, IsTokenId id) :
    leavesOf keccak256 ids = .ok (ids.map fun id => keccak256 [wordOf id]) := by
  induction ids with
  | nil => rfl
  | cons id ids ih =>
      rw [leavesOf, hashSeaportIdentifier_eq (h id List.mem_cons_self),
        ih fun id hid => h id (List.mem_cons_of_mem _ hid)]
      change Except.ok (bytes32OfHex (bytes32Hex (keccak256 [wordOf id])) :: _) = _
      rw [bytes32OfHex_bytes32Hex]
      rfl

def treeOf (keccak256 : List Bytes32 → Bytes32) (ids : List ℤ) : SeaportMerkleTree :=
  ⟨sortLeaves (ids.map fun id => keccak256 [wordOf id])⟩

theorem new_eq (hne : ids ≠ []) (h : ∀ id ∈ ids, IsTokenId id) :
    SeaportMerkleTree.new keccak256 ids = .ok (treeOf keccak256 ids) := by
  rw [SeaportMerkleTree.new, if_neg (by simpa using hne), leavesOf_eq h]
  rfl

/-- A number of which the hash was formed is a token id. -/
theorem isTokenId_of_hash {hash : JsStr} (h : hashSeaportIdentifier keccak256 id = .ok hash) :
    IsTokenId id := by
  by_cases hneg : id < 0
  · have hthrows : toHex id = .error (js "IntegerOutOfRangeError") := if_pos hneg
    unfold hashSeaportIdentifier at h
    rw [hthrows] at h
    cases h
  · by_contra hlarge
    have hlength : 64 < (hexOf id.toNat).length := by
      by_contra hshort
      have hlt := (Nat.length_toDigits_le_iff (b := 16) (by omega) (by omega)).1 (not_lt.1 hshort)
      apply hlarge
      constructor
      · omega
      · calc id = (id.toNat : ℤ) := by omega
          _ < ((16 ^ 64 : ℕ) : ℤ) := by exact_mod_cast hlt
          _ = 2 ^ 256 := by norm_num
    have hhex : toHex id = .ok (js "0x" ++ hexOf id.toNat) := if_neg hneg
    have hpad : pad32 (js "0x" ++ hexOf id.toNat) =
        .error (js "SizeExceedsPaddingSizeError") := if_pos hlength
    unfold hashSeaportIdentifier at h
    rw [hhex] at h
    change (pad32 (js "0x" ++ hexOf id.toNat) >>= fun padded =>
      pure (bytes32Hex (keccak256 [bytes32OfHex padded]))) = _ at h
    rw [hpad] at h
    cases h

theorem isTokenId_of_leaves {leaves : List Bytes32} (h : leavesOf keccak256 ids = .ok leaves) :
    ∀ id ∈ ids, IsTokenId id := by
  induction ids generalizing leaves with
  | nil =>
      intro id hid
      cases hid
  | cons id ids ih =>
      cases hhash : hashSeaportIdentifier keccak256 id with
      | error e =>
          rw [leavesOf, hhash] at h
          cases h
      | ok hash =>
          cases hleaves : leavesOf keccak256 ids with
          | error e =>
              rw [leavesOf, hhash, hleaves] at h
              cases h
          | ok leaves' =>
              intro id' hid'
              rcases List.mem_cons.1 hid' with rfl | hid'
              · exact isTokenId_of_hash hhash
              · exact ih hleaves id' hid'

/-- The constructor makes the tree of some token ids, and throws for anything else. -/
theorem new_eq_ok {tree : SeaportMerkleTree} :
    SeaportMerkleTree.new keccak256 ids = .ok tree ↔
      ids ≠ [] ∧ (∀ id ∈ ids, IsTokenId id) ∧ tree = treeOf keccak256 ids := by
  constructor
  · intro h
    have hne : ids ≠ [] := by
      rintro rfl
      cases h
    have hids : ∀ id ∈ ids, IsTokenId id := by
      rw [SeaportMerkleTree.new, if_neg (by simpa using hne)] at h
      cases hleaves : leavesOf keccak256 ids with
      | error e =>
          rw [hleaves] at h
          cases h
      | ok leaves => exact isTokenId_of_leaves hleaves
    rw [new_eq hne hids] at h
    exact ⟨hne, hids, (Except.ok.inj h).symm⟩
  · rintro ⟨hne, hids, rfl⟩
    exact new_eq hne hids

theorem treeOf_perm {ids' : List ℤ} (h : ids'.Perm ids) :
    treeOf keccak256 ids' = treeOf keccak256 ids := by
  rw [treeOf, treeOf, sortLeaves_eq_of_perm (h.map _)]

end Identifiers

section Membership

variable {keccak256 : List Bytes32 → Bytes32} {ids : List ℤ}

theorem hashPair_comm (a b : Bytes32) : hashPair keccak256 a b = hashPair keccak256 b a :=
  sortedPair_comm _ a b

/-- The contract's fold is the one over pairs that are sorted. -/
theorem seaportVerifies_iff {identifier r : Bytes32} {criteriaProof : List Bytes32} :
    seaportVerifies keccak256 identifier r criteriaProof = true ↔
      criteriaProof.foldl (hashPair keccak256) (keccak256 [identifier]) = r := by
  have hfold : (fun computed p : Bytes32 =>
      if p < computed then keccak256 [p, computed] else keccak256 [computed, p]) =
        hashPair keccak256 := by
    funext computed p
    exact (sortedPair_eq_ite (fun left right => keccak256 [left, right]) computed p).symm
  unfold seaportVerifies
  rw [hfold]
  exact decide_eq_true_iff

/-- The root of a tree and the proof of each of its ids. -/
theorem root_treeOf {id : ℤ} (hid : id ∈ ids) :
    (treeOf keccak256 ids).getHexRoot keccak256 = bytes32Hex
      ((proofOf (hashPair keccak256) (treeOf keccak256 ids).leaves (keccak256 [wordOf id])).foldl
        (hashPair keccak256) (keccak256 [wordOf id])) := by
  have hleaf : keccak256 [wordOf id] ∈ (treeOf keccak256 ids).leaves := by
    rw [treeOf, mem_sortLeaves]
    exact List.mem_map_of_mem hid
  rw [SeaportMerkleTree.getHexRoot, root_eq_foldl_proofOf hashPair_comm hleaf]

theorem getCriteriaProof_treeOf {id : ℤ} (hid : IsTokenId id) :
    (treeOf keccak256 ids).getCriteriaProof keccak256 id = .ok
      ((proofOf (hashPair keccak256) (treeOf keccak256 ids).leaves (keccak256 [wordOf id])).map
        bytes32Hex) := by
  rw [SeaportMerkleTree.getCriteriaProof, hashSeaportIdentifier_eq hid]
  change Except.ok ((proofOf _ _ (bytes32OfHex (bytes32Hex (keccak256 [wordOf id])))).map bytes32Hex) = _
  rw [bytes32OfHex_bytes32Hex]

/-- The proof of an id of the tree passes the contract's check. -/
theorem verifies_treeOf (keccak256 : List Bytes32 → Bytes32) {id : ℤ} (hmem : id ∈ ids) (hid : IsTokenId id) :
    ∃ criteriaProof, (treeOf keccak256 ids).getCriteriaProof keccak256 id = .ok criteriaProof ∧
      seaportVerifies keccak256 (wordOf id) (bytes32OfHex ((treeOf keccak256 ids).getHexRoot keccak256))
        (criteriaProof.map bytes32OfHex) = true := by
  refine ⟨_, getCriteriaProof_treeOf hid, ?_⟩
  have hback : ∀ words : List Bytes32, (words.map bytes32Hex).map bytes32OfHex = words := by
    intro words
    rw [List.map_map]
    exact (List.map_congr_left fun w _ => bytes32OfHex_bytes32Hex w).trans (List.map_id' words)
  rw [hback, root_treeOf hmem, bytes32OfHex_bytes32Hex]
  exact seaportVerifies_iff.2 rfl

/-- A tree over token ids has a root that does not depend on their order, and the proof of each of
them passes the contract's check. -/
theorem merkle_membership (keccak256 : List Bytes32 → Bytes32) (ids : List ℤ) (hne : ids ≠ [])
    (hids : ∀ id ∈ ids, IsTokenId id) :
    ∃ tree, SeaportMerkleTree.new keccak256 ids = .ok tree ∧
      (∀ ids', ids'.Perm ids → ∃ tree', SeaportMerkleTree.new keccak256 ids' = .ok tree' ∧
        tree'.getHexRoot keccak256 = tree.getHexRoot keccak256) ∧
      ∀ id ∈ ids, ∃ criteriaProof, tree.getCriteriaProof keccak256 id = .ok criteriaProof ∧
        seaportVerifies keccak256 (wordOf id) (bytes32OfHex (tree.getHexRoot keccak256))
          (criteriaProof.map bytes32OfHex) = true := by
  refine ⟨treeOf keccak256 ids, new_eq hne hids, ?_, ?_⟩
  · intro ids' hperm
    have hne' : ids' ≠ [] := by
      rintro rfl
      exact hne hperm.symm.eq_nil
    refine ⟨treeOf keccak256 ids', new_eq hne' fun id hid => hids id (hperm.mem_iff.1 hid), ?_⟩
    rw [treeOf_perm hperm]
  · intro id hid
    exact verifies_treeOf keccak256 hid (hids id hid)

/-- A collection of three cards. -/
theorem merkle_membership_three : ∃ tree,
    SeaportMerkleTree.new (fun words => words.sum + 1) [7, 3, 7000] = .ok tree ∧
      ∃ criteriaProof, tree.getCriteriaProof (fun words => words.sum + 1) 7000 = .ok criteriaProof ∧
        seaportVerifies (fun words => words.sum + 1) (wordOf 7000)
          (bytes32OfHex (tree.getHexRoot fun words => words.sum + 1))
          (criteriaProof.map bytes32OfHex) = true := by
  have hids : ∀ id ∈ [7, 3, 7000], IsTokenId id := by
    intro id hid
    simp only [List.mem_cons, List.not_mem_nil, or_false] at hid
    unfold IsTokenId
    omega
  obtain ⟨tree, htree, -, hproofs⟩ :=
    merkle_membership (fun words => words.sum + 1) [7, 3, 7000] (by decide) hids
  exact ⟨tree, htree, hproofs 7000 (by decide)⟩

/-- A repeated id has two leaves, and the root is that of one leaf when the hash of the pair is the
leaf itself only. -/
theorem getHexRoot_repeated (id : ℤ) :
    (treeOf keccak256 [id, id]).getHexRoot keccak256 = (treeOf keccak256 [id]).getHexRoot keccak256 ↔
      keccak256 [keccak256 [wordOf id], keccak256 [wordOf id]] = keccak256 [wordOf id] := by
  have hone : (treeOf keccak256 [id]).getHexRoot keccak256 = bytes32Hex (keccak256 [wordOf id]) := rfl
  have htwo : (treeOf keccak256 [id, id]).getHexRoot keccak256 =
      bytes32Hex (keccak256 [keccak256 [wordOf id], keccak256 [wordOf id]]) := by
    have hleaves : (treeOf keccak256 [id, id]).leaves =
        [keccak256 [wordOf id], keccak256 [wordOf id]] := by
      simp [treeOf, sortLeaves]
    have hpair : root (hashPair keccak256) [keccak256 [wordOf id], keccak256 [wordOf id]] =
        some (hashPair keccak256 (keccak256 [wordOf id]) (keccak256 [wordOf id])) := rfl
    rw [SeaportMerkleTree.getHexRoot, hleaves, hpair, hashPair, sortedPair, min_self, max_self]
  rw [hone, htwo]
  constructor
  · intro h
    rw [← bytes32OfHex_bytes32Hex (keccak256 [keccak256 [wordOf id], _]), h, bytes32OfHex_bytes32Hex]
  · exact congrArg bytes32Hex

/-- The ids 1 and 1, 1 have different roots. -/
theorem root_depends_on_repetition : ∃ once twice,
    SeaportMerkleTree.new (fun words => words.sum + 1) [1] = .ok once ∧
      SeaportMerkleTree.new (fun words => words.sum + 1) [1, 1] = .ok twice ∧
      twice.getHexRoot (fun words => words.sum + 1) ≠ once.getHexRoot fun words => words.sum + 1 := by
  have hid : IsTokenId 1 := ⟨by decide, by decide⟩
  refine ⟨_, _, new_eq (by decide) (by simpa using hid), new_eq (by decide) (by simpa using hid), ?_⟩
  rw [Ne, getHexRoot_repeated]
  decide

end Membership

end Frontend

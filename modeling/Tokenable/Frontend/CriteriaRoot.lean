import Tokenable.Frontend.SeaportMerkle
import Tokenable.Platform.Config

/-!
# Criteria roots

`canonicalBytes32Hex` brings the Merkle roots of bids into one form, in which they are compared. The
proof for `matchAdvancedOrders` is taken from the tree of the current token ids when its root is the
one that the bid was signed with.
-/

namespace Frontend
open Js Merkle Platform

section Canonical

/-- A root as it arrives: a number is an integer or none, and any value that is no number stands for
its text. -/
inductive RawRoot where
  | nullish
  | bigint (n : ℤ)
  | number (n : Option ℤ)
  | text (s : JsStr)
  deriving DecidableEq

/-- `n.toString(16)` -/
def intHex (n : ℤ) : JsStr := if n < 0 then '-' :: hexOf n.natAbs else hexOf n.natAbs

def paddedHex (n : ℤ) : JsStr := js "0x" ++ padStart 64 '0' (intHex n)

/-- A text in lower case and without white space around it. -/
def canonicalText (s : JsStr) : Option JsStr :=
  if s.isEmpty then none
  else if s.take 2 = js "0x" then
    if !isHexText (s.drop 2) then none else (toBigInt s).map paddedHex
  else if s.length = 64 && s.all isLowerHex then some (js "0x" ++ s)
  else if isDigits s then (toBigInt s).map paddedHex
  else none

def canonicalBytes32Hex : RawRoot → Option JsStr
  | .nullish => none
  | .bigint n => some (paddedHex n)
  | .number none => none
  | .number (some n) => if n < 0 then none else some (paddedHex n)
  | .text raw => canonicalText (lower (trim raw))

/-- `bidMerkleRootMatchesCollection` on the root of the bid. -/
def rootsMatch (bidRoot currentRoot : RawRoot) : Bool :=
  match canonicalBytes32Hex bidRoot, canonicalBytes32Hex currentRoot with
  | some b, some c => b = c
  | _, _ => false

/-- The representations of a number. A decimal text of 64 digits is not among them: it is taken for
hexadecimal digits. -/
inductive Represents (n : ℕ) : RawRoot → Prop
  | bigint : Represents n (.bigint n)
  | number : Represents n (.number (some n))
  | hex (s ds : JsStr) : lower (trim s) = js "0x" ++ ds → isHexText ds = true → hexNat ds = n →
      Represents n (.text s)
  | bareHex (s : JsStr) : (lower (trim s)).length = 64 → (lower (trim s)).all isLowerHex = true →
      hexNat (lower (trim s)) = n → Represents n (.text s)
  | decimal (s : JsStr) : isDigits (trim s) = true → (trim s).length ≠ 64 → toNat (trim s) = n →
      Represents n (.text s)

def canonical (n : ℕ) : JsStr := js "0x" ++ padStart 64 '0' (hexOf n)

theorem paddedHex_eq (n : ℕ) : paddedHex n = canonical n := rfl

theorem canonical_spec {n : ℕ} (h : n < 2 ^ 256) :
    (canonical n).length = 66 ∧ (canonical n).take 2 = js "0x" ∧
      (∀ c ∈ (canonical n).drop 2, isLowerHex c = true) ∧ hexNat ((canonical n).drop 2) = n := by
  obtain ⟨hdigits, hlength, hnumber⟩ := padded_spec h
  refine ⟨?_, rfl, hdigits, hnumber⟩
  rw [canonical, List.length_append, hlength]
  rfl

theorem canonical_inj {n m : ℕ} (hn : n < 2 ^ 256) (hm : m < 2 ^ 256) :
    canonical n = canonical m ↔ n = m := by
  constructor
  · intro h
    have hdrop := congrArg (fun s : JsStr => hexNat (s.drop 2)) h
    exact (canonical_spec hn).2.2.2.symm.trans (hdrop.trans (canonical_spec hm).2.2.2)
  · rintro rfl
    rfl

/-- `BigInt` of a prefixed hexadecimal text. -/
theorem toBigInt_hex {ds : JsStr} (h : isHexText ds = true) :
    toBigInt (js "0x" ++ ds) = some (hexNat ds : ℤ) := by
  simp only [isHexText, Bool.and_eq_true, Bool.not_eq_true', List.all_eq_true] at h
  obtain ⟨hne, hall⟩ := h
  have htrim : trim (js "0x" ++ ds) = js "0x" ++ ds := by
    refine trim_eq_self fun c hc => ?_
    rcases List.mem_append.1 hc with hc | hc
    · have h0x : c = '0' ∨ c = 'x' := by simpa [js] using hc
      rcases h0x with rfl | rfl <;> rfl
    · exact not_isSpace_of_isLowerHex (hall c hc)
  have hbase : inBase 16 ds = some (hexNat ds) := by
    have hdigits : ds.all (fun c => isLowerHex c.toLower && hexValue c < 16) = true := by
      rw [List.all_eq_true]
      intro c hc
      simp [toLower_of_isLowerHex (hall c hc), hall c hc, hexValue_lt (hall c hc)]
    simp only [inBase, hne, hdigits, Bool.not_false, Bool.and_self, if_true, hexNat]
  have hcons : js "0x" ++ ds = '0' :: 'x' :: ds := rfl
  rw [toBigInt, htrim, hcons]
  simp [literalBase, hbase]

theorem lower_of_isDigits {s : JsStr} (h : isDigits s = true) : lower s = s := by
  simp only [isDigits, Bool.and_eq_true, List.all_eq_true] at h
  have hkept : ∀ c ∈ s, c.toLower = c := fun c hc =>
    toLower_of_isLowerHex (isLowerHex_of_isDigit (h.2 c hc))
  exact (List.map_congr_left hkept).trans (List.map_id' s)

/-- A text that is not the prefix `0x` and more, since all of its characters are digits. -/
theorem take_two_ne {s : JsStr} (h : ∀ c ∈ s, isLowerHex c = true) : s.take 2 ≠ js "0x" := by
  intro htake
  have hx : 'x' ∈ s := List.mem_of_mem_take (by rw [htake]; decide : 'x' ∈ s.take 2)
  exact absurd (h 'x' hx) (by decide)

theorem canonicalText_hex {ds : JsStr} (h : isHexText ds = true) :
    canonicalText (js "0x" ++ ds) = some (canonical (hexNat ds)) := by
  have hempty : (js "0x" ++ ds).isEmpty = false := rfl
  have htake : (js "0x" ++ ds).take 2 = js "0x" := rfl
  have hdrop : (js "0x" ++ ds).drop 2 = ds := rfl
  simp only [canonicalText, hempty, Bool.false_eq_true, if_false, htake, if_true, hdrop, h,
    Bool.not_true, toBigInt_hex h, Option.map_some, paddedHex_eq]

theorem canonicalText_bareHex {s : JsStr} (hlength : s.length = 64) (h : s.all isLowerHex = true) :
    canonicalText s = some (canonical (hexNat s)) := by
  have hall := List.all_eq_true.1 h
  have hempty : s.isEmpty = false := by
    cases s with
    | nil => cases hlength
    | cons c s => rfl
  have hpadded := (padStart_hexNat hall hlength).2
  simp only [canonicalText, hempty, Bool.false_eq_true, if_false, take_two_ne hall, hlength, h,
    decide_true, Bool.and_self, if_true]
  rw [canonical, hpadded]

theorem canonicalText_decimal {s : JsStr} (h : isDigits s = true) (hlength : s.length ≠ 64) :
    canonicalText s = some (canonical (toNat s)) := by
  have htrim := trim_of_isDigits h
  have hread : toBigInt s = some (toNat s : ℤ) := by
    have htrimmed : isDigits (trim s) = true := by rw [htrim]; exact h
    rw [toBigInt_of_isDigits htrimmed, htrim]
  have hdigits := h
  simp only [isDigits, Bool.and_eq_true, Bool.not_eq_true', List.all_eq_true] at hdigits
  have hnot0x := take_two_ne fun c hc => isLowerHex_of_isDigit (hdigits.2 c hc)
  simp only [canonicalText, hdigits.1, Bool.false_eq_true, if_false, hnot0x, hlength, decide_false,
    Bool.false_and, h, if_true, hread, Option.map_some, paddedHex_eq]

/-- Every representation of a number is brought into its one form. -/
theorem canonicalBytes32Hex_eq {n : ℕ} {r : RawRoot} (h : Represents n r) :
    canonicalBytes32Hex r = some (canonical n) := by
  cases h with
  | bigint => rfl
  | number => rfl
  | hex s ds hs hds hn =>
      rw [canonicalBytes32Hex, hs, canonicalText_hex hds, hn]
  | bareHex s hlength hall hn =>
      rw [canonicalBytes32Hex, canonicalText_bareHex hlength hall, hn]
  | decimal s hdigits hlength hn =>
      rw [canonicalBytes32Hex, lower_of_isDigits hdigits, canonicalText_decimal hdigits hlength, hn]

/-- The canonical form is that of the number, and two roots compare equal when they are the same
number. -/
theorem canonical_form {n m : ℕ} {r q : RawRoot} (hn : n < 2 ^ 256) (hm : m < 2 ^ 256)
    (hr : Represents n r) (hq : Represents m q) :
    (∃ s, canonicalBytes32Hex r = some s ∧ s.length = 66 ∧ s.take 2 = js "0x" ∧
      (∀ c ∈ s.drop 2, isLowerHex c = true) ∧ hexNat (s.drop 2) = n) ∧
    (canonicalBytes32Hex r = canonicalBytes32Hex q ↔ n = m) ∧ (rootsMatch r q = true ↔ n = m) := by
  have hr' := canonicalBytes32Hex_eq hr
  have hq' := canonicalBytes32Hex_eq hq
  refine ⟨⟨canonical n, hr', canonical_spec hn⟩, ?_, ?_⟩
  · rw [hr', hq', Option.some.injEq]
    exact canonical_inj hn hm
  · rw [rootsMatch, hr', hq']
    exact decide_eq_true_iff.trans (canonical_inj hn hm)

/-- 255 as a padded text in upper case and as a decimal one. -/
theorem canonical_form_255 :
    rootsMatch (.text (js " 0x00FF ")) (.text (js "255")) = true := by
  have hhex : Represents 255 (.text (js " 0x00FF ")) := .hex _ (js "00ff") (by decide) (by decide) rfl
  have hdecimal : Represents 255 (.text (js "255")) :=
    .decimal _ (by decide) (by decide) (by decide)
  exact (canonical_form (by norm_num) (by norm_num) hhex hdecimal).2.2.2 rfl

/-- The decimal text of 10 ^ 63 has 64 digits and is taken for the hexadecimal one of 16 ^ 63. -/
theorem decimal_read_as_hex : ∃ s : JsStr, s.length = 64 ∧ isDigits s = true ∧ toNat s = 10 ^ 63 ∧
    canonicalBytes32Hex (.text s) ≠ canonicalBytes32Hex (.bigint (10 ^ 63)) ∧
    rootsMatch (.text s) (.bigint (16 ^ 63)) = true := by
  refine ⟨'1' :: List.replicate 63 '0', rfl, by decide, by decide +kernel, ?_, ?_⟩
  · decide +kernel
  · decide +kernel

end Canonical

section Proof

variable (keccak256 : List Bytes32 → Bytes32)

/-- `BigInt(normalizeDecimalTokenId(raw))` -/
def readTokenId (raw : JsStr) : Except JsStr ℤ :=
  if isDigits (trim raw) then .ok (toNat (trim raw))
  else .error (js "Invalid token ID (expected a non-negative integer).")

def readTokenIds : List JsStr → Except JsStr (List ℤ)
  | [] => .ok []
  | raw :: raws => do
    let id ← readTokenId raw
    let ids ← readTokenIds raws
    pure (id :: ids)

/-- The steps of `runCriteriaMatch` that find the proof of a token. -/
def criteriaProofFor (merkleTokenIds : List JsStr) (tokenId : JsStr) (bidRoot : RawRoot) :
    Except JsStr (List JsStr) := do
  let tidBn ← readTokenId tokenId
  let ids ← readTokenIds merkleTokenIds
  if ids.isEmpty then .error (js "Merkle set is empty.")
  else if tidBn ∉ ids then .error (js "This token ID is not in the current Merkle leaf set.")
  else
    let tree ← SeaportMerkleTree.new keccak256 ids
    match canonicalBytes32Hex bidRoot, canonicalBytes32Hex (.text (tree.getHexRoot keccak256)) with
    | some bidCanon, some curCanon =>
      if bidCanon ≠ curCanon then
        .error (js "This bid’s Merkle root does not match the current listing set. The buyer should cancel and place a new collection bid.")
      else tree.getCriteriaProof keccak256 tidBn
    | _, _ => .error (js "Invalid bid: missing or malformed Merkle root.")

variable {keccak256 : List Bytes32 → Bytes32} {merkleTokenIds criteriaProof : List JsStr}
  {tokenId : JsStr} {bidRoot : RawRoot}

theorem represents_bytes32Hex (w : Bytes32) : Represents w (.text (bytes32Hex w)) := by
  obtain ⟨hdigits, hlength, hnumber⟩ := padded_spec w.isLt
  have hdigits' : isHexText (padStart 64 '0' (hexOf w)) = true := by
    rw [isHexText, Bool.and_eq_true, Bool.not_eq_true', List.isEmpty_eq_false_iff, List.all_eq_true]
    refine ⟨?_, hdigits⟩
    intro hnil
    rw [hnil] at hlength
    cases hlength
  have hkept : lower (trim (bytes32Hex w)) = bytes32Hex w := by
    have hspace : ∀ c ∈ bytes32Hex w, isSpace c = false ∧ c.toLower = c := by
      intro c hc
      rcases List.mem_append.1 hc with hc | hc
      · have h0x : c = '0' ∨ c = 'x' := by simpa [js] using hc
        rcases h0x with rfl | rfl
        · exact ⟨rfl, rfl⟩
        · exact ⟨rfl, rfl⟩
      · exact ⟨not_isSpace_of_isLowerHex (hdigits c hc), toLower_of_isLowerHex (hdigits c hc)⟩
    rw [trim_eq_self fun c hc => (hspace c hc).1]
    exact (List.map_congr_left fun c hc => (hspace c hc).2).trans (List.map_id' _)
  exact .hex _ _ hkept hdigits' hnumber

/-- A proof that is used passes the contract's check against the root of the bid. -/
theorem seaportVerifies_criteriaProofFor {n : Bytes32} (hroot : Represents n bidRoot)
    (h : criteriaProofFor keccak256 merkleTokenIds tokenId bidRoot = .ok criteriaProof) :
    ∃ id, readTokenId tokenId = .ok id ∧
      seaportVerifies keccak256 (wordOf id) n (criteriaProof.map bytes32OfHex) = true := by
  unfold criteriaProofFor at h
  obtain ⟨id, hid, h⟩ := bind_eq_ok.1 h
  obtain ⟨ids, -, h⟩ := bind_eq_ok.1 h
  split_ifs at h with hempty hmem
  obtain ⟨tree, htree, h⟩ := bind_eq_ok.1 h
  obtain ⟨-, hids, rfl⟩ := new_eq_ok.1 htree
  refine ⟨id, hid, ?_⟩
  obtain ⟨proofOfId, hproof, hverifies⟩ :=
    verifies_treeOf keccak256 hmem (hids id hmem)
  -- the root of the bid is the one of the tree
  obtain ⟨w, hw⟩ : ∃ w, (treeOf keccak256 ids).getHexRoot keccak256 = bytes32Hex w :=
    ⟨_, root_treeOf hmem⟩
  rw [hw] at h hverifies
  rw [canonicalBytes32Hex_eq hroot, canonicalBytes32Hex_eq (represents_bytes32Hex w)] at h
  simp only at h
  split_ifs at h with hsame
  have hword : n = w := Fin.ext ((canonical_inj n.isLt w.isLt).1 (not_not.1 hsame))
  rw [hproof] at h
  obtain rfl := Except.ok.inj h
  rw [bytes32OfHex_bytes32Hex] at hverifies
  rw [hword]
  exact hverifies

end Proof

end Frontend

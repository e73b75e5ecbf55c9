import Tokenable.Vault.Registry

/-!
# One spelling for a token id

`VaultService` and `OrdersService` strip the leading zeros of a decimal token id in a loop. The
queries of the vault do it in SQL, on the stored id. The three agree on decimal ids, and two ids have
one spelling if and only if they are the same number.
-/

namespace DecimalTokenId
open Js Vault

/-- `while (i < s.length - 1 && s[i] === '0') i++`, then `s.slice(i)`. -/
def dropLeadingZeros : JsStr → JsStr
  | c :: d :: s => if c = '0' then dropLeadingZeros (d :: s) else c :: d :: s
  | s => s

/-- `normalizeDecimalTokenId` of `VaultService`; `OrdersService` has the same text. -/
def normalizeDecimalTokenId (raw : JsStr) : JsStr :=
  let s := trim raw
  if !isDigits s then s else dropLeadingZeros s

section Sql

def ltrim (s : JsStr) (c : Char) : JsStr := s.dropWhile (· = c)

def nullif (s t : JsStr) : Option JsStr := if s = t then none else some s

/-- `COALESCE(NULLIF(LTRIM(token_id, '0'), ''), '0')` -/
def sqlForm (tokenId : JsStr) : JsStr := (nullif (ltrim tokenId '0') []).getD (js "0")

theorem sqlForm_of_ltrim_nil {s : JsStr} (h : ltrim s '0' = []) : sqlForm s = js "0" := by
  rw [sqlForm, h, nullif, if_pos rfl]
  rfl

theorem sqlForm_of_ltrim_cons {s t : JsStr} {c : Char} (h : ltrim s '0' = c :: t) :
    sqlForm s = c :: t := by
  have hne : c :: t ≠ [] := List.cons_ne_nil c t
  rw [sqlForm, h, nullif, if_neg hne]
  rfl

theorem sqlForm_zero_cons (s : JsStr) : sqlForm ('0' :: s) = sqlForm s := by
  have h : ltrim ('0' :: s) '0' = ltrim s '0' := by simp [ltrim]
  rw [sqlForm, h, sqlForm]

theorem sqlForm_of_head_ne {c : Char} (hc : c ≠ '0') (s : JsStr) : sqlForm (c :: s) = c :: s := by
  apply sqlForm_of_ltrim_cons
  simp [ltrim, hc]

/-- The loop keeps the last character, where SQL trims it too and puts a zero in its place. -/
theorem dropLeadingZeros_eq_sqlForm {s : JsStr} (h : s ≠ []) : dropLeadingZeros s = sqlForm s := by
  induction s with
  | nil => exact absurd rfl h
  | cons c s ih =>
    by_cases hc : c = '0'
    · rw [hc, sqlForm_zero_cons]
      cases s with
      | nil => rfl
      | cons d s =>
        have hnext := ih (List.cons_ne_nil d s)
        rw [dropLeadingZeros, if_pos rfl, hnext]
    · rw [sqlForm_of_head_ne hc]
      cases s with
      | nil => rfl
      | cons d s => rw [dropLeadingZeros, if_neg hc]

theorem normalizeDecimalTokenId_eq_sqlForm {s : JsStr} (h : isDigits s = true) :
    normalizeDecimalTokenId s = sqlForm s := by
  have hne : s ≠ [] := by
    intro hnil
    rw [hnil] at h
    cases h
  simp only [normalizeDecimalTokenId, trim_of_isDigits h, h, Bool.not_true, Bool.false_eq_true,
    if_false]
  exact dropLeadingZeros_eq_sqlForm hne

end Sql

/-- Stripping in a loop is dropping all zeros, with a zero for an id of zeros only. -/
theorem normalizeDecimalTokenId_eq_orders (raw : JsStr) :
    normalizeDecimalTokenId raw = Orders.normalizeDecimalTokenId raw := by
  simp only [normalizeDecimalTokenId, Orders.normalizeDecimalTokenId]
  by_cases hdigits : isDigits (trim raw) = true
  · have hne : trim raw ≠ [] := by
      intro hnil
      rw [hnil] at hdigits
      cases hdigits
    simp only [hdigits, Bool.not_true, Bool.false_eq_true, if_false]
    rw [dropLeadingZeros_eq_sqlForm hne]
    cases htrim : ltrim (trim raw) '0' with
    | nil =>
      rw [sqlForm_of_ltrim_nil htrim]
      rw [ltrim] at htrim
      rw [htrim]
      rfl
    | cons c t =>
      rw [sqlForm_of_ltrim_cons htrim]
      rw [ltrim] at htrim
      rw [htrim]
  · rw [Bool.not_eq_true] at hdigits
    simp only [hdigits, Bool.not_false, if_true]

/-- Leading zeros are all that the normal form forgets of a decimal id, whatever white space it was
sent with; on a stored decimal id the queries compute the same text. -/
theorem canonical_iff_same_number :
    (∀ a b : JsStr, isDigits (trim a) = true → isDigits (trim b) = true →
      (normalizeDecimalTokenId a = normalizeDecimalTokenId b ↔ Js.toNat (trim a) = Js.toNat (trim b))) ∧
    (∀ raw, normalizeDecimalTokenId (normalizeDecimalTokenId raw) = normalizeDecimalTokenId raw) ∧
    (∀ raw, Orders.normalizeDecimalTokenId raw = normalizeDecimalTokenId raw) ∧
    ∀ s : JsStr, isDigits s = true → normalizeDecimalTokenId s = sqlForm s := by
  refine ⟨?_, ?_, ?_, ?_⟩
  · intro a b ha hb
    rw [normalizeDecimalTokenId_eq_orders, normalizeDecimalTokenId_eq_orders]
    exact Orders.normalizeDecimalTokenId_eq_iff ha hb
  · intro raw
    simp only [normalizeDecimalTokenId_eq_orders]
    exact Orders.normalizeDecimalTokenId_idem raw
  · intro raw
    exact (normalizeDecimalTokenId_eq_orders raw).symm
  · intro s hs
    exact normalizeDecimalTokenId_eq_sqlForm hs

theorem canonical_iff_same_number_forty :
    (normalizeDecimalTokenId (js " 0040") = normalizeDecimalTokenId (js "40") ↔
      Js.toNat (trim (js " 0040")) = Js.toNat (trim (js "40"))) ∧
    normalizeDecimalTokenId (js "000") = sqlForm (js "000") :=
  ⟨canonical_iff_same_number.1 (js " 0040") (js "40") (by decide) (by decide),
    canonical_iff_same_number.2.2.2 (js "000") (by decide)⟩

section Lookup

/-- The condition of `applyDecimalTokenIdMatch` as the query has it: the stored id is one of those
sent, or it is decimal and its SQL form is one of their normal forms. -/
def applyDecimalTokenIdMatch (tokenContract : JsStr) (tokenIds : List JsStr) (t : RwaToken) : Bool :=
  lower t.tokenContract = lower tokenContract &&
    (t.tokenId ∈ (tokenIds.flatMap decimalTokenIdLookupKeys).eraseDups ||
      (isDigits t.tokenId && sqlForm t.tokenId ∈ (tokenIds.map normalizeDecimalTokenId).eraseDups))

/-- The branch of `findRwaTokensByDecimalIds` for a repository without a query builder. -/
def findByLookupKeys (tokens : TokenTable) (tokenContract : JsStr) (ids : List JsStr) :
    List RwaToken :=
  (tokens.find fun t => t.tokenContract = lower tokenContract &&
    t.tokenId ∈ (ids.flatMap decimalTokenIdLookupKeys).eraseDups).filter fun t =>
      normalizeDecimalTokenId t.tokenId ∈ (ids.map normalizeDecimalTokenId).eraseDups

theorem applyDecimalTokenIdMatch_eq (tokenContract : JsStr) (tokenIds : List JsStr) (t : RwaToken) :
    applyDecimalTokenIdMatch tokenContract tokenIds t =
      matchesDecimalIds tokenContract tokenIds t := by
  have hnorm : normalizeDecimalTokenId = Orders.normalizeDecimalTokenId :=
    funext normalizeDecimalTokenId_eq_orders
  rw [applyDecimalTokenIdMatch, matchesDecimalIds, hnorm]
  by_cases hdigits : isDigits t.tokenId = true
  · rw [← normalizeDecimalTokenId_eq_sqlForm hdigits, hnorm]
  · rw [Bool.not_eq_true] at hdigits
    rw [hdigits, Bool.false_and, Bool.false_and]

theorem mem_decimalTokenIdLookupKeys {id key : JsStr} (h : isDigits id = true) :
    key ∈ decimalTokenIdLookupKeys id ↔ key = id ∨ key = normalizeDecimalTokenId id := by
  have hne : id.isEmpty = false := by
    cases id with
    | nil => cases h
    | cons c s => rfl
  rw [decimalTokenIdLookupKeys, trim_of_isDigits h, hne, if_neg Bool.false_ne_true,
    List.mem_eraseDups, normalizeDecimalTokenId_eq_orders]
  simp

/-- The query finds a row of the contract exactly when its id is decimal and the number of one of
the ids looked up. -/
theorem applyDecimalTokenIdMatch_iff {tokenContract : JsStr} {ids : List JsStr} {t : RwaToken}
    (hids : ∀ id ∈ ids, isDigits id = true) :
    applyDecimalTokenIdMatch tokenContract ids t = true ↔
      lower t.tokenContract = lower tokenContract ∧ isDigits t.tokenId = true ∧
        ∃ id ∈ ids, Js.toNat t.tokenId = Js.toNat id := by
  have hform : ∀ {s : JsStr}, isDigits s = true →
      isDigits (normalizeDecimalTokenId s) = true ∧
        Js.toNat (normalizeDecimalTokenId s) = Js.toNat s := by
    intro s hs
    have htrim : isDigits (trim s) = true := by rwa [trim_of_isDigits hs]
    rw [normalizeDecimalTokenId_eq_orders]
    have hnat := Orders.toNat_normalizeDecimalTokenId htrim
    rw [trim_of_isDigits hs] at hnat
    exact ⟨Orders.isDigits_normalizeDecimalTokenId htrim, hnat⟩
  simp only [applyDecimalTokenIdMatch, Bool.and_eq_true, Bool.or_eq_true, decide_eq_true_eq,
    List.mem_eraseDups, List.mem_flatMap, List.mem_map]
  constructor
  · rintro ⟨hcontract, ⟨id, hid, hkey⟩ | ⟨hdigits, id, hid, heq⟩⟩
    · rw [mem_decimalTokenIdLookupKeys (hids id hid)] at hkey
      rcases hkey with heq | heq
      · exact ⟨hcontract, heq ▸ hids id hid, id, hid, by rw [heq]⟩
      · have hspec := hform (hids id hid)
        rw [← heq] at hspec
        exact ⟨hcontract, hspec.1, id, hid, hspec.2⟩
    · refine ⟨hcontract, hdigits, id, hid, ?_⟩
      rw [← (hform hdigits).2, ← (hform (hids id hid)).2, heq,
        normalizeDecimalTokenId_eq_sqlForm hdigits]
  · rintro ⟨hcontract, hdigits, id, hid, hnat⟩
    have hsame : normalizeDecimalTokenId id = sqlForm t.tokenId := by
      rw [← normalizeDecimalTokenId_eq_sqlForm hdigits, normalizeDecimalTokenId_eq_orders,
        normalizeDecimalTokenId_eq_orders, Orders.normalizeDecimalTokenId_eq_iff,
        trim_of_isDigits hdigits, trim_of_isDigits (hids id hid), hnat]
      · rw [trim_of_isDigits (hids id hid)]
        exact hids id hid
      · rw [trim_of_isDigits hdigits]
        exact hdigits
    exact ⟨hcontract, .inr ⟨hdigits, id, hid, hsame⟩⟩

/-- Without a query builder a row is found only when it is stored with the padding of the call or
with none: the two branches agree on such rows, and on no others. -/
theorem mem_findByLookupKeys {tokens : TokenTable} {tokenContract : JsStr} {ids : List JsStr}
    {t : RwaToken} (hids : ∀ id ∈ ids, isDigits id = true) :
    t ∈ findByLookupKeys tokens tokenContract ids ↔
      t ∈ tokens.rows ∧ t.tokenContract = lower tokenContract ∧
        ∃ id ∈ ids, t.tokenId = id ∨ t.tokenId = normalizeDecimalTokenId id := by
  simp only [findByLookupKeys, Db.Table.find, List.mem_filter, Bool.and_eq_true, decide_eq_true_eq,
    List.mem_eraseDups, List.mem_flatMap, List.mem_map]
  constructor
  · rintro ⟨⟨hrow, hcontract, id, hid, hkey⟩, -⟩
    exact ⟨hrow, hcontract, id, hid, (mem_decimalTokenIdLookupKeys (hids id hid)).mp hkey⟩
  · rintro ⟨hrow, hcontract, id, hid, hkey⟩
    refine ⟨⟨hrow, hcontract, id, hid, (mem_decimalTokenIdLookupKeys (hids id hid)).mpr hkey⟩,
      id, hid, ?_⟩
    rcases hkey with heq | heq
    · rw [heq]
    · rw [heq, normalizeDecimalTokenId_eq_orders, normalizeDecimalTokenId_eq_orders,
        Orders.normalizeDecimalTokenId_idem]

end Lookup

end DecimalTokenId

import Tokenable.Js.Number
import Tokenable.Js.OrderedMap
import Tokenable.Settlement.Eligibility
import Tokenable.Redeem.Request
import Tokenable.Redeem.RegistryHeal
import Tokenable.Vault.CycleService

/-!
# The row that a redemption finds under a token id

Five steps of a redemption look a token up by its decimal id: the check that it can be redeemed, the
deposit date that decides the early-withdrawal fee, the paid redemption row, the burn after the receipt
and the record of that burn. The first and the third compare ids without their leading zeros. The
others compare them as texts, two of them after the id has been a number.
-/

namespace TokenSpelling
open Js Platform Async Vault Redeem Backend
open Orders (normalizeDecimalTokenId)

section Deposits

structure DepositRecord where
  depositedAt : Option ℕ
  cycleId : JsStr
  status : CycleStatus
  deriving DecidableEq

/-- What the lookup says of a token whose cycle is among those it has read. -/
def depositRecord (cycles : List VaultCycle) (t : RwaToken) : Option DepositRecord :=
  if truthy t.vaultCycleId then
    (cycles.find? fun c => c.id = t.vaultCycleId.getD []).map fun c =>
      ⟨c.depositedAt, c.id, c.status⟩
  else none

def setDeposit (cycles : List VaultCycle) (out : OrderedMap JsStr DepositRecord) (t : RwaToken) :
    OrderedMap JsStr DepositRecord :=
  match depositRecord cycles t with
  | some record => out.set t.tokenId record
  | none => out

def depositTokens (g : Registry) (tokenContract : JsStr) (tokenIds : List JsStr) : List RwaToken :=
  g.tokens.find fun t => t.tokenContract = tokenContract && t.tokenId ∈ tokenIds

def getDepositedAtByTokenIds (g : Registry) (tokenContract : JsStr) (tokenIds : List JsStr) :
    OrderedMap JsStr DepositRecord :=
  let tokens := depositTokens g tokenContract tokenIds
  let cycleIds := (tokens.filterMap RwaToken.vaultCycleId).filter fun id => !id.isEmpty
  let cycles := g.cycles.find fun c => c.id ∈ cycleIds
  tokens.foldl (setDeposit cycles) .empty

end Deposits

section Burn

inductive Cmd where
  | findToken (contract tokenId : JsStr)
  | findOpenRedemptionForCycle (cycleId : JsStr)
  | cancelActiveOrdersForToken (contract : JsStr) (tokenId : ℕ)
  | getRwaTokenOwner (tokenId : ℕ)
  | syncTokenFromChain (tokenId : ℕ)
  | adminBurn (tokenId : ℕ) (expectedOwner : JsStr)
  | completeRedemptionBurn (p : Cycles.BurnRecord)
  | refreshCurrentSlotSnapshot (owner : JsStr)

abbrev Res : Cmd → Type
  | .findToken .. => Except HttpError (Option RwaToken)
  | .findOpenRedemptionForCycle _ => Except HttpError (Option VaultRedemption)
  | .cancelActiveOrdersForToken .. => Except HttpError (List JsStr)
  | .getRwaTokenOwner _ => Except HttpError JsStr
  | .syncTokenFromChain _ => Except HttpError Unit
  | .adminBurn .. => Except HttpError JsStr
  | .completeRedemptionBurn _ => Except HttpError Unit
  | .refreshCurrentSlotSnapshot _ => Except HttpError Unit

abbrev M := Prog Cmd Res HttpError

def perform (c : Cmd) : M (Res c) := .call c fun r => .ret (.ok r)

def orThrowAnswer {α : Type} (p : M (Except HttpError α)) : M α := do
  let r ← p
  Prog.ret r

def refundText : RefundStatus → JsStr
  | .none => js "none"
  | .usdcRefunded => js "usdc_refunded"
  | .nftReturned => js "nft_returned"
  | .fullyRefunded => js "fully_refunded"

/-- `Math.floor(Number(tokenId))` of a number that is not negative; `none` is `Infinity`. -/
def validTokenId (tokenId : Option ℕ) : M ℕ := Prog.orThrow (.badRequest (js "Invalid tokenId")) tokenId

def assertNotRefunding (tid : ℕ) (openRedeem : VaultRedemption) : M Unit := do
  Prog.throwIf (openRedeem.refundStatus ≠ .none)
    (.badRequest (js "Token #" ++ numberText tid ++ js " redeem refund is in progress (refundStatus=" ++
      refundText openRedeem.refundStatus ++ js ") — burn is blocked"))
  Prog.throwIf (openRedeem.status ≠ .inCustody && openRedeem.status ≠ .burned &&
      openRedeem.status ≠ .vaultReleasePending)
    (.badRequest (js "Token #" ++ numberText tid ++ js " redeem is " ++ openRedeem.status.text ++
      js " — wait until NFT is in custody (in_custody) before burning"))

def assertBurnable (tid : ℕ) : Option RwaToken → M Unit
  | none => pure ()
  | some existing => do
    Prog.throwIf existing.burnedAt.isSome
      (.badRequest (js "Token #" ++ numberText tid ++ js " is already marked burned (" ++
        existing.burnTxHash.getD (js "no tx hash") ++ js ")"))
    if truthy existing.vaultCycleId then do
      let found ← orThrowAnswer (perform (.findOpenRedemptionForCycle (existing.vaultCycleId.getD [])))
      match found with
      | some openRedeem => assertNotRefunding tid openRedeem
      | none => pure ()
    else pure ()

def ownerError (tid : ℕ) (e : HttpError) : HttpError :=
  if contains (js "does not exist") e.message then
    .badRequest (js "Token #" ++ numberText tid ++ js " is not minted on chain (may already be burned).")
  else
    .badRequest (js "Could not resolve on-chain owner for token #" ++ numberText tid ++ js ": " ++
      e.message)

def expectedOwner (tid : ℕ) : M JsStr := do
  let owner ← perform (.getRwaTokenOwner tid)
  match owner with
  | .ok address => pure address
  | .error e => throw (ownerError tid e)

def burnTokenOnChain (contract : JsStr) (tokenId : Option ℕ) : M (JsStr × List JsStr) := do
  Prog.throwIf contract.isEmpty (.badRequest (js "RWA contract not configured"))
  let tid ← validTokenId tokenId
  let existing ← orThrowAnswer (perform (.findToken contract (numberText tid)))
  assertBurnable tid existing
  let cancelledOrderHashes ← orThrowAnswer (perform (.cancelActiveOrdersForToken contract tid))
  let owner ← expectedOwner tid
  orThrowAnswer (perform (.syncTokenFromChain tid))
  let txHash ← orThrowAnswer (perform (.adminBurn tid owner))
  orThrowAnswer (perform (.completeRedemptionBurn ⟨contract, numberText tid, txHash, some owner⟩))
  if owner.isEmpty then pure () else orThrowAnswer (perform (.refreshCurrentSlotSnapshot owner))
  pure (txHash, cancelledOrderHashes)

structure BurnOutcome where
  txHash : Option JsStr
  alreadyBurned : Bool
  cancelledOrderHashes : List JsStr

def ensureBurnedForRedeem (contract : JsStr) (tokenId : Option ℕ) : M BurnOutcome := do
  Prog.throwIf contract.isEmpty (.badRequest (js "RWA contract not configured"))
  let tid ← validTokenId tokenId
  let existing ← orThrowAnswer (perform (.findToken contract (numberText tid)))
  match existing.filter fun t => t.burnedAt.isSome with
  | some t => pure ⟨t.burnTxHash, true, []⟩
  | none => do
    let result ← burnTokenOnChain contract (some tid)
    pure ⟨some result.1, false, result.2⟩

end Burn

section Resolve

/-- The row that the first command of a program finds, when that command looks one up. -/
def foundFirst {C : Type} {R : C → Type} {ε α : Type} (lookup : C → Option RwaToken) :
    Prog C R ε α → Option RwaToken
  | .call c _ => lookup c
  | .ret _ => none

variable (g : Registry)

/-- `findOne` of a contract and a token id as texts. -/
def exactRow (tokenContract tokenId : JsStr) : Option RwaToken :=
  g.tokens.rows.find? fun t => t.tokenContract = tokenContract && t.tokenId = tokenId

/-- `getOne` of the rows that `applyDecimalTokenIdMatch` selects. -/
def decimalRow (tokenContract tokenId : JsStr) : Option RwaToken :=
  g.tokens.rows.find? (matchesDecimalIds tokenContract [tokenId])

def redeemableRow (tokenContract tokenId : JsStr) : Option RwaToken :=
  byNorm (findRwaTokensByDecimalIds g.tokens tokenContract (decimalIds [tokenId]))
    (normalizeDecimalTokenId tokenId)

/-- The row whose record the lookup keeps under the id. -/
def depositedRow (tokenContract tokenId : JsStr) : Option RwaToken :=
  ((depositTokens g tokenContract [tokenId]).filter fun t => t.tokenId = tokenId).getLast?

def lockLookup : BackendCmd → Option RwaToken
  | .inl (.inTx (.lockToken tokenContract tokenId)) => decimalRow g tokenContract tokenId
  | _ => none

def burnLookup : Cmd → Option RwaToken
  | .findToken tokenContract tokenId => exactRow g tokenContract tokenId
  | _ => none

def cycleLookup : Cycles.Cmd → Option RwaToken
  | .findToken tokenContract tokenId => exactRow g tokenContract tokenId
  | _ => none

/-- Every step of a redemption of `tokenId` finds the row. -/
structure Resolves (tokenContract tokenId : JsStr) (row : RwaToken) : Prop where
  redeemable : redeemableRow g tokenContract tokenId = some row
  deposited : depositedRow g tokenContract tokenId = some row
  paid : ∀ owner, foundFirst (lockLookup g) (lockRedeemableToken ⟨tokenContract, tokenId, owner⟩) =
    some row
  burnt : foundFirst (burnLookup g) (ensureBurnedForRedeem tokenContract (numberOf tokenId)) = some row
  recorded : ∀ txHash owner, foundFirst (cycleLookup g)
    (Cycles.completeRedemptionBurn ⟨tokenContract, tokenId, txHash, owner⟩) = some row

/-- The rows of the contract that have the number. -/
def sameToken (tokenContract tokenId : JsStr) (t : RwaToken) : Bool :=
  lower t.tokenContract = lower tokenContract && (isDigits t.tokenId && toNat t.tokenId = toNat tokenId)

def respelled (tokenId : JsStr) : Option JsStr := (numberOf tokenId).map numberText

variable {g} {tokenContract tokenId : JsStr}

theorem matchesDecimalIds_eq (hid : isDigits tokenId = true) (t : RwaToken) :
    matchesDecimalIds tokenContract [tokenId] t = sameToken tokenContract tokenId t := by
  have htrim : trim tokenId = tokenId := trim_of_isDigits hid
  have hid' : isDigits (trim tokenId) = true := by rw [htrim, hid]
  have hne : tokenId.isEmpty = false := by
    rw [isDigits, Bool.and_eq_true, Bool.not_eq_true'] at hid
    exact hid.1
  have hkeys : ∀ k ∈ decimalTokenIdLookupKeys tokenId, isDigits k = true ∧ toNat k = toNat tokenId := by
    intro k hk
    simp only [decimalTokenIdLookupKeys, htrim, hne, Bool.false_eq_true, if_false, List.mem_eraseDups,
      List.mem_cons, List.not_mem_nil, or_false] at hk
    rcases hk with rfl | rfl
    · exact ⟨hid, rfl⟩
    · exact ⟨Orders.isDigits_normalizeDecimalTokenId hid', by
        rw [Orders.toNat_normalizeDecimalTokenId hid', htrim]⟩
  rw [Bool.eq_iff_iff]
  simp only [matchesDecimalIds, sameToken, List.flatMap_cons, List.flatMap_nil, List.append_nil,
    List.map_cons, List.map_nil, Bool.and_eq_true, Bool.or_eq_true, decide_eq_true_eq,
    List.mem_eraseDups, List.mem_singleton]
  constructor
  · rintro ⟨hcontract, hkey | ⟨hdigits, hnorm⟩⟩
    · exact ⟨hcontract, hkeys _ hkey⟩
    · have ht : isDigits (trim t.tokenId) = true := by rw [trim_of_isDigits hdigits, hdigits]
      have hnat := (Orders.normalizeDecimalTokenId_eq_iff ht hid').mp hnorm
      rw [trim_of_isDigits hdigits, htrim] at hnat
      exact ⟨hcontract, hdigits, hnat⟩
  · rintro ⟨hcontract, hdigits, hnat⟩
    have ht : isDigits (trim t.tokenId) = true := by rw [trim_of_isDigits hdigits, hdigits]
    refine ⟨hcontract, .inr ⟨hdigits, (Orders.normalizeDecimalTokenId_eq_iff ht hid').mpr ?_⟩⟩
    rw [trim_of_isDigits hdigits, htrim, hnat]

theorem exactRow_eq_some {row : RwaToken} : exactRow g tokenContract tokenId = some row ↔
    row ∈ g.tokens.rows ∧ row.tokenContract = tokenContract ∧ row.tokenId = tokenId := by
  have hget : exactRow g tokenContract tokenId = g.tokens.get (tokenContract, tokenId) := by
    unfold exactRow Db.Table.get
    congr 1
    funext t
    rw [Bool.eq_iff_iff]
    simp [RwaToken.key]
  rw [hget, Db.Table.get_eq_some, RwaToken.key, Prod.mk.injEq]

theorem eq_singleton_of_head?_getLast? {α : Type} {l : List α} {a : α} (hnodup : l.Nodup)
    (hhead : l.head? = some a) (hlast : l.getLast? = some a) : l = [a] := by
  cases l with
  | nil => cases hhead
  | cons b l =>
    obtain rfl : b = a := Option.some.inj hhead
    by_cases hl : l = []
    · rw [hl]
    · have hmem : b ∈ l := by
        rw [List.getLast?_cons_of_ne_nil hl] at hlast
        exact List.mem_of_getLast? hlast
      exact absurd hmem (List.nodup_cons.mp hnodup).1

theorem eq_singleton_of_unique {α : Type} {l : List α} {a : α} (hnodup : l.Nodup) (hmem : a ∈ l)
    (hall : ∀ b ∈ l, b = a) : l = [a] := by
  cases l with
  | nil => exact absurd hmem List.not_mem_nil
  | cons b l =>
    obtain rfl := hall b List.mem_cons_self
    have hnil : l = [] := by
      rw [List.eq_nil_iff_forall_not_mem]
      intro c hc
      rw [hall c (List.mem_cons_of_mem _ hc)] at hc
      exact (List.nodup_cons.mp hnodup).1 hc
    rw [hnil]

theorem decimalIds_single (hid : isDigits tokenId = true) : decimalIds [tokenId] = [tokenId] := by
  rw [decimalIds, List.map_singleton, trim_of_isDigits hid, eraseDups_of_nodup (List.nodup_singleton _),
    List.filter_cons_of_pos hid, List.filter_nil]

theorem findRwaTokensByDecimalIds_single (hid : isDigits tokenId = true) :
    findRwaTokensByDecimalIds g.tokens tokenContract [tokenId] =
      g.tokens.rows.filter (sameToken tokenContract tokenId) := by
  have hids : (([tokenId].map trim).filter isDigits).eraseDups = [tokenId] := by
    rw [List.map_singleton, trim_of_isDigits hid, List.filter_cons_of_pos hid, List.filter_nil,
      eraseDups_of_nodup (List.nodup_singleton _)]
  have hmatch : matchesDecimalIds tokenContract [tokenId] = sameToken tokenContract tokenId :=
    funext fun t => matchesDecimalIds_eq hid t
  rw [findRwaTokensByDecimalIds, hids, hmatch]
  rfl

/-- The check takes the last row of the number. -/
theorem redeemableRow_eq (hid : isDigits tokenId = true) :
    redeemableRow g tokenContract tokenId =
      (g.tokens.rows.filter (sameToken tokenContract tokenId)).getLast? := by
  have hid' : isDigits (trim tokenId) = true := by rw [trim_of_isDigits hid, hid]
  rw [redeemableRow, decimalIds_single hid, findRwaTokensByDecimalIds_single hid, byNorm]
  congr 1
  rw [List.filter_eq_self]
  intro t ht
  have hsame := (List.mem_filter.mp ht).2
  simp only [sameToken, Bool.and_eq_true, decide_eq_true_eq] at hsame
  obtain ⟨-, hdigits, hnat⟩ := hsame
  have ht' : isDigits (trim t.tokenId) = true := by rw [trim_of_isDigits hdigits, hdigits]
  rw [decide_eq_true_eq, Orders.normalizeDecimalTokenId_eq_iff ht' hid', trim_of_isDigits hdigits,
    trim_of_isDigits hid, hnat]

/-- The paid row is the first row of the number. -/
theorem decimalRow_eq (hid : isDigits tokenId = true) :
    decimalRow g tokenContract tokenId =
      (g.tokens.rows.filter (sameToken tokenContract tokenId)).head? := by
  have hmatch : matchesDecimalIds tokenContract [tokenId] = sameToken tokenContract tokenId :=
    funext fun t => matchesDecimalIds_eq hid t
  rw [decimalRow, hmatch, List.head?_filter]

theorem depositedRow_eq : depositedRow g tokenContract tokenId = exactRow g tokenContract tokenId := by
  have hmem : ∀ t, t ∈ (depositTokens g tokenContract [tokenId]).filter (fun t => t.tokenId = tokenId) ↔
      exactRow g tokenContract tokenId = some t := by
    intro t
    rw [exactRow_eq_some, List.mem_filter, depositTokens, Db.Table.mem_find]
    simp only [Bool.and_eq_true, decide_eq_true_eq, List.mem_singleton]
    tauto
  have hnodup : ((depositTokens g tokenContract [tokenId]).filter fun t => t.tokenId = tokenId).Nodup :=
    ((List.Nodup.of_map RwaToken.key g.tokens.nodup).filter _).filter _
  cases hrow : exactRow g tokenContract tokenId with
  | none =>
    have hnil : (depositTokens g tokenContract [tokenId]).filter (fun t => t.tokenId = tokenId) = [] := by
      rw [List.eq_nil_iff_forall_not_mem]
      intro t ht
      rw [hmem, hrow] at ht
      cases ht
    rw [depositedRow, hnil]
    rfl
  | some row =>
    have hsingle := eq_singleton_of_unique hnodup ((hmem row).mpr hrow) (fun t ht => by
      rw [hmem, hrow] at ht
      exact (Option.some.inj ht).symm)
    rw [depositedRow, hsingle]
    rfl

/-- The burn looks up the text of the number. -/
theorem foundFirst_ensureBurnedForRedeem (n : Option ℕ) :
    foundFirst (burnLookup g) (ensureBurnedForRedeem tokenContract n) =
      if tokenContract.isEmpty then none
      else n.bind fun tid => exactRow g tokenContract (numberText tid) := by
  rw [ensureBurnedForRedeem]
  by_cases hcontract : tokenContract.isEmpty
  · rw [hcontract]
    rfl
  · rw [Bool.not_eq_true] at hcontract
    rw [hcontract]
    cases n with
    | none => rfl
    | some tid => rfl

/-- The check of one id is the check of its row. -/
theorem assertTokensRedeemable_single (hid : isDigits tokenId = true) :
    assertTokensRedeemable g tokenContract [tokenId] =
      g.check tokenId (redeemableRow g tokenContract tokenId) := by
  rw [assertTokensRedeemable, redeemableRow, decimalIds_single hid]
  change (g.check tokenId _ >>= fun _ => Except.ok ()) = _
  cases g.check tokenId (byNorm (findRwaTokensByDecimalIds g.tokens tokenContract [tokenId])
      (normalizeDecimalTokenId tokenId)) with
  | error e => rfl
  | ok a => rfl

theorem depositRecord_congr {cycles cycles' : List VaultCycle} {t : RwaToken}
    (h : ∀ id, t.vaultCycleId = some id → id.isEmpty = false →
      (cycles.find? fun c => c.id = id) = cycles'.find? fun c => c.id = id) :
    depositRecord cycles t = depositRecord cycles' t := by
  unfold depositRecord
  cases hid : t.vaultCycleId with
  | none => rfl
  | some id =>
    by_cases hempty : id.isEmpty
    · simp [truthy, hempty]
    · rw [Bool.not_eq_true] at hempty
      rw [Option.getD_some, h id hid hempty]

/-- The deposit of one id is the one of its row. -/
theorem getDepositedAtByTokenIds_single :
    (getDepositedAtByTokenIds g tokenContract [tokenId]).get? tokenId =
      (depositedRow g tokenContract tokenId).bind (depositRecord g.cycles.rows) := by
  have hall : ∀ t ∈ depositTokens g tokenContract [tokenId], t.tokenId = tokenId := by
    intro t ht
    rw [depositTokens, Db.Table.mem_find, Bool.and_eq_true, decide_eq_true_eq, decide_eq_true_eq] at ht
    exact List.mem_singleton.mp ht.2.2
  have hself : (depositTokens g tokenContract [tokenId]).filter (fun t => t.tokenId = tokenId) =
      depositTokens g tokenContract [tokenId] :=
    List.filter_eq_self.mpr fun t ht => decide_eq_true (hall t ht)
  rw [getDepositedAtByTokenIds]
  cases hrow : exactRow g tokenContract tokenId with
  | none =>
    have hnil : depositTokens g tokenContract [tokenId] = [] := by
      rw [← depositedRow_eq, depositedRow, hself, List.getLast?_eq_none_iff] at hrow
      exact hrow
    rw [depositedRow_eq, hrow, hnil]
    rfl
  | some row =>
    have hsingle : depositTokens g tokenContract [tokenId] = [row] := by
      apply eq_singleton_of_unique
      · exact (List.Nodup.of_map RwaToken.key g.tokens.nodup).filter _
      · rw [← depositedRow_eq, depositedRow, hself] at hrow
        exact List.mem_of_getLast? hrow
      · intro t ht
        obtain ⟨hmem, hcontract, hid⟩ := exactRow_eq_some.mp hrow
        have ht' := ht
        rw [depositTokens, Db.Table.mem_find, Bool.and_eq_true, decide_eq_true_eq] at ht'
        apply List.inj_on_of_nodup_map g.tokens.nodup ht'.1 hmem
        rw [RwaToken.key, RwaToken.key, ht'.2.1, hall t ht, hcontract, hid]
    have hid : row.tokenId = tokenId := (exactRow_eq_some.mp hrow).2.2
    have hcycles : depositRecord (g.cycles.find fun c =>
        c.id ∈ ([row].filterMap RwaToken.vaultCycleId).filter fun id => !id.isEmpty) row =
        depositRecord g.cycles.rows row := by
      apply depositRecord_congr
      intro id hcycle hempty
      rw [Db.Table.find, List.find?_filter]
      congr 1
      funext c
      simp only [List.filterMap_cons, hcycle, List.filterMap_nil, List.mem_filter, List.mem_singleton,
        Bool.not_eq_true']
      by_cases hc : c.id = id
      · simp [hc, hempty]
      · simp [hc]
    rw [depositedRow_eq, hrow, hsingle, List.foldl_cons, List.foldl_nil, setDeposit, hcycles,
      Option.bind_some]
    cases depositRecord g.cycles.rows row with
    | none => rfl
    | some record => rw [hid, OrderedMap.get?_set_self]

/-- Every row that the burn looks up or records is the one under the text of the number. -/
def Names (tokenContract tokenId : JsStr) : Cmd → Prop
  | .findToken contract id => contract = tokenContract ∧ id = tokenId
  | .completeRedemptionBurn p => p.tokenContract = tokenContract ∧ p.tokenId = tokenId
  | _ => True

theorem names_orThrowAnswer {α : Type} {p : M (Except HttpError α)}
    (hp : p.Issues (Names tokenContract tokenId)) :
    (orThrowAnswer p).Issues (Names tokenContract tokenId) :=
  Prog.issues_bind hp fun _ => Prog.issues_ret _

theorem names_assertBurnable (tid : ℕ) (existing : Option RwaToken) :
    (assertBurnable tid existing).Issues (Names tokenContract tokenId) := by
  cases existing with
  | none => exact Prog.issues_ret _
  | some existing =>
    apply Prog.issues_bind (Prog.issues_throwIf _ _)
    intro _
    split_ifs with hcycle
    · have hnames : Names tokenContract tokenId
          (.findOpenRedemptionForCycle (existing.vaultCycleId.getD [])) := trivial
      apply Prog.issues_bind (names_orThrowAnswer (Prog.issues_call hnames))
      intro found
      cases found with
      | none => exact Prog.issues_ret _
      | some openRedeem =>
        exact Prog.issues_bind (Prog.issues_throwIf _ _) fun _ => Prog.issues_throwIf _ _
    · exact Prog.issues_ret _

theorem validTokenId_some (tid : ℕ) : validTokenId (some tid) = pure tid := rfl

theorem names_burnTokenOnChain (tid : ℕ) : (burnTokenOnChain tokenContract (some tid)).Issues
    (Names tokenContract (numberText tid)) := by
  rw [burnTokenOnChain, validTokenId_some]
  apply Prog.issues_bind (Prog.issues_throwIf _ _)
  intro _
  rw [Prog.pure_bind_eq]
  have hfind : Names tokenContract (numberText tid) (.findToken tokenContract (numberText tid)) :=
    ⟨rfl, rfl⟩
  apply Prog.issues_bind (names_orThrowAnswer (Prog.issues_call hfind))
  intro existing
  apply Prog.issues_bind (names_assertBurnable tid existing)
  intro _
  have horders : Names tokenContract (numberText tid) (.cancelActiveOrdersForToken tokenContract tid) :=
    trivial
  apply Prog.issues_bind (names_orThrowAnswer (Prog.issues_call horders))
  intro hashes
  have howner : Names tokenContract (numberText tid) (.getRwaTokenOwner tid) := trivial
  apply Prog.issues_bind
  · apply Prog.issues_bind (Prog.issues_call howner)
    intro owner
    cases owner with
    | ok address => exact Prog.issues_ret _
    | error e => exact Prog.issues_ret _
  · intro owner
    have hsync : Names tokenContract (numberText tid) (.syncTokenFromChain tid) := trivial
    apply Prog.issues_bind (names_orThrowAnswer (Prog.issues_call hsync))
    intro _
    have hburn : Names tokenContract (numberText tid) (.adminBurn tid owner) := trivial
    apply Prog.issues_bind (names_orThrowAnswer (Prog.issues_call hburn))
    intro txHash
    have hrecord : Names tokenContract (numberText tid)
        (.completeRedemptionBurn ⟨tokenContract, numberText tid, txHash, some owner⟩) := ⟨rfl, rfl⟩
    apply Prog.issues_bind (names_orThrowAnswer (Prog.issues_call hrecord))
    intro _
    have hrefresh : Names tokenContract (numberText tid) (.refreshCurrentSlotSnapshot owner) := trivial
    split_ifs with hempty
    · exact Prog.issues_ret _
    · exact Prog.issues_bind (names_orThrowAnswer (Prog.issues_call hrefresh)) fun _ => Prog.issues_ret _

theorem ensureBurnedForRedeem_names (tid : ℕ) :
    (ensureBurnedForRedeem tokenContract (some tid)).Issues (Names tokenContract (numberText tid)) := by
  rw [ensureBurnedForRedeem, validTokenId_some]
  apply Prog.issues_bind (Prog.issues_throwIf _ _)
  intro _
  rw [Prog.pure_bind_eq]
  have hfind : Names tokenContract (numberText tid) (.findToken tokenContract (numberText tid)) :=
    ⟨rfl, rfl⟩
  apply Prog.issues_bind (names_orThrowAnswer (Prog.issues_call hfind))
  intro existing
  cases existing.filter fun t => t.burnedAt.isSome with
  | some t => exact Prog.issues_ret _
  | none => exact Prog.issues_bind (names_burnTokenOnChain tid) fun _ => Prog.issues_ret _

/-- Where all ids are digits, the row that a transaction locks is the one of the decimal lookup. -/
theorem findRwaToken_eq (hid : isDigits tokenId = true)
    (hrows : ∀ t ∈ g.tokens.rows, isDigits t.tokenId = true) (db : Settlement.Ledger)
    (htokens : db.tokens = g.tokens.rows) :
    Settlement.findRwaToken db tokenContract tokenId = decimalRow g tokenContract tokenId := by
  have hid' : isDigits (trim tokenId) = true := by rw [trim_of_isDigits hid, hid]
  rw [Settlement.findRwaToken, decimalRow, htokens, ← List.head?_filter, ← List.head?_filter]
  congr 1
  apply List.filter_congr
  intro t ht
  have hdigits := hrows t ht
  have ht' : isDigits (trim t.tokenId) = true := by rw [trim_of_isDigits hdigits, hdigits]
  rw [matchesDecimalIds_eq hid, Bool.eq_iff_iff]
  simp only [sameToken, hdigits, Bool.and_eq_true, decide_eq_true_eq, true_and,
    Orders.normalizeDecimalTokenId_eq_iff ht' hid', trim_of_isDigits hdigits, trim_of_isDigits hid]

theorem head?_ofNat {n : ℕ} (hn : 0 < n) : (ofNat n).head? ≠ some '0' := by
  induction n using Nat.strongRecOn with
  | ind n ih =>
    by_cases hlt : n < 10
    · have hdigit : ∀ m < 10, 0 < m → [Nat.digitChar m].head? ≠ some '0' := by decide
      rw [ofNat, Nat.toDigits_of_lt_base hlt]
      exact hdigit n hlt hn
    · have hdiv : 0 < n / 10 := Nat.div_pos (not_lt.mp hlt) (by omega)
      have hne : Nat.toDigits 10 (n / 10) ≠ [] := Nat.toDigits_ne_nil
      rw [ofNat, Nat.toDigits_of_base_le (by omega) (not_lt.mp hlt), List.head?_append_of_ne_nil _ hne]
      exact ih (n / 10) (by omega) hdiv

theorem normalizeDecimalTokenId_ofNat (n : ℕ) : normalizeDecimalTokenId (ofNat n) = ofNat n := by
  have htrim : trim (ofNat n) = ofNat n := trim_of_isDigits (isDigits_ofNat n)
  by_cases hn : n = 0
  · rw [hn]
    decide
  · have hdrop : (ofNat n).dropWhile (· = '0') = ofNat n := by
      cases hofNat : ofNat n with
      | nil => rfl
      | cons c cs =>
        have hc : c ≠ '0' := by
          have hhead := head?_ofNat (Nat.pos_of_ne_zero hn)
          rw [hofNat] at hhead
          exact fun h => hhead (congrArg some h)
        rw [List.dropWhile_cons_of_neg (by simp [hc])]
    have hne : ofNat n ≠ [] := Nat.toDigits_ne_nil
    rw [normalizeDecimalTokenId, htrim, isDigits_ofNat, hdrop]
    cases hofNat : ofNat n with
    | nil => exact absurd hofNat hne
    | cons c cs => rfl

/-- A number below `2 ^ 53` is spelled without leading zeros. -/
theorem respelled_iff (hid : isDigits tokenId = true) (hsafe : toNat tokenId < 2 ^ 53) :
    respelled tokenId = some tokenId ↔ normalizeDecimalTokenId tokenId = tokenId := by
  have hid' : isDigits (trim tokenId) = true := by rw [trim_of_isDigits hid, hid]
  have hofNat : isDigits (trim (ofNat (toNat tokenId))) = true := by
    rw [trim_of_isDigits (isDigits_ofNat _), isDigits_ofNat]
  have hnorm : normalizeDecimalTokenId tokenId = ofNat (toNat tokenId) := by
    rw [← normalizeDecimalTokenId_ofNat (toNat tokenId),
      Orders.normalizeDecimalTokenId_eq_iff hid' hofNat, trim_of_isDigits hid,
      trim_of_isDigits (isDigits_ofNat _), toNat_ofNat]
  rw [respelled, numberOf_of_lt hsafe, Option.map_some, numberText_of_lt hsafe, Option.some.injEq, hnorm]

/-- The steps all find the row exactly when the id is asked for as the row spells it, that spelling is
the one of the number, and no other row of the contract has the number. -/
theorem resolves_iff {row : RwaToken} (hrow : row ∈ g.tokens.rows)
    (hcontract : row.tokenContract = tokenContract) (hconfigured : tokenContract.isEmpty = false)
    (hdigits : isDigits row.tokenId = true) (hid : isDigits tokenId = true)
    (hsame : toNat tokenId = toNat row.tokenId) :
    Resolves g tokenContract tokenId row ↔
      tokenId = row.tokenId ∧ respelled tokenId = some tokenId ∧
        ∀ t ∈ g.tokens.rows, sameToken tokenContract tokenId t = true → t = row := by
  have hnodup : (g.tokens.rows.filter (sameToken tokenContract tokenId)).Nodup :=
    (List.Nodup.of_map RwaToken.key g.tokens.nodup).filter _
  have hmem : row ∈ g.tokens.rows.filter (sameToken tokenContract tokenId) := by
    rw [List.mem_filter]
    simp [sameToken, hrow, hcontract, hdigits, hsame]
  constructor
  · intro h
    have hrecorded : exactRow g tokenContract tokenId = some row := h.recorded [] none
    obtain ⟨-, -, hspelled⟩ := exactRow_eq_some.mp hrecorded
    have hburnt := h.burnt
    rw [foundFirst_ensureBurnedForRedeem, hconfigured, if_neg Bool.false_ne_true] at hburnt
    obtain ⟨tid, htid, hexact⟩ := Option.bind_eq_some_iff.mp hburnt
    obtain ⟨-, -, hnumber⟩ := exactRow_eq_some.mp hexact
    have hlast := h.redeemable
    rw [redeemableRow_eq hid] at hlast
    have hhead : decimalRow g tokenContract tokenId = some row := h.paid []
    rw [decimalRow_eq hid] at hhead
    have hsingle := eq_singleton_of_head?_getLast? hnodup hhead hlast
    refine ⟨hspelled.symm, ?_, ?_⟩
    · rw [respelled, htid, Option.map_some, ← hnumber, hspelled]
    · intro t ht hst
      have htmem := List.mem_filter.mpr ⟨ht, hst⟩
      rw [hsingle] at htmem
      exact List.mem_singleton.mp htmem
  · rintro ⟨hspelled, hnumber, hunique⟩
    have hsingle := eq_singleton_of_unique hnodup hmem (fun t ht =>
      hunique t (List.mem_filter.mp ht).1 (List.mem_filter.mp ht).2)
    have hexact : exactRow g tokenContract tokenId = some row :=
      exactRow_eq_some.mpr ⟨hrow, hcontract, hspelled.symm⟩
    obtain ⟨tid, htid, htext⟩ := Option.map_eq_some_iff.mp hnumber
    refine ⟨?_, ?_, fun owner => ?_, ?_, fun txHash owner => hexact⟩
    · rw [redeemableRow_eq hid, hsingle]
      rfl
    · rw [depositedRow_eq, hexact]
    · change decimalRow g tokenContract tokenId = some row
      rw [decimalRow_eq hid, hsingle]
      rfl
    · rw [foundFirst_ensureBurnedForRedeem, hconfigured, if_neg Bool.false_ne_true, htid,
        Option.bind_some, htext, hexact]

end Resolve

section Padded

def paddedContract : JsStr := js "0x" ++ List.replicate 40 'c'

/-- The mint stored the id with a leading zero. -/
def paddedToken : RwaToken where
  tokenContract := paddedContract
  tokenId := js "040"
  vaultCycleId := some (js "cycle")

def plainToken : RwaToken := { paddedToken with tokenId := js "40" }

def depositedCycle : VaultCycle where
  id := js "cycle"
  vaultAssetId := js "asset"
  chainId := 1
  cycleNumber := 1
  status := .minted
  depositedAt := some 1

def registryOf (t : RwaToken) : Registry where
  tokens := ⟨[t], List.nodup_singleton _⟩
  cycles := ⟨[depositedCycle], List.nodup_singleton _⟩
  assets := []

theorem resolves_forty : Resolves (registryOf plainToken) paddedContract (js "40") plainToken := by
  have hrow : plainToken ∈ (registryOf plainToken).tokens.rows := List.mem_singleton_self _
  have hdigits : isDigits plainToken.tokenId = true := by decide
  have hid : isDigits (js "40") = true := by decide
  have hsafe : toNat (js "40") < 2 ^ 53 := by decide
  have hrespelled : respelled (js "40") = some (js "40") := by
    rw [respelled_iff hid hsafe]
    decide
  apply (resolves_iff hrow rfl rfl hdigits hid rfl).mpr
  exact ⟨rfl, hrespelled, fun t ht _ => List.mem_singleton.mp ht⟩

/-- The check finds the row stored as `040` under `40`; the deposit lookup, the burn and its record do
not. -/
theorem padded_forty :
    ¬ (∀ (g : Registry) (tokenContract tokenId : JsStr) (row : RwaToken), row ∈ g.tokens.rows →
      row.tokenContract = tokenContract → tokenContract.isEmpty = false →
      isDigits row.tokenId = true → isDigits tokenId = true → toNat tokenId = toNat row.tokenId →
      Resolves g tokenContract tokenId row) ∧
    assertTokensRedeemable (registryOf paddedToken) paddedContract [js "40"] = .ok () ∧
    (getDepositedAtByTokenIds (registryOf paddedToken) paddedContract [js "40"]).get? (js "40") = none ∧
    exactRow (registryOf paddedToken) paddedContract (js "40") = none := by
  have hmissing : exactRow (registryOf paddedToken) paddedContract (js "40") = none := by decide +kernel
  refine ⟨fun hall => ?_, by decide +kernel, by decide +kernel, hmissing⟩
  have hresolves := hall (registryOf paddedToken) paddedContract (js "40") paddedToken
    (List.mem_singleton_self _) rfl rfl (by decide) (by decide) rfl
  have hrecorded : exactRow (registryOf paddedToken) paddedContract (js "40") = some paddedToken :=
    hresolves.recorded [] none
  rw [hmissing] at hrecorded
  cases hrecorded

end Padded

end TokenSpelling

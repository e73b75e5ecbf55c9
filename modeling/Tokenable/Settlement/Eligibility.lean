import Tokenable.Settlement.Ledger

/-!
# Which fulfilled asks get a settlement

The live fill path asks for a full-platform-take consideration whatever the policy of the token
is. The repair path is satisfied with either: a `self_vault_hold` token or a full-platform-take
consideration. `paths_agree_iff` says exactly when this makes no difference.
-/

namespace Settlement
open Js Platform Vault Orders

def findRwaToken (db : Ledger) (tokenContract tokenId : JsStr) : Option RwaToken :=
  db.tokens.find? (fun t => lower t.tokenContract = lower tokenContract &&
    normalizeDecimalTokenId t.tokenId = normalizeDecimalTokenId tokenId)

/-- Give a row without a policy the policy of its partner vault. -/
def ensureSettlementPolicy (db : Ledger) (token : RwaToken) (policy : SettlementPolicy) : Ledger :=
  { db with tokens := db.tokens.map fun t =>
      if lower t.tokenContract = lower token.tokenContract ∧ t.tokenId = token.tokenId ∧
          t.settlementPolicy = none then { t with settlementPolicy := some policy }
      else t }

def getSettlementPolicy (db : Ledger) (tokenContract tokenId : JsStr) :
    Option SettlementPolicy × Ledger :=
  if !isDigits (trim tokenId) then (none, db)
  else
    match findRwaToken db tokenContract tokenId with
    | none => (none, db)
    | some token =>
      match token.settlementPolicy with
      | some policy => (some policy, db)
      | none =>
        if truthy (token.vaultPartnerId.map trim) then
          (some .selfVaultHold, ensureSettlementPolicy db token .selfVaultHold)
        else (none, db)

/-- The wallet and the chain that a fulfilment passes to the live path. -/
structure Fill where
  buyerWallet : JsStr
  chainId : Option ℕ := none

def Fill.filledAsk (env : Env) (fill : Fill) (ask : Order) : FilledAsk :=
  ⟨ask, fill.buyerWallet, fill.chainId.getD env.getDefaultChainId, none⟩

def stampedHold (ask : Order) : Bool :=
  trim (ask.parameters.settlementPolicy.getD []) = js "self_vault_hold"

/-- The policy stamped on the ask, or else the policy of its token. -/
def livePolicy (ask : Order) (db : Ledger) : Option SettlementPolicy × Ledger :=
  if stampedHold ask then (some .selfVaultHold, db)
  else getSettlementPolicy db ask.tokenContract (normalizeDecimalTokenId ask.tokenId)

def maybeCreateSelfVaultSettlement (env : Env) (ask : Order) (fill : Fill) (db : Ledger) :
    Ledger :=
  let (policy, db) := livePolicy ask db
  let policy := if policy ≠ some .selfVaultHold ∧ isFullPlatformTakeAsk env ask then
    some .selfVaultHold else policy
  if policy ≠ some .selfVaultHold then db
  else if !isFullPlatformTakeAsk env ask then db
  else (createFromFulfilledAsk env (fill.filledAsk env ask) db).2

def fulfilledAsks (db : Ledger) : List Order :=
  (db.orders.rows.filter (fun o => o.side = .ask && o.status = .fulfilled)).insertionSort
    (fun a b => b.updatedAt ≤ a.updatedAt)

def backfillTake : ℕ := 500

def tokenOf (db : Ledger) (ask : Order) : Option RwaToken :=
  db.tokens.find? (fun t => t.tokenContract = lower ask.tokenContract && t.tokenId = ask.tokenId)

def holdsSelfVaultPolicy (db : Ledger) (ask : Order) : Bool :=
  (tokenOf db ask).bind RwaToken.settlementPolicy = some .selfVaultHold

def repairChain (env : Env) (chainId : Option ℕ) (ask : Order) : ℕ :=
  (env.resolveChainIdFromRwaAddress ask.tokenContract).getD
    (chainId.getD env.getDefaultChainId)

/-- `params?.chainId == null || chainId === params.chainId` -/
def onRequestedChain (env : Env) (chainId : Option ℕ) (ask : Order) : Bool :=
  match chainId with
  | some c => repairChain env chainId ask = c
  | none => true

/-- The latest `marketplace_buy` holder of the token of the ask. -/
def marketplaceBuyer (db : Ledger) (ask : Order) : Option JsStr :=
  match toNumber ask.tokenId with
  | none => none
  | some tid =>
    ((db.holdings.filter fun h => h.tokenContract = lower ask.tokenContract && h.tokenId = tid &&
      h.costBasisSource = some .marketplaceBuy).insertionSort fun a b =>
        b.acquiredAt < a.acquiredAt ∨ b.acquiredAt = a.acquiredAt ∧ b.updatedAt ≤ a.updatedAt).head?.map
      PortfolioHolding.walletAddress

def repairBuyer (db : Ledger) (ask : Order) : JsStr :=
  let fromAsk := lower (trim (ask.parameters.filledByBuyer.getD []))
  if isAddress fromAsk then fromAsk
  else ((marketplaceBuyer db ask).map fun w => lower (trim w)).getD []

def repairFilledAsk (env : Env) (chainId : Option ℕ) (db : Ledger) (ask : Order) : FilledAsk :=
  ⟨ask, repairBuyer db ask, repairChain env chainId ask, none⟩

/-- One turn of the repair loop: the settlement it created, if any. -/
def backfillAsk (env : Env) (chainId : Option ℕ) (ask : Order) (db : Ledger) :
    Option SelfVaultSettlement × Ledger :=
  if (db.settlementOf ask.orderHash).isSome then (none, db)
  else if !(holdsSelfVaultPolicy db ask || isFullPlatformTakeAsk env ask) then (none, db)
  else if !onRequestedChain env chainId ask then (none, db)
  else if (repairBuyer db ask).isEmpty then (none, db)
  else createFromFulfilledAsk env (repairFilledAsk env chainId db ask) db

structure BackfillResult where
  created : ℕ
  skipped : ℕ
  items : List SelfVaultSettlement
  deriving DecidableEq

def backfillAsks (env : Env) (chainId : Option ℕ) : List Order → Ledger → BackfillResult × Ledger
  | [], db => (⟨0, 0, []⟩, db)
  | ask :: asks, db =>
    let (row, db) := backfillAsk env chainId ask db
    let (rest, db) := backfillAsks env chainId asks db
    match row with
    | some row => (⟨rest.created + 1, rest.skipped, row :: rest.items⟩, db)
    | none => (⟨rest.created, rest.skipped + 1, rest.items⟩, db)

def backfillMissingFromFulfilledAsks (env : Env) (chainId : Option ℕ) (db : Ledger) :
    BackfillResult × Ledger :=
  backfillAsks env chainId ((fulfilledAsks db).take backfillTake) db

def Repairs (env : Env) (chainId : Option ℕ) (db : Ledger) (ask : Order) : Prop :=
  ∃ row ∈ (backfillMissingFromFulfilledAsks env chainId db).1.items, row.orderHash = ask.orderHash

/-- The live path, called for the ask with `fill`, creates a settlement. -/
def Creates (env : Env) (db : Ledger) (ask : Order) (fill : Fill) : Prop :=
  db.settlementOf ask.orderHash = none ∧
    (maybeCreateSelfVaultSettlement env ask fill db).settlementOf ask.orderHash ≠ none

def repairReaches (env : Env) (chainId : Option ℕ) (db : Ledger) (ask : Order) : Prop :=
  ask ∈ (fulfilledAsks db).take backfillTake ∧ onRequestedChain env chainId ask ∧
    isAddress (lower (trim (repairBuyer db ask)))

/-- Reading the policy of a token leaves the ledger alone or gives a row its missing policy. -/
theorem getSettlementPolicy_ledger (db : Ledger) (tokenContract tokenId : JsStr) :
    (getSettlementPolicy db tokenContract tokenId).2 = db ∨
      ∃ token, (getSettlementPolicy db tokenContract tokenId).2 =
        ensureSettlementPolicy db token .selfVaultHold := by
  unfold getSettlementPolicy
  split_ifs
  · exact .inl rfl
  · cases findRwaToken db tokenContract tokenId with
    | none => exact .inl rfl
    | some token =>
      cases hpolicy : token.settlementPolicy with
      | some policy => simp [hpolicy]
      | none =>
        simp only [hpolicy]
        split_ifs
        · exact .inr ⟨token, rfl⟩
        · exact .inl rfl

theorem livePolicy_ledger (ask : Order) (db : Ledger) : (livePolicy ask db).2 = db ∨
    ∃ token, (livePolicy ask db).2 = ensureSettlementPolicy db token .selfVaultHold := by
  unfold livePolicy
  split_ifs
  · exact .inl rfl
  · exact getSettlementPolicy_ledger db _ _

theorem holdings_getSettlementPolicy (db : Ledger) (tokenContract tokenId : JsStr) :
    (getSettlementPolicy db tokenContract tokenId).2.holdings = db.holdings := by
  rcases getSettlementPolicy_ledger db tokenContract tokenId with h | ⟨token, h⟩
  · rw [h]
  · rw [h]
    rfl

theorem livePolicy_records (ask : Order) (db : Ledger) :
    (livePolicy ask db).2.holdings = db.holdings ∧
      (livePolicy ask db).2.settlements = db.settlements := by
  rcases livePolicy_ledger ask db with h | ⟨token, h⟩
  · rw [h]
    exact ⟨rfl, rfl⟩
  · rw [h]
    exact ⟨rfl, rfl⟩

theorem settlementOf_livePolicy (ask : Order) (db : Ledger) (hash : JsStr) :
    (livePolicy ask db).2.settlementOf hash = db.settlementOf hash := by
  rw [Ledger.settlementOf, (livePolicy_records ask db).2, Ledger.settlementOf]

theorem settlementOf_createFromFulfilledAsk_ne_none {env : Env} {p : FilledAsk} {db : Ledger}
    (hhash : trim p.ask.orderHash ≠ []) (h : db.settlementOf (trim p.ask.orderHash) = none) :
    (createFromFulfilledAsk env p db).2.settlementOf (trim p.ask.orderHash) ≠ none ↔
      p.accepted := by
  rw [createFromFulfilledAsk_of_unsettled hhash h]
  split_ifs with haccepted
  · simp [settlementOf_insert, h, haccepted, FilledAsk.settlement]
  · simp [h, haccepted]

/-- The live path does not depend on the policy of the token. -/
theorem creates_iff {env : Env} {db : Ledger} {ask : Order} {fill : Fill}
    (hhash : ask.orderHash ≠ [] ∧ trim ask.orderHash = ask.orderHash) :
    Creates env db ask fill ↔ db.settlementOf ask.orderHash = none ∧
      isFullPlatformTakeAsk env ask ∧ isAddress (lower (trim fill.buyerWallet)) ∧
        isPositiveMicros (resolveGrossMicros ask) := by
  unfold Creates
  refine and_congr_right fun hnone => ?_
  have hlive := settlementOf_livePolicy ask db ask.orderHash
  unfold maybeCreateSelfVaultSettlement
  rcases hpolicy : livePolicy ask db with ⟨policy, db'⟩
  rw [hpolicy, hnone] at hlive
  by_cases hfull : isFullPlatformTakeAsk env ask
  · have hpolicy' : (if policy ≠ some .selfVaultHold ∧ isFullPlatformTakeAsk env ask then
        some .selfVaultHold else policy) = some SettlementPolicy.selfVaultHold := by
      by_cases hhold : policy = some .selfVaultHold
      · simp [hhold]
      · simp [hhold, hfull]
    have hcreate : (createFromFulfilledAsk env (fill.filledAsk env ask) db').2.settlementOf
        ask.orderHash ≠ none ↔ (fill.filledAsk env ask).accepted := by
      have hne : trim (fill.filledAsk env ask).ask.orderHash ≠ [] := hhash.2.symm ▸ hhash.1
      have := @settlementOf_createFromFulfilledAsk_ne_none env _ _ hne (hhash.2.symm ▸ hlive)
      rwa [show trim (fill.filledAsk env ask).ask.orderHash = ask.orderHash from hhash.2] at this
    dsimp only
    rw [hpolicy', if_neg (not_not.mpr rfl), hfull, Bool.not_true, if_neg Bool.false_ne_true, hcreate]
    simp [FilledAsk.accepted, Fill.filledAsk]
  · simp [hfull, hlive]

def repairable (env : Env) (chainId : Option ℕ) (db : Ledger) (ask : Order) : Bool :=
  (holdsSelfVaultPolicy db ask || isFullPlatformTakeAsk env ask) &&
    onRequestedChain env chainId ask && (repairFilledAsk env chainId db ask).accepted

theorem backfillAsk_of_settled {env : Env} {chainId : Option ℕ} {ask : Order} {db : Ledger}
    (h : db.settlementOf ask.orderHash ≠ none) : backfillAsk env chainId ask db = (none, db) := by
  simp [backfillAsk, Option.isSome_iff_ne_none.mpr h]

theorem backfillAsk_of_unsettled {env : Env} {chainId : Option ℕ} {ask : Order} {db : Ledger}
    (hhash : ask.orderHash ≠ [] ∧ trim ask.orderHash = ask.orderHash)
    (h : db.settlementOf ask.orderHash = none) :
    backfillAsk env chainId ask db =
      let row := (repairFilledAsk env chainId db ask).settlement env db.settlements.length
      if repairable env chainId db ask then (some row, db.insert row) else (none, db) := by
  have hcreate := @createFromFulfilledAsk_of_unsettled env (repairFilledAsk env chainId db ask) db
    (hhash.2.symm ▸ hhash.1) (hhash.2.symm ▸ h)
  have hempty : (repairBuyer db ask).isEmpty → (repairFilledAsk env chainId db ask).accepted = false := by
    intro hbuyer
    have hnil : repairBuyer db ask = [] := List.isEmpty_iff.mp hbuyer
    have haddress : isAddress (lower (trim [])) = false := by decide
    simp [FilledAsk.accepted, repairFilledAsk, hnil, haddress]
  unfold backfillAsk repairable
  rw [hcreate]
  cases heligible : (holdsSelfVaultPolicy db ask || isFullPlatformTakeAsk env ask) with
  | false => simp [h]
  | true =>
    cases hchain : onRequestedChain env chainId ask with
    | false => simp [h]
    | true =>
      cases hbuyer : (repairBuyer db ask).isEmpty with
      | false => simp [h]
      | true => simp [h, hempty hbuyer]

theorem repairable_insert (env : Env) (chainId : Option ℕ) (db : Ledger) (row : SelfVaultSettlement)
    (ask : Order) : repairable env chainId (db.insert row) ask = repairable env chainId db ask := rfl

/-- The repair loop creates the settlements of the repairable asks that have none. -/
theorem backfillAsks_items_iff {env : Env} {chainId : Option ℕ} {asks : List Order} {db : Ledger}
    (hhashes : ∀ a ∈ asks, a.orderHash ≠ [] ∧ trim a.orderHash = a.orderHash)
    (hdistinct : asks.Pairwise (fun a b => a.orderHash ≠ b.orderHash)) (hash : JsStr) :
    (∃ row ∈ (backfillAsks env chainId asks db).1.items, row.orderHash = hash) ↔
      db.settlementOf hash = none ∧
        ∃ a ∈ asks, a.orderHash = hash ∧ repairable env chainId db a := by
  induction asks generalizing db with
  | nil => simp [backfillAsks]
  | cons ask asks ih =>
    obtain ⟨hne, hdistinct'⟩ := List.pairwise_cons.mp hdistinct
    have hhashes' := fun a ha => hhashes a (List.mem_cons_of_mem ask ha)
    have hask := hhashes ask List.mem_cons_self
    have hskip : backfillAsk env chainId ask db = (none, db) →
        ((∃ row ∈ (backfillAsks env chainId (ask :: asks) db).1.items, row.orderHash = hash) ↔
          db.settlementOf hash = none ∧
            ∃ a ∈ asks, a.orderHash = hash ∧ repairable env chainId db a) := by
      intro hnone
      rw [← ih hhashes' hdistinct', backfillAsks, hnone]
    by_cases hsettled : db.settlementOf ask.orderHash = none
    · have hone := @backfillAsk_of_unsettled env chainId ask db hask hsettled
      cases hrepair : repairable env chainId db ask with
      | false =>
        rw [hskip (by simpa [hrepair] using hone)]
        simp [hrepair]
      | true =>
        simp only [hrepair, if_true] at hone
        have hrow : ((repairFilledAsk env chainId db ask).settlement env
            db.settlements.length).orderHash = ask.orderHash := hask.2
        have hrest := @ih (db.insert ((repairFilledAsk env chainId db ask).settlement env
          db.settlements.length)) hhashes' hdistinct'
        simp only [settlementOf_insert, hrow, repairable_insert] at hrest
        simp only [backfillAsks, hone, List.mem_cons, exists_eq_or_imp, hrow, hrest, hrepair,
          and_true]
        by_cases hhash : ask.orderHash = hash
        · simp [← hhash, hsettled]
        · simp [hhash]
    · rw [hskip (backfillAsk_of_settled hsettled)]
      refine and_congr_right fun hnone => ?_
      simp only [List.mem_cons, exists_eq_or_imp]
      constructor
      · exact fun h => .inr h
      · rintro (⟨rfl, -⟩ | h)
        · exact absurd hnone hsettled
        · exact h

theorem mem_fulfilledAsks {db : Ledger} {ask : Order} :
    ask ∈ fulfilledAsks db ↔ ask ∈ db.orders.rows ∧ ask.side = .ask ∧ ask.status = .fulfilled := by
  rw [fulfilledAsks, (List.perm_insertionSort _ _).mem_iff, List.mem_filter]
  simp

theorem fulfilledAsks_distinct (db : Ledger) :
    (fulfilledAsks db).Pairwise (fun a b => a.orderHash ≠ b.orderHash) := by
  have hrows := List.pairwise_map.mp db.orders.distinct
  exact ((List.perm_insertionSort _ _).pairwise_iff fun h => Ne.symm h).mpr (hrows.filter _)

theorem repairs_iff {env : Env} {chainId : Option ℕ} {db : Ledger} {ask : Order}
    (hask : ask ∈ fulfilledAsks db) :
    Repairs env chainId db ask ↔ db.settlementOf ask.orderHash = none ∧
      (holdsSelfVaultPolicy db ask ∨ isFullPlatformTakeAsk env ask) ∧
        repairReaches env chainId db ask ∧ isPositiveMicros (resolveGrossMicros ask) := by
  have hwindow : ∀ a ∈ (fulfilledAsks db).take backfillTake, a ∈ fulfilledAsks db :=
    fun a ha => List.mem_of_mem_take ha
  have hitems := @backfillAsks_items_iff env chainId _ db
    (fun a ha => db.orders.hashes a (mem_fulfilledAsks.mp (hwindow a ha)).1)
    ((fulfilledAsks_distinct db).sublist (List.take_sublist _ _)) ask.orderHash
  have hsame : ∀ a ∈ (fulfilledAsks db).take backfillTake, a.orderHash = ask.orderHash → a = ask :=
    fun a ha h => (List.inj_on_of_nodup_map db.orders.distinct
      (mem_fulfilledAsks.mp (hwindow a ha)).1 (mem_fulfilledAsks.mp hask).1 h)
  rw [Repairs, backfillMissingFromFulfilledAsks, hitems]
  refine and_congr_right fun _ => ?_
  constructor
  · rintro ⟨a, ha, hhash, hrepair⟩
    obtain rfl := hsame a ha hhash
    simp only [repairable, FilledAsk.accepted, repairFilledAsk, Bool.and_eq_true,
      Bool.or_eq_true] at hrepair
    exact ⟨hrepair.1.1, ⟨ha, hrepair.1.2, hrepair.2.1⟩, hrepair.2.2⟩
  · rintro ⟨heligible, ⟨ha, hchain, hbuyer⟩, hgross⟩
    refine ⟨ask, ha, rfl, ?_⟩
    simp only [repairable, FilledAsk.accepted, repairFilledAsk, Bool.and_eq_true, Bool.or_eq_true]
    exact ⟨⟨heligible, hchain⟩, hbuyer, hgross⟩

/-- Both paths create settlements for the same asks, all of them full-platform-take asks, if and
only if, among the unsettled fulfilled asks with a positive amount, none that the repair pass
reaches is a split ask of a `self_vault_hold` token, and the full-platform-take asks that the
repair pass reaches are those whose fill named a buyer. -/
theorem paths_agree_iff (env : Env) (chainId : Option ℕ) (db : Ledger) (fills : Order → Fill) :
    (∀ ask ∈ fulfilledAsks db,
        (Repairs env chainId db ask → isFullPlatformTakeAsk env ask) ∧
        (Creates env db ask (fills ask) → isFullPlatformTakeAsk env ask) ∧
        (Creates env db ask (fills ask) ↔ Repairs env chainId db ask)) ↔
      ∀ ask ∈ fulfilledAsks db, db.settlementOf ask.orderHash = none →
        isPositiveMicros (resolveGrossMicros ask) →
        (repairReaches env chainId db ask → holdsSelfVaultPolicy db ask →
          isFullPlatformTakeAsk env ask) ∧
        (isFullPlatformTakeAsk env ask →
          (isAddress (lower (trim (fills ask).buyerWallet)) ↔ repairReaches env chainId db ask)) := by
  refine forall_congr' fun ask => forall_congr' fun hask => ?_
  have hhash := db.orders.hashes ask (mem_fulfilledAsks.mp hask).1
  rw [repairs_iff hask, creates_iff hhash]
  constructor
  · rintro ⟨honly, -, hsame⟩ hnone hgross
    refine ⟨fun hreach hhold => honly ⟨hnone, .inl hhold, hreach, hgross⟩, fun hfull => ⟨?_, ?_⟩⟩
    · intro hbuyer
      exact (hsame.mp ⟨hnone, hfull, hbuyer, hgross⟩).2.2.1
    · intro hreach
      exact (hsame.mpr ⟨hnone, .inr hfull, hreach, hgross⟩).2.2.1
  · intro h
    have hrepaired : db.settlementOf ask.orderHash = none ∧
        (holdsSelfVaultPolicy db ask ∨ isFullPlatformTakeAsk env ask) ∧
          repairReaches env chainId db ask ∧ isPositiveMicros (resolveGrossMicros ask) →
        isFullPlatformTakeAsk env ask := by
      rintro ⟨hnone, hhold | hfull, hreach, hgross⟩
      · exact (h hnone hgross).1 hreach hhold
      · exact hfull
    refine ⟨hrepaired, fun hcreate => hcreate.2.1, ?_, ?_⟩
    · rintro ⟨hnone, hfull, hbuyer, hgross⟩
      exact ⟨hnone, .inr hfull, ((h hnone hgross).2 hfull).mp hbuyer, hgross⟩
    · intro hrepair
      have hfull := hrepaired hrepair
      obtain ⟨hnone, -, hreach, hgross⟩ := hrepair
      exact ⟨hnone, hfull, ((h hnone hgross).2 hfull).mpr hreach, hgross⟩

/-- A fulfilled split ask: USDC lines to the seller and to the platform. -/
def splitAsk : Order where
  id := 1
  orderHash := js "0x01"
  offerer := js "0x00000000000000000000000000000000000000aa"
  side := .ask
  tokenContract := js "0x00000000000000000000000000000000000000cc"
  tokenId := js "7"
  considerationAmount := js "100"
  parameters := {
    consideration := [
      { itemType := 1, startAmount := js "95",
        recipient := js "0x00000000000000000000000000000000000000aa" },
      { itemType := 1, startAmount := js "5",
        recipient := js "0x00000000000000000000000000000000000000fe" }]
    filledByBuyer := some (js "0x00000000000000000000000000000000000000bb") }
  status := .fulfilled

def splitLedger : Ledger where
  orders := ⟨[splitAsk], by decide, by decide⟩
  tokens := [{ tokenContract := js "0x00000000000000000000000000000000000000cc",
               tokenId := js "7", settlementPolicy := some .selfVaultHold }]
  holdings := []
  settlements := []

def feeEnv : Env where
  platformFeeRecipient := some (js "0x00000000000000000000000000000000000000fe")

/-- The seller was paid by Seaport, and the repair pass owes the price again. -/
theorem repairs_splitAsk :
    splitAsk ∈ fulfilledAsks splitLedger ∧ Repairs feeEnv none splitLedger splitAsk ∧
      isFullPlatformTakeAsk feeEnv splitAsk = false ∧
      ¬ Creates feeEnv splitLedger splitAsk
        { buyerWallet := js "0x00000000000000000000000000000000000000bb" } := by
  have hitem : ∃ row ∈ (backfillMissingFromFulfilledAsks feeEnv none splitLedger).1.items,
      row.orderHash = splitAsk.orderHash := by decide
  refine ⟨by decide, hitem, by decide, ?_⟩
  rintro ⟨-, hcreate⟩
  exact hcreate (by decide)

end Settlement

import Tokenable.Js.OrderedMap
import Tokenable.Redeem.FeeCalculator
import Tokenable.Redeem.Request

/-!
# Pinned quotes

`estimateRedeemCost` remembers one quote for each token set and destination: the cheapest of those
issued, as long as it has not expired. A request that comes with a payment is held to the cheaper of
the pinned quote and a fresh estimate.

One pin cannot stand for two quotes when the cheaper one expires first. It does wherever the quote
that is dropped expires no later than the one that is kept.
-/

namespace Redeem.Pins
open Js Platform Async Db Backend

def quotePinTtlMs : ℕ := 15 * 60000

def quotePinMaxEntries : ℕ := 500

structure Pin where
  totalMicros : ℕ
  expiresAtMs : ℕ
  estimate : RedeemEstimate
  deriving DecidableEq

abbrev PinMap := OrderedMap JsStr Pin

def isLive (now : ℕ) (p : Pin) : Bool := decide (now < p.expiresAtMs)

/-- The pin of a quote whose expiry, when it has one, is `expiresAt`. -/
def newPin (now : ℕ) (estimate : RedeemEstimate) (expiresAt : Option ℕ) : Pin :=
  ⟨estimate.totalUsdcMicros, expiresAt.getD (now + quotePinTtlMs), estimate⟩

/-- The pins that have not expired, less the oldest one when there are too many. -/
def purge (pins : PinMap) (now : ℕ) : PinMap :=
  let live := pins.filter fun _ v => isLive now v
  if quotePinMaxEntries ≤ live.size then live.deleteFirst else live

/-- An unexpired pin that is no dearer stays. -/
def keepsExisting (now : ℕ) (pin existing : Pin) : Bool :=
  isLive now existing && decide (existing.totalMicros ≤ pin.totalMicros)

def pinQuote (pins : PinMap) (now : ℕ) (key : JsStr) (estimate : RedeemEstimate)
    (expiresAt : Option ℕ) : PinMap :=
  let kept := purge pins now
  let pin := newPin now estimate expiresAt
  match kept.get? key with
  | some existing => if keepsExisting now pin existing then kept else kept.set key pin
  | none => kept.set key pin

def pinnedQuote (pins : PinMap) (now : ℕ) (key : JsStr) : Option PinnedQuote :=
  ((pins.get? key).filter (isLive now)).map fun pin => ⟨pin.totalMicros, pin.estimate⟩

/-- What a request reads of an estimate of the calculator. -/
def quoted (e : Fee.RedeemEstimate) : RedeemEstimate :=
  ⟨e.cardCount, e.totalUsdcMicros.toNat,
    e.cards.map fun c => ⟨c.tokenId, c.vaultedAt, c.earlyWithdrawal⟩⟩

/-- A call of `estimateRedeemCost`: its parameters, what the calculator answers, and the time at which
the estimate is pinned. -/
structure EstimateCall where
  now : ℕ
  country : Fee.RedeemCountry
  tokenIds : List ℕ
  countryCode : Option JsStr
  postal : Option JsStr
  answer : Except HttpError Fee.RedeemEstimate

namespace EstimateCall

def ids (call : EstimateCall) : List ℕ := call.tokenIds.filter (0 < ·)

def destination (call : EstimateCall) : PinDestination :=
  ⟨some call.country.text, call.countryCode, call.postal⟩

/-- The quote that the call issues, under its key. A call that fails, or that names no token, issues
none. -/
def quote (call : EstimateCall) : Option (JsStr × Pin) :=
  match call.answer with
  | .ok estimate =>
    if call.ids.isEmpty then none
    else some (quotePinKey call.ids call.destination,
      newPin call.now (quoted estimate) estimate.shippingQuoteExpiresAt)
  | .error _ => none

end EstimateCall

def estimateRedeemCost (pins : PinMap) (call : EstimateCall) : PinMap :=
  match call.answer with
  | .ok estimate =>
    if call.ids.isEmpty then pins
    else pinQuote pins call.now (quotePinKey call.ids call.destination) (quoted estimate)
      estimate.shippingQuoteExpiresAt
  | .error _ => pins

def issued (calls : List EstimateCall) : List (JsStr × Pin) := calls.filterMap EstimateCall.quote

def liveKeys (calls : List EstimateCall) (now : ℕ) : List JsStr :=
  (((issued calls).filter fun q => isLive now q.2).map Prod.fst).dedup

/-- A run of calls and the pins that they leave, with fewer live keys than there is room for, and
each call allowed by `Ok` where it finds the pins. -/
inductive Run (Ok : PinMap → EstimateCall → Prop) : List EstimateCall → PinMap → Prop
  | nil : Run Ok [] .empty
  | step {calls : List EstimateCall} {pins : PinMap} (call : EstimateCall) (hrun : Run Ok calls pins)
      (htime : ∀ c ∈ calls, c.now ≤ call.now)
      (hroom : (liveKeys calls call.now).length < quotePinMaxEntries) (hok : Ok pins call) :
      Run Ok (calls ++ [call]) (estimateRedeemCost pins call)

/-- Of an unexpired pin and a new quote under its key, the one that is dropped expires no later than
the one that is kept. -/
def DropsTheShorter (pins : PinMap) (call : EstimateCall) : Prop :=
  ∀ key pin existing, call.quote = some (key, pin) → pins.get? key = some existing →
    isLive call.now existing = true →
    if existing.totalMicros ≤ pin.totalMicros then pin.expiresAtMs ≤ existing.expiresAtMs
    else existing.expiresAtMs ≤ pin.expiresAtMs

section Invariants

variable {pins : PinMap} {calls : List EstimateCall} {now : ℕ}

def AllIssued (calls : List EstimateCall) (pins : PinMap) : Prop :=
  ∀ e ∈ pins.entries, e ∈ issued calls

/-- Behind every unexpired quote there is a pin under its key, no dearer and no shorter lived. -/
def Covered (calls : List EstimateCall) (pins : PinMap) (now : ℕ) : Prop :=
  ∀ q ∈ issued calls, isLive now q.2 = true → ∃ pin, pins.get? q.1 = some pin ∧
    pin.totalMicros ≤ q.2.totalMicros ∧ q.2.expiresAtMs ≤ pin.expiresAtMs

theorem isLive_of_le {now now' : ℕ} {p : Pin} (hle : now ≤ now') (h : isLive now' p = true) :
    isLive now p = true := by
  simp only [isLive, decide_eq_true_eq] at h ⊢
  omega

theorem Covered.later {now' : ℕ} (h : Covered calls pins now) (hle : now ≤ now') :
    Covered calls pins now' := fun q hq hlive => h q hq (isLive_of_le hle hlive)

theorem issued_concat (calls : List EstimateCall) (call : EstimateCall) :
    issued (calls ++ [call]) = issued calls ++ call.quote.toList := by
  cases h : call.quote <;> simp [issued, h]

theorem estimateRedeemCost_of_quote_eq_none {call : EstimateCall} (h : call.quote = none) :
    estimateRedeemCost pins call = pins := by
  unfold EstimateCall.quote at h
  unfold estimateRedeemCost
  split at h
  · split_ifs at h with hids
    simp only [hids, if_true]
  · rfl

theorem estimateRedeemCost_of_quote_eq_some (pins : OrderedMap JsStr Pin) {call : EstimateCall}
    {key : JsStr} {pin : Pin} (h : call.quote = some (key, pin)) : ∃ estimate expiresAt,
      pin = newPin call.now estimate expiresAt ∧
      estimateRedeemCost pins call = pinQuote pins call.now key estimate expiresAt := by
  unfold EstimateCall.quote at h
  unfold estimateRedeemCost
  split at h
  · rename_i estimate hanswer
    split_ifs at h with hids
    obtain ⟨rfl, rfl⟩ := Prod.mk.inj (Option.some.inj h)
    exact ⟨quoted estimate, estimate.shippingQuoteExpiresAt, rfl, if_neg hids⟩
  · cases h

/-- The live pins are among the live keys, so that there is room for all of them. -/
theorem purge_eq_filter (hissued : AllIssued calls pins)
    (hroom : (liveKeys calls now).length < quotePinMaxEntries) :
    purge pins now = pins.filter fun _ v => isLive now v := by
  have hsub : (pins.filter fun _ v => isLive now v).keys ⊆ liveKeys calls now := by
    intro k hk
    obtain ⟨e, he, rfl⟩ := List.mem_map.1 hk
    obtain ⟨he, hlive⟩ := List.mem_filter.1 he
    rw [liveKeys, List.mem_dedup, List.mem_map]
    exact ⟨e, List.mem_filter.2 ⟨hissued e he, hlive⟩, rfl⟩
  have hle : (pins.filter fun _ v => isLive now v).size ≤ (liveKeys calls now).length := by
    have hlen := (List.subperm_of_subset (pins.filter fun _ v => isLive now v).nodup hsub).length_le
    simpa [OrderedMap.size, OrderedMap.keys] using hlen
  unfold purge
  simp only
  rw [if_neg (by omega)]

/-- What a pinned quote leaves: every live pin as it was, but for the one under the key, which is the
cheaper of the two. -/
theorem get?_pinQuote (hroom : purge pins now = pins.filter fun _ v => isLive now v) (key : JsStr)
    (estimate : RedeemEstimate) (expiresAt : Option ℕ) :
    (∃ existing, pins.get? key = some existing ∧
        keepsExisting now (newPin now estimate expiresAt) existing = true ∧
        pinQuote pins now key estimate expiresAt = pins.filter fun _ v => isLive now v) ∨
      ((∀ existing, pins.get? key = some existing → isLive now existing = true →
          (newPin now estimate expiresAt).totalMicros < existing.totalMicros) ∧
        pinQuote pins now key estimate expiresAt =
          (pins.filter fun _ v => isLive now v).set key (newPin now estimate expiresAt)) := by
  unfold pinQuote
  simp only [hroom]
  cases hget : (pins.filter fun _ v => isLive now v).get? key with
  | none =>
      right
      refine ⟨fun existing hexisting hlive => ?_, rfl⟩
      have hsome := OrderedMap.get?_filter (p := fun _ v => isLive now v).2 ⟨hexisting, hlive⟩
      rw [hget] at hsome
      cases hsome
  | some existing =>
      obtain ⟨hexisting, hlive⟩ := OrderedMap.get?_filter.1 hget
      by_cases hkeeps : keepsExisting now (newPin now estimate expiresAt) existing = true
      · left
        exact ⟨existing, hexisting, hkeeps, if_pos hkeeps⟩
      · right
        refine ⟨fun existing' hexisting' _ => ?_, if_neg hkeeps⟩
        obtain rfl := Option.some.inj (hexisting.symm.trans hexisting')
        simp only [keepsExisting, hlive, Bool.true_and, decide_eq_true_eq] at hkeeps
        omega

theorem allIssued_pinQuote {call : EstimateCall} {key : JsStr} {estimate : RedeemEstimate}
    {expiresAt : Option ℕ} (hissued : AllIssued calls pins)
    (hroom : purge pins call.now = pins.filter fun _ v => isLive call.now v)
    (hquote : call.quote = some (key, newPin call.now estimate expiresAt)) :
    AllIssued (calls ++ [call]) (pinQuote pins call.now key estimate expiresAt) := by
  intro e he
  rw [issued_concat, hquote, List.mem_append]
  rcases get?_pinQuote hroom key estimate expiresAt with ⟨-, -, -, heq⟩ | ⟨-, heq⟩
  · rw [heq] at he
    exact .inl (hissued e (List.mem_filter.1 he).1)
  · rw [heq] at he
    by_cases hkey : e.1 = key
    · have hget := OrderedMap.get?_eq_some.2 he
      rw [hkey, OrderedMap.get?_set_self] at hget
      right
      have hpin := Option.some.inj hget
      rw [hpin, ← hkey]
      exact List.mem_singleton.2 rfl
    · have hget := OrderedMap.get?_eq_some.2 he
      rw [OrderedMap.get?_set_of_ne hkey] at hget
      exact .inl (hissued e (OrderedMap.get?_eq_some.1 (OrderedMap.get?_filter.1 hget).1))

/-- The cheaper of an old and a new quote stands for both, when it expires no sooner. -/
theorem covered_pinQuote {call : EstimateCall} {key : JsStr} {estimate : RedeemEstimate}
    {expiresAt : Option ℕ} (hcovered : Covered calls pins call.now)
    (hroom : purge pins call.now = pins.filter fun _ v => isLive call.now v)
    (hquote : call.quote = some (key, newPin call.now estimate expiresAt))
    (hok : DropsTheShorter pins call) :
    Covered (calls ++ [call]) (pinQuote pins call.now key estimate expiresAt) call.now := by
  -- a pin that is found alive is still found after the others have been purged
  have hkept : ∀ k pin, pins.get? k = some pin → isLive call.now pin = true →
      (pins.filter fun _ v => isLive call.now v).get? k = some pin :=
    fun k pin hget hlive => OrderedMap.get?_filter.2 ⟨hget, hlive⟩
  have hlonger : ∀ {a b : ℕ} {p q : Pin}, isLive call.now p = true → p.expiresAtMs = a →
      q.expiresAtMs = b → a ≤ b → isLive call.now q = true := by
    intro a b p q hp ha hb hle
    simp only [isLive, decide_eq_true_eq] at hp ⊢
    omega
  intro q hq hlive
  rw [issued_concat, hquote, List.mem_append] at hq
  rcases get?_pinQuote hroom key estimate expiresAt with
    ⟨existing, hexisting, hkeeps, heq⟩ | ⟨hdearer, heq⟩
  · rw [heq]
    simp only [keepsExisting, Bool.and_eq_true, decide_eq_true_eq] at hkeeps
    have hdrops := hok key _ existing hquote hexisting hkeeps.1
    rw [if_pos hkeeps.2] at hdrops
    rcases hq with hq | hq
    · obtain ⟨pin, hget, hle, hexp⟩ := hcovered q hq hlive
      exact ⟨pin, hkept _ _ hget (hlonger hlive rfl rfl hexp), hle, hexp⟩
    · obtain rfl := List.mem_singleton.1 hq
      exact ⟨existing, hkept _ _ hexisting hkeeps.1, hkeeps.2, hdrops⟩
  · rw [heq]
    rcases hq with hq | hq
    · obtain ⟨pin, hget, hle, hexp⟩ := hcovered q hq hlive
      have hpin := hlonger hlive rfl rfl hexp
      by_cases hkey : q.1 = key
      · rw [hkey] at hget ⊢
        have hcheaper := hdearer pin hget hpin
        have hdrops := hok key _ pin hquote hget hpin
        rw [if_neg (by omega)] at hdrops
        exact ⟨_, OrderedMap.get?_set_self, by omega, by omega⟩
      · exact ⟨pin, by rw [OrderedMap.get?_set_of_ne hkey]; exact hkept _ _ hget hpin, hle, hexp⟩
    · obtain rfl := List.mem_singleton.1 hq
      exact ⟨_, OrderedMap.get?_set_self, le_rfl, le_rfl⟩

/-- Over a run every pin is an issued quote, whatever is dropped. -/
theorem allIssued_of_run {Ok : PinMap → EstimateCall → Prop} (hrun : Run Ok calls pins) :
    AllIssued calls pins := by
  induction hrun with
  | nil => exact fun e he => absurd he List.not_mem_nil
  | @step calls pins call _ _ hroom _ ih =>
      have hpurge := purge_eq_filter ih hroom
      cases hquote : call.quote with
      | none =>
          rw [estimateRedeemCost_of_quote_eq_none hquote]
          intro e he
          rw [issued_concat]
          exact List.mem_append_left _ (ih e he)
      | some q =>
          obtain ⟨estimate, expiresAt, hpin, heq⟩ :=
            estimateRedeemCost_of_quote_eq_some pins (hquote : call.quote = some (q.1, q.2))
          rw [heq]
          exact allIssued_pinQuote ih hpurge (by rw [hquote, ← hpin])

/-- Over a run that drops the shorter lived quotes only, every unexpired quote stays covered. -/
theorem covered_of_run (hrun : Run DropsTheShorter calls pins) :
    ∀ now, (∀ c ∈ calls, c.now ≤ now) → Covered calls pins now := by
  induction hrun with
  | nil => exact fun now _ q hq _ => absurd hq List.not_mem_nil
  | @step calls pins call hrun htime hroom hok ih =>
      intro now hnow
      have hcovered := ih call.now htime
      have hlater : call.now ≤ now := hnow call (List.mem_append_right _ List.mem_cons_self)
      have hpurge := purge_eq_filter (allIssued_of_run hrun) hroom
      apply Covered.later _ hlater
      cases hquote : call.quote with
      | none =>
          rw [estimateRedeemCost_of_quote_eq_none hquote]
          intro q hq hlive
          rw [issued_concat, hquote, Option.toList_none, List.append_nil] at hq
          exact hcovered q hq hlive
      | some q =>
          obtain ⟨estimate, expiresAt, hpin, heq⟩ :=
            estimateRedeemCost_of_quote_eq_some pins (hquote : call.quote = some (q.1, q.2))
          rw [heq]
          exact covered_pinQuote hcovered hpurge (by rw [hquote, ← hpin]) hok

end Invariants

section Keys

/-- `/^[A-Za-z]{2}$/` -/
def isCountryCode (c : JsStr) : Bool := decide (c.length = 2) && c.all Char.isAlpha

/-- The ISO code of a destination, as a request resolves it. -/
def isoOf (country : JsStr) (countryCode : Option JsStr) : Except HttpError JsStr :=
  resolveShipToDestinationIso2 {
    name := [], line1 := [], city := [], postal := [], phone := []
    country := country, countryCode := countryCode }

theorem resolveShipTo_eq_isoOf (shipTo : ShipTo) :
    resolveShipToDestinationIso2 shipTo = isoOf shipTo.country shipTo.countryCode := rfl

variable {country iso : JsStr} {countryCode : Option JsStr}

theorem trim_of_isCountryCode {c : JsStr} (h : isCountryCode c = true) : trim c = c := by
  simp only [isCountryCode, Bool.and_eq_true, List.all_eq_true] at h
  apply trim_eq_self
  intro d hd
  have halpha : d.isUpper = true ∨ d.isLower = true := Bool.or_eq_true_iff.mp (h.2 d hd)
  rcases halpha with hupper | hlower
  · have hrange := isUpper_toNat hupper
    exact not_isSpace (by omega) (by omega)
  · have hrange := isLower_toNat hlower
    exact not_isSpace (by omega) (by omega)

theorem requireIso2CountryCode_eq_ok {raw fieldLabel : JsStr}
    (h : requireIso2CountryCode raw fieldLabel = .ok iso) :
    iso = upper (trim raw) ∧ iso.length = 2 ∧ iso.all (fun d => 'A' ≤ d && d ≤ 'Z') = true := by
  unfold requireIso2CountryCode at h
  simp only at h
  split_ifs at h with hiso
  obtain rfl := Except.ok.inj h
  exact ⟨rfl, hiso.1, hiso.2.1⟩

/-- The text of the destination that goes into the key, in lower case, is the resolved code. -/
theorem lower_iso_of_isoOf (hvalid : ∀ c ∈ countryCode, isCountryCode c = true)
    (h : isoOf country countryCode = .ok iso) :
    lower iso = lower (trim (PinDestination.countryText ⟨some country, countryCode, none⟩)) ∧
      trim iso = iso ∧ iso ≠ [] := by
  have hresolved : ∀ {raw fieldLabel : JsStr}, requireIso2CountryCode raw fieldLabel = .ok iso →
      lower iso = lower (trim raw) ∧ trim iso = iso ∧ iso ≠ [] := by
    intro raw fieldLabel hiso
    obtain ⟨rfl, hlen, hall⟩ := requireIso2CountryCode_eq_ok hiso
    refine ⟨lower_upper _, trim_eq_self fun d hd => ?_, fun hnil => ?_⟩
    · have hrange := List.all_eq_true.1 hall d hd
      simp only [Bool.and_eq_true, decide_eq_true_eq] at hrange
      have hlow : 65 ≤ d.toNat := hrange.1
      have hhigh : d.toNat ≤ 90 := hrange.2
      exact not_isSpace (by omega) (by omega)
    · rw [hnil] at hlen
      cases hlen
  unfold isoOf resolveShipToDestinationIso2 at h
  cases countryCode with
  | some c =>
      have hcode := hvalid c rfl
      have hne : c ≠ [] := by
        rintro rfl
        cases hcode
      have htrim : (trim c).isEmpty = false := by
        rw [trim_of_isCountryCode hcode]
        exact List.isEmpty_eq_false_iff.2 hne
      have htext : PinDestination.countryText ⟨some country, some c, none⟩ = c := by
        simp [PinDestination.countryText, truthy, hne]
      simp only [Option.getD_some, htrim, Bool.not_false, if_true] at h
      rw [htext]
      exact hresolved h
  | none =>
      have htext : PinDestination.countryText ⟨some country, none, none⟩ = country := rfl
      simp only [Option.getD_none] at h
      rw [if_neg (by decide)] at h
      rw [htext]
      split_ifs at h with hus hca hintl
      · obtain rfl := Except.ok.inj h
        exact ⟨by rw [hus]; decide, by decide, by decide⟩
      · obtain rfl := Except.ok.inj h
        exact ⟨by rw [hca]; decide, by decide, by decide⟩
      · have hiso := hresolved h
        rw [trim_trim] at hiso
        exact hiso

theorem quotePinKey_congr {ids ids' : List ℕ} {dest dest' : PinDestination}
    (hids : ∀ n, n ∈ ids ↔ n ∈ ids')
    (hcountry : lower (trim dest.countryText) = lower (trim dest'.countryText))
    (hpostal : lower (trim (dest.postal.getD [])) = lower (trim (dest'.postal.getD []))) :
    quotePinKey ids dest = quotePinKey ids' dest' := by
  have hperm : ids.dedup.Perm ids'.dedup := by
    rw [List.perm_ext_iff_of_nodup (List.nodup_dedup _) (List.nodup_dedup _)]
    intro n
    rw [List.mem_dedup, List.mem_dedup]
    exact hids n
  have hsorted : ids.dedup.insertionSort (· ≤ ·) = ids'.dedup.insertionSort (· ≤ ·) := by
    apply List.Perm.eq_of_pairwise' (List.pairwise_insertionSort (· ≤ ·) _)
      (List.pairwise_insertionSort (· ≤ ·) _)
    exact ((List.perm_insertionSort _ _).trans hperm).trans (List.perm_insertionSort _ _).symm
  simp only [quotePinKey, hsorted, hcountry, hpostal]

end Keys

section Payment

/-- A request that comes with a payment, where the payment is looked at at time `now`. -/
structure PaidRequest where
  env : Env
  tokenIds : List ℕ
  shipTo : ShipTo
  chainId : ℕ
  paymentTxHash : JsStr
  wallets : List JsStr
  receipt : TxReceipt
  now : ℕ

namespace PaidRequest

def payers (r : PaidRequest) : List JsStr :=
  ((r.wallets.map fun w => lower (trim w)).map lower).filter fun a => !a.isEmpty

/-- The receipt is that of a transaction that has moved `paid` micros from the wallets of the user to
the fee recipient. -/
def Pays (r : PaidRequest) (paid : ℕ) : Prop :=
  ∃ payTo usdc, r.env.getConfiguredRecipient = some payTo ∧ r.env.getUsdcAddress r.chainId = .ok usdc ∧
    r.payers ≠ [] ∧ r.receipt.succeeded = true ∧
    paidMicros usdc payTo r.payers r.receipt.transfers = paid

/-- The pins and the receipt that the request sees. -/
def Answers (r : PaidRequest) (pins : PinMap) : (c : BackendCmd) → BackendRes c → Prop
  | .inr (.pinnedQuote key), answer => answer = pinnedQuote pins r.now key
  | .inr (.transactionReceipt _ _), answer => answer = .ok (some r.receipt)
  | _, _ => True

/-- The payment is accepted, unless it was used before, with an estimate that costs no more than was
paid, and exactly that if the fresh or the pinned one does. -/
def Accepted (r : PaidRequest) (pins : PinMap) (paid : ℕ) : Prop :=
  ∀ fresh key, (quoteRequest r.tokenIds (some r.shipTo) r.chainId).Yields (r.Answers pins)
      (.ok (fresh, key)) →
    ∀ o, (checkPayment r.env r.paymentTxHash r.wallets fresh key r.chainId).Yields (r.Answers pins) o →
      o = .error paymentAlreadyUsed ∨ ∃ estimate, o = .ok (paid, estimate) ∧
        estimate.totalUsdcMicros ≤ paid ∧
        ∀ e ∈ ((pinnedQuote pins r.now key).map PinnedQuote.estimate).toList ++ [fresh],
          e.totalUsdcMicros = paid → estimate.totalUsdcMicros = paid

end PaidRequest

/-- The call is for the token set and the destination of the request: the ISO code that its country
and its country code resolve to, and its postal code. -/
structure EstimateCall.IsFor (call : EstimateCall) (r : PaidRequest) : Prop where
  ids : ∀ n, n ∈ call.ids ↔ n ∈ r.tokenIds
  iso : ∃ iso, isoOf call.country.text call.countryCode = .ok iso ∧
    resolveShipToDestinationIso2 r.shipTo = .ok iso
  postal : lower (trim (call.postal.getD [])) = lower (trim r.shipTo.postal)
  validCall : ∀ c ∈ call.countryCode, isCountryCode c = true
  validRequest : ∀ c ∈ r.shipTo.countryCode, isCountryCode c = true

variable {pins : PinMap} {r : PaidRequest} {fresh : RedeemEstimate} {key : JsStr} {paid : ℕ}

/-- The key that a request looks its quote up with. -/
theorem key_of_quoteRequest
    (h : (quoteRequest r.tokenIds (some r.shipTo) r.chainId).Yields (r.Answers pins)
      (.ok (fresh, key))) :
    ∃ iso, resolveShipToDestinationIso2 r.shipTo = .ok iso ∧
      key = quotePinKey r.tokenIds
        ⟨some r.shipTo.country, some (r.shipTo.countryCode.getD iso), some r.shipTo.postal⟩ := by
  simp only [quoteRequest, Prog.yields_bind, Prog.yields_throwIf, Prog.yields_orThrow,
    Prog.yields_ret] at h
  obtain ⟨-, -, shipTo, hshipTo, iso, hiso, -, -, fresh', -, -, -, hpure⟩ := h
  obtain rfl := Option.some.inj hshipTo
  obtain ⟨-, rfl⟩ := Prod.mk.inj (Prog.yields_pure.1 hpure)
  exact ⟨iso, hiso, rfl⟩

/-- A call for the same tokens and destination pins its quote under that key, in whatever way the
two spell the country. -/
theorem key_of_isFor {call : EstimateCall} (hfor : call.IsFor r) {iso : JsStr}
    (hiso : resolveShipToDestinationIso2 r.shipTo = .ok iso) :
    quotePinKey call.ids call.destination = quotePinKey r.tokenIds
      ⟨some r.shipTo.country, some (r.shipTo.countryCode.getD iso), some r.shipTo.postal⟩ := by
  obtain ⟨iso', hcall, hrequest⟩ := hfor.iso
  obtain rfl : iso' = iso := Except.ok.inj (hrequest.symm.trans hiso)
  have hcallIso := lower_iso_of_isoOf hfor.validCall hcall
  have hrequestIso := lower_iso_of_isoOf hfor.validRequest
    ((resolveShipTo_eq_isoOf r.shipTo).symm.trans hrequest)
  apply quotePinKey_congr hfor.ids _ hfor.postal
  have hcode : lower iso' = lower (trim (PinDestination.countryText
      ⟨some r.shipTo.country, some (r.shipTo.countryCode.getD iso'), some r.shipTo.postal⟩)) := by
    cases hcountry : r.shipTo.countryCode with
    | some c =>
        rw [hcountry] at hrequestIso
        exact hrequestIso.1
    | none =>
        have htext : PinDestination.countryText
            ⟨some r.shipTo.country, some iso', some r.shipTo.postal⟩ = iso' := by
          simp [PinDestination.countryText, truthy, hrequestIso.2.2]
        rw [Option.getD_none, htext, hrequestIso.2.1]
  rw [← hcode, hcallIso.1]
  rfl

/-- The estimate whose fee lines are stored costs no more than was paid, and exactly that where the
fresh or the pinned one does. -/
theorem estimateMatchingPayment_le {pinned : Option PinnedQuote}
    (hpinned : ∀ pin ∈ pinned, pin.totalMicros = pin.estimate.totalUsdcMicros)
    (hpaid : expectedMicros fresh pinned ≤ paid) :
    (estimateMatchingPayment fresh (pinned.map PinnedQuote.estimate) paid).totalUsdcMicros ≤ paid ∧
      ∀ e ∈ (pinned.map PinnedQuote.estimate).toList ++ [fresh], e.totalUsdcMicros = paid →
        (estimateMatchingPayment fresh (pinned.map PinnedQuote.estimate) paid).totalUsdcMicros =
          paid := by
  -- the cheaper of the two candidates is affordable
  have hsome : ∃ e ∈ (pinned.map PinnedQuote.estimate).toList ++ [fresh],
      e.totalUsdcMicros ≤ paid := by
    cases pinned with
    | none => exact ⟨fresh, by simp, hpaid⟩
    | some pin =>
        have htotal := hpinned pin rfl
        simp only [expectedMicros] at hpaid
        split_ifs at hpaid with hcheaper
        · exact ⟨pin.estimate, by simp, by omega⟩
        · exact ⟨fresh, by simp, hpaid⟩
  generalize hcandidates : (pinned.map PinnedQuote.estimate).toList ++ [fresh] = candidates at hsome
  unfold estimateMatchingPayment
  simp only [hcandidates]
  cases hfind : candidates.find? fun e => e.totalUsdcMicros = paid with
  | some e =>
      have hexact : e.totalUsdcMicros = paid := by simpa using List.find?_some hfind
      exact ⟨hexact.le, fun _ _ _ => hexact⟩
  | none =>
      have hnone : ∀ e ∈ candidates, ¬ e.totalUsdcMicros = paid := by
        simpa using List.find?_eq_none.1 hfind
      refine ⟨?_, fun e he heq => absurd heq (hnone e he)⟩
      obtain ⟨e, he, hle⟩ := hsome
      have hmem : e ∈ (candidates.filter fun e => e.totalUsdcMicros ≤ paid).insertionSort
          fun a b => b.totalUsdcMicros ≤ a.totalUsdcMicros := by
        rw [List.mem_insertionSort, List.mem_filter]
        exact ⟨he, by simpa using hle⟩
      cases haffordable : (candidates.filter fun e => e.totalUsdcMicros ≤ paid).insertionSort
          fun a b => b.totalUsdcMicros ≤ a.totalUsdcMicros with
      | nil =>
          rw [haffordable] at hmem
          cases hmem
      | cons first rest =>
          have hfirst : first ∈ (candidates.filter fun e => e.totalUsdcMicros ≤ paid).insertionSort
              fun a b => b.totalUsdcMicros ≤ a.totalUsdcMicros := by
            rw [haffordable]
            exact List.mem_cons_self
          rw [List.mem_insertionSort, List.mem_filter] at hfirst
          simpa using hfirst.2

/-- The amount of the payment is right, or it is too small. -/
theorem yields_verifyUsdcPayment (hpays : r.Pays paid) {expected : ℕ} {o : Except HttpError ℕ}
    (h : (verifyUsdcPaymentToFeeRecipient r.env r.paymentTxHash
      (r.wallets.map fun w => lower (trim w)) expected r.chainId).Yields (r.Answers pins) o) :
    (expected ≤ paid ∧ o = .ok paid) ∨ paid < expected := by
  obtain ⟨payTo, usdc, hpayTo, husdc, hpayers, hsucceeded, hamount⟩ := hpays
  have hsome : (r.payers).isEmpty = false := List.isEmpty_eq_false_iff.2 hpayers
  unfold verifyUsdcPaymentToFeeRecipient at h
  rcases Prog.yields_bind_cases h with ⟨payTo', hget, h⟩ | ⟨e, hget, -⟩
  case inr =>
    rw [Prog.yields_orThrow_error, hpayTo] at hget
    cases hget.1
  obtain rfl := Option.some.inj (hpayTo.symm.trans (Prog.yields_orThrow.1 hget))
  rcases Prog.yields_bind_cases h with ⟨-, -, h⟩ | ⟨e, hempty, -⟩
  case inr =>
    rw [Prog.yields_throwIf_error] at hempty
    exact absurd (hsome.symm.trans hempty.1) Bool.false_ne_true
  rcases Prog.yields_bind_cases h with ⟨found, hfound, h⟩ | ⟨e, hfound, -⟩
  case inr => cases yields_transactionReceipt.1 hfound
  obtain rfl : found = some r.receipt := Except.ok.inj (yields_transactionReceipt.1 hfound)
  rcases Prog.yields_bind_cases h with ⟨receipt, hreceipt, h⟩ | ⟨e, hreceipt, -⟩
  case inr => cases (Prog.yields_orThrow_error.1 hreceipt).1
  obtain rfl := Option.some.inj (Prog.yields_orThrow.1 hreceipt)
  rcases Prog.yields_bind_cases h with ⟨-, -, h⟩ | ⟨e, hfailed, -⟩
  case inr =>
    rw [Prog.yields_throwIf_error, hsucceeded] at hfailed
    cases hfailed.1
  rcases Prog.yields_bind_cases h with ⟨usdc', hget', h⟩ | ⟨e, hget', -⟩
  case inr => cases husdc.symm.trans (Prog.yields_ret.1 hget')
  obtain rfl := Except.ok.inj (husdc.symm.trans (Prog.yields_ret.1 hget'))
  change (if paidMicros usdc payTo r.payers r.receipt.transfers < expected then _ else
    pure _ : BackendM ℕ).Yields (r.Answers pins) o at h
  rw [hamount] at h
  by_cases hlt : paid < expected
  · exact .inr hlt
  · left
    rw [if_neg hlt] at h
    exact ⟨by omega, h.symm.trans (congrArg Except.ok hamount)⟩

theorem yields_hasPaymentClaim {hash : JsStr} {o : Except HttpError Bool}
    (h : (hasPaymentClaim hash).Yields (r.Answers pins) o) : ∃ claimed, o = .ok claimed := by
  unfold hasPaymentClaim at h
  simp only at h
  split_ifs at h with hempty
  · exact ⟨false, Eq.symm h⟩
  · obtain ⟨n, -, h⟩ := h
    exact ⟨_, Eq.symm h⟩

/-- What the payment check comes to: the payment was used before, is accepted, or is too small. -/
theorem yields_checkPayment (hpays : r.Pays paid) {o : Except HttpError (ℕ × RedeemEstimate)}
    (h : (checkPayment r.env r.paymentTxHash r.wallets fresh key r.chainId).Yields
      (r.Answers pins) o) :
    o = .error paymentAlreadyUsed ∨
      (expectedMicros fresh (pinnedQuote pins r.now key) ≤ paid ∧
        o = .ok (paid, estimateMatchingPayment fresh
          ((pinnedQuote pins r.now key).map PinnedQuote.estimate) paid)) ∨
      paid < expectedMicros fresh (pinnedQuote pins r.now key) := by
  unfold checkPayment at h
  rcases Prog.yields_bind_cases h with ⟨claimed, -, h⟩ | ⟨e, hclaim, -⟩
  case inr =>
    obtain ⟨claimed, hclaimed⟩ := yields_hasPaymentClaim hclaim
    cases hclaimed
  rcases Prog.yields_bind_cases h with ⟨-, -, h⟩ | ⟨e, hused, rfl⟩
  case inr =>
    obtain ⟨-, rfl⟩ := Prog.yields_throwIf_error.1 hused
    exact .inl rfl
  right
  rcases Prog.yields_bind_cases h with ⟨pinned, hpinned, h⟩ | ⟨e, hpinned, -⟩
  case inr =>
    obtain ⟨a, -, ha⟩ := yields_rpc.1 hpinned
    cases ha
  obtain ⟨a, hanswer, ha⟩ := yields_rpc.1 hpinned
  obtain rfl := Except.ok.inj ha
  obtain rfl : pinned = pinnedQuote pins r.now key := hanswer
  rcases Prog.yields_bind_cases h with ⟨got, hgot, h⟩ | ⟨e, hgot, -⟩
  · rcases yields_verifyUsdcPayment hpays hgot with ⟨hle, hpaid⟩ | hlt
    · obtain rfl := Except.ok.inj hpaid
      exact .inl ⟨hle, Eq.symm h⟩
    · exact .inr hlt
  · rcases yields_verifyUsdcPayment hpays hgot with ⟨-, hpaid⟩ | hlt
    · cases hpaid
    · exact .inr hlt

/-- A payment below both quotes is rejected. -/
theorem exists_rejected (hpays : r.Pays paid)
    (hlt : paid < expectedMicros fresh (pinnedQuote pins r.now key)) :
    ∃ message, (checkPayment r.env r.paymentTxHash r.wallets fresh key r.chainId).Yields
      (r.Answers pins) (.error (.badRequest message)) := by
  obtain ⟨payTo, usdc, hpayTo, husdc, hpayers, hsucceeded, rfl⟩ := hpays
  have hsome : (r.payers).isEmpty = false := List.isEmpty_eq_false_iff.2 hpayers
  have hunclaimed : (hasPaymentClaim r.paymentTxHash).Yields (r.Answers pins) (.ok false) := by
    unfold hasPaymentClaim
    simp only
    split_ifs
    · rfl
    · exact ⟨(0 : ℕ), trivial, rfl⟩
  set paid := paidMicros usdc payTo r.payers r.receipt.transfers
  refine ⟨js "USDC payment insufficient: got " ++ ofNat paid ++ js " micros, need " ++
    ofNat (expectedMicros fresh (pinnedQuote pins r.now key)) ++ js " to " ++ js "", ?_⟩
  have hpinned : (rpc (.pinnedQuote key)).Yields (r.Answers pins)
      (.ok (pinnedQuote pins r.now key)) := yields_rpc.2 ⟨_, rfl, rfl⟩
  unfold checkPayment
  apply Prog.yields_bind_ok hunclaimed
  apply Prog.yields_bind_ok (a := ()) (Prog.yields_throwIf.2 rfl)
  apply Prog.yields_bind_ok hpinned
  have hverify : (verifyUsdcPaymentToFeeRecipient r.env r.paymentTxHash
      (r.wallets.map fun w => lower (trim w)) (expectedMicros fresh (pinnedQuote pins r.now key))
      r.chainId).Yields (r.Answers pins) (.error (.badRequest
        (js "USDC payment insufficient: got " ++ ofNat paid ++ js " micros, need " ++
          ofNat (expectedMicros fresh (pinnedQuote pins r.now key)) ++ js " to " ++ js ""))) := by
    unfold verifyUsdcPaymentToFeeRecipient
    apply Prog.yields_bind_ok (Prog.yields_orThrow.2 hpayTo)
    apply Prog.yields_bind_ok (a := ()) (Prog.yields_throwIf.2 hsome)
    apply Prog.yields_bind_ok (yields_transactionReceipt.2 (rfl : Except.ok (some r.receipt) = _))
    apply Prog.yields_bind_ok (Prog.yields_orThrow.2 rfl)
    apply Prog.yields_bind_ok (a := ()) (Prog.yields_throwIf.2 (by rw [hsucceeded]; rfl))
    apply Prog.yields_bind_ok (Prog.yields_ret.2 husdc)
    change (if paidMicros usdc payTo r.payers r.receipt.transfers < _ then _ else
      pure _ : BackendM ℕ).Yields (r.Answers pins) _
    rw [if_pos hlt]
    exact ⟨js "", trivial, rfl⟩
  rw [Prog.bind_eq_settle, Prog.yields_settle]
  exact ⟨_, hverify, rfl⟩

/-- In a run where of two quotes under one key the one that expires first is dropped, a payment of an
unexpired quote for the token set and the destination of the request is accepted. -/
theorem quotes_honoured {calls : List EstimateCall} (hrun : Run DropsTheShorter calls pins)
    (hnow : ∀ c ∈ calls, c.now ≤ r.now) (hpays : r.Pays paid) {call : EstimateCall}
    (hcall : call ∈ calls) (hfor : call.IsFor r) {q : JsStr × Pin} (hq : call.quote = some q)
    (hlive : isLive r.now q.2 = true) (hle : q.2.totalMicros ≤ paid) : r.Accepted pins paid := by
  intro fresh key hquote o ho
  obtain ⟨iso, hiso, rfl⟩ := key_of_quoteRequest hquote
  have hissued : q ∈ issued calls := List.mem_filterMap.2 ⟨call, hcall, hq⟩
  have hkey : q.1 = quotePinKey call.ids call.destination := by
    unfold EstimateCall.quote at hq
    split at hq
    · split_ifs at hq
      exact (congrArg Prod.fst (Option.some.inj hq)).symm
    · cases hq
  obtain ⟨pin, hget, hcheaper, hlonger⟩ := covered_of_run hrun r.now hnow q hissued hlive
  rw [hkey, key_of_isFor hfor hiso] at hget
  have hpinLive : isLive r.now pin = true := by
    simp only [isLive, decide_eq_true_eq] at hlive ⊢
    omega
  have hpinned := congrArg (fun p => (p.filter (isLive r.now)).map
    fun pin => (⟨pin.totalMicros, pin.estimate⟩ : PinnedQuote)) hget
  simp only [Option.filter_some, hpinLive, if_true, Option.map_some] at hpinned
  have htotal : pin.totalMicros = pin.estimate.totalUsdcMicros := by
    obtain ⟨c, -, hc⟩ := List.mem_filterMap.1
      (allIssued_of_run hrun _ (OrderedMap.get?_eq_some.1 hget))
    obtain ⟨estimate, expiresAt, rfl, -⟩ := estimateRedeemCost_of_quote_eq_some pins hc
    rfl
  have hexpected : expectedMicros fresh (pinnedQuote pins r.now (quotePinKey r.tokenIds
      ⟨some r.shipTo.country, some (r.shipTo.countryCode.getD iso), some r.shipTo.postal⟩)) ≤ paid := by
    unfold pinnedQuote
    rw [hpinned]
    simp only [expectedMicros]
    split_ifs
    · omega
    · omega
  rcases yields_checkPayment hpays ho with hused | ⟨-, rfl⟩ | hlt
  · exact .inl hused
  · right
    refine ⟨_, rfl, estimateMatchingPayment_le ?_ hexpected⟩
    intro p hp
    unfold pinnedQuote at hp
    rw [hpinned] at hp
    obtain rfl := Option.some.inj hp
    exact htotal
  · omega

section Example

/-- A card in the PSA vault whose deposit is not known. -/
def psaCard : Fee.Services where
  getVaultCustodyRows _ ids := .ok (ids.map fun id => ⟨id, some .standard, none, true⟩)
  getDepositedAtByTokenIds _ _ := .ok []
  findAddressByPartnerId _ := .ok none
  quote _ := .error (.unavailable [])
  now _ := 0

def sepolia : Env :=
  { platformFeeRecipient := some (js "0x00000000000000000000000000000000000000fe")
    rwaAddresses := [(redeemV1ChainId, js "0x00000000000000000000000000000000000000aa")]
    usdcAddresses := [(redeemV1ChainId, js "0x00000000000000000000000000000000000000dc")] }

/-- A quote for token 7 to a postal code in the United States, by the published schedule. -/
def quoteForUs (now : ℕ) (country : Fee.RedeemCountry) : EstimateCall where
  now := now
  country := country
  tokenIds := [7]
  countryCode := some (js "US")
  postal := some (js "94105")
  answer := Fee.estimate sepolia psaCard (Fee.loadPsaVaultFeeConfig {})
    { country := country, tokenIds := [7], chainId := some redeemV1ChainId }

def daisy : JsStr := js "0x00000000000000000000000000000000000000da"

/-- Twenty minutes later the user comes with a payment of `paid`. -/
def paymentForUs (paid : ℕ) : PaidRequest where
  env := sepolia
  tokenIds := [7]
  shipTo := {
    name := js "Daisy Kim", line1 := js "123 Market St", city := js "San Francisco"
    postal := js "94105", country := js "intl", countryCode := some (js "us"), phone := js "+1 555" }
  chainId := redeemV1ChainId
  paymentTxHash := js "0xfeed"
  wallets := [daisy]
  receipt := ⟨true, [⟨js "0x00000000000000000000000000000000000000dc", daisy,
    js "0x00000000000000000000000000000000000000fe", paid⟩]⟩
  now := 20 * 60000

theorem pays_paymentForUs (paid : ℕ) : (paymentForUs paid).Pays paid := by
  refine ⟨js "0x00000000000000000000000000000000000000fe",
    js "0x00000000000000000000000000000000000000dc", ?_, rfl, List.cons_ne_nil daisy [], rfl, ?_⟩
  · change sepolia.getConfiguredRecipient = _
    decide +kernel
  · have hfilter : ((paymentForUs paid).receipt.transfers.filter fun log =>
        lower log.address = js "0x00000000000000000000000000000000000000dc" &&
          lower log.recipient = js "0x00000000000000000000000000000000000000fe" &&
          lower log.sender ∈ (paymentForUs paid).payers) =
        [⟨js "0x00000000000000000000000000000000000000dc", daisy,
          js "0x00000000000000000000000000000000000000fe", paid⟩] := rfl
    rw [paidMicros, hfilter]
    rfl

theorem isFor_paymentForUs (now : ℕ) (country : Fee.RedeemCountry) (paid : ℕ) :
    (quoteForUs now country).IsFor (paymentForUs paid) where
  ids := fun _ => Iff.rfl
  iso := ⟨js "US", rfl, rfl⟩
  postal := rfl
  validCall := by
    intro c hc
    obtain rfl := Option.some.inj hc
    decide
  validRequest := by
    intro c hc
    obtain rfl := Option.some.inj hc
    decide

def twoQuotes (first second : EstimateCall) : PinMap :=
  estimateRedeemCost (estimateRedeemCost .empty first) second

theorem run_twoQuotes {Ok : PinMap → EstimateCall → Prop} {c d : Fee.RedeemCountry}
    (hfirst : Ok .empty (quoteForUs 0 c))
    (hsecond : Ok (estimateRedeemCost .empty (quoteForUs 0 c)) (quoteForUs 600000 d)) :
    Run Ok [quoteForUs 0 c, quoteForUs 600000 d] (twoQuotes (quoteForUs 0 c) (quoteForUs 600000 d)) := by
  have hroom : ∀ (calls : List EstimateCall) (now : ℕ), calls.length ≤ 1 →
      (liveKeys calls now).length < quotePinMaxEntries := by
    intro calls now hlen
    have hle : (liveKeys calls now).length ≤ calls.length := by
      refine (List.dedup_sublist _).length_le.trans ?_
      rw [List.length_map]
      exact (List.length_filter_le _ _).trans (List.length_filterMap_le _ _)
    have hmax : quotePinMaxEntries = 500 := rfl
    omega
  refine .step _ (.step _ .nil (fun c hc => absurd hc List.not_mem_nil) (hroom _ _ (by simp)) hfirst)
    (fun c hc => ?_) (hroom _ _ (by simp)) hsecond
  obtain rfl := List.mem_singleton.1 hc
  exact Nat.zero_le _

/-- The key of the quotes, and the pin of one that costs `total`. -/
def pinForUs (now total : ℕ) : JsStr × Pin :=
  (js "7|us|94105", ⟨total, now + quotePinTtlMs, ⟨1, total, [⟨7, none, true⟩]⟩⟩)

theorem quote_us : (quoteForUs 600000 .us).quote = some (pinForUs 600000 12970000) := by
  decide +kernel

theorem quote_ca : (quoteForUs 600000 .ca).quote = some (pinForUs 600000 31970000) := by
  decide +kernel

/-- The dearer quote is the older one, so that it is dropped before it expires. -/
theorem quotes_honoured_cheaper : (paymentForUs 12970000).Accepted
    (twoQuotes (quoteForUs 0 .ca) (quoteForUs 600000 .us)) 12970000 := by
  have hfirst : DropsTheShorter .empty (quoteForUs 0 .ca) := by
    intro key pin existing _ hget
    cases hget
  have hsecond : DropsTheShorter (estimateRedeemCost .empty (quoteForUs 0 .ca))
      (quoteForUs 600000 .us) := by
    intro key pin existing hquote hget _
    obtain ⟨rfl, rfl⟩ := Prod.mk.inj (Option.some.inj (quote_us.symm.trans hquote))
    have hpin : (estimateRedeemCost .empty (quoteForUs 0 .ca)).get? (js "7|us|94105") =
        some (pinForUs 0 31970000).2 := by decide +kernel
    obtain rfl := Option.some.inj (hpin.symm.trans hget)
    decide
  exact quotes_honoured (run_twoQuotes hfirst hsecond)
    (by simp [quoteForUs, paymentForUs]) (pays_paymentForUs _)
    (List.mem_cons_of_mem _ List.mem_cons_self) (isFor_paymentForUs _ _ _) quote_us (by decide) le_rfl

/-- The cheaper quote stays pinned and expires, and the dearer one that was paid is not known any
more when the fresh estimate is dearer still. -/
theorem dearer_quote_forgotten :
    ¬ ∀ (calls : List EstimateCall) (pins : PinMap) (r : PaidRequest) (paid : ℕ)
      (call : EstimateCall) (q : JsStr × Pin), Run (fun _ _ => True) calls pins →
      (∀ c ∈ calls, c.now ≤ r.now) → r.Pays paid → call ∈ calls → call.IsFor r →
      call.quote = some q → isLive r.now q.2 = true → q.2.totalMicros ≤ paid →
      r.Accepted pins paid := by
  intro h
  have haccepted := h _ _ (paymentForUs 31970000) 31970000 (quoteForUs 600000 .ca) _
    (run_twoQuotes (c := .us) trivial trivial) (by simp [quoteForUs, paymentForUs])
    (pays_paymentForUs _) (List.mem_cons_of_mem _ List.mem_cons_self) (isFor_paymentForUs _ _ _)
    quote_ca (by decide) le_rfl
  have hquote : (quoteRequest (paymentForUs 31970000).tokenIds (some (paymentForUs 31970000).shipTo)
      (paymentForUs 31970000).chainId).Yields ((paymentForUs 31970000).Answers
        (twoQuotes (quoteForUs 0 .us) (quoteForUs 600000 .ca)))
      (.ok (⟨1, 38970000, []⟩, quotePinKey [7] ⟨some (js "intl"), some (js "us"), some (js "94105")⟩)) :=
    ⟨.ok (), trivial, .ok ⟨1, 38970000, []⟩, trivial, rfl⟩
  have hforgotten : pinnedQuote (twoQuotes (quoteForUs 0 .us) (quoteForUs 600000 .ca)) (20 * 60000)
      (quotePinKey [7] ⟨some (js "intl"), some (js "us"), some (js "94105")⟩) = none := by
    decide +kernel
  have hlt : 31970000 < expectedMicros ⟨1, 38970000, []⟩ (pinnedQuote (twoQuotes
      (quoteForUs 0 .us) (quoteForUs 600000 .ca)) (paymentForUs 31970000).now
      (quotePinKey [7] ⟨some (js "intl"), some (js "us"), some (js "94105")⟩)) := by
    change 31970000 < expectedMicros ⟨1, 38970000, []⟩ (pinnedQuote _ (20 * 60000) _)
    rw [hforgotten]
    decide
  obtain ⟨message, hrejected⟩ := exists_rejected (pays_paymentForUs 31970000) hlt
  rcases haccepted _ _ hquote _ hrejected with hused | ⟨estimate, hok, -⟩
  · cases hused
  · cases hok

end Example

end Payment

end Redeem.Pins

import Mathlib.Data.List.Perm.Subperm
import Tokenable.Js.Regex
import Tokenable.Vault.Registry

/-!
# Healing the registry before a redemption

`assertRedeemableAfterRegistryHeal` runs the check, reads from the message of its error which token is
missing, has it registered from the chain, and runs the check again.
-/

namespace RegistryHeal
open Js Platform Vault
open Orders (normalizeDecimalTokenId)

/-- The token id in the message of an error of the check, when that says the token is missing. -/
def notRegisteredTokenId (e : HttpError) : Option ℕ :=
  ((Regex.group (Regex.lit "Token #") (Regex.plus Regex.digit)
    (Regex.lit " is not registered on Tokenable yet") e.message).bind toNumber).filter (0 < ·)

/-- The rows of the registry, and the calls of `ensureFromChain` so far. -/
structure State where
  tokens : TokenTable
  ensured : List ℕ := []

def stillMissing : HttpError := .badRequest
  (js "One or more tokens are not registered on Tokenable yet — they cannot be redeemed. " ++
    js "Contact support.")

variable (x : Sources) (g : Registry) (contract : JsStr)

def ensure (s : State) (tokenId : ℕ) : State :=
  ⟨ensureFromChain x contract s.tokens tokenId, s.ensured ++ [tokenId]⟩

/-- The rounds of the loop that are left, and the tokens that were healed. -/
def healLoop (ids : List ℕ) : ℕ → List ℕ → State → Except HttpError Unit × State
  | 0, _, s => (.error stillMissing, s)
  | n + 1, healed, s =>
    match assertTokensRedeemable { g with tokens := s.tokens } contract (ids.map ofNat) with
    | .ok () => (.ok (), s)
    | .error e =>
      match notRegisteredTokenId e with
      | none => (.error e, s)
      | some missing =>
        if missing ∈ healed then (.error e, s)
        else healLoop ids n (healed ++ [missing]) (ensure x contract s missing)

def assertRedeemableAfterRegistryHeal (env : Env) (chainId : ℕ) (tokenIds : List ℕ) :
    Except HttpError Unit × State :=
  match env.getRwaAddress chainId with
  | .error e => (.error e, ⟨g.tokens, []⟩)
  | .ok contract =>
    let ids := (tokenIds.filter (0 < ·)).eraseDups
    healLoop x g contract ids (ids.length + 1) [] ⟨g.tokens, []⟩

section Lookup
variable {contract}

def isRowOf (contract : JsStr) (n : ℕ) (t : RwaToken) : Bool :=
  lower t.tokenContract = lower contract &&
    (isDigits t.tokenId && normalizeDecimalTokenId t.tokenId = normalizeDecimalTokenId (ofNat n))

def registered (contract : JsStr) (t : TokenTable) (n : ℕ) : Option RwaToken :=
  (t.find (isRowOf contract n)).getLast?

theorem trim_ofNat (n : ℕ) : trim (ofNat n) = ofNat n := trim_of_isDigits (isDigits_ofNat n)

theorem normalized_eq_iff {m n : ℕ} :
    normalizeDecimalTokenId (ofNat m) = normalizeDecimalTokenId (ofNat n) ↔ m = n := by
  have hm : isDigits (trim (ofNat m)) = true := by rw [trim_ofNat, isDigits_ofNat]
  have hn : isDigits (trim (ofNat n)) = true := by rw [trim_ofNat, isDigits_ofNat]
  rw [Orders.normalizeDecimalTokenId_eq_iff hm hn, trim_ofNat, trim_ofNat, toNat_ofNat, toNat_ofNat]

theorem isDigits_of_mem_lookupKeys {key id : JsStr} (hid : isDigits (trim id) = true)
    (h : key ∈ decimalTokenIdLookupKeys id) : isDigits key = true := by
  have htrim : isDigits (trim (trim id)) = true := by rw [trim_trim, hid]
  rw [decimalTokenIdLookupKeys] at h
  split_ifs at h
  · exact absurd h List.not_mem_nil
  · simp only [List.mem_eraseDups, List.mem_cons, List.not_mem_nil, or_false] at h
    rcases h with rfl | rfl
    · exact hid
    · exact Orders.isDigits_normalizeDecimalTokenId htrim

/-- A lookup of several ids finds for each what a lookup of it alone finds. -/
theorem matches_iff {ids : List JsStr} {n : ℕ} {t : RwaToken}
    (hids : ∀ id ∈ ids, isDigits (trim id) = true) (hn : ofNat n ∈ ids) :
    (matchesDecimalIds contract ids t = true ∧
      normalizeDecimalTokenId t.tokenId = normalizeDecimalTokenId (ofNat n)) ↔
        isRowOf contract n t = true := by
  simp only [matchesDecimalIds, isRowOf, Bool.and_eq_true, Bool.or_eq_true, decide_eq_true_eq,
    List.mem_eraseDups, List.mem_flatMap, List.mem_map]
  constructor
  · rintro ⟨⟨hcontract, ⟨id, hid, hkey⟩ | ⟨hdigits, -⟩⟩, hnorm⟩
    · exact ⟨hcontract, isDigits_of_mem_lookupKeys (hids id hid) hkey, hnorm⟩
    · exact ⟨hcontract, hdigits, hnorm⟩
  · rintro ⟨hcontract, hdigits, hnorm⟩
    exact ⟨⟨hcontract, .inr ⟨hdigits, ofNat n, hn, hnorm.symm⟩⟩, hnorm⟩

theorem byNorm_find {t : TokenTable} {ids : List JsStr} {n : ℕ} (hn : ofNat n ∈ ids) :
    byNorm (findRwaTokensByDecimalIds t contract ids) (normalizeDecimalTokenId (ofNat n)) =
      registered contract t n := by
  have hmem : ofNat n ∈ ((ids.map trim).filter isDigits).eraseDups := by
    rw [List.mem_eraseDups, List.mem_filter]
    exact ⟨List.mem_map.mpr ⟨ofNat n, hn, trim_ofNat n⟩, isDigits_ofNat n⟩
  have hids : ∀ id ∈ ((ids.map trim).filter isDigits).eraseDups, isDigits (trim id) = true := by
    intro id hid
    rw [List.mem_eraseDups, List.mem_filter] at hid
    rw [trim_of_isDigits hid.2]
    exact hid.2
  have hne : ((ids.map trim).filter isDigits).eraseDups.isEmpty = false := by
    rw [List.isEmpty_eq_false_iff]
    exact List.ne_nil_of_mem hmem
  rw [findRwaTokensByDecimalIds, hne, byNorm, registered, Db.Table.find, Db.Table.find]
  simp only [Bool.false_eq_true, if_false, List.filter_filter]
  congr 1
  apply List.filter_congr
  intro r _
  rw [Bool.eq_iff_iff, ← matches_iff hids hmem, Bool.and_eq_true, decide_eq_true_eq]
  exact and_comm

theorem checkEach_spec (rows : List RwaToken) (ids : List JsStr) :
    (g.checkEach rows ids = .ok () ↔
      ∀ id ∈ ids, g.check id (byNorm rows (normalizeDecimalTokenId id)) = .ok ()) ∧
    ∀ e, g.checkEach rows ids = .error e →
      ∃ id ∈ ids, g.check id (byNorm rows (normalizeDecimalTokenId id)) = .error e := by
  induction ids with
  | nil => exact ⟨⟨fun _ id hid => absurd hid List.not_mem_nil, fun _ => rfl⟩, fun e he => by cases he⟩
  | cons id ids ih =>
    rw [Registry.checkEach]
    cases hfirst : g.check id (byNorm rows (normalizeDecimalTokenId id)) with
    | error e =>
      refine ⟨⟨fun h => (by cases h), fun h => ?_⟩, fun e' he' => ⟨id, List.mem_cons_self, ?_⟩⟩
      · rw [h id List.mem_cons_self] at hfirst
        cases hfirst
      · rw [hfirst]
        exact he'
    | ok a =>
      refine ⟨ih.1.trans ⟨fun h id' hid' => ?_, fun h id' hid' => ?_⟩, fun e he => ?_⟩
      · rcases List.mem_cons.mp hid' with rfl | hid'
        · exact hfirst
        · exact h id' hid'
      · exact h id' (List.mem_cons_of_mem id hid')
      · obtain ⟨id', hid', herror⟩ := ih.2 e he
        exact ⟨id', List.mem_cons_of_mem id hid', herror⟩

def tokenCheck (g : Registry) (contract : JsStr) (n : ℕ) : Except HttpError Unit :=
  g.check (ofNat n) (registered contract g.tokens n)

theorem mem_decimalIds {ns : List ℕ} {id : JsStr} :
    id ∈ decimalIds (ns.map ofNat) ↔ ∃ n ∈ ns, ofNat n = id := by
  simp only [decimalIds, List.mem_filter, List.mem_eraseDups, List.mem_map, exists_exists_and_eq_and]
  constructor
  · rintro ⟨⟨n, hn, rfl⟩, -⟩
    exact ⟨n, hn, (trim_ofNat n).symm⟩
  · rintro ⟨n, hn, rfl⟩
    exact ⟨⟨n, hn, trim_ofNat n⟩, isDigits_ofNat n⟩

/-- The check passes when it passes for each token, and fails as it does for one of them. -/
theorem assertTokensRedeemable_spec (contract : JsStr) (ns : List ℕ) :
    (assertTokensRedeemable g contract (ns.map ofNat) = .ok () ↔
      ∀ n ∈ ns, tokenCheck g contract n = .ok ()) ∧
    ∀ e, assertTokensRedeemable g contract (ns.map ofNat) = .error e →
      ∃ n ∈ ns, tokenCheck g contract n = .error e := by
  have hcheck : ∀ n ∈ ns, g.check (ofNat n) (byNorm (findRwaTokensByDecimalIds g.tokens contract
      (decimalIds (ns.map ofNat))) (normalizeDecimalTokenId (ofNat n))) = tokenCheck g contract n := by
    intro n hn
    rw [byNorm_find (mem_decimalIds.mpr ⟨n, hn, rfl⟩), tokenCheck]
  have hspec := checkEach_spec g (findRwaTokensByDecimalIds g.tokens contract
    (decimalIds (ns.map ofNat))) (decimalIds (ns.map ofNat))
  rw [assertTokensRedeemable]
  by_cases hempty : (decimalIds (ns.map ofNat)).isEmpty = true
  · have hnone : ∀ n, n ∉ ns := by
      intro n hn
      have hmem := mem_decimalIds.mpr ⟨n, hn, rfl⟩
      rw [List.isEmpty_iff.mp hempty] at hmem
      exact absurd hmem List.not_mem_nil
    simp only [hempty, if_true]
    exact ⟨⟨fun _ n hn => absurd hn (hnone n), fun _ => trivial⟩, fun e he => by cases he⟩
  · simp only [hempty]
    refine ⟨hspec.1.trans ⟨fun h n hn => ?_, fun h id hid => ?_⟩, fun e he => ?_⟩
    · rw [← hcheck n hn]
      exact h _ (mem_decimalIds.mpr ⟨n, hn, rfl⟩)
    · obtain ⟨n, hn, rfl⟩ := mem_decimalIds.mp hid
      rw [hcheck n hn]
      exact h n hn
    · obtain ⟨id, hid, herror⟩ := hspec.2 e he
      obtain ⟨n, hn, rfl⟩ := mem_decimalIds.mp hid
      exact ⟨n, hn, hcheck n hn ▸ herror⟩

end Lookup

section Messages
variable {n : ℕ}

theorem notRegisteredTokenId_notRegistered (hn : 0 < n) :
    notRegisteredTokenId (notRegistered (ofNat n)) = some n := by
  have hdigits := isDigits_ofNat n
  have hne : ofNat n ≠ [] := Nat.toDigits_ne_nil
  have hall : ∀ c ∈ ofNat n, c.isDigit = true := by
    simp only [isDigits, Bool.and_eq_true, List.all_eq_true] at hdigits
    exact hdigits.2
  have hsplit : (notRegistered (ofNat n)).message = js "Token #" ++ (ofNat n ++
      (js " is not registered on Tokenable yet" ++ js " — it cannot be redeemed. Contact support.")) := by
    rw [notRegistered, HttpError.message, List.append_assoc]
    rfl
  have hgroup : Regex.group (Regex.lit "Token #") (Regex.plus Regex.digit)
      (Regex.lit " is not registered on Tokenable yet") (notRegistered (ofNat n)).message =
        some (ofNat n) := by
    rw [hsplit]
    refine Regex.group_digits hne hall fun c hc => ?_
    obtain rfl : ' ' = c := Option.some.inj hc
    rfl
  have hnumber : toNumber (ofNat n) = some n := by
    rw [toNumber, trim_ofNat, isDigits_ofNat, toNat_ofNat]
    simp [hne]
  rw [notRegisteredTokenId, hgroup, Option.bind_some, hnumber]
  simp [hn]

/-- A message with one `T` does not say that a token is missing. -/
theorem notRegisteredTokenId_eq_none {e : HttpError} (h : e.message.count 'T' < 2) :
    notRegisteredTokenId e = none := by
  cases hgroup : Regex.group (Regex.lit "Token #") (Regex.plus Regex.digit)
      (Regex.lit " is not registered on Tokenable yet") e.message with
  | none => rw [notRegisteredTokenId, hgroup, Option.bind_none, Option.filter_none]
  | some word =>
    have hcount := Regex.count_le_of_group (a := 'T') hgroup
    have hfirst : "Token #".toList.count 'T' = 1 := by decide
    have hsecond : " is not registered on Tokenable yet".toList.count 'T' = 1 := by decide
    omega

theorem count_ofNat (n : ℕ) : (ofNat n).count 'T' = 0 := by
  rw [List.count_eq_zero]
  intro hmem
  have hdigit : 'T'.isDigit = true := Nat.isDigit_of_mem_toDigits (by decide) (by decide) hmem
  cases hdigit

/-- Only the error of a missing token names it. -/
theorem notRegisteredTokenId_check {o : Option RwaToken} {e : HttpError} (hn : 0 < n)
    (h : g.check (ofNat n) o = .error e) :
    (o = none ∧ notRegisteredTokenId e = some n) ∨ (o ≠ none ∧ notRegisteredTokenId e = none) := by
  cases o with
  | none =>
    obtain rfl : notRegistered (ofNat n) = e := Except.error.inj h
    exact .inl ⟨rfl, notRegisteredTokenId_notRegistered hn⟩
  | some token =>
    refine .inr ⟨Option.some_ne_none token, notRegisteredTokenId_eq_none ?_⟩
    have hfirst : (js "Token #").count 'T' = 1 := by decide
    rw [Registry.check] at h
    split_ifs at h
    · obtain rfl := Except.error.inj h
      have htail : (js " has already been redeemed").count 'T' = 0 := by decide
      simp only [HttpError.message, List.count_append, count_ofNat, hfirst, htail]
      omega
    · obtain rfl := Except.error.inj h
      have htail : (js " is missing its vault record (no PSA cert on file) ").count 'T' = 0 := by decide
      have hrest : (js "— contact support before redeeming.").count 'T' = 0 := by decide
      simp only [HttpError.message, List.count_append, count_ofNat, hfirst, htail, hrest]
      omega
    · cases hcycle : g.cycles.get (token.vaultCycleId.getD []) with
      | none =>
        rw [hcycle] at h
        cases h
      | some cycle =>
        rw [hcycle] at h
        dsimp only at h
        split_ifs at h
        obtain rfl := Except.error.inj h
        have htail : (js " is not redeemable right now (vault status: ").count 'T' = 0 := by decide
        have hstatus : cycle.status.text.count 'T' = 0 := by cases cycle.status <;> decide
        have hclose : (js ")").count 'T' = 0 := by decide
        simp only [HttpError.message, List.count_append, count_ofNat, hfirst, htail, hstatus, hclose]
        omega

end Messages

section Ensure
variable {x contract} {t t' : TokenTable} {m n : ℕ}

def IsKeyed (contract : JsStr) (n : ℕ) (row : RwaToken) : Prop := row.key = (contract, ofNat n)

theorem isKeyed_upsertedRow {metadata : Metadata} {tokenUri : JsStr} :
    IsKeyed contract n (upsertedRow contract (t.get (contract, ofNat n)) n metadata tokenUri) := by
  cases hold : t.get (contract, ofNat n) with
  | none => rfl
  | some old =>
    have hkey : old.key = (contract, ofNat n) := Db.Table.get_key hold
    exact hkey

/-- Two tables in which nothing stands under the key of the token are changed in the same way. -/
def ChangedAlike (contract : JsStr) (n : ℕ) (t t' u u' : TokenTable) : Prop :=
  (u = t ∧ u' = t') ∨ ∃ row, IsKeyed contract n row ∧ u = t.save row ∧ u' = t'.save row

theorem changedAlike_upsert (ht : t.get (contract, ofNat n) = none)
    (ht' : t'.get (contract, ofNat n) = none) (metadata : Metadata) (tokenUri : JsStr) :
    ChangedAlike contract n t t' ((upsertFromMetadata x contract t n metadata tokenUri).getD t)
      ((upsertFromMetadata x contract t' n metadata tokenUri).getD t') := by
  have hkeyed : IsKeyed contract n
      (upsertedRow contract (t.get (contract, ofNat n)) n metadata tokenUri) := isKeyed_upsertedRow
  rw [upsertFromMetadata, upsertFromMetadata, ht', ht]
  rw [ht] at hkeyed
  by_cases hstorable : x.storable (upsertedRow contract none n metadata tokenUri) = true
  · simp only [hstorable, if_true, Option.getD_some]
    exact .inr ⟨_, hkeyed, rfl, rfl⟩
  · simp only [hstorable]
    exact .inl ⟨rfl, rfl⟩

theorem changedAlike_sync (ht : t.get (contract, ofNat n) = none)
    (ht' : t'.get (contract, ofNat n) = none) :
    ChangedAlike contract n t t' (syncTokenFromChain x contract t n)
      (syncTokenFromChain x contract t' n) := by
  have huri : resolveMetadataUriForToken x contract t n = resolveMetadataUriForToken x contract t' n := by
    rw [resolveMetadataUriForToken, resolveMetadataUriForToken, ht, ht']
  rw [syncTokenFromChain, syncTokenFromChain, ← huri]
  cases resolveMetadataUriForToken x contract t n with
  | none => exact .inl ⟨rfl, rfl⟩
  | some tokenUri =>
    dsimp only
    cases x.fetchMetadataJson tokenUri with
    | error e => exact .inl ⟨rfl, rfl⟩
    | ok metadata => exact changedAlike_upsert ht ht' metadata tokenUri

theorem changedAlike_ensure (ht : t.get (contract, ofNat n) = none)
    (ht' : t'.get (contract, ofNat n) = none) :
    ChangedAlike contract n t t' (ensureFromChain x contract t n) (ensureFromChain x contract t' n) := by
  rw [ensureFromChain, ensureFromChain]
  split_ifs
  · exact .inl ⟨rfl, rfl⟩
  · rcases changedAlike_sync (x := x) ht ht' with ⟨hu, hu'⟩ | ⟨row, hrow, hu, hu'⟩
    · have hmissing : hasRow contract t n = false := by rw [hasRow, ht, Option.isSome_none]
      have hmissing' : hasRow contract t' n = false := by rw [hasRow, ht', Option.isSome_none]
      rw [hu, hu']
      simp only [hmissing, hmissing', Bool.false_eq_true, if_false]
      cases x.getRwaTokenURI n with
      | error e => exact .inl ⟨rfl, rfl⟩
      | ok tokenUri => exact changedAlike_upsert ht ht' {} tokenUri
    · have hpresent : ∀ t : TokenTable, hasRow contract (t.save row) n = true := by
        intro t
        have hself := Db.Table.get_save_self t row
        rw [hrow] at hself
        rw [hasRow, hself, Option.isSome_some]
      rw [hu, hu']
      simp only [hpresent, if_true]
      exact .inr ⟨row, hrow, rfl, rfl⟩

theorem isRowOf_of_isKeyed {row : RwaToken} (h : IsKeyed contract n row) :
    isRowOf contract m row = true ↔ m = n := by
  have hcontract : row.tokenContract = contract := congrArg Prod.fst h
  have hid : row.tokenId = ofNat n := congrArg Prod.snd h
  rw [isRowOf, hcontract, hid, isDigits_ofNat]
  simp only [decide_true, Bool.true_and, decide_eq_true_eq, normalized_eq_iff]
  exact eq_comm

/-- A token without a row has none under its key. -/
theorem get_of_registered_eq_none (h : registered contract t n = none) :
    t.get (contract, ofNat n) = none := by
  rw [registered, List.getLast?_eq_none_iff] at h
  rw [Db.Table.get_eq_none]
  intro row hrow hkey
  have hmem : row ∈ t.find (isRowOf contract n) :=
    Db.Table.mem_find.mpr ⟨hrow, (isRowOf_of_isKeyed hkey).mpr rfl⟩
  rw [h] at hmem
  exact absurd hmem List.not_mem_nil

theorem registered_save_of_ne {row : RwaToken} (h : IsKeyed contract n row) (hne : m ≠ n) :
    registered contract (t.save row) m = registered contract t m := by
  have hother : ∀ r : RwaToken, r.key = (contract, ofNat n) → isRowOf contract m r = false := by
    intro r hr
    rw [Bool.eq_false_iff]
    exact fun htrue => hne ((isRowOf_of_isKeyed hr).mp htrue)
  rw [registered, registered, Db.Table.find_save_of_not (hother row h)]
  intro old hold
  exact hother old ((Db.Table.get_key hold).trans h)

theorem registered_save_self {row : RwaToken} (h : IsKeyed contract n row)
    (hnone : registered contract t n = none) : registered contract (t.save row) n = some row := by
  have hget : t.get row.key = none := by
    rw [h]
    exact get_of_registered_eq_none hnone
  rw [registered, List.getLast?_eq_none_iff] at hnone
  rw [registered, Db.Table.find_save_of_get_eq_none hget, hnone,
    if_pos ((isRowOf_of_isKeyed h).mpr rfl)]
  rfl

/-- Registering a missing token changes what is found for no other token. -/
theorem registered_ensure_of_ne (hnone : registered contract t n = none) (hne : m ≠ n) :
    registered contract (ensureFromChain x contract t n) m = registered contract t m := by
  have hget := get_of_registered_eq_none hnone
  rcases changedAlike_ensure (x := x) hget hget with ⟨hu, -⟩ | ⟨row, hrow, hu, -⟩
  · rw [hu]
  · rw [hu, registered_save_of_ne hrow hne]

/-- What is found for a missing token after it was registered does not depend on the other rows. -/
theorem registered_ensure_congr (hnone : registered contract t n = none)
    (hnone' : registered contract t' n = none) :
    registered contract (ensureFromChain x contract t n) n =
      registered contract (ensureFromChain x contract t' n) n := by
  have hget := get_of_registered_eq_none hnone
  have hget' := get_of_registered_eq_none hnone'
  rcases changedAlike_ensure (x := x) hget hget' with ⟨hu, hu'⟩ | ⟨row, hrow, hu, hu'⟩
  · rw [hu, hu', hnone, hnone']
  · rw [hu, hu', registered_save_self hrow hnone, registered_save_self hrow hnone']

end Ensure

section Loop
variable {ids healed : List ℕ} {s : State} {n : ℕ}

/-- The token is redeemable, or it is not registered and redeemable after it was registered. -/
def Heals (n : ℕ) : Prop :=
  tokenCheck g contract n = .ok () ∨ (registered contract g.tokens n = none ∧
    tokenCheck { g with tokens := ensureFromChain x contract g.tokens n } contract n = .ok ())

/-- The rounds so far: each healed token was missing and was registered once. -/
structure Rounds (ids healed : List ℕ) (s : State) : Prop where
  ensured : s.ensured = healed
  nodup : healed.Nodup
  subset : healed ⊆ ids
  missing : ∀ n ∈ healed, registered contract g.tokens n = none
  once : ∀ n ∈ healed, registered contract s.tokens n =
    registered contract (ensureFromChain x contract g.tokens n) n
  others : ∀ n, n ∉ healed → registered contract s.tokens n = registered contract g.tokens n

variable {x g contract}

theorem tokenCheck_tokens (t : TokenTable) :
    tokenCheck { g with tokens := t } contract n = g.check (ofNat n) (registered contract t n) := by
  rw [tokenCheck]
  cases registered contract t n <;> rfl

theorem Rounds.start : Rounds x g contract ids [] ⟨g.tokens, []⟩ :=
  ⟨rfl, List.nodup_nil, List.nil_subset ids, fun _ hn => absurd hn List.not_mem_nil,
    fun _ hn => absurd hn List.not_mem_nil, fun _ _ => rfl⟩

/-- What the check says now about a token decides whether it heals. -/
theorem Rounds.heals_iff (h : Rounds x g contract ids healed s)
    (hdone : n ∈ healed ∨ registered contract s.tokens n ≠ none) :
    Heals x g contract n ↔ tokenCheck { g with tokens := s.tokens } contract n = .ok () := by
  rw [Heals, tokenCheck_tokens, tokenCheck_tokens, tokenCheck]
  by_cases hn : n ∈ healed
  · have hfirst : g.check (ofNat n) (registered contract g.tokens n) ≠ .ok () := by
      rw [h.missing n hn]
      exact fun heq => by cases heq
    rw [h.once n hn]
    constructor
    · rintro (hok | ⟨-, hok⟩)
      · exact absurd hok hfirst
      · exact hok
    · exact fun hok => .inr ⟨h.missing n hn, hok⟩
  · rw [h.others n hn]
    have hpresent : registered contract g.tokens n ≠ none := by
      rw [← h.others n hn]
      exact hdone.resolve_left hn
    constructor
    · rintro (hok | ⟨hnone, -⟩)
      · exact hok
      · exact absurd hnone hpresent
    · exact .inl

theorem Rounds.next (h : Rounds x g contract ids healed s) (hids : n ∈ ids) (hnew : n ∉ healed)
    (hmissing : registered contract s.tokens n = none) :
    Rounds x g contract ids (healed ++ [n]) (ensure x contract s n) := by
  have hbefore : registered contract g.tokens n = none := by rw [← h.others n hnew, hmissing]
  have hkept : ∀ m, m ≠ n → registered contract (ensure x contract s n).tokens m =
      registered contract s.tokens m := fun m hne => registered_ensure_of_ne hmissing hne
  refine ⟨congrArg (· ++ [n]) h.ensured, ?_, ?_, fun m hm => ?_, fun m hm => ?_, fun m hm => ?_⟩
  · rw [List.nodup_append]
    refine ⟨h.nodup, List.nodup_singleton n, fun a ha b hb => ?_⟩
    rw [List.mem_singleton.mp hb]
    exact fun heq => hnew (heq ▸ ha)
  · exact List.append_subset.mpr ⟨h.subset, by simpa using hids⟩
  · rcases List.mem_append.mp hm with hold | hlast
    · exact h.missing m hold
    · rw [List.mem_singleton.mp hlast, hbefore]
  · rcases List.mem_append.mp hm with hold | hlast
    · have hne : m ≠ n := fun heq => hnew (heq ▸ hold)
      rw [hkept m hne, h.once m hold]
    · rw [List.mem_singleton.mp hlast]
      exact registered_ensure_congr hmissing hbefore
  · rw [List.mem_append, List.mem_singleton, not_or] at hm
    rw [hkept m hm.2, h.others m hm.1]

/-- The loop succeeds if and only if every token heals, and registers no token twice. -/
theorem healLoop_spec {rounds : ℕ} (hpos : ∀ n ∈ ids, 0 < n) (h : Rounds x g contract ids healed s)
    (hrounds : rounds + healed.length = ids.length + 1) :
    (healLoop x g contract ids rounds healed s).2.ensured.Nodup ∧
      (healLoop x g contract ids rounds healed s).2.ensured ⊆ ids ∧
      ((healLoop x g contract ids rounds healed s).1 = .ok () ↔ ∀ n ∈ ids, Heals x g contract n) := by
  induction rounds generalizing healed s with
  | zero =>
    have hlength := (List.subperm_of_subset h.nodup h.subset).length_le
    omega
  | succ rounds ih =>
    have hstop : s.ensured.Nodup ∧ s.ensured ⊆ ids := by
      rw [h.ensured]
      exact ⟨h.nodup, h.subset⟩
    have hspec := assertTokensRedeemable_spec { g with tokens := s.tokens } contract ids
    have hfailed : ∀ e : HttpError, ∀ n ∈ ids, ¬ Heals x g contract n →
        (s.ensured.Nodup ∧ s.ensured ⊆ ids ∧
          ((Except.error e : Except HttpError Unit) = .ok () ↔ ∀ n ∈ ids, Heals x g contract n)) :=
      fun e n hn hnot => ⟨hstop.1, hstop.2, fun heq => (by cases heq), fun hall => absurd (hall n hn) hnot⟩
    rw [healLoop]
    cases hcheck : assertTokensRedeemable { g with tokens := s.tokens } contract (ids.map ofNat) with
    | ok a =>
      refine ⟨hstop.1, hstop.2, fun _ n hn => ?_, fun _ => rfl⟩
      have hok := hspec.1.mp hcheck n hn
      have hpresent : registered contract s.tokens n ≠ none := by
        rw [tokenCheck_tokens] at hok
        intro hnone
        rw [hnone] at hok
        cases hok
      exact (h.heals_iff (.inr hpresent)).mpr hok
    | error e =>
      obtain ⟨n, hn, hfail⟩ := hspec.2 e hcheck
      have hnot : n ∈ healed ∨ registered contract s.tokens n ≠ none → ¬ Heals x g contract n := by
        intro hdone hheals
        rw [h.heals_iff hdone, hfail] at hheals
        cases hheals
      rw [tokenCheck_tokens] at hfail
      rcases notRegisteredTokenId_check g (hpos n hn) hfail with ⟨hmissing, hid⟩ | ⟨hpresent, hid⟩
      · dsimp only
        rw [hid]
        dsimp only
        by_cases hhealed : n ∈ healed
        · rw [if_pos hhealed]
          exact hfailed e n hn (hnot (.inl hhealed))
        · rw [if_neg hhealed]
          refine ih (h.next hn hhealed hmissing) ?_
          rw [List.length_append, List.length_singleton]
          omega
      · dsimp only
        rw [hid]
        exact hfailed e n hn (hnot (.inr hpresent))

end Loop

section Heal
variable {x g contract} {n : ℕ}

def Redeemable (g : Registry) (contract : JsStr) (n : ℕ) : Prop :=
  assertTokensRedeemable g contract [ofNat n] = .ok ()

def IsRegistered (g : Registry) (contract : JsStr) (n : ℕ) : Prop :=
  ∃ t ∈ g.tokens.rows, lower t.tokenContract = lower contract ∧ isDigits t.tokenId = true ∧
    toNat t.tokenId = n

theorem redeemable_iff : Redeemable g contract n ↔ tokenCheck g contract n = .ok () := by
  have hspec := (assertTokensRedeemable_spec g contract [n]).1
  rw [Redeemable]
  exact hspec.trans (by simp)

theorem isRegistered_iff : ¬ IsRegistered g contract n ↔ registered contract g.tokens n = none := by
  rw [registered, List.getLast?_eq_none_iff, IsRegistered]
  have hrow : ∀ t : RwaToken, isRowOf contract n t = true ↔
      lower t.tokenContract = lower contract ∧ isDigits t.tokenId = true ∧ toNat t.tokenId = n := by
    intro t
    simp only [isRowOf, Bool.and_eq_true, decide_eq_true_eq]
    refine and_congr_right fun _ => and_congr_right fun hdigits => ?_
    have htrim : isDigits (trim t.tokenId) = true := by rw [trim_of_isDigits hdigits, hdigits]
    have hn : isDigits (trim (ofNat n)) = true := by rw [trim_ofNat, isDigits_ofNat]
    rw [Orders.normalizeDecimalTokenId_eq_iff htrim hn, trim_ofNat, toNat_ofNat,
      trim_of_isDigits hdigits]
  rw [Db.Table.find, List.filter_eq_nil_iff]
  constructor
  · intro h t ht hmatch
    exact h ⟨t, ht, (hrow t).mp hmatch⟩
  · rintro h ⟨t, ht, hmatch⟩
    exact h t ht ((hrow t).mpr hmatch)

end Heal

end RegistryHeal

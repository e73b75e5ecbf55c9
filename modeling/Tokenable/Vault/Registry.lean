import Tokenable.Orders.Order
import Tokenable.Platform.Config
import Tokenable.Vault.Entities

/-!
# The token registry and the check before a redemption

`assertTokensRedeemable` of `VaultService` looks tokens up by their decimal ids, however they are
padded, and throws for the first that cannot be redeemed. `ensureFromChain` of
`RwaTokenRegistryService` inserts the row of a token that is missing, from what the chain and the IPFS
gateways say about it.
-/

namespace Vault
open Js Platform
open Orders (normalizeDecimalTokenId)

structure Registry where
  tokens : TokenTable
  cycles : CycleTable
  assets : List VaultAsset

section Redeemable

def decimalTokenIdLookupKeys (raw : JsStr) : List JsStr :=
  if (trim raw).isEmpty then [] else [trim raw, normalizeDecimalTokenId (trim raw)].eraseDups

/-- The condition of `applyDecimalTokenIdMatch` on a row. -/
def matchesDecimalIds (tokenContract : JsStr) (ids : List JsStr) (t : RwaToken) : Bool :=
  lower t.tokenContract = lower tokenContract &&
    (t.tokenId ∈ (ids.flatMap decimalTokenIdLookupKeys).eraseDups ||
      (isDigits t.tokenId &&
        normalizeDecimalTokenId t.tokenId ∈ (ids.map normalizeDecimalTokenId).eraseDups))

def decimalIds (tokenIds : List JsStr) : List JsStr :=
  (tokenIds.map trim).eraseDups.filter isDigits

def findRwaTokensByDecimalIds (tokens : TokenTable) (tokenContract : JsStr) (tokenIds : List JsStr) :
    List RwaToken :=
  let ids := ((tokenIds.map trim).filter isDigits).eraseDups
  if ids.isEmpty then [] else tokens.find (matchesDecimalIds tokenContract ids)

/-- `byNorm.get`: of two rows with one id the later one. -/
def byNorm (rows : List RwaToken) (norm : JsStr) : Option RwaToken :=
  (rows.filter fun t => normalizeDecimalTokenId t.tokenId = norm).getLast?

/-- The asset of a cycle, among those with an id. -/
def Registry.assetOf (g : Registry) (c : VaultCycle) : Option VaultAsset :=
  if c.vaultAssetId.isEmpty then none else g.assets.find? fun a => a.id = c.vaultAssetId

def Registry.isStaleCycle (g : Registry) (token : RwaToken) (c : VaultCycle) : Bool :=
  let tokenCert := trim (token.certNumber.getD [])
  let assetCert := trim (((g.assetOf c).map VaultAsset.externalCertNumber).getD [])
  !tokenCert.isEmpty && !assetCert.isEmpty && normalizeCert tokenCert ≠ normalizeCert assetCert

def notRegistered (tokenId : JsStr) : HttpError :=
  .badRequest (js "Token #" ++ tokenId ++
    js " is not registered on Tokenable yet — it cannot be redeemed. Contact support.")

def Registry.check (g : Registry) (tokenId : JsStr) : Option RwaToken → Except HttpError Unit
  | none => .error (notRegistered tokenId)
  | some token =>
    if token.burnedAt.isSome then
      .error (.badRequest (js "Token #" ++ tokenId ++ js " has already been redeemed"))
    else if !truthy token.vaultCycleId then
      if (trim (token.certNumber.getD [])).isEmpty then
        .error (.badRequest (js "Token #" ++ tokenId ++
          js " is missing its vault record (no PSA cert on file) " ++
          js "— contact support before redeeming."))
      else .ok ()
    else
      match g.cycles.get (token.vaultCycleId.getD []) with
      | none => .ok ()
      | some cycle =>
        if cycle.status = .minted ∨ g.isStaleCycle token cycle then .ok ()
        else .error (.conflict (js "Token #" ++ tokenId ++
          js " is not redeemable right now (vault status: " ++ cycle.status.text ++ js ")"))

def Registry.checkEach (g : Registry) (rows : List RwaToken) : List JsStr → Except HttpError Unit
  | [] => .ok ()
  | tokenId :: ids => do
    g.check tokenId (byNorm rows (normalizeDecimalTokenId tokenId))
    g.checkEach rows ids

def assertTokensRedeemable (g : Registry) (tokenContract : JsStr) (tokenIds : List JsStr) :
    Except HttpError Unit :=
  let ids := decimalIds tokenIds
  if ids.isEmpty then .ok ()
  else g.checkEach (findRwaTokensByDecimalIds g.tokens tokenContract ids) ids

end Redeemable

section Ensure

/-- What `psaCertNumberFromGradedMeta` and `resolveRegistryDisplayName` read in a document. -/
structure Metadata where
  certNumber : Option JsStr := none
  displayName : Option JsStr := none

/-- What a call sees of the world: the contract, the IPFS gateways, the texts that
`normalizeIpfsSubpath` takes for IPFS paths, and the rows that fit the columns of the table. -/
structure Sources where
  getRwaTokenURI : ℕ → Except HttpError JsStr
  fetchMetadataJson : JsStr → Except HttpError Metadata
  isIpfs : JsStr → Bool
  storable : RwaToken → Bool

def ipfsScheme : JsStr := js "ipfs://"

def metadataCidFromTokenUri (uri : JsStr) : Option JsStr :=
  let u := trim uri
  if !ipfsScheme.isPrefixOf u then none
  else
    let rest := u.drop 7
    let path := if (js "ipfs/").isPrefixOf rest then rest.drop 5 else rest
    let cid := trim (path.takeWhile (· ≠ '/'))
    if cid.isEmpty then none else some cid

def registryMetadataUri (row : RwaToken) : JsStr :=
  let tokenUri := trim (row.tokenUri.getD [])
  let cid := trim (row.metadataCid.getD [])
  if !tokenUri.isEmpty then tokenUri
  else if cid.isEmpty then []
  else if ipfsScheme.isPrefixOf (lower cid) then cid
  else ipfsScheme ++ cid

variable (x : Sources) (contract : JsStr)

def resolveMetadataUriForToken (t : TokenTable) (tokenId : ℕ) : Option JsStr :=
  let chainUri := match x.getRwaTokenURI tokenId with
    | .ok uri => trim uri
    | .error _ => []
  if !chainUri.isEmpty && x.isIpfs chainUri then some chainUri
  else
    let registryUri := ((t.get (contract, ofNat tokenId)).map registryMetadataUri).getD []
    if !registryUri.isEmpty && x.isIpfs registryUri then some registryUri
    else
      let fallback := if chainUri.isEmpty then registryUri else chainUri
      if (trim fallback).isEmpty then none else some fallback

/-- The row that `upsertFromMetadata` inserts, or the one that it updates. -/
def upsertedRow (old : Option RwaToken) (tokenId : ℕ) (metadata : Metadata) (tokenUri : JsStr) :
    RwaToken :=
  let uri := if (trim tokenUri).isEmpty then none else some (trim tokenUri)
  { old.getD { tokenContract := contract, tokenId := ofNat tokenId } with
    certNumber := metadata.certNumber
    tokenUri := uri
    metadataCid := uri.bind metadataCidFromTokenUri
    displayName := metadata.displayName }

/-- The table, or `none` when the database refuses the row. -/
def upsertFromMetadata (t : TokenTable) (tokenId : ℕ) (metadata : Metadata) (tokenUri : JsStr) :
    Option TokenTable :=
  let row := upsertedRow contract (t.get (contract, ofNat tokenId)) tokenId metadata tokenUri
  if x.storable row then some (t.save row) else none

/-- Every failure is caught. -/
def syncTokenFromChain (t : TokenTable) (tokenId : ℕ) : TokenTable :=
  match resolveMetadataUriForToken x contract t tokenId with
  | none => t
  | some tokenUri =>
    match x.fetchMetadataJson tokenUri with
    | .error _ => t
    | .ok metadata => (upsertFromMetadata x contract t tokenId metadata tokenUri).getD t

def hasRow (t : TokenTable) (tokenId : ℕ) : Bool := (t.get (contract, ofNat tokenId)).isSome

def ensureFromChain (t : TokenTable) (tokenId : ℕ) : TokenTable :=
  if tokenId = 0 then t
  else
    let synced := syncTokenFromChain x contract t tokenId
    if hasRow contract synced tokenId then synced
    else
      match x.getRwaTokenURI tokenId with
      | .error _ => synced
      | .ok tokenUri => (upsertFromMetadata x contract synced tokenId {} tokenUri).getD synced

end Ensure

end Vault

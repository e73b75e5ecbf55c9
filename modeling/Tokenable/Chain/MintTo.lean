import Tokenable.Chain.RpcRetry

/-!
# `mintTo`

One call of `RwaChainWriterService.mintTo`: argument checks, then submit, report, wait, read the
token id off the receipt and record the owner, all inside the rate-limit retry loop, and last the
translation of whatever was thrown into an HTTP exception. The steps that leave the process are
parameters (`MintOps`), so the same text runs against a scripted wallet here and against the
shared chain and database elsewhere.
-/

namespace Chain
open Js Platform Async

/-- A decoded receipt log; anything but an ERC-721 `Transfer` is skipped. -/
inductive ReceiptLog where
  | transfer (sender : JsStr) (tokenId : ℕ)
  | other
  deriving DecidableEq

structure Receipt where
  hash : Option JsStr
  logs : List ReceiptLog
  deriving DecidableEq

def zeroAddress : JsStr := js "0x0000000000000000000000000000000000000000"

def zeroHash : JsStr := js "0x0000000000000000000000000000000000000000000000000000000000000000"

def parseMintedTokenIds (logs : List ReceiptLog) : List ℕ :=
  logs.filterMap fun
    | .transfer sender tokenId => if lower sender = zeroAddress then some tokenId else none
    | .other => none

structure MintResult where
  tokenId : ℕ
  txHash : JsStr
  deriving DecidableEq

structure MintOps (C : Type) (R : C → Type) where
  mint : JsStr → Prog C R Thrown JsStr
  onSubmitted : JsStr → Prog C R Thrown Unit
  wait : JsStr → Prog C R Thrown (Option Receipt)
  recordOwner : ℕ → JsStr → Prog C R Thrown Unit
  sleep : ℕ → Prog C R Thrown Unit

def noReceiptHash : Thrown :=
  .ofHttp (.internal (js "Mint transaction was mined but returned no receipt hash"))

def noMintTransfer : Thrown := .ofHttp (.internal
  (js "Mint receipt had no ERC-721 Transfer from address(0) — check contract events"))

/-- What the receipt says was minted: its hash and the first minted token. -/
def readReceipt (receipt : Option Receipt) : Except Thrown MintResult :=
  match receipt.bind Receipt.hash with
  | none => .error noReceiptHash
  | some hash =>
    if hash.isEmpty then .error noReceiptHash
    else
      match parseMintedTokenIds ((receipt.map Receipt.logs).getD []) with
      | [] => .error noMintTransfer
      | tokenId :: _ => .ok ⟨tokenId, hash⟩

def rpcErrorBlob : Thrown → JsStr
  | .nullish _ => []
  | .primitive text => text
  | .object e =>
    let code := match e.code with
      | some (.text s) => some s
      | _ => none
    let parts := [e.shortMessage, e.reason, e.message, e.infoMessage, code]
    (js " ").intercalate ((parts.filterMap id).filter (fun s => !(trim s).isEmpty))

def formatMintRpcError (err : Thrown) : JsStr :=
  if isRpcRateLimitError err then
    js "Blockchain RPC rate limit (Alchemy compute units). Wait a few seconds and retry mint, " ++
      js "or raise RPC_MAX_CONCURRENCY / upgrade the RPC plan."
  else
    let blob := lower (rpcErrorBlob err)
    let raw := trim (rpcErrorBlob err)
    if contains (js "minter role") blob || contains (js "must have minter role") blob then
      js "Mint wallet is missing MINTER_ROLE on the RWA contract. " ++
        js "Grant MINTER_ROLE to RWA_OWNER_PRIVATE_KEY on this chain."
    else if contains (js "paused") blob || contains (js "pausable") blob then
      js "RWA contract is paused — unpause before minting."
    else if contains (js "insufficient funds") blob || contains (js "insufficient balance") blob then
      js "Mint wallet has insufficient ETH for gas on this chain."
    else if contains (js "nonce too low") blob || contains (js "already known") blob then
      js "Mint transaction nonce conflict (another tx may be pending). " ++
        js "Wait for pending txs or reset the owner wallet nonce."
    else if contains (js "replacement fee too low") blob then
      js "Pending mint tx blocks a new one — wait for confirmation or speed up the stuck tx."
    else if contains (js "timeout") blob || contains (js "timed out") blob ||
        contains (js "etimedout") blob then
      js "Blockchain RPC timed out while waiting for mint confirmation — retry; " ++
        js "check ALCHEMY / RPC URL."
    else if contains (js "revert") blob || contains (js "execution reverted") blob then
      if raw.isEmpty then
        js "On-chain mint reverted (check contract pause, minter role, and recipient address)."
      else js "On-chain mint reverted: " ++ raw
    else if raw.isEmpty then
      js "On-chain mint failed (unknown RPC error). Check backend logs and " ++
        js "RWA_OWNER_PRIVATE_KEY / chain config."
    else js "On-chain mint failed: " ++ raw

/-- The `catch` of `mintTo`. -/
def toHttpException : Thrown → HttpError
  | .object { http := some e, .. } => e
  | err => .internal (formatMintRpcError err)

structure MintRequest where
  to_ : JsStr
  tokenURI : Option JsStr
  vaultRef : JsStr
  deriving DecidableEq

def MintRequest.recipient (req : MintRequest) : JsStr := lower (trim req.to_)

def MintRequest.check (req : MintRequest) : Except HttpError Unit :=
  if !isAddress req.recipient then .error (.badRequest (js "Invalid recipient wallet address"))
  else if !truthy (req.tokenURI.map trim) then .error (.badRequest (js "tokenURI is required"))
  else if req.vaultRef.isEmpty || req.vaultRef = zeroHash then
    .error (.badRequest (js "vaultRef is required"))
  else .ok ()

section MintTo
variable {C : Type} {R : C → Type}

/-- The part of an attempt that follows the submission. -/
def awaitMint (ops : MintOps C R) (recipient txHash : JsStr) : Prog C R Thrown MintResult := do
  let receipt ← ops.wait txHash
  let minted ← Prog.ret (readReceipt receipt)
  ops.recordOwner minted.tokenId recipient
  pure minted

/-- The closure that `withRpcProviderCall` runs: one attempt. -/
def mintAttempt (ops : MintOps C R) (recipient : JsStr) : Prog C R Thrown MintResult := do
  let txHash ← ops.mint recipient
  ops.onSubmitted txHash
  awaitMint ops recipient txHash

def mintTo (ops : MintOps C R) (req : MintRequest) : Prog C R HttpError MintResult :=
  match req.check with
  | .error e => .ret (.error e)
  | .ok () =>
    (withRpcRateLimitRetry ops.sleep (mintAttempt ops req.recipient) defaultMaxRetries).settle fun
      | .ok minted => .ret (.ok minted)
      | .error err => .ret (.error (toHttpException err))

end MintTo

section Script

/-- What happens to `contract.mint`: nothing is sent, or the transaction is broadcast and the call
returns its hash or still throws. -/
inductive MintReply where
  | rejected (err : Thrown)
  | sent (txHash : JsStr)
  | sentThenThrew (err : Thrown)
  deriving DecidableEq

/-- The outcomes of the steps of one attempt, in the order the attempt reaches them. -/
structure AttemptOutcome where
  mint : MintReply
  hook : Except Thrown Unit := .ok ()
  wait : Except Thrown (Option Receipt) := .ok none
  record : Except Thrown Unit := .ok ()

inductive ScriptCmd where
  | mint (recipient : JsStr)
  | onSubmitted (txHash : JsStr)
  | wait (txHash : JsStr)
  | recordOwner (tokenId : ℕ) (recipient : JsStr)
  | sleep (ms : ℕ)

abbrev ScriptRes : ScriptCmd → Type
  | .mint _ => Except Thrown JsStr
  | .onSubmitted _ => Except Thrown Unit
  | .wait _ => Except Thrown (Option Receipt)
  | .recordOwner .. => Except Thrown Unit
  | .sleep _ => Unit

/-- The wallet during one call: the number of the current attempt and what it has broadcast. -/
structure Wallet where
  attempt : ℕ
  broadcasts : List JsStr

def respond (script : ℕ → AttemptOutcome) (s : Wallet) : (c : ScriptCmd) → ScriptRes c × Wallet
  | .mint recipient =>
    match (script s.attempt).mint with
    | .rejected err => (.error err, s)
    | .sent txHash => (.ok txHash, { s with broadcasts := s.broadcasts ++ [recipient] })
    | .sentThenThrew err => (.error err, { s with broadcasts := s.broadcasts ++ [recipient] })
  | .onSubmitted _ => ((script s.attempt).hook, s)
  | .wait _ => ((script s.attempt).wait, s)
  | .recordOwner .. => ((script s.attempt).record, s)
  | .sleep _ => ((), { s with attempt := s.attempt + 1 })

def ask {α : Type} (c : ScriptCmd) (f : ScriptRes c → Except Thrown α) :
    Prog ScriptCmd ScriptRes Thrown α := .call c (fun r => .ret (f r))

/-- The steps of a call with or without the `onSubmitted` hook. -/
def scriptOps (hooked : Bool) : MintOps ScriptCmd ScriptRes where
  mint recipient := ask (.mint recipient) id
  onSubmitted txHash := if hooked then ask (.onSubmitted txHash) id else pure ()
  wait txHash := ask (.wait txHash) id
  recordOwner tokenId recipient := ask (.recordOwner tokenId recipient) id
  sleep ms := ask (.sleep ms) Except.ok

def mintBroadcasts (hooked : Bool) (req : MintRequest) (script : ℕ → AttemptOutcome) :
    List JsStr :=
  ((mintTo (scriptOps hooked) req).play (respond script) ⟨0, []⟩).2.broadcasts

def AttemptOutcome.broadcasts (o : AttemptOutcome) : Bool :=
  match o.mint with
  | .rejected _ => false
  | .sent _ | .sentThenThrew _ => true

def throttles {α : Type} : Except Thrown α → Bool
  | .ok _ => false
  | .error err => isRpcRateLimitError err

/-- Waiting for the receipt, or else recording the owner, fails with a rate-limit error. -/
def AttemptOutcome.awaitThrottled (o : AttemptOutcome) : Bool :=
  match o.wait with
  | .error err => isRpcRateLimitError err
  | .ok receipt => (readReceipt receipt).toBool && throttles o.record

/-- The first step of the attempt that fails does so with a rate-limit error. -/
def AttemptOutcome.throttled (hooked : Bool) (o : AttemptOutcome) : Bool :=
  match o.mint with
  | .rejected err | .sentThenThrew err => isRpcRateLimitError err
  | .sent _ =>
    match if hooked then o.hook else .ok () with
    | .error err => isRpcRateLimitError err
    | .ok () => o.awaitThrottled

theorem throttles_readReceipt (receipt : Option Receipt) : throttles (readReceipt receipt) = false := by
  have hhash : isRpcRateLimitError noReceiptHash = false := by decide
  have htransfer : isRpcRateLimitError noMintTransfer = false := by decide
  unfold readReceipt
  split
  · exact hhash
  · split_ifs
    · exact hhash
    · split
      · exact htransfer
      · rfl

theorem play_awaitMint (hooked : Bool) (script : ℕ → AttemptOutcome) (recipient txHash : JsStr)
    (s : Wallet) :
    ((awaitMint (scriptOps hooked) recipient txHash).play (respond script) s).2 = s ∧
      throttles ((awaitMint (scriptOps hooked) recipient txHash).play (respond script) s).1 =
        (script s.attempt).awaitThrottled := by
  cases hwait : (script s.attempt).wait with
  | error err =>
    simp [awaitMint, Prog.play_bind, scriptOps, ask, respond, hwait, Prog.onOk, throttles,
      AttemptOutcome.awaitThrottled]
  | ok receipt =>
    have hread := throttles_readReceipt receipt
    cases hminted : readReceipt receipt with
    | error err =>
      rw [hminted] at hread
      simpa [awaitMint, Prog.play_bind, scriptOps, ask, respond, hwait, hminted, Prog.onOk,
        AttemptOutcome.awaitThrottled, Except.toBool] using hread
    | ok minted =>
      cases hrecord : (script s.attempt).record <;>
        simp [awaitMint, Prog.play_bind, scriptOps, ask, respond, hwait, hminted, hrecord, pure,
          Prog.onOk, throttles, AttemptOutcome.awaitThrottled, Except.toBool]

/-- What one attempt does to the wallet, and whether the loop will retry it. -/
theorem play_mintAttempt (hooked : Bool) (script : ℕ → AttemptOutcome) (recipient : JsStr)
    (s : Wallet) :
    ((mintAttempt (scriptOps hooked) recipient).play (respond script) s).2 =
        { s with broadcasts := s.broadcasts ++
          if (script s.attempt).broadcasts then [recipient] else [] } ∧
      throttles ((mintAttempt (scriptOps hooked) recipient).play (respond script) s).1 =
        (script s.attempt).throttled hooked := by
  cases hmint : (script s.attempt).mint with
  | rejected err =>
    simp [mintAttempt, Prog.play_bind, scriptOps, ask, respond, hmint, Prog.onOk, throttles,
      AttemptOutcome.broadcasts, AttemptOutcome.throttled]
  | sentThenThrew err =>
    simp [mintAttempt, Prog.play_bind, scriptOps, ask, respond, hmint, Prog.onOk, throttles,
      AttemptOutcome.broadcasts, AttemptOutcome.throttled]
  | sent txHash =>
    have hawait := play_awaitMint hooked script recipient txHash
      { s with broadcasts := s.broadcasts ++ [recipient] }
    cases hooked with
    | false =>
      simpa [mintAttempt, Prog.play_bind, scriptOps, ask, respond, hmint, pure, Prog.onOk,
        AttemptOutcome.broadcasts, AttemptOutcome.throttled] using hawait
    | true =>
      cases hhook : (script s.attempt).hook with
      | error err =>
        simp [mintAttempt, Prog.play_bind, scriptOps, ask, respond, hmint, hhook, Prog.onOk,
          throttles, AttemptOutcome.broadcasts, AttemptOutcome.throttled]
      | ok _ =>
        simpa [mintAttempt, Prog.play_bind, scriptOps, ask, respond, hmint, hhook, Prog.onOk,
          AttemptOutcome.broadcasts, AttemptOutcome.throttled] using hawait

/-- The loop makes the attempts `k`, `k + 1`, … while they are throttled. -/
theorem play_retryFrom (hooked : Bool) (script : ℕ → AttemptOutcome) (recipient : JsStr)
    (n attempt : ℕ) (s : Wallet) :
    ((retryFrom (scriptOps hooked).sleep (mintAttempt (scriptOps hooked) recipient) n attempt).play
        (respond script) s).2.broadcasts.length =
      s.broadcasts.length + actsIn (fun k => (script (s.attempt + k)).broadcasts)
        (fun k => (script (s.attempt + k)).throttled hooked) n := by
  induction n generalizing attempt s with
  | zero => rfl
  | succ n ih =>
    obtain ⟨hwallet, hthrottled⟩ := play_mintAttempt hooked script recipient s
    have hcount : ∀ b : Bool, (if b then [recipient] else []).length = b.toNat := by
      intro b
      cases b <;> rfl
    simp only [retryFrom, Prog.play_settle, actsIn, Nat.add_zero]
    rw [hwallet, ← hthrottled]
    cases ((mintAttempt (scriptOps hooked) recipient).play (respond script) s).1 with
    | ok minted => simp [throttles, hcount]
    | error err =>
      cases hagain : isRpcRateLimitError err with
      | false => simp [throttles, hcount, hagain]
      | true =>
        cases n with
        | zero => simp [throttles, hcount, hagain, actsIn]
        | succ n =>
          have hnext := ih (attempt + 1) ⟨s.attempt + 1, s.broadcasts ++
            if (script s.attempt).broadcasts then [recipient] else []⟩
          have hshift : ∀ k, s.attempt + 1 + k = s.attempt + (k + 1) := by omega
          simp only [hshift, List.length_append, hcount] at hnext
          simp only [throttles, hagain, Bool.not_true, Bool.false_or, Nat.succ_ne_zero,
            decide_false, if_false, if_true, Bool.false_eq_true]
          rw [← Nat.add_assoc]
          exact hnext

/-- One `mintTo` call broadcasts at most one mint transaction if and only if its arguments are
rejected or no attempt broadcasts after an earlier one has, where attempt `j` is made when it is
one of the first six and every attempt before it ended in a rate-limit error. -/
theorem mintTo_broadcasts_le_one_iff (hooked : Bool) (req : MintRequest)
    (script : ℕ → AttemptOutcome) :
    (mintBroadcasts hooked req script).length ≤ 1 ↔
      req.check ≠ .ok () ∨ ∀ j < 6, (∀ m < j, (script m).throttled hooked) →
        (script j).broadcasts → ∀ i < j, ¬ (script i).broadcasts := by
  unfold mintBroadcasts mintTo
  cases hcheck : req.check with
  | error e => simp
  | ok u =>
    have hplay := play_retryFrom hooked script req.recipient defaultMaxRetries 1 ⟨0, []⟩
    simp only [Nat.zero_add, List.length_nil] at hplay
    have hcatch : ∀ (r : Except Thrown MintResult) (w : Wallet),
        ((match r with
          | .ok minted => .ret (.ok minted)
          | .error err => .ret (.error (toHttpException err)) :
            Prog ScriptCmd ScriptRes HttpError MintResult).play (respond script) w).2 = w := by
      intro r w
      cases r <;> rfl
    simp only [withRpcRateLimitRetry, Prog.play_settle, hcatch, hplay, actsIn_le_one_iff,
      not_true_eq_false, false_or, ne_eq]
    rfl

/-- The provider throttles the receipt poll of a submitted mint; the second attempt goes through. -/
def throttledWait : ℕ → AttemptOutcome
  | 0 => { mint := .sent (js "0x01"), wait := .error (.object { code := some (.number 429) }) }
  | _ => { mint := .sent (js "0x02"),
           wait := .ok (some ⟨some (js "0x02"), [.transfer zeroAddress 7]⟩) }

def mintRequest : MintRequest where
  to_ := js "0x00000000000000000000000000000000000000aa"
  tokenURI := some (js "ipfs://card")
  vaultRef := js "0x01"

theorem mintTo_broadcasts_twice :
    (mintBroadcasts true mintRequest throttledWait).length = 2 := by decide

end Script

end Chain

import Tokenable.Custody.Service

/-!
# What the intake of cards writes

`confirmCustodyTransfers` reads the tables and the chain, and its only writes are those of
`markCustodyReceived`: a row that was `ownership_verified` becomes `in_custody`.
-/

namespace Custody
open Js Platform Async Vault Redeem

def received (r : VaultRedemption) (custodyTxHash : JsStr) (at_ : ℕ) : VaultRedemption :=
  { r with
    custodyTxHash := some (lower (trim custodyTxHash)), custodyAt := some at_, status := .inCustody }

/-- Only a save of rows changes the redemption rows. -/
theorem redemptions_exec {cfg : Config} {s : Store} {x : Answer} {c : Cmd} :
    (exec cfg s x c).2.db.redemptions =
      match c with
      | .redeem (.saveRedemptions rows) => s.db.redemptions.saveAll (rows.map Prod.snd)
      | _ => s.db.redemptions := by
  rcases c with c | ⟨nft, to_⟩ | _
  · cases c with
    | transferUsdc batchId to_ amountMicros chainId =>
      dsimp only [exec, execRedeem]
      cases (Platform.transferUsdc cfg.env x.wallet to_ amountMicros chainId).moved <;> rfl
    | safeTransferFromCustody tokenId to_ chainId =>
      dsimp only [exec, execRedeem]
      cases (transferFromCustody cfg s x.submission tokenId to_ chainId).moved <;> rfl
    | _ => rfl
  · dsimp only [exec, Store.userTransfer]
    split_ifs <;> rfl
  all_goals rfl

section Given
variable {Ans : (c : LockCmd JsStr ⊕ Cmd) → LockRes JsStr Res c → Prop}
  {P : LockCmd JsStr ⊕ Cmd → Prop} {cfg : Config} {α β : Type}

theorem given_admin {c : Redeem.Cmd} {f : Redeem.Res c → M β} (hc : P (.inr (.redeem c)))
    (hf : ∀ r, Ans (.inr (.redeem c)) r → (f r).IssuesGiven Ans P) :
    (admin (Redeem.perform c) >>= f).IssuesGiven Ans P := ⟨hc, hf⟩

theorem given_attempt {r : Except HttpError α} {f : α → M β}
    (hf : ∀ a, r = .ok a → (f a).IssuesGiven Ans P) : (attempt r >>= f).IssuesGiven Ans P := by
  cases r with
  | ok a => exact hf a rfl
  | error e => exact Prog.issuesGiven_ret _

theorem given_throwIf {b : Bool} {e : HttpError} {f : Unit → M β}
    (hf : b = false → (f ()).IssuesGiven Ans P) : (Prog.throwIf b e >>= f).IssuesGiven Ans P := by
  cases b with
  | true => exact Prog.issuesGiven_ret _
  | false => exact hf rfl

theorem given_orThrow {o : Option α} {e : HttpError} {f : α → M β}
    (hf : ∀ a, o = some a → (f a).IssuesGiven Ans P) : (Prog.orThrow e o >>= f).IssuesGiven Ans P := by
  cases o with
  | none => exact Prog.issuesGiven_ret _
  | some a => exact hf a rfl

theorem given_discard {p : M α} (hp : p.IssuesGiven Ans P) : p.discard.IssuesGiven Ans P := by
  refine Prog.issuesGiven_settle hp fun r _ => ?_
  cases r <;> exact Prog.issuesGiven_ret _

def adminCmd (P : LockCmd JsStr ⊕ Cmd → Prop) : LockCmd JsStr ⊕ Redeem.Cmd → Prop
  | .inl l => P (.inl l)
  | .inr c => P (.inr (.redeem c))

def adminAns (Ans : (c : LockCmd JsStr ⊕ Cmd) → LockRes JsStr Res c → Prop) :
    (c : LockCmd JsStr ⊕ Redeem.Cmd) → LockRes JsStr Redeem.Res c → Prop
  | .inl l => Ans (.inl l)
  | .inr c => Ans (.inr (.redeem c))

theorem issuesGiven_admin {p : Redeem.M α} (h : p.IssuesGiven (adminAns Ans) (adminCmd P)) :
    (admin p).IssuesGiven Ans P := by
  induction p with
  | ret r => trivial
  | call c next ih =>
    rcases c with l | c
    · exact ⟨h.1, fun r hr => ih r (h.2 r hr)⟩
    · exact ⟨h.1, fun r hr => ih r (h.2 r hr)⟩

variable (hread : ∀ c : Cmd, (∀ rows, c ≠ .redeem (.saveRedemptions rows)) → P (.inr c))
  (hmark : ∀ id (found : Option VaultRedemption),
    Ans (.inr (.redeem (.findRedemption id))) found → ∀ r ∈ found,
    r.status = .ownershipVerified → ∀ txHash at_,
      P (.inr (.redeem (.saveRedemptions [(r, received r txHash at_)]))))

include hread hmark

theorem given_markCustodyReceived (redemptionId custodyTxHash : JsStr) :
    (markCustodyReceived redemptionId custodyTxHash).IssuesGiven Ans P := by
  refine given_admin (hread _ (by rintro rows ⟨⟩)) fun found hfound => given_orThrow fun row hrow => ?_
  split_ifs
  · exact Prog.issuesGiven_ret _
  · refine given_throwIf fun hstatus => given_admin (hread _ (by rintro rows ⟨⟩)) fun at_ _ => ?_
    have hverified : row.status = .ownershipVerified := by simpa using hstatus
    exact ⟨hmark _ found hfound row hrow hverified custodyTxHash at_, fun _ _ => trivial⟩

theorem given_confirmRow (rwa : JsStr) (transfers : List (ℕ × JsStr)) (chainId : ℕ)
    (row : VaultRedemption) : (confirmRow cfg rwa transfers chainId row).IssuesGiven Ans P := by
  refine Prog.issuesGiven_call_bind (hread _ (by rintro rows ⟨⟩)) fun found _ => ?_
  refine given_orThrow fun text _ => given_orThrow fun tokenId _ => ?_
  refine Prog.issuesGiven_call_bind (hread _ (by rintro rows ⟨⟩)) fun answer _ => given_attempt fun onChainOwner _ => ?_
  split_ifs
  · exact given_markCustodyReceived hread hmark _ _
  · refine given_throwIf fun _ => given_orThrow fun txHash _ => ?_
    refine Prog.issuesGiven_bind ?_ fun _ _ => given_markCustodyReceived hread hmark _ _
    refine Prog.issuesGiven_call_bind (hread _ (by rintro rows ⟨⟩)) fun receiptAnswer _ => ?_
    refine given_attempt fun receiptFound _ => given_orThrow fun receipt _ => given_throwIf fun _ => ?_
    refine Prog.issuesGiven_call_bind (hread _ (by rintro rows ⟨⟩)) fun current _ => given_attempt fun owner _ => ?_
    exact Prog.Issues.given (Prog.issues_throwIf _ _)

theorem given_confirmRows (rwa : JsStr) (transfers : List (ℕ × JsStr)) (chainId : ℕ)
    (rows : List VaultRedemption) : (confirmRows cfg rwa transfers chainId rows).IssuesGiven Ans P := by
  induction rows with
  | nil => exact Prog.issuesGiven_ret _
  | cons row rows ih =>
    exact Prog.issuesGiven_bind (given_confirmRow hread hmark rwa transfers chainId row) fun _ _ => ih

/-- Apart from the rows that it marks as received, a confirmation only reads. -/
theorem given_confirmCustodyTransfers (batchId : JsStr) (transfers : List (ℕ × JsStr)) (chainId : ℕ) :
    (confirmCustodyTransfers cfg batchId transfers chainId).IssuesGiven Ans P := by
  have hfind : (findRedemptionsByBatchId batchId chainId).IssuesGiven Ans P := by
    unfold findRedemptionsByBatchId
    split_ifs
    · exact Prog.issuesGiven_ret _
    · exact ⟨hread _ (by rintro rows ⟨⟩), fun _ _ => trivial⟩
  refine Prog.issuesGiven_call_bind (hread _ (by rintro rows ⟨⟩)) fun gate _ => given_attempt fun _ _ => ?_
  refine given_throwIf fun _ => Prog.issuesGiven_bind hfind fun rows _ => given_throwIf fun _ => ?_
  refine Prog.issuesGiven_call_bind (hread _ (by rintro rows ⟨⟩)) fun isRequester _ => ?_
  refine given_throwIf fun _ => given_throwIf fun _ => given_attempt fun rwa _ => ?_
  dsimp only
  split_ifs
  · exact Prog.issuesGiven_ret _
  · refine Prog.issuesGiven_bind (given_confirmRows hread hmark _ _ _ _) fun _ _ => ?_
    refine Prog.issuesGiven_bind hfind fun updated _ => ?_
    exact Prog.Issues.given (Prog.issues_throwIf _ _)

end Given

end Custody

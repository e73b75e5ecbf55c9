import Tokenable.Async.PromiseLock
import Tokenable.Js.Text

/-!
# The locks of the services

Four services serialize their money-moving operations by a map of chained promises: the admin's
redemption batches, the self-vault payouts, and the transactions of a signer, in the chain writer
and in the fee wallet. Each has its own map.
-/

namespace ServiceLocks
open Js PromiseLock

variable {ε α : Type}

/-- `RedeemsAdminService` -/
def withBatchLock (batchId : JsStr) (s : State JsStr ε α) : State JsStr ε α := s.lock batchId

/-- `SelfVaultSettlementService` -/
def withPayoutLock (id : JsStr) (s : State JsStr ε α) : State JsStr ε α := s.lock id

/-- `${chainId}:${address.toLowerCase()}` -/
def signerKey (chainId : ℕ) (address : JsStr) : JsStr := ofNat chainId ++ ':' :: lower address

/-- `addressOf` is `new Wallet(privateKey).address`; where it throws, so does the call, before it has
touched the map. -/
def lockSigner (addressOf : JsStr → Option JsStr) (chainId : ℕ) (privateKey : JsStr)
    (s : State JsStr ε α) : State JsStr ε α :=
  match addressOf privateKey with
  | some address => s.lock (signerKey chainId address)
  | none => s

namespace RwaChainWriter

def withSignerLock (addressOf : JsStr → Option JsStr) (chainId : ℕ) (privateKey : JsStr)
    (s : State JsStr ε α) : State JsStr ε α := lockSigner addressOf chainId privateKey s

end RwaChainWriter

namespace PlatformFeeWallet

def withSignerLock (addressOf : JsStr → Option JsStr) (chainId : ℕ) (privateKey : JsStr)
    (s : State JsStr ε α) : State JsStr ε α := lockSigner addressOf chainId privateKey s

end PlatformFeeWallet

inductive Lock where
  | batch
  | payout
  | chainWriter
  | feeWallet
  deriving DecidableEq

abbrev Lock.Args : Lock → Type
  | .batch | .payout => JsStr
  | .chainWriter | .feeWallet => ℕ × JsStr

def Lock.enter (addressOf : JsStr → Option JsStr) :
    (l : Lock) → l.Args → State JsStr ε α → State JsStr ε α
  | .batch, batchId => withBatchLock batchId
  | .payout, id => withPayoutLock id
  | .chainWriter, (chainId, privateKey) =>
    RwaChainWriter.withSignerLock addressOf chainId privateKey
  | .feeWallet, (chainId, privateKey) =>
    PlatformFeeWallet.withSignerLock addressOf chainId privateKey

/-- What the calls of a lock are kept apart by: a batch, a settlement, or a signer on a chain. -/
abbrev Lock.Target : Lock → Type
  | .batch | .payout => JsStr
  | .chainWriter | .feeWallet => ℕ × JsStr

instance (l : Lock) : DecidableEq l.Target :=
  match l with
  | .batch | .payout => inferInstanceAs (DecidableEq JsStr)
  | .chainWriter | .feeWallet => inferInstanceAs (DecidableEq (ℕ × JsStr))

/-- A signer is its address, in whatever letter case that comes. -/
def signerOf (addressOf : JsStr → Option JsStr) (chainId : ℕ) (privateKey : JsStr) :
    Option (ℕ × JsStr) :=
  (addressOf privateKey).map fun address => (chainId, lower address)

def Lock.target (addressOf : JsStr → Option JsStr) : (l : Lock) → l.Args → Option l.Target
  | .batch, batchId => some batchId
  | .payout, id => some id
  | .chainWriter, (chainId, privateKey) => signerOf addressOf chainId privateKey
  | .feeWallet, (chainId, privateKey) => signerOf addressOf chainId privateKey

def chainKey (d : ℕ × JsStr) : JsStr := ofNat d.1 ++ ':' :: d.2

def Lock.key : (l : Lock) → l.Target → JsStr
  | .batch, batchId => batchId
  | .payout, id => id
  | .chainWriter, d => chainKey d
  | .feeWallet, d => chainKey d

theorem lockSigner_eq (addressOf : JsStr → Option JsStr) (chainId : ℕ) (privateKey : JsStr)
    (s : State JsStr ε α) :
    lockSigner addressOf chainId privateKey s =
      (((signerOf addressOf chainId privateKey).map chainKey).map s.lock).getD s := by
  rw [lockSigner, signerOf]
  cases addressOf privateKey with
  | none => rfl
  | some address => rfl

theorem Lock.enters (addressOf : JsStr → Option JsStr) (l : Lock) :
    Enters (fun a => (l.target addressOf a).map l.key)
      (l.enter addressOf : l.Args → State JsStr ε α → State JsStr ε α) := by
  intro a s
  cases l with
  | batch => rfl
  | payout => rfl
  | chainWriter => exact lockSigner_eq addressOf a.1 a.2 s
  | feeWallet => exact lockSigner_eq addressOf a.1 a.2 s

/-- The key of a signer is read apart at its first colon. -/
theorem chainKey_injective : Function.Injective chainKey := by
  have hdigits : ∀ (n : ℕ) (t : JsStr), (ofNat n ++ ':' :: t).takeWhile Char.isDigit = ofNat n := by
    intro n t
    have hall := isDigits_ofNat n
    simp only [isDigits, Bool.and_eq_true, List.all_eq_true] at hall
    have hcolon : ':'.isDigit = false := by decide
    rw [List.takeWhile_append_of_pos hall.2, List.takeWhile_cons, hcolon]
    exact List.append_nil _
  rintro ⟨chainId, address⟩ ⟨chainId', address'⟩ h
  have hchain := congrArg (List.takeWhile Char.isDigit) h
  rw [chainKey, chainKey, hdigits, hdigits] at hchain
  rw [chainKey, chainKey, hchain] at h
  have hcons := List.append_cancel_left h
  have hnat := congrArg Js.toNat hchain
  rw [toNat_ofNat, toNat_ofNat] at hnat
  exact Prod.ext hnat (List.tail_eq_of_cons_eq hcons)

theorem Lock.key_injective (l : Lock) : Function.Injective l.key := by
  cases l with
  | batch => exact Function.injective_id
  | payout => exact Function.injective_id
  | chainWriter => exact chainKey_injective
  | feeWallet => exact chainKey_injective

/-- The calls that take the lock of a target are the calls for that target. -/
theorem Lock.callsOf_key (addressOf : JsStr → Option JsStr) (l : Lock) (d : l.Target)
    (events : List (Event l.Args JsStr ε α)) :
    callsOf (fun a => (l.target addressOf a).map l.key) (l.key d) events =
      callsOf (l.target addressOf) d events := by
  apply List.countP_congr
  intro e _
  cases e with
  | call a =>
    have hiff : (l.target addressOf a).map l.key = some (l.key d) ↔ l.target addressOf a = some d :=
      (Option.map_injective l.key_injective).eq_iff' rfl
    simp only [hiff]
  | react p r => rfl
  | finish c o => rfl

/-- In any run of calls with any arguments, bodies with any outcomes and reactions in any order:
different targets have different keys, and the calls of a key are those for its target, numbered as
they come; bodies of one key do not overlap and are started once each, in call order; the promise
of a caller settles only as its own body has; and when no body runs and nothing is left to do, every
body has run and every caller has its outcome. All events but calls bring that nearer, and whatever
outcomes the bodies are still to have, it can be reached. -/
theorem locks_are_mutexes (addressOf : JsStr → Option JsStr) (l : Lock)
    (events : List (Event l.Args JsStr ε α)) {s : State JsStr ε α}
    (hsteps : steps (l.enter addressOf) .initial events = some s) :
    (Function.Injective l.key ∧
      ∀ d, s.calls (l.key d) = callsOf (l.target addressOf) d events) ∧
    (∀ k i j, (k, i) ∈ s.running → (k, j) ∈ s.running → i = j) ∧
    (∀ k, s.startedOf k = List.range (s.startedOf k).length) ∧
    (∀ c v, s.settled (.run c) = some v →
      s.settled (.body c) = some v ∧ ∃ o, .finish c o ∈ events ∧ v = o.map some) ∧
    (s.running = [] → s.Quiet → ∀ k, s.startedOf k = List.range (s.calls k) ∧
      ∀ i < s.calls k, s.settled (.run (k, i)) ≠ none) ∧
    (∀ e t, (∀ a, e ≠ .call a) → step (l.enter addressOf) s e = some t → t.work < s.work) ∧
    ∀ outcome, ∃ es : List (Event l.Args JsStr ε α), (∀ e ∈ es, e.Follows outcome) ∧
      ∃ t, steps (l.enter addressOf) s es = some t ∧ t.running = [] ∧ t.Quiet := by
  have henters := l.enters (ε := ε) (α := α) addressOf
  have h : Inv s := inv_steps henters inv_initial hsteps
  refine ⟨⟨l.key_injective, ?_⟩, ?_, h.order, ?_, ?_, ?_, ?_⟩
  · intro d
    have hcalls : s.calls (l.key d) = 0 + _ := calls_steps henters hsteps (l.key d)
    rw [hcalls, l.callsOf_key addressOf d events, Nat.zero_add]
  · intro k i j hi hj
    exact eq_of_running h hi hj
  · intro c v hv
    have hbody := h.chained.run c v hv
    rcases outcome_of_steps henters hsteps hbody with hinitial | hfinish
    · cases hinitial
    · exact ⟨hbody, hfinish⟩
  · intro hrunning hquiet k
    refine ⟨startedOf_of_quiet h hrunning hquiet k, ?_⟩
    intro i hi
    exact (settled_of_quiet h hrunning hquiet k i hi).2.1
  · intro e t hcall hstep
    exact work_step h hcall hstep
  · intro outcome
    exact exists_quiet henters outcome h

def twoPayouts : List (Event JsStr JsStr Unit Unit) :=
  [.call (js "7"), .call (js "7"), .react .resolved (.start (js "7", 0)),
    .finish (js "7", 0) (.error ()), .react (.body (js "7", 0)) (.adopt (js "7", 0)),
    .react (.run (js "7", 0)) (.forget (js "7", 0)),
    .react (.tail (js "7", 0)) (.start (js "7", 1))]

theorem locks_are_mutexes_payout :
    ∃ s : State JsStr Unit Unit,
      steps (Lock.payout.enter fun _ => none) .initial twoPayouts = some s ∧
      s.calls (js "7") = 2 ∧ s.startedOf (js "7") = List.range (s.startedOf (js "7")).length ∧
      ∀ i j, (js "7", i) ∈ s.running → (js "7", j) ∈ s.running → i = j := by
  obtain ⟨s, hs⟩ : ∃ s, steps (Lock.payout.enter fun _ => none) .initial twoPayouts = some s :=
    ⟨_, rfl⟩
  have h := locks_are_mutexes (fun _ => none) .payout twoPayouts hs
  exact ⟨s, hs, h.1.2 (js "7"), h.2.2.1 (js "7"), h.2.1 (js "7")⟩

example : (steps (Lock.payout.enter fun _ => none) .initial twoPayouts).map (fun s =>
    (s.settled (.run (js "7", 0)), s.startedOf (js "7"), s.running)) =
      some (some (.error ()), [0, 1], [(js "7", 1)]) := rfl

end ServiceLocks

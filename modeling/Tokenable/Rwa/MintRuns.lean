import Tokenable.Rwa.MintLinks

/-!
# Mints, recovery passes and reconciliations side by side

From what each call does by `mintForUser_does`, `recoverPass_does` and
`reconcileBlockingOpenCycle_does`: a registry row that is linked to a cycle tells the truth about
its mint, in every interleaving and whatever fails. A cycle that a stop has left without its
registry row, on the other hand, is not repaired by anything that runs later.
-/

namespace UserMint
open Js Platform Async Chain Vault Backend

variable {cfg : Config} {kept : List VaultCycle} {s : Store}

section Runs

theorem persistent_truthful {req : Request} {res : MintRwaResult} :
    (contract cfg kept).Persistent fun s => Truthful cfg s req res := by
  rintro i s t hst ⟨hchain, howner, cycleId, hrecorded⟩
  exact ⟨hchain, howner, cycleId, persistent_hasRecorded i s t hst hrecorded⟩

def Ends (cfg : Config) (_ : ℕ) (r : Except Thrown Returned) (s : Store) : Prop :=
  ∀ returned, r = .ok returned → ∀ req res, returned = .minted req res → Truthful cfg s req res

theorem stablePost_ends : (contract cfg kept).StablePost (Ends cfg) :=
  fun i _ s t hst h returned hr req res hminted =>
    persistent_truthful i s t (.inl hst) (h returned hr req res hminted)

theorem task_does (hkept : Settled kept) (call : Call) :
    Does cfg kept (fun _ => True) (call.task cfg)
      (fun r s => ∀ req res, r = .minted req res → Truthful cfg s req res) := by
  cases call with
  | mintForUser req =>
    apply triple_bind (mintForUser_does hkept req)
    intro result
    refine triple_ok fun s hs req' res hr => ?_
    obtain ⟨rfl, rfl⟩ := Returned.minted.inj hr
    exact hs
  | recoverPass =>
    apply triple_bind (recoverPass_does fun k hk => (hkept k hk).1)
    intro n
    exact triple_ok fun s _ req res hr => by cases hr
  | reconcileBlockingOpenCycle certNumber chainId =>
    apply triple_bind (reconcileBlockingOpenCycle_does hkept certNumber chainId)
    intro cleared
    exact triple_ok fun s _ req res hr => by cases hr

abbrev Calls := Pool Store Cmd Res Thrown Returned

theorem safe_calls (hkept : Settled kept) (hs : Sound cfg kept s) {p : Calls}
    (hp : Pool.Reach (exec cfg) (Call.task cfg) anyStep ⟨s, []⟩ p) :
    Pool.Safe (exec cfg) anyStep (contract cfg kept) (Ends cfg) p ∧ Later kept s p.shared := by
  have hcall : ∀ (call : Call) i s, (contract cfg kept).inv s →
      wp (exec cfg) anyStep (contract cfg kept) i (call.task cfg) (Ends cfg i) s :=
    fun call i s _ => task_does hkept call i s trivial
  have hsafe : Pool.Safe (exec cfg) anyStep (contract cfg kept) (Ends cfg) ⟨s, []⟩ :=
    Pool.safe_nil hs
  refine ⟨Pool.safe_reach stablePost_ends hcall hp hsafe, ?_⟩
  exact Pool.evolves_of_reach stablePost_ends hcall Later.refl (fun _ _ _ => Later.trans)
    (fun _ _ _ h => h) hsafe hp

theorem sound_empty : Sound cfg [] {} where
  assets _ ha := by cases ha
  opened _ hr := by cases hr
  single _ hr := by cases hr
  sent _ he := by cases he
  fit _ hc := by cases hc
  linked _ htoken := by cases htoken
  kept _ hk := by cases hk

theorem safe_start {p : Calls}
    (hp : Pool.Reach (exec cfg) (Call.task cfg) anyStep ⟨{}, []⟩ p) :
    Pool.Safe (exec cfg) anyStep (contract cfg []) (Ends cfg) p :=
  (safe_calls (fun k hk => by cases hk) sound_empty hp).1

/-- After a restart of the process, with a cycle that has no registry row kept. -/
theorem sound_restart (hs : Sound cfg [] s) {cycle : VaultCycle}
    (hcycle : cycle ∈ s.tables.cycles.rows)
    (hunlinked : ∀ token ∈ s.tables.tokens, token.vaultCycleId ≠ some cycle.id) :
    Sound cfg [cycle] s :=
  { hs with
    kept := fun k hk => by
      obtain rfl := List.mem_singleton.mp hk
      exact ⟨hcycle, hunlinked⟩ }

/-- In every interleaving of mints, recovery passes and reconciliations, whatever fails: a registry
row of a cycle is that of the request which reserved the cycle, with a token read off a receipt of a
transaction broadcast for the cycle; each transaction goes to the owner of that request; a cycle has
one request, whose card and chain it is of; and a mint that returns names a token of a cycle of its
own request, which the registry has. -/
theorem registry_truthful {p : Calls}
    (hp : Pool.Reach (exec cfg) (Call.task cfg) anyStep ⟨{}, []⟩ p) :
    (∀ token ∈ p.shared.tables.tokens, ∀ cycleId, token.vaultCycleId = some cycleId →
      ∃ req, LinkedTo cfg p.shared token cycleId req) ∧
    (∀ e ∈ p.shared.sent, ∃ req, p.shared.ReservedFor e.cycleId req ∧ e.chainId = req.chainId ∧
      e.recipient = cfg.owner req) ∧
    (∀ cycleId req, p.shared.ReservedFor cycleId req →
      (∀ req', p.shared.ReservedFor cycleId req' → req' = req) ∧
      ∃ assetId, p.shared.Holds cycleId assetId req.chainId ∧
        p.shared.IsCard assetId (normalizeCert req.cert)) ∧
    ∀ (i : ℕ) (req : Request) (res : MintRwaResult),
      p.tasks[i]? = some (.ret (.ok (.minted req res))) → Truthful cfg p.shared req res := by
  have hsafe := safe_start hp
  have hinv : Sound cfg [] p.shared := hsafe.inv
  refine ⟨hinv.linked, hinv.sent, fun cycleId req hreq =>
    ⟨fun req' hreq' => ?_, hinv.opened _ hreq⟩,
    fun i req res hi => hsafe.ended hi _ rfl req res rfl⟩
  exact congrArg Reserved.request (hinv.single _ hreq' _ hreq rfl)

/-- A cycle that a stop or a failed statement has left minted or cancelled without a registry row,
when the process is started again: no call changes the cycle or links a row to it, and while it is
minted its card gets no new cycle on its chain. -/
theorem abandoned_forever {p q : Calls}
    (hp : Pool.Reach (exec cfg) (Call.task cfg) anyStep ⟨{}, []⟩ p) {cycle : VaultCycle}
    (hcycle : cycle ∈ p.shared.tables.cycles.rows)
    (hstatus : cycle.status = .minted ∨ cycle.status = .cancelled)
    (hunlinked : ∀ token ∈ p.shared.tables.tokens, token.vaultCycleId ≠ some cycle.id)
    (hq : Pool.Reach (exec cfg) (Call.task cfg) anyStep ⟨p.shared, []⟩ q) :
    cycle ∈ q.shared.tables.cycles.rows ∧
      (∀ token ∈ q.shared.tables.tokens, token.vaultCycleId ≠ some cycle.id) ∧
      (cycle.status = .minted → ∀ c ∈ q.shared.tables.cycles.rows,
        c.vaultAssetId = cycle.vaultAssetId → c.chainId = cycle.chainId →
          ∃ c' ∈ p.shared.tables.cycles.rows, c'.id = c.id) := by
  have hsound : Sound cfg [] p.shared := (safe_start hp).inv
  have hsettled : Settled [cycle] := by
    intro k hk
    obtain rfl := List.mem_singleton.mp hk
    rcases hstatus with hminted | hcancelled
    · simp [hminted]
    · simp [hcancelled]
  obtain ⟨hsafe, hlater⟩ := safe_calls hsettled (sound_restart hsound hcycle hunlinked) hq
  obtain ⟨hstays, hstill⟩ := hsafe.inv.kept cycle (List.mem_singleton_self cycle)
  refine ⟨hstays, hstill, fun hminted c hc hasset hchain => ?_⟩
  have hopen : Cycles.isOpen cycle = true := by simp [Cycles.isOpen, hminted]
  obtain ⟨c', hc', hid, -, -⟩ := hlater.closed cycle (List.mem_singleton_self cycle) hopen c.id
    ⟨c, hc, rfl, hasset, hchain⟩
  exact ⟨c', hc', hid⟩

end Runs

section Schedules

def cardCfg : Config :=
  { env := { rwaAddresses := [(1, js "0x00000000000000000000000000000000000000aa")] }
    keccak := fun s => js "0x" ++ s
    custodyWallet := .ok (js "0x00000000000000000000000000000000000000cc") }

def cardWallet : JsStr := js "0x00000000000000000000000000000000000000bb"

def cardRequest : Request :=
  { userId := js "u1"
    chainId := 1
    recipientAddress := cardWallet
    tokenURI := js "ipfs://m"
    certNumber := js "123" }

def cardHash : JsStr := js "0x" ++ List.replicate 64 'a'

/-- The ids of a new asset and of a new cycle. -/
def cardDraws : Cycles.Draws := fun n q =>
  match q with
  | .uuid => if n = 0 then js "a1" else js "c1"
  | q => idleWorld q

def cardReceipt : Option Receipt := some ⟨some cardHash, [.transfer zeroAddress 7]⟩

/-- Up to the note of the transaction on the cycle. -/
def submitAnswers : List Answer :=
  [{ wallets := [cardWallet] }, {}, { draws := cardDraws }, {}, {}, {}, { text := cardHash }, {},
    {}]

/-- From the receipt to the registry row, which is not written. -/
def unwrittenAnswers : List Answer :=
  [{ receipt := cardReceipt }, {}, {}, {}, {}, {}, {},
    { fate := .failed (.primitive (js "connection lost")) }]

def stepsOf (i : ℕ) (xs : List Answer) : List (Pool.Event Call Answer) := xs.map (.run i)

/-- The process dies after the note, and a recovery pass reads the receipt. -/
def healedMint : List (Pool.Event Call Answer) :=
  [.spawn (.mintForUser cardRequest)] ++ stepsOf 0 submitAnswers ++ [.spawn .recoverPass] ++
    stepsOf 1 [{}, {}, { receipt := cardReceipt }, {}, {}, {}]

def otherRequest : Request := { cardRequest with certNumber := js "456" }

def otherHash : JsStr := js "0x" ++ List.replicate 64 'b'

def otherDraws : Cycles.Draws := fun n q =>
  match q with
  | .uuid => if n = 0 then js "a2" else js "c2"
  | q => idleWorld q

/-- A mint which returns. -/
def otherAnswers : List Answer :=
  [{ wallets := [cardWallet] }, {}, { draws := otherDraws }, {}, {}, {}, { text := otherHash }, {},
    {}, { receipt := some ⟨some otherHash, [.transfer zeroAddress 8]⟩ }, {}, {}, {}, {}, {}, {}, {}]

def healedAndOther : List (Pool.Event Call Answer) :=
  healedMint ++ [.spawn (.mintForUser otherRequest)] ++ stepsOf 2 otherAnswers

def links (p : Calls) : List (Option JsStr × JsStr) :=
  p.shared.tables.tokens.map fun token => (token.vaultCycleId, token.tokenId)

def mintedToken (p : Calls) (i : ℕ) : Option ℕ :=
  match p.tasks[i]? with
  | some (.ret (.ok (.minted _ res))) => some res.tokenId
  | _ => none

theorem exists_minted_of_mintedToken {p : Calls} {i tokenId : ℕ}
    (h : mintedToken p i = some tokenId) :
    ∃ req res, p.tasks[i]? = some (.ret (.ok (.minted req res))) ∧ res.tokenId = tokenId := by
  unfold mintedToken at h
  split at h
  · next req res hi => exact ⟨req, res, hi, Option.some.inj h⟩
  · cases h

theorem registry_truthful_healed : ∃ p : Calls,
    Pool.Reach (exec cardCfg) (Call.task cardCfg) anyStep ⟨{}, []⟩ p ∧
      links p = [(some (js "c1"), js "7"), (some (js "c2"), js "8")] ∧
      (∃ token ∈ p.shared.tables.tokens, ∃ req, LinkedTo cardCfg p.shared token (js "c1") req) ∧
      ∃ req res, p.tasks[2]? = some (.ret (.ok (.minted req res))) ∧ res.tokenId = 8 ∧
        Truthful cardCfg p.shared req res := by
  obtain ⟨p, hp, hview⟩ : ∃ p : Calls,
      Pool.Reach (exec cardCfg) (Call.task cardCfg) anyStep ⟨{}, []⟩ p ∧
        (links p, mintedToken p 2) =
          ([(some (js "c1"), js "7"), (some (js "c2"), js "8")], some 8) :=
    Pool.exists_reach_of_runSchedule healedAndOther _ (by decide +kernel)
  obtain ⟨hlinks, hminted⟩ := Prod.mk.inj hview
  obtain ⟨linked, -, -, htruthful⟩ := registry_truthful hp
  obtain ⟨token, htoken, hlink⟩ : ∃ token ∈ p.shared.tables.tokens,
      (token.vaultCycleId, token.tokenId) = (some (js "c1"), js "7") := by
    apply List.mem_map.mp
    rw [show p.shared.tables.tokens.map (fun token => (token.vaultCycleId, token.tokenId)) = links p
      from rfl, hlinks]
    exact List.mem_cons_self
  obtain ⟨req, hlinked⟩ := linked token htoken _ (Prod.mk.inj hlink).1
  obtain ⟨req', res, hi, hres⟩ := exists_minted_of_mintedToken hminted
  exact ⟨p, hp, hlinks, ⟨token, htoken, req, hlinked⟩, req', res, hi, hres, htruthful 2 req' res hi⟩

def unwrittenMint : List (Pool.Event Call Answer) :=
  [.spawn (.mintForUser cardRequest)] ++ stepsOf 0 (submitAnswers ++ unwrittenAnswers)

def laterCalls : List (Pool.Event Call Answer) :=
  [.spawn .recoverPass, .spawn (.mintForUser cardRequest)] ++ stepsOf 0 [{}] ++
    stepsOf 1 [{ wallets := [cardWallet] }, {}, {}, {}, { draws := cardDraws }]

def runFrom (s : Store) (events : List (Pool.Event Call Answer)) : Option Calls :=
  Pool.runSchedule (exec cardCfg) (Call.task cardCfg) anyStep events ⟨s, []⟩

def isAbandoned (p : Calls) : Bool :=
  p.shared.tables.tokens.isEmpty &&
    p.shared.tables.cycles.rows.any fun cycle => decide (cycle.status = .minted)

def isRefused (q : Calls) : Bool :=
  match q.tasks with
  | [.ret (.ok (.recovered n)), .ret (.error _)] => decide (n = {})
  | _ => false

theorem abandoned_forever_unwritten : ∃ p q : Calls,
    Pool.Reach (exec cardCfg) (Call.task cardCfg) anyStep ⟨{}, []⟩ p ∧
      Pool.Reach (exec cardCfg) (Call.task cardCfg) anyStep ⟨p.shared, []⟩ q ∧
      isRefused q = true ∧
      ∃ cycle ∈ q.shared.tables.cycles.rows, cycle.status = .minted ∧
        ∀ token ∈ q.shared.tables.tokens, token.vaultCycleId ≠ some cycle.id := by
  have hruns : ((runFrom {} unwrittenMint).bind fun p =>
      (runFrom p.shared laterCalls).map fun q => (isAbandoned p, isRefused q)) =
        some (true, true) := by decide +kernel
  obtain ⟨p, hp, hrest⟩ := Option.bind_eq_some_iff.mp hruns
  obtain ⟨q, hq, hview⟩ := Option.map_eq_some_iff.mp hrest
  obtain ⟨habandoned, hrefused⟩ := Prod.mk.inj hview
  have hpreach := Pool.reach_of_runSchedule hp
  have hqreach := Pool.reach_of_runSchedule hq
  obtain ⟨hempty, hany⟩ := Bool.and_eq_true_iff.mp habandoned
  obtain ⟨cycle, hcycle, hstatus⟩ := List.any_eq_true.mp hany
  have hminted : cycle.status = .minted := of_decide_eq_true hstatus
  have hunlinked : ∀ token ∈ p.shared.tables.tokens, token.vaultCycleId ≠ some cycle.id := by
    rw [List.isEmpty_iff.mp hempty]
    exact fun token htoken => by cases htoken
  have hkept := abandoned_forever hpreach hcycle (.inl hminted) hunlinked hqreach
  exact ⟨p, q, hpreach, hqreach, hrefused, cycle, hkept.1, hminted, hkept.2.1⟩

end Schedules

end UserMint

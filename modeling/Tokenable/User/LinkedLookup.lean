import Tokenable.User.SyncMirror

/-!
# The user of a linked wallet

`findUserIdByLinkedWallet` looks for its input in lower case, first among the rows of `user_wallets` and
then among the addresses that the user rows repeat. The rows hold the addresses as they were linked.
-/

namespace Users
open Js Platform Async

/-- The lookup on the tables as they are between two calls. -/
def findUserIdByLinkedWallet (s : Store) (walletAddress : JsStr) : Option JsStr :=
  let normalized := lower (trim walletAddress)
  if normalized.isEmpty then none
  else
    match s.wallets.rows.find? fun w => w.walletAddress = normalized with
    | some row => some row.userId
    | none => (s.users.rows.find? fun u => u.walletAddress = some normalized).map User.id

def IsLinked (s : Store) (userId address : JsStr) : Prop :=
  ∃ w ∈ s.wallets.rows, w.userId = userId ∧ lower w.walletAddress = lower address

/-- The lookup finds a user exactly when one has the wallet, and finds such a user. -/
structure FindsLinked (s : Store) (address : JsStr) : Prop where
  isSome : (findUserIdByLinkedWallet s address).isSome ↔ ∃ userId, IsLinked s userId address
  linked : ∀ userId, findUserIdByLinkedWallet s address = some userId → IsLinked s userId address

def UserWallet.IsLower (w : UserWallet) : Prop := lower w.walletAddress = w.walletAddress

def LowerRows (s : Store) : Prop := ∀ w ∈ s.wallets.rows, w.IsLower

/-- Where the rows are in lower case and the users repeat the addresses of their primary rows, the
lookup is exact. -/
theorem findsLinked {s : Store} (hlower : LowerRows s) (hprimary : PrimaryWallets s) {address : JsStr}
    (haddress : isAddress (lower address) = true) : FindsLinked s address := by
  have hnormalized : lower (trim address) = lower address := by
    rw [trim_of_isAddress_lower haddress]
  have hnonempty : (lower address).isEmpty = false := by
    cases hchars : lower address with
    | nil =>
      rw [hchars] at haddress
      exact absurd haddress (by decide)
    | cons c cs => rfl
  have hexact : ∀ w ∈ s.wallets.rows, lower w.walletAddress = lower address →
      w.walletAddress = lower address := by
    intro w hw hkey
    exact (hlower w hw).symm.trans hkey
  have hlegacy : (s.wallets.rows.find? fun w => w.walletAddress = lower address) = none →
      (s.users.rows.find? fun u => u.walletAddress = some (lower address)) = none := by
    intro hnone
    rw [List.find?_eq_none] at hnone ⊢
    intro u hu hsame
    rw [decide_eq_true_eq] at hsame
    have hown := hprimary u hu
    unfold PrimaryOf at hown
    rw [hsame] at hown
    split_ifs at hown
    have hmem : some (lower address) ∈ primaryAddresses (s.walletsOf u.id) := by
      rw [hown]
      exact List.mem_singleton_self _
    obtain ⟨w, hw, hwaddress⟩ := List.mem_map.mp hmem
    have hrow := (mem_walletsOf.mp (List.mem_of_mem_filter hw)).1
    exact hnone w hrow (decide_eq_true (Option.some.inj hwaddress))
  have hfind : findUserIdByLinkedWallet s address =
      (s.wallets.rows.find? fun w => w.walletAddress = lower address).map UserWallet.userId := by
    unfold findUserIdByLinkedWallet
    dsimp only
    rw [hnormalized, hnonempty, if_neg Bool.false_ne_true]
    cases hrow : s.wallets.rows.find? fun w => w.walletAddress = lower address with
    | some row => rfl
    | none =>
      dsimp only
      rw [hlegacy hrow]
      rfl
  constructor
  · rw [hfind, Option.isSome_map, List.find?_isSome]
    constructor
    · rintro ⟨w, hw, hsame⟩
      have hwaddress := of_decide_eq_true hsame
      exact ⟨w.userId, w, hw, rfl, (hlower w hw).trans hwaddress⟩
    · rintro ⟨userId, w, hw, -, hkey⟩
      exact ⟨w, hw, decide_eq_true (hexact w hw hkey)⟩
  · intro userId hfound
    rw [hfind] at hfound
    obtain ⟨w, hw, rfl⟩ := Option.map_eq_some_iff.mp hfound
    have hmem := List.mem_of_find?_eq_some hw
    have hwaddress := List.find?_some hw
    rw [decide_eq_true_eq] at hwaddress
    exact ⟨w, hmem, rfl, (hlower w hmem).trans hwaddress⟩

/-! ### Runs -/

/-- Addresses are linked in lower case only, and no login saves a user from a copy with an outdated
wallet address. -/
def LinksLower : AllowedStep Store Tick Cmd
  | s, x, c => (∀ w, c = .insertWallet w → w.IsLower) ∧ KeepsPrimary s x c

/-- The rows that a command shows are in lower case. -/
def ShowsLower : (c : Cmd) → Res c → Prop
  | .listWallets _, ws => ∀ w ∈ ws, w.IsLower
  | .findWallet .., found => ∀ w, found = some w → w.IsLower
  | .oldestWallet _, found => ∀ w, found = some w → w.IsLower
  | _, _ => True

def SavesLower : Cmd → Prop
  | .saveWallet w => w.IsLower
  | _ => True

theorem SavesLower.of_quiet {c : Cmd} (h : Quiet c) : SavesLower c := by
  cases c with
  | saveWallet w => exact h.elim
  | _ => trivial

theorem lowerRows_saveWallet {s : Store} {w : UserWallet} (hs : LowerRows s) (hw : w.IsLower) :
    LowerRows (s.saveWallet w) := by
  intro y hy
  rcases Db.Table.mem_save.mp hy with rfl | ⟨hy, -⟩
  · exact hw
  · exact hs y hy

/-- One command. -/
theorem lowerRows_exec {c : Cmd} (hc : SavesLower c) {s : Store} {x : Tick}
    (hok : LinksLower s x c) (hs : LowerRows s) :
    ShowsLower c (exec s x c).1 ∧ LowerRows (exec s x c).2 := by
  have hown : ∀ userId, ∀ w ∈ s.walletsOf userId, w.IsLower := by
    intro userId w hw
    exact hs w (mem_walletsOf.mp hw).1
  cases c with
  | listWallets userId =>
    refine ⟨fun w hw => hown userId w ?_, hs⟩
    exact (List.perm_insertionSort _ _).mem_iff.mp hw
  | findWallet userId address =>
    exact ⟨fun w hw => hown userId w (List.mem_of_find?_eq_some hw), hs⟩
  | oldestWallet userId =>
    exact ⟨fun w hw => hown userId w (mem_of_oldestWallet hw), hs⟩
  | insertWallet w =>
    refine ⟨trivial, ?_⟩
    have hw : w.IsLower := hok.1 w rfl
    simp only [exec]
    split
    · exact hs
    · exact lowerRows_saveWallet hs hw
  | saveWallet w => exact ⟨trivial, lowerRows_saveWallet hs hc⟩
  | removeWallet w => exact ⟨trivial, fun y hy => hs y (Db.Table.mem_remove.mp hy).1⟩
  | insertUser u =>
    refine ⟨trivial, ?_⟩
    simp only [exec]
    split_ifs
    · exact hs
    · split
      · exact hs
      · exact hs
  | saveUser writer loaded u =>
    refine ⟨trivial, ?_⟩
    simp only [exec]
    split
    · exact hs
    · exact hs
  | insertProvider p =>
    refine ⟨trivial, ?_⟩
    simp only [exec, Store.saveProvider]
    split_ifs
    · exact hs
    · exact hs
    · exact hs
  | saveProvider p =>
    refine ⟨trivial, ?_⟩
    simp only [exec, Store.saveProvider]
    split_ifs
    · exact hs
    · exact hs
  | _ => exact ⟨trivial, hs⟩

section Calls
variable {getAddress : JsStr → Option JsStr} {s t : Store}

theorem lower_findByIdOrFail (userId : JsStr) :
    (findByIdOrFail userId).IssuesGiven ShowsLower SavesLower :=
  (issues_findByIdOrFail userId trivial).given

theorem lower_saveUser (writer : Writer) (loaded user : User) :
    (saveUser writer loaded user).IssuesGiven ShowsLower SavesLower :=
  (issues_saveUser trivial).given

theorem lower_patchWalletMetadata {row : UserWallet} (hrow : row.IsLower) (link : ParsedWalletLink)
    (source : WalletSource) :
    (patchWalletMetadata row link source).IssuesGiven ShowsLower SavesLower :=
  Prog.issuesGiven_bind (Prog.issuesGiven_call hrow) fun _ _ => Prog.issuesGiven_ret _

theorem lower_addWalletAddress (userId address : JsStr) (info : Option WalletMeta) :
    (addWalletAddress userId address info).IssuesGiven ShowsLower SavesLower := by
  refine Prog.issuesGiven_bind (lower_findByIdOrFail userId) fun user _ => ?_
  refine Prog.issuesGiven_call_bind trivial fun existing hexisting => ?_
  cases existing with
  | some row =>
    cases info with
    | some m =>
      refine Prog.issuesGiven_bind ?_ fun _ _ => Prog.issuesGiven_ret _
      exact lower_patchWalletMetadata (hexisting row rfl) _ _
    | none => exact Prog.issuesGiven_ret _
  | none =>
    refine Prog.issuesGiven_bind (Prog.issuesGiven_call trivial) fun count _ => ?_
    refine Prog.issuesGiven_bind (Prog.issuesGiven_call trivial) fun inserted _ => ?_
    refine Prog.issuesGiven_bind (issues_attempt _).given fun row _ => ?_
    split_ifs
    · exact lower_saveUser _ _ _
    · exact Prog.issuesGiven_ret _

theorem lower_removeWallet (userId address : JsStr) :
    (removeWallet userId address).IssuesGiven ShowsLower SavesLower := by
  refine Prog.issuesGiven_bind (lower_findByIdOrFail userId) fun user _ => ?_
  refine Prog.issuesGiven_bind (Prog.issuesGiven_call trivial) fun found _ => ?_
  refine Prog.issuesGiven_bind (Prog.issues_orThrow _ _).given fun row _ => ?_
  refine Prog.issuesGiven_bind (Prog.issuesGiven_call trivial) fun _ _ => ?_
  split_ifs
  · refine Prog.issuesGiven_call_bind trivial fun next hnext => ?_
    cases next with
    | some wallet =>
      refine Prog.issuesGiven_bind (Prog.issuesGiven_call ?_) fun _ _ => lower_saveUser _ _ _
      exact hnext wallet rfl
    | none => exact lower_saveUser _ _ _
  · exact Prog.issuesGiven_ret _

theorem given_swallow {α : Type} {p : M α} (hp : p.IssuesGiven ShowsLower SavesLower) :
    (p.swallow : M Unit).IssuesGiven ShowsLower SavesLower :=
  Prog.issuesGiven_settle hp fun _ _ => Prog.issuesGiven_ret _

theorem lower_addDesired (userId : JsStr) (links : List ParsedWalletLink)
    (existing : List UserWallet) (hexisting : ∀ r ∈ existing, r.IsLower) :
    (addDesired userId links existing).IssuesGiven ShowsLower SavesLower := by
  induction links generalizing existing with
  | nil => exact Prog.issuesGiven_ret _
  | cons link links ih =>
    unfold addDesired
    cases hfound : existingByAddress existing link.address with
    | some row =>
      have hrow : row.IsLower :=
        hexisting row (List.mem_reverse.mp (List.mem_of_find?_eq_some hfound))
      refine Prog.issuesGiven_bind (lower_patchWalletMetadata hrow _ _) fun patched hpatched => ?_
      obtain ⟨_, -, hpatched⟩ := Prog.yields_bind.mp hpatched
      obtain rfl := Prog.yields_pure.mp hpatched
      refine ih _ fun r hr => ?_
      obtain ⟨r', hr', rfl⟩ := List.mem_map.mp hr
      split_ifs
      · exact hrow
      · exact hexisting r' hr'
    | none =>
      refine Prog.issuesGiven_bind (given_swallow (lower_addWalletAddress _ _ _)) fun _ _ => ?_
      exact ih existing hexisting

theorem lower_dropUndesired (userId : JsStr) (desired : List JsStr) (rows : List UserWallet) :
    (eachDo (dropUndesired userId desired) rows).IssuesGiven ShowsLower SavesLower := by
  induction rows with
  | nil => exact Prog.issuesGiven_ret _
  | cons row rows ih =>
    refine Prog.issuesGiven_bind ?_ fun _ _ => ih
    unfold dropUndesired
    split_ifs
    · exact Prog.issuesGiven_ret _
    · exact Prog.issuesGiven_ret _
    · exact given_swallow (lower_removeWallet _ _)

theorem lower_syncPrivyWallets (userId : JsStr) (links : List ParsedWalletLink) :
    (syncPrivyWallets getAddress userId links).IssuesGiven ShowsLower SavesLower := by
  refine Prog.issuesGiven_call_bind trivial fun listed hlisted => ?_
  refine Prog.issuesGiven_bind (lower_addDesired userId _ listed hlisted) fun existing _ => ?_
  exact lower_dropUndesired userId _ existing

/-- The calls that link and unlink wallets, the sync of a login on its own included. -/
inductive LinkCall where
  | syncPrivyWallets (userId : JsStr) (wallets : List ParsedWalletLink)
  | other (call : WalletCall)

def LinkCall.task (getAddress : JsStr → Option JsStr) : LinkCall → M Unit
  | syncPrivyWallets userId wallets => Users.syncPrivyWallets getAddress userId wallets
  | other call => call.task getAddress

theorem lower_task (call : LinkCall) :
    (call.task getAddress).IssuesGiven ShowsLower SavesLower := by
  have hdiscard : ∀ {α : Type} {p : M α}, p.IssuesGiven ShowsLower SavesLower →
      p.discard.IssuesGiven ShowsLower SavesLower := by
    intro α p hp
    exact Prog.issuesGiven_bind hp fun _ _ => Prog.issuesGiven_ret _
  cases call with
  | syncPrivyWallets userId wallets => exact lower_syncPrivyWallets userId wallets
  | other call =>
    cases call with
    | findOrCreateFromPrivy params =>
      exact hdiscard (given_findOrCreateFromPrivy (fun _ => SavesLower.of_quiet) lower_syncPrivyWallets)
    | addWalletAddress userId address info => exact hdiscard (lower_addWalletAddress userId address info)
    | removeWallet userId address => exact hdiscard (lower_removeWallet userId address)

/-- What a call keeps of the tables. -/
theorem kept_by_task {o : Except Failure Unit} (call : LinkCall)
    (h : (call.task getAddress).Runs exec LinksLower s o t) (hs : Sound s ∧ LowerRows s) :
    Sound t ∧ LowerRows t := by
  have hkeeps : (call.task getAddress).Runs exec KeepsPrimary s o t := h.mono fun _ _ _ hok => hok.2
  constructor
  · cases call with
    | syncPrivyWallets userId wallets => exact sound_syncPrivyWallets hs.1 hkeeps
    | other call => exact sound_task call hs.1 hkeeps
  · exact Prog.runs_keeps_given (fun c hc u x hok hu => lowerRows_exec hc hok hu) (lower_task call) h
      hs.2

/-- In every run in which addresses are linked in lower case only, and no login saves a user from a copy
with an outdated wallet address, the lookup of every address is exact. -/
theorem lookup_of_calls {cs : List (LinkCall × Except Failure Unit)} (hs : Constraints s)
    (hprimary : PrimaryWallets s) (hlower : LowerRows s)
    (hrun : Calls exec LinksLower (LinkCall.task getAddress) cs s t) (address : JsStr)
    (haddress : isAddress (lower address) = true) : FindsLinked t address := by
  have hkept : Sound t ∧ LowerRows t :=
    calls_keep (K := fun s => Sound s ∧ LowerRows s)
      (fun c _ u v hcall hu => kept_by_task c.1 hcall hu) hrun ⟨⟨hs, hprimary⟩, hlower⟩
  exact findsLinked hkept.2 hkept.1.primary haddress

end Calls

section Runs

instance (w : UserWallet) : Decidable w.IsLower := inferInstanceAs (Decidable (_ = _))

instance (s : Store) : Decidable (LowerRows s) := inferInstanceAs (Decidable (∀ w ∈ s.wallets.rows, _))

def insertsLower : Cmd → Bool
  | .insertWallet w => decide (lower w.walletAddress = w.walletAddress)
  | _ => true

theorem insertsLower_iff {c : Cmd} :
    insertsLower c = true ↔ ∀ w, c = .insertWallet w → w.IsLower := by
  cases c with
  | insertWallet w =>
    constructor
    · intro h v hv
      obtain rfl := Cmd.insertWallet.inj hv
      exact of_decide_eq_true h
    · intro h
      exact decide_eq_true (h w rfl)
  | _ => exact ⟨fun _ w hw => (nomatch hw), fun _ => rfl⟩

instance (s : Store) (x : Tick) (c : Cmd) : Decidable (LinksLower s x c) :=
  decidable_of_iff (insertsLower c = true ∧ KeepsPrimary s x c) (and_congr_left' insertsLower_iff)

def syncAndUnlink : List (LinkCall × Tick) :=
  [(.syncPrivyWallets (js "u1") [privyWallet walletA, privyWallet walletB], ⟨5, js "w2"⟩),
    (.other (.removeWallet (js "u1") walletA), ⟨6, []⟩)]

theorem lookup_of_sync : ∃ cs t,
    Calls exec LinksLower (LinkCall.task digitsAddress) cs aliceStore t ∧
      t.wallets.rows.map UserWallet.walletAddress = [walletB] ∧ FindsLinked t walletB := by
  obtain ⟨cs, t, hrun, ht⟩ : ∃ cs t,
      Calls exec LinksLower (LinkCall.task digitsAddress) cs aliceStore t ∧
        t.wallets.rows.map UserWallet.walletAddress = [walletB] :=
    exists_calls_of_tryCalls syncAndUnlink
      (fun t : Store => t.wallets.rows.map UserWallet.walletAddress) (by decide +kernel)
  exact ⟨cs, t, hrun, ht, lookup_of_calls constraints_aliceStore (by decide) (by decide +kernel) hrun
    walletB (by decide +kernel)⟩

def linkMixed : List (LinkCall × Tick) :=
  [(.other (.addWalletAddress (js "u1") mixedAddress none), ⟨5, js "w2"⟩)]

/-- The lookup of the address that was linked finds nobody. -/
theorem linked_wallet_not_found : ∃ cs t,
    Calls exec anyAnswer (LinkCall.task digitsAddress) cs aliceStore t ∧
      IsLinked t (js "u1") mixedAddress ∧ findUserIdByLinkedWallet t mixedAddress = none ∧
      ¬ FindsLinked t mixedAddress := by
  obtain ⟨cs, t, hrun, ht⟩ : ∃ cs t,
      Calls exec anyAnswer (LinkCall.task digitsAddress) cs aliceStore t ∧
        ((t.wallets.rows.map fun w => (w.userId, w.walletAddress)),
          findUserIdByLinkedWallet t mixedAddress) =
        ([(js "u1", walletA), (js "u1", mixedAddress)], none) :=
    exists_calls_of_tryCalls linkMixed
      (fun t : Store => ((t.wallets.rows.map fun w => (w.userId, w.walletAddress)),
        findUserIdByLinkedWallet t mixedAddress))
      (by decide +kernel)
  obtain ⟨hrows, hnone⟩ := Prod.mk.inj ht
  have hmem : (js "u1", mixedAddress) ∈
      t.wallets.rows.map fun w => (w.userId, w.walletAddress) := by
    rw [hrows]
    exact List.mem_cons_of_mem _ List.mem_cons_self
  obtain ⟨w, hw, hpair⟩ := List.mem_map.mp hmem
  obtain ⟨huser, haddress⟩ := Prod.mk.inj hpair
  have hlinked : IsLinked t (js "u1") mixedAddress := ⟨w, hw, huser, congrArg lower haddress⟩
  refine ⟨cs, t, hrun, hlinked, hnone, fun hfinds => ?_⟩
  have hsome := hfinds.isSome.mpr ⟨_, hlinked⟩
  rw [hnone] at hsome
  cases hsome

end Runs

end Users

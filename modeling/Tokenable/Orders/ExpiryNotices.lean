import Tokenable.Async.RelyGuarantee
import Tokenable.Backend.Store
import Tokenable.Orders.LeaveActive

/-!
# Who is told that a bid has expired

Passes of `expireOrders` with their notifications, interleaved with each other and with any other
writes of the tables. A pass tells the bidders of the orders that its select returned, at most 500, and
its update expires every order that is due when it runs. `notified` and `expired` record the token bids
in the order in which this happens, and `pending` those that a pass has notified before its update.
-/

namespace ExpiryNotices
open Platform Async Js Orders Backend

structure State where
  tables : Tables
  notified : List ℕ := []
  expired : List ℕ := []
  /-- The tables when the pass of a task made its select. -/
  readAt : ℕ → Tables
  /-- What a task has notified, with the order. -/
  pending : List (ℕ × ℕ) := []

inductive Cmd where
  | now
  | dueOrders (now : ℕ)
  | notifyBidderOfBidExpired (order : Order)
  | expireOrders (now : ℕ)
  /-- Any statement of another function. -/
  | write (tables : Tables)

abbrev Res : Cmd → Type
  | .now => ℕ
  | .dueOrders _ => List Order
  | .notifyBidderOfBidExpired _ => Unit
  | .expireOrders _ => Unit
  | .write _ => Unit

def bidIds (orders : List Order) : List ℕ := (orders.filter isTokenBidOrder).map Order.id

def dueBids (t : Tables) (now : ℕ) : List ℕ := bidIds (t.orders.find (Tables.isDue now))

def selectedBids (t : Tables) (now : ℕ) : List ℕ := bidIds ((Stmt.dueOrders now).answer t)

def State.noticesOf (s : State) (i : ℕ) : List ℕ := (s.pending.filter fun n => n.1 = i).map Prod.snd

variable (env : Env)

/-- The clock answers the step. -/
def exec : Handler State ℕ Cmd Res
  | _, s, x, .now => some (x, s)
  | i, s, _, .dueOrders now =>
    some ((Stmt.dueOrders now).answer s.tables,
      { s with readAt := Function.update s.readAt i s.tables })
  | i, s, _, .notifyBidderOfBidExpired order =>
    some ((), { s with
      notified := s.notified ++ [order.id], pending := s.pending ++ [(i, order.id)] })
  | i, s, _, .expireOrders now =>
    some ((), { s with
      tables := (Stmt.expireOrders now).apply env s.tables
      expired := s.expired ++ dueBids s.tables now
      pending := s.pending.filter fun n => n.1 ≠ i })
  | _, s, _, .write tables => some ((), { s with tables := tables })

abbrev M := Prog Cmd Res HttpError

def perform (c : Cmd) : M (Res c) := .call c fun r => .ret (.ok r)

/-- The loop over the due orders: nobody waits for a notification. -/
def notifyAll : List Order → M Unit
  | [] => pure ()
  | order :: due =>
    if isTokenBidOrder order then do
      perform (.notifyBidderOfBidExpired order)
      notifyAll due
    else notifyAll due

def expireOrders : M Unit := do
  let now ← perform .now
  let due ← perform (.dueOrders now)
  if due.isEmpty then pure ()
  else do
    notifyAll due
    perform (.expireOrders now)

/-- A pass, or a statement of another function. -/
inductive Call where
  | expireOrders
  | write (tables : Tables)

def Call.task : Call → M Unit
  | expireOrders => ExpiryNotices.expireOrders
  | write tables => perform (.write tables)

/-- When a pass updates, the token bids that are due are those that its select could return. -/
def Matched : Allowed State Cmd := fun i s c =>
  match c with
  | .expireOrders now => (dueBids s.tables now).Perm (selectedBids (s.readAt i) now)
  | _ => True

instance (i : ℕ) (s : State) (c : Cmd) : Decidable (Matched i s c) := by
  unfold Matched
  split <;> infer_instance

def init (t : Tables) : State where
  tables := t
  readAt := fun _ => t

section Contract

/-- What has been notified is what has expired and what is still to expire. -/
def contract : Contract State where
  inv s := s.notified.Perm (s.expired ++ s.pending.map Prod.snd)
  guar j s t := ∀ i, i ≠ j → t.readAt i = s.readAt i ∧ t.noticesOf i = s.noticesOf i
  rely i s t := t.readAt i = s.readAt i ∧ t.noticesOf i = s.noticesOf i
  rely_refl _ _ := ⟨rfl, rfl⟩
  rely_trans _ _ _ _ hst htu := ⟨htu.1.trans hst.1, htu.2.trans hst.2⟩
  rely_of_guar i _ _ _ hij h := h i hij

/-- Where the pass of task `i` is: when it read the tables, and what it has notified since. -/
def Notified (i : ℕ) (t : Tables) (ids : List ℕ) (s : State) : Prop :=
  s.readAt i = t ∧ s.noticesOf i = ids

theorem notified_stable (i : ℕ) (t : Tables) (ids : List ℕ) :
    contract.Stable i (Notified i t ids) :=
  fun _ _ hst _ h => ⟨hst.1.trans h.1, hst.2.trans h.2⟩

def noNotices (i : ℕ) (s : State) : Prop := s.noticesOf i = []

theorem noNotices_rely {i : ℕ} {s t : State} (hst : contract.rely i s t) (h : noNotices i s) :
    noNotices i t := hst.2.trans h

theorem noticesOf_append (s : State) (i j id : ℕ) (notified : List ℕ) :
    State.noticesOf { s with notified := notified, pending := s.pending ++ [(j, id)] } i =
      s.noticesOf i ++ if j = i then [id] else [] := by
  unfold State.noticesOf
  by_cases hji : j = i <;> simp [List.filter_append, hji]

theorem noticesOf_settled (s : State) (i j : ℕ) (t : Tables) (expired : List ℕ) :
    State.noticesOf { s with
      tables := t, expired := expired, pending := s.pending.filter fun n => n.1 ≠ j } i =
      if i = j then [] else s.noticesOf i := by
  unfold State.noticesOf
  rw [List.filter_filter]
  by_cases hij : i = j
  · rw [if_pos hij, List.map_eq_nil_iff, List.filter_eq_nil_iff]
    intro n _
    simp [hij]
  · rw [if_neg hij]
    congr 1
    apply List.filter_congr
    intro n _
    by_cases hn : n.1 = i
    · simp [hn, hij]
    · simp [hn]

/-- The notices of one task, and those of the others. -/
theorem pending_perm (s : State) (i : ℕ) : (s.pending.map Prod.snd).Perm
    (s.noticesOf i ++ (s.pending.filter fun n => n.1 ≠ i).map Prod.snd) := by
  have hsplit := (List.filter_append_perm (fun n : ℕ × ℕ => decide (n.1 = i)) s.pending).symm
  have hmap := hsplit.map Prod.snd
  rw [List.map_append] at hmap
  simpa [State.noticesOf] using hmap

/-- An update expires what its pass has notified. -/
theorem inv_expireOrders {s : State} {i now : ℕ} (t : Tables) (hinv : contract.inv s)
    (hdue : (dueBids s.tables now).Perm (s.noticesOf i)) :
    contract.inv { s with
      tables := t, expired := s.expired ++ dueBids s.tables now,
      pending := s.pending.filter fun n => n.1 ≠ i } := by
  have hall : s.notified.Perm
      (s.expired ++ (s.noticesOf i ++ (s.pending.filter fun n => n.1 ≠ i).map Prod.snd)) :=
    List.Perm.trans hinv ((pending_perm s i).append_left s.expired)
  refine hall.trans ?_
  rw [← List.append_assoc]
  exact ((hdue.symm).append_left s.expired).append_right _

end Contract

section Passes
variable {env} {i : ℕ} {s : State}

theorem wp_notifyAll {t : Tables} (due : List Order) {ids : List ℕ} (hs : Notified i t ids s) :
    wp (exec env) Matched contract i (notifyAll due)
      (fun r u => r = .ok () ∧ Notified i t (ids ++ bidIds due) u) s := by
  induction due generalizing ids s with
  | nil => exact wp_ret ⟨rfl, by simpa [bidIds] using hs⟩
  | cons order due ih =>
    rw [notifyAll]
    by_cases hbid : isTokenBidOrder order = true
    · rw [if_pos hbid]
      refine wp_bind (wp_call _ (notified_stable i t ids) hs ?_)
      intro v hv hinv _ x r u hu
      obtain ⟨rfl, rfl⟩ := Prod.mk.inj (Option.some.inj hu)
      have hnotices := noticesOf_append v
      refine ⟨?_, fun j hji => ⟨rfl, ?_⟩, ?_⟩
      · have hadd := List.Perm.append_right [order.id] hinv
        simpa [contract] using hadd
      · rw [hnotices, if_neg (Ne.symm hji), List.append_nil]
      · have hnext : Notified i t (ids ++ [order.id]) { v with
            notified := v.notified ++ [order.id], pending := v.pending ++ [(i, order.id)] } := by
          refine ⟨hv.1, ?_⟩
          rw [hnotices, if_pos rfl, hv.2]
        have hrest := ih hnext
        rw [List.append_assoc] at hrest
        have hids : bidIds (order :: due) = [order.id] ++ bidIds due := by simp [bidIds, hbid]
        rw [hids]
        exact hrest
    · rw [if_neg hbid]
      have hids : bidIds (order :: due) = bidIds due := by simp [bidIds, hbid]
      rw [hids]
      exact ih hs

theorem wp_write (tables : Tables) (hs : noNotices i s) :
    wp (exec env) Matched contract i (perform (.write tables)) (fun _ => noNotices i) s := by
  refine wp_call (noNotices i) (fun _ _ hst _ h => noNotices_rely hst h) hs ?_
  intro v hv hinv _ x r u hu
  obtain ⟨rfl, rfl⟩ := Prod.mk.inj (Option.some.inj hu)
  exact ⟨hinv, fun _ _ => ⟨rfl, rfl⟩, hv⟩

theorem wp_expireOrders (hs : noNotices i s) :
    wp (exec env) Matched contract i expireOrders (fun _ => noNotices i) s := by
  have hstable : contract.Stable i (noNotices i) := fun _ _ hst _ h => noNotices_rely hst h
  unfold expireOrders
  refine wp_bind (wp_call _ hstable hs ?_)
  intro v hv hinv _ now r u hu
  obtain ⟨rfl, rfl⟩ := Prod.mk.inj (Option.some.inj hu)
  refine ⟨hinv, fun _ _ => ⟨rfl, rfl⟩, wp_ret (wp_bind (wp_call _ hstable hv ?_))⟩
  intro v' hv' hinv' _ x due u hu
  obtain ⟨rfl, rfl⟩ := Prod.mk.inj (Option.some.inj hu)
  refine ⟨hinv', fun j hji => ⟨Function.update_of_ne hji _ _, rfl⟩, wp_ret ?_⟩
  dsimp only
  split_ifs with hempty
  · exact wp_ret hv'
  · have hread : Notified i v'.tables [] { v' with
        readAt := Function.update v'.readAt i v'.tables } :=
      ⟨Function.update_self i _ _, hv'⟩
    refine wp_bind (wp_mono ?_ (wp_notifyAll _ hread))
    rintro _ w ⟨rfl, hw⟩
    rw [List.nil_append] at hw
    refine wp_call _ (notified_stable i _ _) hw ?_
    intro z hz hinvz hmatched _ r u hu
    obtain ⟨rfl, rfl⟩ := Prod.mk.inj (Option.some.inj hu)
    have hdue : (dueBids z.tables now).Perm (z.noticesOf i) := by
      rw [hz.2]
      have hperm : (dueBids z.tables now).Perm (selectedBids (z.readAt i) now) := hmatched
      rw [hz.1] at hperm
      exact hperm
    refine ⟨inv_expireOrders _ hinvz hdue, fun j hji => ⟨rfl, ?_⟩, wp_ret ?_⟩
    · rw [noticesOf_settled, if_neg hji]
    · exact (noticesOf_settled z i i _ _).trans (if_pos rfl)

theorem wp_task (a : Call) (hs : noNotices i s) :
    wp (exec env) Matched contract i a.task (fun _ => noNotices i) s := by
  cases a with
  | expireOrders => exact wp_expireOrders hs
  | write tables => exact wp_write tables hs

/-- In every run whose updates find what their selects returned, each token bid that expires is
notified once for each time it expires, nothing else is notified, and a notice that is ahead of its
expiry is one of a pass still under way. -/
theorem expiry_notices (t : Tables) {q : Pool State Cmd Res HttpError Unit}
    (hq : Pool.Reach (exec env) Call.task Matched ⟨init t, []⟩ q) :
    q.shared.notified.Perm (q.shared.expired ++ q.shared.pending.map Prod.snd) ∧
      ∀ n ∈ q.shared.pending, ∃ c next, q.tasks[n.1]? = some (.call c next) := by
  have hinit : contract.inv (init t) := List.Perm.refl _
  have hpost : contract.StablePost fun i (_ : Except HttpError Unit) => noNotices i :=
    fun _ _ _ _ hst h => noNotices_rely hst h
  obtain ⟨hsafe, hfresh⟩ := Pool.safe_reach_of_fresh hpost (fun _ _ _ => noNotices_rely)
    (fun a _ _ _ hs => wp_task a hs) hq (Pool.safe_nil hinit) fun _ _ => rfl
  refine ⟨hsafe.inv, fun n hn => ?_⟩
  have hnotice : n.2 ∈ q.shared.noticesOf n.1 :=
    List.mem_map.mpr ⟨n, List.mem_filter.mpr ⟨hn, by simp⟩, rfl⟩
  have hsome : ¬ noNotices n.1 q.shared := fun h => by
    rw [show q.shared.noticesOf n.1 = [] from h] at hnotice
    cases hnotice
  have hlt : n.1 < q.tasks.length := by
    by_contra hge
    exact hsome (hfresh n.1 (Nat.le_of_not_lt hge))
  cases htask : q.tasks[n.1] with
  | ret r =>
    have hget : q.tasks[n.1]? = some (.ret r) := by rw [List.getElem?_eq_getElem hlt, htask]
    exact absurd (hsafe.ended hget) hsome
  | call c next => exact ⟨c, next, by rw [List.getElem?_eq_getElem hlt, htask]⟩

end Passes

section Runs
variable {env}

def expiringBid (n : ℕ) : Order where
  id := n
  orderHash := js "0x" ++ Nat.toDigits 16 n
  offerer := js "0x00000000000000000000000000000000000000bb"
  side := .bid
  tokenContract := js "0x00000000000000000000000000000000000000cc"
  tokenId := js "7"
  parameters := { offer := [{ itemType := 1 }], consideration := [{ itemType := 2 }] }
  endTime := 50

/-- `n` bids that are due from time 51 on. -/
def expiringBook (n : ℕ) : Tables where
  orders := ⟨(List.range n).map expiringBid, by
    rw [List.map_map]
    exact List.nodup_range.map fun _ _ h => h⟩
  tokens := []
  holdings := []
  settlements := []
  assets := []
  cycles := Db.Table.empty
  claims := Db.Table.empty
  redemptions := Db.Table.empty

def anEnv : Env where
  rwaAddresses := []

theorem expiry_notices_single : ∃ q : Pool State Cmd Res HttpError Unit,
    q.shared.expired = [0] ∧
      q.shared.notified.Perm (q.shared.expired ++ q.shared.pending.map Prod.snd) ∧
      ∀ n ∈ q.shared.pending, ∃ c next, q.tasks[n.1]? = some (.call c next) := by
  have hrun : (Pool.runSchedule (exec anEnv) Call.task Matched
      [.spawn .expireOrders, .run 0 51, .run 0 0, .run 0 0, .run 0 0]
      ⟨init (expiringBook 1), []⟩).map (fun q => q.shared.expired) = some [0] := by decide +kernel
  obtain ⟨q, hq, hexpired⟩ := Pool.exists_reach_of_runSchedule _ _ hrun
  exact ⟨q, hexpired, expiry_notices (expiringBook 1) hq⟩

/-- A step of the only task. -/
theorem step_single {Ok : Allowed State Cmd} {s u : State} {x : ℕ} {c : Cmd} {r : Res c}
    {k : Res c → M Unit} (hok : Ok 0 s c) (hu : exec env 0 s x c = some (r, u)) :
    Pool.Step (exec env) Call.task Ok ⟨s, [.call c k]⟩ ⟨u, [k r]⟩ :=
  .run s u _ 0 x c r k rfl hok hu

/-- A loop that nothing interrupts. -/
theorem reach_notifyAll (k : Except HttpError Unit → M Unit) (due : List Order) (s : State) :
    ∃ u, Pool.Reach (exec env) Call.task anyStep ⟨s, [(notifyAll due).settle k]⟩
        ⟨u, [k (.ok ())]⟩ ∧
      u.tables = s.tables ∧ u.expired = s.expired ∧ u.notified = s.notified ++ bidIds due := by
  induction due generalizing s with
  | nil => exact ⟨s, .refl, rfl, rfl, by simp [bidIds]⟩
  | cons order due ih =>
    rw [notifyAll]
    by_cases hbid : isTokenBidOrder order = true
    · rw [if_pos hbid]
      obtain ⟨u, hu, htables, hexpired, hnotified⟩ := ih { s with
        notified := s.notified ++ [order.id], pending := s.pending ++ [(0, order.id)] }
      refine ⟨u, .head (step_single (x := 0) (r := ()) trivial rfl) hu, htables, hexpired, ?_⟩
      rw [hnotified, List.append_assoc]
      simp [bidIds, hbid]
    · rw [if_neg hbid]
      obtain ⟨u, hu, htables, hexpired, hnotified⟩ := ih s
      exact ⟨u, hu, htables, hexpired, by simpa [bidIds, hbid] using hnotified⟩

/-- A pass on its own notifies what its select returns and expires what is due. -/
theorem reach_pass {t : Tables} {now : ℕ} (hdue : (Stmt.dueOrders now).answer t ≠ []) :
    ∃ u, Pool.Reach (exec env) Call.task anyStep ⟨init t, []⟩ ⟨u, [.ret (.ok ())]⟩ ∧
      u.notified = selectedBids t now ∧ u.expired = dueBids t now := by
  have hnonempty : ¬ (((Stmt.dueOrders now).answer t : List Order).isEmpty = true) := by
    rw [List.isEmpty_iff]
    exact hdue
  let s : State := { init t with readAt := Function.update (init t).readAt 0 t }
  let k : Except HttpError Unit → M Unit := Prog.onOk fun _ => perform (.expireOrders now)
  have hclock : Pool.Reach (exec env) Call.task anyStep ⟨init t, []⟩
      ⟨init t, [(do
        let due ← perform (.dueOrders now)
        if due.isEmpty then pure ()
        else do
          notifyAll due
          perform (.expireOrders now))]⟩ :=
    .tail (.single (.spawn (init t) [] .expireOrders)) (step_single (x := now) trivial rfl)
  have hselect : Pool.Reach (exec env) Call.task anyStep ⟨init t, []⟩
      ⟨s, [if ((Stmt.dueOrders now).answer t : List Order).isEmpty then pure ()
        else (notifyAll ((Stmt.dueOrders now).answer t)).settle k]⟩ :=
    .tail hclock (step_single (x := 0) (c := .dueOrders now)
      (k := fun due => if due.isEmpty then pure () else (notifyAll due).settle k) trivial rfl)
  rw [if_neg hnonempty] at hselect
  obtain ⟨u, hu, htables, hexpired, hnotified⟩ :=
    reach_notifyAll k ((Stmt.dueOrders now).answer t) s
  have hloop := hselect.trans hu
  have hupdate : Pool.Step (exec env) Call.task anyStep ⟨u, [k (.ok ())]⟩ ⟨_, [.ret (.ok ())]⟩ :=
    step_single (x := 0) (c := .expireOrders now) (k := fun _ => .ret (.ok ())) trivial rfl
  refine ⟨_, .tail hloop hupdate, hnotified, ?_⟩
  change u.expired ++ dueBids u.tables now = _
  rw [htables, hexpired]
  rfl

theorem find_expiringBook (n : ℕ) :
    (expiringBook n).orders.find (Tables.isDue 51) = (List.range n).map expiringBid := by
  refine List.filter_eq_self.mpr fun o ho => ?_
  obtain ⟨k, -, rfl⟩ := List.mem_map.mp ho
  rfl

theorem bidIds_expiringBids (ks : List ℕ) : bidIds (ks.map expiringBid) = ks := by
  have hall : (ks.map expiringBid).filter isTokenBidOrder = ks.map expiringBid := by
    refine List.filter_eq_self.mpr fun o ho => ?_
    obtain ⟨k, -, rfl⟩ := List.mem_map.mp ho
    rfl
  unfold bidIds
  rw [hall, List.map_map]
  exact List.map_id ks

theorem dueBids_expiringBook (n : ℕ) : dueBids (expiringBook n) 51 = List.range n := by
  unfold dueBids
  rw [find_expiringBook, bidIds_expiringBids]

theorem selectedBids_expiringBook (n : ℕ) :
    selectedBids (expiringBook n) 51 = (List.range n).take 500 := by
  change bidIds (((expiringBook n).orders.find (Tables.isDue 51)).take 500) = _
  rw [find_expiringBook, ← List.map_take, bidIds_expiringBids]

/-- 501 due bids: the pass ends, and the last of them has expired without a notice. -/
theorem bid_expires_unnotified : ∃ q : Pool State Cmd Res HttpError Unit,
    Pool.Reach (exec anEnv) Call.task anyStep ⟨init (expiringBook 501), []⟩ q ∧
      q.tasks = [.ret (.ok ())] ∧ 500 ∈ q.shared.expired ∧ 500 ∉ q.shared.notified := by
  have hdue : (Stmt.dueOrders 51).answer (expiringBook 501) ≠ [] := by
    intro hnil
    have hids := selectedBids_expiringBook 501
    unfold selectedBids at hids
    rw [hnil, List.take_range, eq_comm] at hids
    have hzero : min 500 501 = 0 := List.range_eq_nil.mp hids
    omega
  obtain ⟨u, hu, hnotified, hexpired⟩ := reach_pass hdue
  refine ⟨_, hu, rfl, ?_, ?_⟩
  · change 500 ∈ u.expired
    rw [hexpired, dueBids_expiringBook]
    exact List.mem_range.mpr (by omega)
  · change 500 ∉ u.notified
    rw [hnotified, selectedBids_expiringBook, List.take_range, List.mem_range]
    omega

end Runs

end ExpiryNotices

import Tokenable.Redeem.Completion

/-!
# Batches that the tracking job never confirms

A completed batch stays among the candidates of the job: it is unrefunded, tracked and delivered.
The job orders its candidates by the time of delivery and looks at the first 40 batches only. Once
40 completed batches were delivered before a batch, no pass confirms its receipt.

A row that is delivered when the run starts is not stamped again. What a call loads of such a row,
and so what it saves, is judged without regard to the state (`Genuine`).
-/

namespace Receipts
open Js Platform Async Db Vault Redeem Backend

/-- A completed batch, as the job sees it by one of its rows. -/
def FinishedBefore (s : Store) (time : ℕ) (batchId : JsStr) : Prop :=
  ∃ r ∈ s.db.redemptions.rows, r.paymentBatchId = some batchId ∧ r.status = .completed ∧
    r.refundStatus = .none ∧ hasTracking r ∧
      ∃ d, (s.delivery r.id).carrierDeliveredAt = some d ∧ d < time

def DeliveredFrom (s : Store) (time : ℕ) (batchId : JsStr) : Prop :=
  ∀ r ∈ s.db.redemptions.rows, r.paymentBatchId = some batchId →
    ∃ d, (s.delivery r.id).carrierDeliveredAt = some d ∧ time ≤ d

def NotAuto (s : Store) (batchId : JsStr) : Prop :=
  ∀ r ∈ s.db.redemptions.rows, r.paymentBatchId = some batchId →
    (s.delivery r.id).receiptConfirmedVia ≠ some .auto

section Genuine
variable (s₀ : Store) (batchId : JsStr)

def WasDelivered (id : JsStr) (d : ℕ) : Prop :=
  ∃ r ∈ s₀.db.redemptions.rows, r.id = id ∧ (s₀.delivery id).carrierDeliveredAt = some d

/-- A row that may be that of a state of the run. -/
structure Genuine (r : VaultRedemption) : Prop where
  trimmed : ∀ b ∈ r.paymentBatchId, trim b = b
  known : r.paymentBatchId = some batchId →
    ∃ r₀ ∈ s₀.db.redemptions.rows, r₀.id = r.id ∧ r₀.paymentBatchId = some batchId
  batch : ∀ r₀ ∈ s₀.db.redemptions.rows, r₀.id = r.id → r.paymentBatchId = r₀.paymentBatchId
  completed : ∀ r₀ ∈ s₀.db.redemptions.rows, r₀.id = r.id → r₀.status = .completed →
    ∀ d, (s₀.delivery r.id).carrierDeliveredAt = some d → r = r₀

/-- An entity whose save keeps the times of delivery, and the batch from the job. -/
structure GenuineSave (e : Entity) : Prop where
  row : Genuine s₀ batchId e.row
  delivered : ∀ d, WasDelivered s₀ e.row.id d →
    ∀ c, (e.assign c).carrierDeliveredAt = c.carrierDeliveredAt
  notAuto : e.row.paymentBatchId = some batchId →
    ∀ c, c.receiptConfirmedVia ≠ some .auto → (e.assign c).receiptConfirmedVia ≠ some .auto

/-- What is known of an answer, whenever it was given. -/
def Answers : (c : Cmd) → Res c → Prop
  | .table (.findLatestRedemption ..), .ok found => ∀ r ∈ found, Genuine s₀ batchId r
  | .findBatchOnChain b _, .ok parcels =>
    ∀ p ∈ parcels, Genuine s₀ batchId p.1 ∧ p.1.paymentBatchId = some b
  | .findUndelivered, .ok rows =>
    ∀ r ∈ rows, Genuine s₀ batchId r ∧ ∀ d, ¬ WasDelivered s₀ r.id d
  | .findDueCandidates _, .ok rows =>
    ∀ b ∈ (groupBy (fun r => r.paymentBatchId.getD []) rows).keys.take maxAutoBatchesPerPoll,
      trim b ≠ batchId
  | _, _ => True

def Issued : Cmd → Prop
  | .table (.saveRedemption r) => Genuine s₀ batchId r
  | .table (.insertRedemption r) => r.paymentBatchId = none
  | .table (.findToken ..) | .table (.findCycle _) | .table (.findLatestRedemption ..) | .table .now
  | .table (.saveToken _) | .table (.saveCycle ..) => True
  | .table _ => False
  | .saveRedemptions rows => ∀ e ∈ rows, GenuineSave s₀ batchId e
  | _ => True

structure Kept (s : Store) : Prop where
  rows : ∀ r ∈ s.db.redemptions.rows, Genuine s₀ batchId r
  present : ∀ r ∈ s₀.db.redemptions.rows, (s.db.redemptions.get r.id).isSome
  delivered : ∀ id d, WasDelivered s₀ id d →
    s.deliveries id ≠ [] ∧ ∀ c ∈ s.deliveries id, c.carrierDeliveredAt = some d
  notAuto : ∀ r ∈ s₀.db.redemptions.rows, r.paymentBatchId = some batchId →
    ∀ c ∈ s.deliveries r.id, c.receiptConfirmedVia ≠ some .auto

variable {s₀ batchId} {r : VaultRedemption}

theorem Genuine.confirmed (h : Genuine s₀ batchId r) : Genuine s₀ batchId (confirmed r) where
  trimmed := h.trimmed
  known := h.known
  batch := h.batch
  completed r₀ hr₀ hid hcompleted d hd := by
    have hrow : r = r₀ := h.completed r₀ hr₀ hid hcompleted d hd
    rw [← hrow] at hcompleted
    calc Receipts.confirmed r = { r with status := r.status } := by
          rw [Receipts.confirmed, ← hcompleted]
      _ = r₀ := hrow

theorem Genuine.burned (h : Genuine s₀ batchId r) : Genuine s₀ batchId (Cycles.burned r) := by
  unfold Cycles.burned
  split_ifs with hstatus
  · refine ⟨h.trimmed, h.known, h.batch, fun r₀ hr₀ hid hcompleted d hd => ?_⟩
    have hrow : r = r₀ := h.completed r₀ hr₀ hid hcompleted d hd
    exact absurd (hrow ▸ hcompleted) hstatus
  · exact h

theorem Genuine.received (h : Genuine s₀ batchId r) (via : Via)
    (hvia : r.paymentBatchId = some batchId → via ≠ .auto) :
    GenuineSave s₀ batchId (received via r) where
  row := h.confirmed
  delivered _ _ _ := by
    by_cases hr : r.status = .completed <;> simp [Receipts.received, hr]
  notAuto hbatch c hc := by
    have hnot : via ≠ .auto := hvia hbatch
    by_cases hr : r.status = .completed
    · cases hold : c.receiptConfirmedVia with
      | none => simpa [Receipts.received, hr, hold] using hnot
      | some old =>
          rw [hold] at hc
          simpa [Receipts.received, hr, hold] using hc
    · simpa [Receipts.received, hr] using hnot

theorem Genuine.stamped (h : Genuine s₀ batchId r) (hr : ∀ d, ¬ WasDelivered s₀ r.id d)
    (at_ : ℕ) : GenuineSave s₀ batchId (stamped at_ r) where
  row := h
  delivered d hd := absurd hd (hr d)
  notAuto _ _ hc := hc

end Genuine

section Saves
variable {s₀ s : Store} {batchId : JsStr}

theorem mem_savedDeliveries {loaded : JsStr → ℕ} {rows : List Entity} {id : JsStr} {c : Delivery}
    (h : c ∈ savedDeliveries s loaded rows id) :
    c ∈ s.deliveries id ∨ ∃ e ∈ rows, e.row.id = id ∧
      c = e.assign ((s.deliveries id)[loaded id]?.getD (s.delivery id)) := by
  unfold savedDeliveries at h
  cases hfind : rows.find? fun e => e.row.id = id with
  | none =>
      rw [hfind] at h
      exact .inl h
  | some e =>
      rw [hfind] at h
      rcases List.mem_cons.mp h with rfl | h
      · exact .inr ⟨e, List.mem_of_find?_eq_some hfind, by simpa using List.find?_some hfind, rfl⟩
      · exact .inl h

theorem savedDeliveries_ne_nil {loaded : JsStr → ℕ} {rows : List Entity} {id : JsStr}
    (h : s.deliveries id ≠ []) : savedDeliveries s loaded rows id ≠ [] := by
  unfold savedDeliveries
  cases rows.find? fun e => e.row.id = id with
  | none => exact h
  | some e => exact List.cons_ne_nil _ _

/-- The value that a row was loaded with is one of those that its columns have had. -/
theorem loaded_mem {id : JsStr} (h : s.deliveries id ≠ []) (n : ℕ) :
    (s.deliveries id)[n]?.getD (s.delivery id) ∈ s.deliveries id := by
  cases hn : (s.deliveries id)[n]? with
  | none =>
      obtain ⟨c, cs, hc⟩ := List.exists_cons_of_ne_nil h
      simp [Store.delivery, hc]
  | some c => simpa using List.mem_of_getElem? hn

theorem Kept.savedDeliveries (hs : Kept s₀ batchId s) {rows : List Entity}
    (hrows : ∀ e ∈ rows, GenuineSave s₀ batchId e)
    (hlate : ∀ r ∈ s₀.db.redemptions.rows, r.paymentBatchId = some batchId →
      ∃ d, WasDelivered s₀ r.id d) (loaded : JsStr → ℕ) :
    (∀ id d, WasDelivered s₀ id d → savedDeliveries s loaded rows id ≠ [] ∧
      ∀ c ∈ savedDeliveries s loaded rows id, c.carrierDeliveredAt = some d) ∧
    ∀ r ∈ s₀.db.redemptions.rows, r.paymentBatchId = some batchId →
      ∀ c ∈ savedDeliveries s loaded rows r.id, c.receiptConfirmedVia ≠ some .auto := by
  constructor
  · intro id d hd
    obtain ⟨hne, hsame⟩ := hs.delivered id d hd
    refine ⟨savedDeliveries_ne_nil hne, fun c hc => ?_⟩
    rcases mem_savedDeliveries hc with hc | ⟨e, he, rfl, rfl⟩
    · exact hsame c hc
    · rw [(hrows e he).delivered d hd]
      exact hsame _ (loaded_mem hne _)
  · intro r hr hbatch c hc
    obtain ⟨d, hd⟩ := hlate r hr hbatch
    rcases mem_savedDeliveries hc with hc | ⟨e, he, hid, rfl⟩
    · exact hs.notAuto r hr hbatch c hc
    · have hbatch' : e.row.paymentBatchId = some batchId := by
        rw [(hrows e he).row.batch r hr hid.symm, hbatch]
      apply (hrows e he).notAuto hbatch'
      exact hs.notAuto r hr hbatch _ (loaded_mem (hs.delivered r.id d hd).1 _)

theorem kept_start {columns : JsStr → Delivery} (hstart : ∀ id, s₀.deliveries id = [columns id])
    (htrimmed : ∀ r ∈ s₀.db.redemptions.rows, ∀ b ∈ r.paymentBatchId, trim b = b)
    (hnot : NotAuto s₀ batchId) : Kept s₀ batchId s₀ where
  rows r hr := by
    have hsame : ∀ r₀ ∈ s₀.db.redemptions.rows, r₀.id = r.id → r₀ = r :=
      fun r₀ hr₀ hid => Table.key_inj hr₀ hr hid
    refine ⟨htrimmed r hr, fun hbatch => ⟨r, hr, rfl, hbatch⟩, fun r₀ hr₀ hid => ?_, ?_⟩
    · rw [hsame r₀ hr₀ hid]
    · exact fun r₀ hr₀ hid _ _ _ => (hsame r₀ hr₀ hid).symm
  present r hr := by
    rw [Table.get_of_mem hr]
    rfl
  delivered id d := by
    rintro ⟨r, -, -, hd⟩
    simp only [Store.delivery, hstart, List.headD_cons] at hd
    rw [hstart]
    constructor
    · exact List.cons_ne_nil _ _
    · intro c hc
      rw [List.mem_singleton.mp hc, hd]
  notAuto r hr hbatch c hc := by
    have hvia := hnot r hr hbatch
    rw [hstart, List.mem_singleton] at hc
    simpa [Store.delivery, hstart, hc] using hvia

end Saves

section Steps
variable {cfg : Config} {s₀ s u : Store} {batchId : JsStr} {c : Cmd}

def Late (s₀ : Store) (batchId : JsStr) : Prop :=
  ∀ r ∈ s₀.db.redemptions.rows, r.paymentBatchId = some batchId → ∃ d, WasDelivered s₀ r.id d

/-- Only the table of the redemptions and the delivery columns matter. -/
theorem Kept.congr (hs : Kept s₀ batchId s) (hrows : u.db.redemptions = s.db.redemptions)
    (hdeliveries : u.deliveries = s.deliveries) : Kept s₀ batchId u where
  rows := hrows ▸ hs.rows
  present := hrows ▸ hs.present
  delivered := hdeliveries ▸ hs.delivered
  notAuto := hdeliveries ▸ hs.notAuto

theorem Kept.save (hs : Kept s₀ batchId s) (hlate : Late s₀ batchId) {rows : List Entity}
    (hrows : ∀ e ∈ rows, GenuineSave s₀ batchId e) (loaded : JsStr → ℕ)
    (hredemptions : u.db.redemptions = s.db.redemptions.saveAll (rows.map Entity.row))
    (hdeliveries : u.deliveries = Receipts.savedDeliveries s loaded rows) : Kept s₀ batchId u := by
  obtain ⟨hdelivered, hnot⟩ := hs.savedDeliveries hrows hlate loaded
  refine ⟨fun r hr => ?_, fun r hr => ?_, hdeliveries ▸ hdelivered, hdeliveries ▸ hnot⟩
  · rw [hredemptions] at hr
    rcases Table.mem_saveAll hr with hr | ⟨hr, -⟩
    · obtain ⟨e, he, rfl⟩ := List.mem_map.mp hr
      exact (hrows e he).row
    · exact hs.rows r hr
  · rw [hredemptions]
    exact Table.isSome_get_saveAll (hs.present r hr)

/-- A free id has no delivery columns. -/
theorem Kept.forget (hs : Kept s₀ batchId s) (hredemptions : u.db.redemptions = s.db.redemptions)
    (hdeliveries : u.deliveries =
      fun id => if s.db.redemptions.get id = none then [] else s.deliveries id) :
    Kept s₀ batchId u := by
  have hsame : ∀ r₀ ∈ s₀.db.redemptions.rows, u.deliveries r₀.id = s.deliveries r₀.id := by
    intro r₀ hr₀
    have hpresent := hs.present r₀ hr₀
    rw [hdeliveries]
    exact if_neg fun hnone => by simp [hnone] at hpresent
  refine ⟨hredemptions ▸ hs.rows, hredemptions ▸ hs.present, fun id d hd => ?_,
    fun r₀ hr₀ hbatch => ?_⟩
  · obtain ⟨r₀, hr₀, rfl, hat⟩ := hd
    rw [hsame r₀ hr₀]
    exact hs.delivered r₀.id d ⟨r₀, hr₀, rfl, hat⟩
  · rw [hsame r₀ hr₀]
    exact hs.notAuto r₀ hr₀ hbatch

/-- A new row has an id of its own and is in no batch. -/
theorem Kept.insert (hs : Kept s₀ batchId s) {r : VaultRedemption}
    (hbatch : r.paymentBatchId = none)
    (hfree : s.db.redemptions.get r.id = none)
    (hredemptions : u.db.redemptions = s.db.redemptions.save r)
    (hdeliveries : u.deliveries = s.deliveries) : Kept s₀ batchId u := by
  have hnew : ∀ r₀ ∈ s₀.db.redemptions.rows, r₀.id ≠ r.id := by
    intro r₀ hr₀ hid
    have hpresent := hs.present r₀ hr₀
    rw [hid, hfree] at hpresent
    cases hpresent
  refine ⟨fun r' hr' => ?_, fun r₀ hr₀ => ?_, hdeliveries ▸ hs.delivered,
    hdeliveries ▸ hs.notAuto⟩
  · rw [hredemptions] at hr'
    rcases Table.mem_save.mp hr' with rfl | ⟨hr', -⟩
    · refine ⟨fun b hb => ?_, fun hb => ?_, fun r₀ hr₀ hid => absurd hid (hnew r₀ hr₀),
        fun r₀ hr₀ hid => absurd hid (hnew r₀ hr₀)⟩
      · rw [hbatch] at hb
        cases hb
      · rw [hbatch] at hb
        cases hb
    · exact hs.rows r' hr'
  · rw [hredemptions]
    exact Table.isSome_get_save (hs.present r₀ hr₀)

theorem Kept.carrierDeliveredAt (hs : Kept s₀ batchId s) {id : JsStr} {d : ℕ}
    (hd : WasDelivered s₀ id d) : (s.delivery id).carrierDeliveredAt = some d := by
  obtain ⟨hne, hsame⟩ := hs.delivered id d hd
  obtain ⟨c, cs, hc⟩ := List.exists_cons_of_ne_nil hne
  rw [hc] at hsame
  simp [Store.delivery, hc, hsame]

/-- A candidate of the batch comes after the finished ones. -/
theorem isDue_of_finished (hs : Kept s₀ batchId s) {time d : ℕ} {dueBefore : ℤ} {b : JsStr}
    (hfinished : FinishedBefore s₀ time b) (hd : time ≤ d) (hdue : (d : ℤ) ≤ dueBefore) :
    ∃ r ∈ s.db.redemptions.rows, r.paymentBatchId = some b ∧ isDue s dueBefore r = true ∧
      deliveredAt s r < d := by
  obtain ⟨r₀, hr₀, hbatch, hcompleted, hrefund, htracking, e, he, hlt⟩ := hfinished
  have hwas : WasDelivered s₀ r₀.id e := ⟨r₀, hr₀, rfl, he⟩
  have hat : (s.delivery r₀.id).carrierDeliveredAt = some e := hs.carrierDeliveredAt hwas
  obtain ⟨r, hget⟩ := Option.isSome_iff_exists.mp (hs.present r₀ hr₀)
  obtain ⟨hr, hid⟩ := Table.get_eq_some.mp hget
  have hrow : r = r₀ := (hs.rows r hr).completed r₀ hr₀ hid.symm hcompleted e (by rw [hid, he])
  refine ⟨r₀, hrow ▸ hr, hbatch, ?_, ?_⟩
  · have hle : (e : ℤ) ≤ dueBefore := by omega
    simp [isDue, hbatch, hrefund, hcompleted, htracking, hat, hle]
  · simp only [deliveredAt, hat, Option.getD_some]
    omega

theorem due_spec {dueBefore : ℤ} {r : VaultRedemption} (h : r ∈ dueCandidates s dueBefore) :
    r ∈ s.db.redemptions.rows ∧ isDue s dueBefore r = true := by
  have hmem := List.mem_of_mem_take h
  rw [(List.perm_insertionSort _ _).mem_iff] at hmem
  exact Table.mem_find.mp hmem

theorem isDue_spec {dueBefore : ℤ} {r : VaultRedemption} (h : isDue s dueBefore r = true) :
    r.paymentBatchId.isSome ∧ (deliveredAt s r : ℤ) ≤ dueBefore := by
  simp only [isDue, Bool.and_eq_true] at h
  obtain ⟨⟨⟨⟨hbatch, -⟩, -⟩, -⟩, hat⟩ := h
  obtain ⟨d, hd, hle⟩ := (Option.any_eq_true _ _).mp hat
  refine ⟨hbatch, ?_⟩
  simpa [deliveredAt, hd] using hle

/-- What was delivered earlier comes earlier. -/
theorem mem_front {dueBefore : ℤ} {front back : List VaultRedemption} {a b : VaultRedemption}
    (h : dueCandidates s dueBefore = front ++ a :: back) (hb : b ∈ s.db.redemptions.rows)
    (hdue : isDue s dueBefore b = true) (hlt : deliveredAt s b < deliveredAt s a) : b ∈ front := by
  let sorted := (s.db.redemptions.find (isDue s dueBefore)).insertionSort
    fun a b => deliveredAt s a ≤ deliveredAt s b
  have hsplit : sorted = front ++ a :: (back ++ sorted.drop 200) := by
    calc sorted = sorted.take 200 ++ sorted.drop 200 := (List.take_append_drop 200 sorted).symm
      _ = _ := by
        rw [show sorted.take 200 = _ from h]
        simp
  have hmem : b ∈ sorted :=
    (List.perm_insertionSort _ _).mem_iff.mpr (Table.mem_find.mpr ⟨hb, hdue⟩)
  have hsorted : sorted.Pairwise fun a b => deliveredAt s a ≤ deliveredAt s b :=
    List.pairwise_insertionSort _ _
  rw [hsplit] at hmem hsorted
  rcases List.mem_append.mp hmem with hfront | hrest
  · exact hfront
  · rcases List.mem_cons.mp hrest with rfl | hback
    · exact absurd hlt (lt_irrefl _)
    · have hle := (List.pairwise_cons.mp (List.pairwise_append.mp hsorted).2.1).1 b hback
      omega

/-- The job does not come to the batch: it looks at 40 batches, and as many are finished. -/
theorem not_among_first (hs : Kept s₀ batchId s) {batches : List JsStr} (hnodup : batches.Nodup)
    {time : ℕ} (hfinished : ∀ b ∈ batches, FinishedBefore s₀ time b)
    (hlate : DeliveredFrom s₀ time batchId) (dueBefore : ℤ) :
    batchId ∉ (groupBy (fun r => r.paymentBatchId.getD [])
      (dueCandidates s dueBefore)).keys.take batches.length := by
  intro hmem
  obtain ⟨r, hr, hbatch⟩ := mem_keys_groupBy.mp (List.mem_of_mem_take hmem)
  have hfound : ((dueCandidates s dueBefore).find? fun r =>
      r.paymentBatchId.getD [] = batchId).isSome := by
    rw [List.find?_isSome]
    exact ⟨r, hr, decide_eq_true hbatch⟩
  obtain ⟨a, hfind⟩ := Option.isSome_iff_exists.mp hfound
  obtain ⟨ha, front, back, hsplit, hfirst⟩ := List.find?_eq_some_iff_append.mp hfind
  obtain ⟨haTable, haDue⟩ := due_spec (hsplit ▸ List.mem_append_right front List.mem_cons_self)
  obtain ⟨hsome, hle⟩ := isDue_spec haDue
  have haBatch : a.paymentBatchId = some batchId := by
    obtain ⟨b, hb⟩ := Option.isSome_iff_exists.mp hsome
    simpa [hb] using ha
  have hlater : time ≤ deliveredAt s a := by
    obtain ⟨r₀, hr₀, hid, hr₀batch⟩ := (hs.rows a haTable).known haBatch
    obtain ⟨d, hd, htime⟩ := hlate r₀ hr₀ hr₀batch
    have hat := hs.carrierDeliveredAt ⟨r₀, hr₀, rfl, hd⟩
    rw [hid] at hat
    simpa [deliveredAt, hat] using htime
  rw [hsplit] at hmem
  refine not_mem_take_keys_groupBy hnodup (fun b hb => ?_) (fun b hb heq => ?_) hmem
  · obtain ⟨r', hr', hbatch', hdue', hlt⟩ := isDue_of_finished hs (hfinished b hb) hlater hle
    exact ⟨r', mem_front hsplit hr' hdue' hlt, by rw [hbatch', Option.getD_some]⟩
  · simpa [heq] using hfirst b hb

theorem Kept.found (hs : Kept s₀ batchId s) {cycleId : JsStr} {except : List RedemptionStatus} :
    ∀ r ∈ Cycles.latestRedemption s.db cycleId except, Genuine s₀ batchId r :=
  fun r hr => hs.rows r (mem_latestRedemption hr)

/-- As many batches as a pass looks at are completed and were delivered before this one. -/
def Overtaken (s₀ : Store) (batchId : JsStr) : Prop :=
  ∃ time, ∃ batches : List JsStr, batches.Nodup ∧ batches.length = maxAutoBatchesPerPoll ∧
    (∀ b ∈ batches, FinishedBefore s₀ time b) ∧ DeliveredFrom s₀ time batchId

theorem Overtaken.late (h : Overtaken s₀ batchId) : Late s₀ batchId := by
  obtain ⟨time, -, -, -, -, hdelivered⟩ := h
  intro r hr hbatch
  obtain ⟨d, hd, -⟩ := hdelivered r hr hbatch
  exact ⟨d, r, hr, rfl, hd⟩

theorem Overtaken.answers (h : Overtaken s₀ batchId) (hs : Kept s₀ batchId s) (dueBefore : ℤ) :
    Answers s₀ batchId (.findDueCandidates dueBefore) (.ok (dueCandidates s dueBefore)) := by
  obtain ⟨time, batches, hnodup, hlength, hfinished, hdelivered⟩ := h
  intro b hb htrim
  obtain ⟨r, hr, rfl⟩ := mem_keys_groupBy.mp (List.mem_of_mem_take hb)
  obtain ⟨hr, hdue⟩ := due_spec hr
  obtain ⟨b, hbatch⟩ := Option.isSome_iff_exists.mp (isDue_spec hdue).1
  rw [hbatch, Option.getD_some, (hs.rows r hr).trimmed b hbatch] at htrim
  rw [hbatch, Option.getD_some, htrim, ← hlength] at hb
  exact not_among_first hs hnodup hfinished hdelivered dueBefore hb

/-- Each statement answers and keeps as it should. -/
theorem kept_run (h : Overtaken s₀ batchId) (hs : Kept s₀ batchId s) (hc : Issued s₀ batchId c)
    (x : Answer) :
    Answers s₀ batchId c (run cfg s x c).1 ∧ Kept s₀ batchId (run cfg s x c).2 := by
  cases c with
  | table c =>
    cases c with
    | saveRedemption r =>
      have hsave : ∀ e ∈ [({ row := r } : Entity)], GenuineSave s₀ batchId e := by
        intro e he
        rw [List.mem_singleton.mp he]
        exact ⟨hc, fun _ _ _ => rfl, fun _ _ hc => hc⟩
      exact ⟨trivial, hs.save h.late hsave x.loaded rfl rfl⟩
    | insertRedemption r =>
      have hforgot :
        Kept s₀ batchId { s with deliveries := tableDeliveries s x (.insertRedemption r) } :=
        hs.forget rfl rfl
      refine ⟨trivial, ?_⟩
      unfold run Cycles.exec
      dsimp only
      split_ifs with hfree
      · exact hforgot.insert
          (r := { r with id := x.draws 0 .uuid, requestedAt := x.draws 0 .now }) hc
          (Option.isNone_iff_eq_none.mp hfree) rfl rfl
      · exact hforgot
    | findLatestRedemption => exact ⟨hs.found, hs⟩
    | findToken => exact ⟨trivial, hs⟩
    | findCycle => exact ⟨trivial, hs⟩
    | now => exact ⟨trivial, hs⟩
    | saveToken token => exact ⟨trivial, hs.congr rfl rfl⟩
    | saveCycle loaded cycle =>
      refine ⟨trivial, ?_⟩
      unfold run Cycles.exec
      dsimp only
      split_ifs
      · exact hs
      · exact hs.congr rfl rfl
    | _ => exact absurd hc id
  | saveRedemptions rows => exact ⟨trivial, hs.save h.late hc x.loaded rfl rfl⟩
  | findBatchOnChain b chainId =>
    refine ⟨fun p hp => ?_, hs⟩
    obtain ⟨r, hr, rfl⟩ := List.mem_map.mp hp
    obtain ⟨hmem, hbatch, -⟩ := mem_batchOnChain hr
    exact ⟨hs.rows r hmem, hbatch⟩
  | findUndelivered =>
    refine ⟨fun r hr => ?_, hs⟩
    obtain ⟨hmem, hnone⟩ := mem_undelivered hr
    refine ⟨hs.rows r hmem, fun d hd => ?_⟩
    rw [hs.carrierDeliveredAt hd] at hnone
    cases hnone
  | findDueCandidates dueBefore => exact ⟨h.answers hs dueBefore, hs⟩
  | saveOrder order => exact ⟨trivial, hs.congr rfl rfl⟩
  | syncTokenFromChain contract tokenId => exact ⟨trivial, hs.congr rfl rfl⟩
  | recordOwner contract tokenId owner =>
    exact ⟨trivial, hs.congr (redemptions_recordOwner s.db contract tokenId owner) rfl⟩
  | recordBurn contract tokenId =>
    exact ⟨trivial, hs.congr (redemptions_recordBurn s.db contract tokenId _) rfl⟩
  | burn chainId tokenId signer =>
    refine ⟨trivial, ?_⟩
    change Kept s₀ batchId (burnNft s x (chainId, tokenId) signer).2
    unfold burnNft
    split
    · exact hs
    · split_ifs
      · exact hs.congr rfl rfl
      · exact hs
  | _ => exact ⟨trivial, hs⟩

theorem answers_error (c : Cmd) (e : HttpError) : Answers s₀ batchId c (.error e) := by
  cases c with
  | table c => cases c <;> trivial
  | _ => trivial

theorem kept_exec (h : Overtaken s₀ batchId) (hs : Kept s₀ batchId s) (hc : Issued s₀ batchId c)
    {x : Answer} {r : Res c} (hu : exec cfg s x c = (r, u)) :
    Answers s₀ batchId c r ∧ Kept s₀ batchId u := by
  have hrun : Answers s₀ batchId c (run cfg s x c).1 ∧ Kept s₀ batchId (run cfg s x c).2 :=
    kept_run h hs hc x
  unfold exec at hu
  cases hfate : x.fate with
  | done =>
    rw [hfate] at hu
    dsimp only at hu
    rwa [hu] at hrun
  | failed e =>
    rw [hfate] at hu
    obtain ⟨rfl, rfl⟩ := Prod.mk.inj hu
    exact ⟨answers_error c e, hs⟩
  | unseen e =>
    rw [hfate] at hu
    obtain ⟨rfl, rfl⟩ := Prod.mk.inj hu
    exact ⟨answers_error c e, hrun.2⟩

end Steps

section Programs
variable {cfg : Config} {s₀ : Store} {batchId : JsStr} {α : Type}

abbrev Sound (s₀ : Store) (batchId : JsStr) (p : M α) : Prop :=
  p.IssuesGiven (Answers s₀ batchId) (Issued s₀ batchId)

theorem sound_ret (r : Except HttpError α) : Sound s₀ batchId (.ret r : M α) :=
  Prog.issuesGiven_ret r

theorem sound_perform_bind {c : Cmd} {f : Value c → M α} (hc : Issued s₀ batchId c)
    (hf : ∀ v, Answers s₀ batchId c (.ok v) → Sound s₀ batchId (f v)) :
    Sound s₀ batchId (perform c >>= f) := by
  refine ⟨hc, fun r hr => ?_⟩
  cases r with
  | error e => exact sound_ret _
  | ok v => exact hf v hr

theorem sound_quiet {p : M α} (hp : p.Issues Quiet) : Sound s₀ batchId p := by
  refine Prog.Issues.given (Prog.issues_mono (fun c hc => ?_) hp)
  cases c with
  | table c => cases c <;> trivial
  | saveRedemptions => exact absurd hc id
  | _ => trivial

theorem sound_recordRedemptionBurn (p : Cycles.BurnRecord) (cycleId : JsStr) :
    Sound s₀ batchId (tables (Cycles.recordRedemptionBurn p cycleId)) := by
  have hsave : ∀ r : VaultRedemption, Genuine s₀ batchId r →
      Sound s₀ batchId (tables (Cycles.perform (.saveRedemption (Cycles.burned r)))) := by
    intro r hr
    rw [tables_perform]
    exact Prog.issuesGiven_call hr.burned
  rw [Cycles.recordRedemptionBurn, tables_perform_bind]
  refine sound_perform_bind trivial fun found hfound => ?_
  cases found with
  | some r => exact hsave r (hfound r rfl)
  | none =>
    dsimp only
    rw [tables_perform_bind]
    refine sound_perform_bind trivial fun completed hcompleted => ?_
    cases completed with
    | some r => exact hsave r (hcompleted r rfl)
    | none =>
      dsimp only
      rw [tables_perform_bind]
      exact sound_perform_bind rfl fun _ _ => sound_ret _

theorem sound_completeRedemptionBurn (p : Cycles.BurnRecord) :
    Sound s₀ batchId (tables (Cycles.completeRedemptionBurn p)) := by
  rw [Cycles.completeRedemptionBurn, tables_perform_bind]
  refine sound_perform_bind trivial fun found _ => ?_
  cases found with
  | none => exact sound_ret _
  | some token =>
    dsimp only
    rw [tables_perform_bind]
    refine sound_perform_bind trivial fun at_ _ => ?_
    rw [tables_perform_bind]
    refine sound_perform_bind trivial fun _ _ => ?_
    cases token.vaultCycleId with
    | none => exact sound_ret _
    | some cycleId =>
      dsimp only
      rw [Cycles.recordCycleBurn, tables_perform_bind]
      refine sound_perform_bind trivial fun cycle _ => ?_
      cases cycle with
      | none => exact sound_ret _
      | some cycle =>
        dsimp only
        rw [tables, Prog.expand_bind]
        refine Prog.issuesGiven_bind ?_ fun _ _ => sound_recordRedemptionBurn p cycle.id
        exact sound_perform_bind (c := .table _) trivial fun _ _ => sound_ret _

theorem sound_onChain (chainId : ℕ) (c : TokenSpelling.Cmd) :
    Sound s₀ batchId (onChain cfg chainId c) := by
  cases c with
  | completeRedemptionBurn p => exact Prog.issuesGiven_outcome (sound_completeRedemptionBurn p)
  | _ => exact sound_quiet (quiet_onChain trivial)

theorem sound_burnTokenOnChain (tokenId : Option ℕ) (chainId : ℕ) :
    Sound s₀ batchId (burnTokenOnChain cfg tokenId chainId) :=
  Prog.issuesGiven_bind (sound_ret _) fun _ _ => Prog.issuesGiven_expand (sound_onChain chainId) _

theorem sound_ensureBurnedForRedeem (redemptionId : JsStr) (tokenId : Option ℕ) (chainId : ℕ) :
    Sound s₀ batchId (ensureBurnedForRedeem cfg redemptionId tokenId chainId) := by
  refine Prog.issuesGiven_bind (sound_ret _) fun _ _ =>
    Prog.issuesGiven_expandFirst (fun c => ?_) (sound_onChain chainId) _
  have hother : Sound s₀ batchId (onChain cfg chainId c) := sound_onChain chainId c
  cases c with
  | findToken => exact Prog.issuesGiven_outcome (Prog.issuesGiven_call trivial)
  | _ => exact hother

theorem sound_discard {p : M α} (hp : Sound s₀ batchId p) : Sound s₀ batchId p.discard :=
  Prog.issuesGiven_settle hp fun r _ => by cases r <;> exact sound_ret _

theorem sound_ensureBatchTokensBurned (chainId : ℕ) (rows : List VaultRedemption) :
    Sound s₀ batchId (ensureBatchTokensBurned cfg chainId rows) := by
  induction rows with
  | nil => exact sound_ret _
  | cons r rows ih =>
    refine Prog.issuesGiven_bind ?_ fun _ _ => ih
    refine sound_perform_bind trivial fun found _ => ?_
    refine Prog.issuesGiven_bind (Prog.issues_orThrow _ _).given fun tokenIdStr _ => ?_
    refine Prog.issuesGiven_settle (sound_discard (sound_ensureBurnedForRedeem _ _ _)) fun r _ => ?_
    cases r <;> exact sound_ret _

theorem sound_findParcelsByBatchId {f : List Parcel → M α} (b : JsStr) (chainId : ℕ)
    (hf : ∀ parcels : List Parcel,
      (∀ p ∈ parcels, Genuine s₀ batchId p.1 ∧ p.1.paymentBatchId = some (trim b)) →
        Sound s₀ batchId (f parcels)) :
    Sound s₀ batchId (findParcelsByBatchId b chainId >>= f) := by
  unfold findParcelsByBatchId
  split_ifs
  · exact hf [] fun p hp => absurd hp List.not_mem_nil
  · exact sound_perform_bind trivial hf

theorem sound_markUserReceiptConfirmed (via : Via) {rows : List VaultRedemption}
    (hrows : ∀ r ∈ rows, Genuine s₀ batchId r ∧ (r.paymentBatchId = some batchId → via ≠ .auto)) :
    Sound s₀ batchId (markUserReceiptConfirmed via rows) := by
  unfold markUserReceiptConfirmed
  split_ifs
  · exact sound_ret _
  · refine sound_perform_bind (fun e he => ?_) fun _ _ => sound_ret _
    obtain ⟨r, hr, rfl⟩ := List.mem_map.mp he
    exact (hrows r hr).1.received via (hrows r hr).2

/-- The receipt of a batch confirms rows of that batch. -/
theorem sound_finalizeReceiptWithBurn (via : Via) {rows : List VaultRedemption} {b : JsStr}
    (chainId : ℕ) (hrows : ∀ r ∈ rows, r.paymentBatchId = some b) (htrim : trim b = b)
    (hvia : b = batchId → via ≠ .auto) :
    Sound s₀ batchId (finalizeReceiptWithBurn cfg via rows chainId) := by
  refine Prog.issuesGiven_bind (sound_ensureBatchTokensBurned chainId rows) fun _ _ => ?_
  cases rows with
  | nil => exact sound_ret _
  | cons r rows =>
    have hreload : reload (r :: rows) chainId = findRedemptionsByBatchId b chainId := by
      rw [reload, List.head?_cons, Option.bind_some, hrows r List.mem_cons_self]
    rw [hreload, findRedemptionsByBatchId, Prog.bind_bind]
    refine sound_findParcelsByBatchId b chainId fun parcels hparcels => ?_
    refine sound_markUserReceiptConfirmed via fun r' hr' => ?_
    obtain ⟨p, hp, rfl⟩ := List.mem_map.mp (mem_toConfirm hr')
    obtain ⟨hgenuine, hbatch⟩ := hparcels p hp
    refine ⟨hgenuine, fun hsame => hvia ?_⟩
    rw [hbatch, htrim] at hsame
    exact Option.some.inj hsame

theorem sound_confirmReceipt (b : JsStr) (chainId : ℕ) :
    Sound s₀ batchId (confirmReceipt cfg b chainId) := by
  rw [confirmReceipt, findRedemptionsByBatchId, Prog.bind_bind]
  refine sound_findParcelsByBatchId b chainId fun parcels hparcels => ?_
  rw [Prog.pure_bind_eq]
  refine Prog.issuesGiven_bind (Prog.issues_throwIf _ _).given fun _ _ => ?_
  refine sound_perform_bind trivial fun isRequester _ => ?_
  refine Prog.issuesGiven_bind (Prog.issues_throwIf _ _).given fun _ _ => ?_
  refine Prog.issuesGiven_bind (sound_ret _) fun _ _ => ?_
  refine sound_finalizeReceiptWithBurn .user chainId (fun r hr => ?_) (trim_trim b)
    fun _ h => by cases h
  obtain ⟨p, hp, rfl⟩ := List.mem_map.mp hr
  exact (hparcels p hp).2

theorem sound_autoConfirmBatch {b : JsStr} (hb : trim b ≠ batchId) (sample : List VaultRedemption) :
    Sound s₀ batchId (autoConfirmBatch cfg b sample) := by
  unfold autoConfirmBatch
  cases sample.head?.bind VaultRedemption.chainId with
  | none => exact sound_ret _
  | some chainId =>
    dsimp only
    refine sound_findParcelsByBatchId b chainId fun parcels hparcels => ?_
    refine sound_perform_bind trivial fun now _ => ?_
    cases batchReadyForAutoReceipt parcels cfg.graceMs now with
    | error reason => exact sound_ret _
    | ok ready =>
      refine Prog.issuesGiven_bind (Prog.issuesGiven_outcome ?_) fun _ _ => sound_ret _
      refine sound_finalizeReceiptWithBurn .auto chainId (fun r hr => ?_) (trim_trim b)
        fun h => absurd h hb
      obtain ⟨p, hp, rfl⟩ := List.mem_map.mp (mem_toConfirm hr)
      exact (hparcels p hp).2

theorem sound_autoConfirmBatches {batches : List (JsStr × List VaultRedemption)}
    (h : ∀ batch ∈ batches, trim batch.1 ≠ batchId) :
    Sound s₀ batchId (autoConfirmBatches cfg batches) := by
  induction batches with
  | nil => exact sound_ret _
  | cons batch batches ih =>
    refine Prog.issuesGiven_bind (sound_autoConfirmBatch (h batch List.mem_cons_self) _)
      fun _ _ => ?_
    exact Prog.issuesGiven_bind (ih fun b hb => h b (List.mem_cons_of_mem batch hb)) fun _ _ =>
      sound_ret _

theorem sound_autoConfirmDueBatches : Sound s₀ batchId (autoConfirmDueBatches cfg) := by
  refine sound_perform_bind trivial fun now _ => ?_
  refine sound_perform_bind trivial fun candidates hcandidates => ?_
  refine sound_autoConfirmBatches fun batch hbatch => hcandidates batch.1 ?_
  rw [OrderedMap.keys, ← List.map_take]
  exact List.mem_map_of_mem hbatch

def Unstamped (s₀ : Store) (batchId : JsStr) (byNumber : Groups) : Prop :=
  ∀ key, ∀ rows ∈ byNumber.get? key, ∀ r ∈ rows,
    Genuine s₀ batchId r ∧ ∀ d, ¬ WasDelivered s₀ r.id d

theorem sound_stampEach {f : ℕ × Groups → M α} (stamps : List (JsStr × ℕ)) {byNumber : Groups}
    (h : Unstamped s₀ batchId byNumber)
    (hf : ∀ a, Unstamped s₀ batchId a.2 → Sound s₀ batchId (f a)) :
    Sound s₀ batchId (stampEach stamps byNumber >>= f) := by
  induction stamps generalizing byNumber f with
  | nil => exact hf _ h
  | cons stamp stamps ih =>
    have hrest : ∀ first : ℕ × Groups, Unstamped s₀ batchId first.2 →
        Sound s₀ batchId ((stampEach stamps first.2 >>= fun others =>
          pure (first.1 + others.1, others.2)) >>= f) := by
      intro first hfirst
      rw [Prog.bind_bind]
      exact ih hfirst fun others hothers => hf _ hothers
    change Sound s₀ batchId ((stampCarrierDelivered stamp.1 stamp.2 byNumber >>= fun first =>
      stampEach stamps first.2 >>= fun others => pure (first.1 + others.1, others.2)) >>= f)
    rw [Prog.bind_bind]
    unfold stampCarrierDelivered
    cases hrows : byNumber.get? stamp.1 with
    | none => exact hrest _ h
    | some rows =>
      dsimp only
      split_ifs
      · exact hrest _ h
      · rw [Prog.bind_bind]
        refine sound_perform_bind (fun e he => ?_)
          fun _ _ => hrest _ fun key rows' hrows' r hr => ?_
        · obtain ⟨r, hr, rfl⟩ := List.mem_map.mp he
          obtain ⟨hgenuine, hnot⟩ := h stamp.1 rows hrows r hr
          exact hgenuine.stamped hnot stamp.2
        · by_cases hkey : key = stamp.1
          · rw [hkey, OrderedMap.get?_set_self] at hrows'
            rw [← Option.some.inj hrows'] at hr
            cases hr
          · rw [OrderedMap.get?_set_of_ne hkey] at hrows'
            exact h key rows' hrows' r hr

theorem sound_pollDeliveries : Sound s₀ batchId (pollDeliveries cfg) := by
  refine sound_perform_bind trivial fun rows hrows => ?_
  dsimp only
  split_ifs
  · exact sound_ret _
  · refine Prog.issuesGiven_bind (Prog.issuesGiven_outcome (Prog.issuesGiven_call trivial))
      fun results _ => ?_
    refine sound_stampEach _ (fun key group hgroup r hr => ?_) fun marked hmarked => ?_
    · exact hrows r (List.mem_of_mem_filter (mem_groupBy hgroup hr).1)
    · refine Prog.issuesGiven_bind ?_ fun _ _ => sound_ret _
      unfold stampSandboxOnes
      split_ifs
      · exact sound_perform_bind trivial fun now _ =>
          sound_stampEach _ hmarked fun _ _ => sound_ret _
      · exact sound_ret _

theorem sound_task (call : ReceiptCall) : Sound s₀ batchId (call.task cfg) := by
  cases call with
  | burnTokenOnChain tokenId chainId => exact sound_discard (sound_burnTokenOnChain tokenId chainId)
  | confirmReceipt b chainId => exact sound_discard (sound_confirmReceipt b chainId)
  | pollOnce =>
    refine Prog.issuesGiven_bind sound_pollDeliveries fun _ _ => ?_
    split_ifs
    · exact sound_discard sound_autoConfirmDueBatches
    · exact sound_ret _
  | recordOwner contract tokenId owner => exact Prog.issuesGiven_call trivial
  | recordBurn contract tokenId => exact Prog.issuesGiven_call trivial

end Programs

section Runs
variable {cfg : Config}

/-- Once as many batches as a pass looks at are completed and were delivered before a batch, the job
never confirms it: in every interleaving of passes, receipts, burns and recorded transfers, with
failures at any step. -/
theorem overtaken_never_auto_received (cfg : Config) {s₀ : Store} {columns : JsStr → Delivery}
    {batchId : JsStr} (hcolumns : ∀ id, s₀.deliveries id = [columns id])
    (htrimmed : ∀ r ∈ s₀.db.redemptions.rows, ∀ b ∈ r.paymentBatchId, trim b = b)
    (hovertaken : Overtaken s₀ batchId) (hstart : NotAuto s₀ batchId)
    {p : Pool Store Cmd Res HttpError Unit}
    (hp : Pool.Reach (handler cfg) (ReceiptCall.task cfg) anyStep ⟨s₀, []⟩ p) :
    NotAuto p.shared batchId := by
  have hkept : Kept s₀ batchId p.shared := Pool.keeps_of_issuesGiven
    (fun i s x c r u hs hc _ hu => kept_exec hovertaken hs hc (Option.some.inj hu)) sound_task
    (kept_start hcolumns htrimmed hstart) hp
  intro r hr hbatch
  obtain ⟨r₀, hr₀, hid, hbatch₀⟩ := (hkept.rows r hr).known hbatch
  obtain ⟨d, hd⟩ := hovertaken.late r₀ hr₀ hbatch₀
  obtain ⟨c, cs, hc⟩ := List.exists_cons_of_ne_nil (hkept.delivered r₀.id d hd).1
  have hnot := hkept.notAuto r₀ hr₀ hbatch₀ c (hc ▸ List.mem_cons_self)
  rw [← hid]
  simpa [Store.delivery, hc] using hnot

def receivedRow (n : ℕ) : VaultRedemption where
  id := ofNat n
  vaultCycleId := js "c"
  ownerWalletAddress := []
  requestedAt := 0
  status := .completed
  paymentBatchId := some (ofNat n)
  chainId := some 1
  trackingNumber := some (js "794600000000")

def deliveredRow : VaultRedemption :=
  { shippedRedemption with chainId := some 1, trackingNumber := some (js "794611111112") }

def sampleColumns (id : JsStr) : Delivery where
  carrierDeliveredAt := some (if id = js "r" then 1 else 0)

def crowdedRows : List VaultRedemption := (List.range 40).map receivedRow ++ [deliveredRow]

theorem nodup_crowdedRows : (crowdedRows.map VaultRedemption.id).Nodup := by decide +kernel

/-- Forty received batches, and one that was delivered after them. -/
def crowdedStore : Store where
  db := { shippedStore.db with redemptions := ⟨crowdedRows, nodup_crowdedRows⟩ }
  owner := shippedStore.owner
  deliveries id := [sampleColumns id]

def laterWorld : World
  | .now => 300000000
  | q => idleWorld q

theorem mem_crowdedRows {r : VaultRedemption} (hr : r ∈ crowdedRows) :
    r = deliveredRow ∨ ∃ n < 40, r = receivedRow n := by
  rcases List.mem_append.mp hr with hr | hr
  · obtain ⟨n, hn, rfl⟩ := List.mem_map.mp hr
    exact .inr ⟨n, List.mem_range.mp hn, rfl⟩
  · exact .inl (List.mem_singleton.mp hr)

theorem overtaken_crowdedStore : Overtaken crowdedStore (js "b") := by
  refine ⟨1, (List.range 40).map ofNat, by decide +kernel, by decide +kernel, fun b hb => ?_,
    fun r hr hbatch => ?_⟩
  · obtain ⟨n, hn, rfl⟩ := List.mem_map.mp hb
    refine ⟨receivedRow n, List.mem_append_left _ (List.mem_map_of_mem hn), rfl, rfl, rfl, rfl, 0,
      ?_, Nat.one_pos⟩
    have hid : ofNat n ≠ js "r" := fun h => absurd (isDigits_ofNat n) (by rw [h]; decide)
    exact congrArg some (if_neg hid)
  · rcases mem_crowdedRows hr with rfl | ⟨n, -, rfl⟩
    · exact ⟨1, rfl, le_rfl⟩
    · have hid : ofNat n = js "b" := Option.some.inj hbatch
      exact absurd (isDigits_ofNat n) (by rw [hid]; decide)

/-- A pass looks at the finished batches, and leaves the one that is ready. -/
theorem overtaken_never_auto_received_crowded : ∃ p,
    Pool.Reach (handler sampleConfig) (ReceiptCall.task sampleConfig) anyStep ⟨crowdedStore, []⟩ p ∧
      (p.tasks.map Prog.isSettled, shownStatuses p) =
        ([true], some .inCustody, some .redemptionRequested) ∧
      batchReadyForAutoReceipt [(deliveredRow, sampleColumns (js "r"))] sampleConfig.graceMs
        (laterWorld .now) = .ok () ∧
      NotAuto p.shared (js "b") := by
  obtain ⟨p, hp, hshown⟩ : ∃ p,
      Pool.Reach (handler sampleConfig) (ReceiptCall.task sampleConfig) anyStep
        ⟨crowdedStore, []⟩ p ∧ (p.tasks.map Prog.isSettled, shownStatuses p) =
        ([true], some .inCustody, some .redemptionRequested) :=
    Pool.exists_reach_of_runSchedule
      (.spawn .pollOnce :: List.replicate 83 (.run 0 { draws := fun _ => laterWorld }))
      (fun p => (p.tasks.map Prog.isSettled, shownStatuses p)) (by decide +kernel)
  refine ⟨p, hp, hshown, by decide +kernel, ?_⟩
  refine overtaken_never_auto_received sampleConfig (fun id => rfl) (fun r hr b hb => ?_)
    overtaken_crowdedStore (fun r _ _ => ?_) hp
  · rcases mem_crowdedRows hr with rfl | ⟨n, -, rfl⟩
    · rw [← Option.some.inj hb]
      decide
    · rw [← Option.some.inj hb]
      exact trim_of_isDigits (isDigits_ofNat n)
  · exact fun h => by cases h

end Runs

end Receipts
